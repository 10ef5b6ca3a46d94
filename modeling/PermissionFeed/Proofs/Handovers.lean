import Mathlib.Data.Fintype.EquivFin
import Mathlib.Logic.Relation
import PermissionFeed.Proofs.Exclusion

namespace PermissionFeed.LockTable

variable {asked : List (List PlayerId)} {players : List PlayerId} {table after : LockTable} {id other : ClaimId}
  {player : PlayerId} {claim : Claim} {lock : LockId}

def Rests (table : LockTable) (id : ClaimId) : Prop :=
  ∀ claim, table.claims[id]? = some claim →
    claim.wanted = [] ∨ ∃ lock, claim.waitingFor = some lock ∧ ¬table.holds id lock

def Settled (table : LockTable) : Prop :=
  ∀ id, table.Rests id

def WaitsOn (table : LockTable) (id holder : ClaimId) : Prop :=
  ∃ player, table.awaitedBy? id = some player ∧ player ∈ table.heldBy holder

/-! ## Settling -/

theorem take_rests (table : LockTable) (id : ClaimId) (held : List (PlayerId × LockId)) (waitingFor : Option LockId)
    (wanted : List PlayerId) :
    (table.take id held waitingFor wanted).1.wanted = [] ∨
      ∃ lock, (table.take id held waitingFor wanted).1.waitingFor = some lock ∧
        ¬(table.take id held waitingFor wanted).2.holds id lock := by
  fun_induction take table id held waitingFor wanted with
  | case1 => exact Or.inl rfl
  | case2 table held waitingFor player wanted lock queued looked first ih => exact ih
  | case3 table held waitingFor player wanted lock queued looked behind => exact Or.inr ⟨lock, rfl, behind⟩

theorem rests_poll_self (table : LockTable) (id : ClaimId) : (table.poll id).2.Rests id := by
  intro claim found
  cases before : table.claims[id]? with
  | none =>
      rw [poll_of_absent before, before] at found
      contradiction
  | some old =>
      rw [poll_of_found before, getElem?_note, if_pos rfl] at found
      obtain rfl := Option.some.inj found
      rw [poll_of_found before]
      exact table.take_rests id old.held old.waitingFor old.wanted

theorem Stands.holds_join (stands : table.Stands players id claim) {newcomer : ClaimId} {target : LockId}
    {wanted : PlayerId} (joined : table.Joined wanted newcomer target after)
    (place : (player, lock) ∈ claim.places) (behind : ¬table.holds id lock) : ¬after.holds id lock := by
  have registered := stands.registered player lock place
  have stood := (stands.join joined).registered player lock place
  rw [holds_iff registered] at behind
  rw [holds_iff stood, joined.line]
  obtain ⟨front, rest, occupied⟩ := List.exists_cons_of_ne_nil (List.ne_nil_of_mem (stands.listed player lock place))
  split
  · next same =>
      subst same
      rwa [occupied, List.cons_append, List.head?_cons, ← List.head?_cons (l := rest), ← occupied]
  · exact behind

theorem Consistent.rests_advance (consistent : table.Consistent asked) (rests : table.Rests other)
    (different : id ≠ other) : (table.advance id).Rests other := by
  intro claim found
  rw [getElem?_advance_of_ne different] at found
  rcases rests claim found with complete | ⟨lock, waits, behind⟩
  · exact Or.inl complete
  · cases next : claim.wanted with
    | nil => exact Or.inl rfl
    | cons player wanted =>
        obtain ⟨players, _, stands⟩ := consistent.stands other claim found
        have place : (player, lock) ∈ claim.places := by simp [Claim.places, next, waits]
        refine Or.inr ⟨lock, waits, ?_⟩
        unfold LockTable.advance
        split
        · exact behind
        · exact behind
        · next sought _ _ =>
            have joined := joined_grab consistent.toSound consistent.apart sought id
            have still := stands.holds_join joined place behind
            exact still
        · exact behind

theorem Consistent.rests_poll (consistent : table.Consistent asked) (rests : table.Rests other) (id : ClaimId) :
    (table.poll id).2.Rests other := by
  by_cases same : id = other
  · subst same
    exact table.rests_poll_self id
  · refine (poll_preserves (motive := fun later => later.Consistent asked ∧ later.Rests other)
      (fun later still => ⟨still.1.advance id, still.1.rests_advance still.2 same⟩)
      (fun later claim found still => ?_) ⟨consistent, rests⟩).2
    refine ⟨still.1.note found rfl fun _ stands => stands, fun owner standing => ?_⟩
    rw [getElem?_note, if_neg same] at standing
    exact still.2 owner standing

theorem Consistent.rests_pollAll (consistent : table.Consistent asked) {ids : List ClaimId}
    (rests : id ∈ ids ∨ table.Rests id) : (table.pollAll ids).2.Rests id := by
  induction ids generalizing table with
  | nil => exact rests.resolve_left (by simp)
  | cons first ids ih =>
      refine ih (consistent.poll first) ?_
      rcases rests with listed | rests
      · rcases List.mem_cons.mp listed with rfl | later
        · exact Or.inr (table.rests_poll_self id)
        · exact Or.inl later
      · exact Or.inr (consistent.rests_poll rests first)

theorem mem_waiting : id ∈ table.waiting ↔ ∃ claim, table.claims[id]? = some claim ∧ claim.wanted ≠ [] := by
  simp [waiting, Claim.isGranted, Std.ExtTreeMap.mem_toList_iff_getElem?_eq_some]

theorem Consistent.settled_pollAll (consistent : table.Consistent asked) :
    (table.pollAll table.waiting).2.Settled := by
  intro id
  apply consistent.rests_pollAll
  by_cases listed : id ∈ table.waiting
  · exact Or.inl listed
  · refine Or.inr fun claim found => Or.inl ?_
    exact Classical.byContradiction fun wants => listed (mem_waiting.mpr ⟨claim, found, wants⟩)

theorem Consistent.settled_settle (consistent : table.Consistent asked) : table.settle.2.Settled := by
  have polled : (table.pollAll table.waiting).2.Consistent asked :=
    pollAll_preserves (fun _ id consistent => consistent.poll id) consistent table.waiting
  refine (settleWithin_preserves (motive := fun later => later.Consistent asked ∧ later.Settled)
    (fun later id still => ⟨still.1.poll id, fun other => still.1.rests_poll (still.2 other) id⟩)
    ⟨polled, consistent.settled_pollAll⟩ table.outstanding).2

/-! ## Who waits for whom -/

theorem Stands.mem_held_iff (stands : table.Stands players id claim) {wanted : List PlayerId}
    (next : claim.wanted = player :: wanted) (sought : PlayerId) :
    sought ∈ claim.held.map Prod.fst ↔ sought ∈ players ∧ compare sought player = .lt := by
  have ascending : (claim.held.map Prod.fst ++ player :: wanted).Pairwise
      fun left right => compare left right = .lt := by
    rw [← next, stands.parts]
    exact Std.ExtTreeSet.ordered_toList
  obtain ⟨_, above, below⟩ := List.pairwise_append.mp ascending
  have among : sought ∈ players ↔ sought ∈ claim.held.map Prod.fst ++ player :: wanted := by
    rw [← next, stands.parts, mem_distinct]
  constructor
  · intro had
    exact ⟨among.mpr (List.mem_append_left _ had), below sought had player (by simp)⟩
  · rintro ⟨listed, less⟩
    rcases List.mem_append.mp (among.mp listed) with had | ahead
    · exact had
    · rcases List.mem_cons.mp ahead with rfl | later
      · simp at less
      · have greater := (List.pairwise_cons.mp above).1 sought later
        have swapped : compare sought player = (compare player sought).swap := Std.OrientedCmp.eq_swap
        rw [greater, less] at swapped
        contradiction

theorem Consistent.awaits (consistent : table.Consistent asked) (settled : table.Settled)
    (found : table.claims[id]? = some claim) (wants : claim.wanted ≠ []) :
    ∃ player wanted, claim.wanted = player :: wanted ∧ table.awaitedBy? id = some player ∧
      ∃ holder, holder ≠ id ∧ player ∈ table.heldBy holder := by
  obtain ⟨lock, waits, behind⟩ := (settled id claim found).resolve_left wants
  obtain ⟨player, wanted, next⟩ := List.exists_cons_of_ne_nil wants
  obtain ⟨players, _, stands⟩ := consistent.stands id claim found
  have place : (player, lock) ∈ claim.places := by simp [Claim.places, next, waits]
  have registered := stands.registered player lock place
  refine ⟨player, wanted, next, by simp [awaitedBy?, found, Claim.awaited?, waits, next], ?_⟩
  obtain ⟨holder, rest, first⟩ := List.exists_cons_of_ne_nil (List.ne_nil_of_mem (stands.listed player lock place))
  have ahead : (table.line player).head? = some holder := by rw [first]; rfl
  refine ⟨holder, ?_, ?_⟩
  · rintro rfl
    exact behind ((holds_iff registered).mpr ahead)
  · obtain ⟨owner, same, standing, placeToo⟩ := consistent.placed player holder (by simp [first])
    obtain ⟨those, _, stood⟩ := consistent.stands holder owner standing
    obtain rfl := Option.some.inj (registered.symm.trans (stood.registered player same placeToo))
    refine mem_heldBy.mpr ⟨owner, lock, standing, ?_⟩
    rcases List.mem_append.mp placeToo with had | queues
    · exact had
    -- whoever is first and still waits has not looked
    · obtain ⟨wantsToo, waitsToo⟩ := List.of_mem_zip queues
      rcases settled holder owner standing with complete | ⟨sought, waiting, missed⟩
      · simp [complete] at wantsToo
      · obtain rfl : lock = sought := by simpa [waiting] using waitsToo
        exact absurd ((holds_iff registered).mpr ahead) missed

def AwaitsAbove (table : LockTable) (first second : ClaimId) : Prop :=
  ∃ high low, table.awaitedBy? first = some high ∧ table.awaitedBy? second = some low ∧ compare low high = .lt

theorem wellFounded_awaitsAbove (table : LockTable) :
    WellFounded fun first second : Fin table.nextClaim => table.AwaitsAbove first second := by
  have irrefl : Std.Irrefl fun first second : Fin table.nextClaim => table.AwaitsAbove first second := by
    refine ⟨fun place ⟨high, low, first, second, less⟩ => ?_⟩
    obtain rfl : high = low := Option.some.inj (first.symm.trans second)
    simp at less
  have trans : IsTrans _ fun first second : Fin table.nextClaim => table.AwaitsAbove first second := by
    refine ⟨fun _ _ _ ⟨high, middle, first, second, less⟩ ⟨same, low, again, third, lesser⟩ => ?_⟩
    obtain rfl : middle = same := Option.some.inj (second.symm.trans again)
    exact ⟨high, low, first, third, Std.TransCmp.lt_trans lesser less⟩
  exact Finite.wellFounded_of_trans_of_irrefl _

theorem Consistent.exists_granted (consistent : table.Consistent asked) (settled : table.Settled)
    (present : id ∈ table.claims) (waiting : ¬table.isGranted id) :
    ∃ holder, Relation.TransGen table.WaitsOn id holder ∧ table.isGranted holder := by
  obtain ⟨place, rfl⟩ : ∃ place : Fin table.nextClaim, place.val = id := ⟨⟨id, consistent.claim_lt id present⟩, rfl⟩
  -- whoever has the player that a claim waits for waits for a higher one itself, if it waits
  induction place using table.wellFounded_awaitsAbove.induction with
  | _ place ih =>
      obtain ⟨claim, found⟩ := mem_iff_getElem?.mp present
      have wants : claim.wanted ≠ [] := fun complete => waiting (isGranted_iff.mpr ⟨claim, found, complete⟩)
      obtain ⟨player, _, _, awaits, holder, _, held⟩ := consistent.awaits settled found wants
      have waitsOn : table.WaitsOn place holder := ⟨player, awaits, held⟩
      by_cases granted : table.isGranted holder
      · exact ⟨holder, .single waitsOn, granted⟩
      · obtain ⟨owner, lock, standing, had⟩ := mem_heldBy.mp held
        have listed : holder ∈ table.claims := mem_iff_getElem?.mpr ⟨owner, standing⟩
        have wantsToo : owner.wanted ≠ [] := fun complete => granted (isGranted_iff.mpr ⟨owner, standing, complete⟩)
        obtain ⟨higher, _, next, awaitsToo, _⟩ := consistent.awaits settled standing wantsToo
        obtain ⟨players, _, stands⟩ := consistent.stands holder owner standing
        have less := ((stands.mem_held_iff next player).mp (List.mem_map_of_mem had)).2
        obtain ⟨last, waits, complete⟩ := ih ⟨holder, consistent.claim_lt holder listed⟩
          ⟨higher, player, awaitsToo, awaits, less⟩ listed granted
        exact ⟨last, .head waitsOn waits, complete⟩

/-! ## The end of all claims -/

theorem Consistent.isFree_of_absent (consistent : table.Consistent asked)
    (absent : ∀ id : ClaimId, table.claims[id]? = none) (player : PlayerId) : table.IsFree player := by
  intro lock registered live
  obtain ⟨queue, queued⟩ := mem_iff_getElem?.mp live
  obtain ⟨first, rest, occupied⟩ := List.exists_cons_of_ne_nil (consistent.occupied lock queue queued).1
  have listed : first ∈ table.line player := by simp [line_of_live registered queued, occupied]
  exact consistent.not_mem_line (absent first) player listed

theorem absent_play_of_quiet (absent : table.claims[id]? = none) {moves : List LockMove}
    (quiet : LockTable.asked moves = []) : (table.play moves).claims[id]? = none := by
  induction moves generalizing table with
  | nil => exact absent
  | cons move moves ih =>
      have silent := List.filterMap_eq_nil_iff.mp quiet
      exact ih (absent_move absent move (Or.inl (silent move (by simp))))
        (List.filterMap_eq_nil_iff.mpr fun other listed => silent other (by simp [listed]))

theorem absent_play_of_release {moves : List LockMove} (quiet : LockTable.asked moves = [])
    (released : .release id ∈ moves) : (table.play moves).claims[id]? = none := by
  obtain ⟨before, after, rfl⟩ := List.append_of_mem released
  have left : ((table.play before).release id).claims[id]? = none := by rw [getElem?_release, if_pos rfl]
  rw [play_append]
  refine absent_play_of_quiet left (List.filterMap_eq_nil_iff.mpr fun move listed => ?_)
  exact List.filterMap_eq_nil_iff.mp quiet move (by simp [listed])

/-! ## Claims that stay -/

theorem isSome_advance (present : (table.claims[id]?).isSome) (other : ClaimId) :
    ((table.advance other).claims[id]?).isSome := by
  by_cases same : other = id
  · subst same
    unfold advance
    split
    · next absent => simp [absent] at present
    all_goals rw [getElem?_note, if_pos rfl]; rfl
  · rwa [getElem?_advance_of_ne same]

theorem isSome_poll (present : (table.claims[id]?).isSome) (other : ClaimId) :
    ((table.poll other).2.claims[id]?).isSome := by
  refine poll_preserves (motive := fun later => (later.claims[id]?).isSome)
    (fun later present => isSome_advance present other) (fun later claim found present => ?_) present
  rw [getElem?_note]
  split
  · rfl
  · exact present

theorem isSome_register (present : (table.claims[id]?).isSome) (players : List PlayerId) :
    ((table.register players).claims[id]?).isSome := by
  rw [getElem?_register]
  split
  · rfl
  · exact present

theorem isSome_move (present : (table.claims[id]?).isSome) {move : LockMove} (kept : move ≠ .release id) :
    ((table.move move).claims[id]?).isSome := by
  cases move with
  | request players => exact isSome_poll (isSome_register present players) table.nextClaim
  | enter players => exact isSome_register present players
  | poll other => exact isSome_poll present other
  | release other =>
      have different : other ≠ id := fun same => kept (same ▸ rfl)
      rwa [move, getElem?_release, if_neg different]
  | settle =>
      exact settleWithin_preserves (motive := fun later => (later.claims[id]?).isSome)
        (fun later other present => isSome_poll present other) present _
  | advance other => exact isSome_advance present other

theorem isSome_made {move : LockMove} (makes : move.asked? = some players) :
    ((table.move move).claims[table.nextClaim]?).isSome := by
  have entered : ((table.register players).claims[table.nextClaim]?).isSome := by
    rw [getElem?_register, if_pos rfl]
    rfl
  cases move with
  | request =>
      obtain rfl := Option.some.inj makes
      exact isSome_poll entered table.nextClaim
  | enter =>
      obtain rfl := Option.some.inj makes
      exact entered
  | poll | release | settle | advance => contradiction

theorem Consistent.isSome_play (consistent : table.Consistent asked) {moves : List LockMove}
    (present : id < asked.length → (table.claims[id]?).isSome)
    (made : id < (asked ++ LockTable.asked moves).length) (kept : .release id ∉ moves) :
    ((table.play moves).claims[id]?).isSome := by
  induction moves generalizing table asked with
  | nil => exact present (by simpa [LockTable.asked] using made)
  | cons move moves ih =>
      rw [List.mem_cons, not_or] at kept
      refine ih (consistent.move move) (fun before => ?_) ?_ kept.2
      · by_cases old : id < asked.length
        · exact isSome_move (present old) (Ne.symm kept.1)
        · cases makes : move.asked? with
          | none => simp [LockTable.asked, makes, old] at before
          | some players =>
              have new : id = table.nextClaim := by
                rw [← consistent.numbered]
                have last : id < asked.length + 1 := by simpa [LockTable.asked, makes] using before
                exact Nat.le_antisymm (Nat.le_of_lt_succ last) (Nat.le_of_not_lt old)
              exact new ▸ isSome_made makes
      · rwa [List.append_assoc, ← asked_append]

theorem settled_claims_ascend (moves : List LockMove) :
    let table := (empty.play moves).settle.2
    (∀ id < (LockTable.asked moves).length, .release id ∉ moves → id ∈ table.claims) ∧
      (∀ (id : ClaimId) players, (LockTable.asked moves)[id]? = some players → id ∈ table.claims →
        ¬table.isGranted id → ∃ player ∈ players, table.awaitedBy? id = some player ∧
          (∀ other, other ∈ table.heldBy id ↔ other ∈ players ∧ compare other player = .lt) ∧
          ∃ holder, holder ≠ id ∧ player ∈ table.heldBy holder) ∧
      (∀ id ∈ table.claims, ¬table.isGranted id → ∃ (holder : ClaimId) (players : List PlayerId),
        Relation.TransGen table.WaitsOn id holder ∧ (LockTable.asked moves)[holder]? = some players ∧
          table.isGranted holder ∧ ∀ player, player ∈ table.heldBy holder ↔ player ∈ players) ∧
      (∀ ending, LockTable.asked ending = [] → (∀ id ∈ table.claims, .release id ∈ ending) →
        ∀ player, (table.play ending).IsFree player ∧ ∀ id, player ∉ (table.play ending).heldBy id) := by
  intro table
  have played : (empty.play moves).Consistent (LockTable.asked moves) := consistent_empty.play moves
  have consistent : table.Consistent (LockTable.asked moves) := played.settle
  have settled : table.Settled := played.settled_settle
  refine ⟨fun id made kept => ?_, fun id players given present waiting => ?_, fun id present waiting => ?_,
    fun ending quiet all player => ?_⟩
  · have unasked : id < ([] : List (List PlayerId)).length → (empty.claims[id]?).isSome :=
      fun lt => absurd lt (Nat.not_lt_zero id)
    have present : ((empty.play moves).claims[id]?).isSome := consistent_empty.isSome_play unasked made kept
    have still : (((empty.play moves).move .settle).claims[id]?).isSome := isSome_move present LockMove.noConfusion
    exact Std.ExtTreeMap.mem_iff_isSome_getElem?.mpr still
  · obtain ⟨claim, found⟩ := mem_iff_getElem?.mp present
    have wants : claim.wanted ≠ [] := fun complete => waiting (isGranted_iff.mpr ⟨claim, found, complete⟩)
    obtain ⟨player, wanted, next, awaits, holder, other, held⟩ := consistent.awaits settled found wants
    obtain ⟨those, givenToo, stands⟩ := consistent.stands id claim found
    obtain rfl := Option.some.inj (given.symm.trans givenToo)
    have sought : player ∈ players := mem_distinct.mp (stands.parts ▸ by simp [next])
    have has : table.heldBy id = claim.held.map Prod.fst := by rw [heldBy, found]; rfl
    exact ⟨player, sought, awaits, fun other => has ▸ stands.mem_held_iff next other, holder, other, held⟩
  · obtain ⟨holder, waits, granted⟩ := consistent.exists_granted settled present waiting
    obtain ⟨claim, found, _⟩ := isGranted_iff.mp granted
    obtain ⟨players, given, _⟩ := consistent.stands holder claim found
    refine ⟨holder, players, waits, given, granted, fun player => ?_⟩
    rw [consistent.heldBy_of_granted given granted]
    exact mem_distinct
  · have absent (id : ClaimId) : (table.play ending).claims[id]? = none := by
      by_cases present : id ∈ table.claims
      · exact absent_play_of_release quiet (all id present)
      · exact absent_play_of_quiet (Std.ExtTreeMap.getElem?_eq_none present) quiet
    exact ⟨(consistent.play ending).isFree_of_absent absent player, fun id => by simp [heldBy, absent id]⟩

theorem settled_claims_ascend_chained :
    let moves : List LockMove := [.request [.numbered 3, .numbered 2], .request [.numbered 3, .numbered 1],
      .request [.numbered 1]]
    let table := (empty.play moves).settle.2
    (2 ∈ table.claims ∧ ¬table.isGranted 1 ∧ ¬table.isGranted 2) ∧
      (∃ player ∈ [PlayerId.numbered 3, .numbered 1], table.awaitedBy? 1 = some player ∧
        (∀ other, other ∈ table.heldBy 1 ↔
          other ∈ [PlayerId.numbered 3, .numbered 1] ∧ compare other player = .lt) ∧
        ∃ holder, holder ≠ 1 ∧ player ∈ table.heldBy holder) ∧
      (∃ (holder : ClaimId) (players : List PlayerId), Relation.TransGen table.WaitsOn 2 holder ∧
        (LockTable.asked moves)[holder]? = some players ∧ table.isGranted holder ∧
          ∀ player, player ∈ table.heldBy holder ↔ player ∈ players) ∧
      ∀ player, (table.play [.release 1, .release 0, .release 2]).IsFree player := by
  intro moves table
  obtain ⟨stays, waits, granted, freed⟩ := settled_claims_ascend moves
  have second : 1 ∈ table.claims := stays 1 (by decide) (by simp [moves])
  have third : 2 ∈ table.claims := stays 2 (by decide) (by simp [moves])
  have secondWaits : ¬table.isGranted 1 := by decide +kernel
  have thirdWaits : ¬table.isGranted 2 := by decide +kernel
  refine ⟨⟨third, secondWaits, thirdWaits⟩, waits 1 _ rfl second secondWaits, granted 2 third thirdWaits,
    fun player => (freed [.release 1, .release 0, .release 2] rfl (fun id live => ?_) player).1⟩
  have consistent : table.Consistent (LockTable.asked moves) := (consistent_empty.play moves).settle
  have made : id < 3 := Nat.lt_of_lt_of_eq (consistent.claim_lt id live) consistent.numbered.symm
  match id, made with
  | 0, _ | 1, _ | 2, _ => simp

end PermissionFeed.LockTable
