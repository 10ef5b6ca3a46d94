import Mathlib.Logic.ExistsUnique
import PermissionFeed.Proofs.Claims

namespace PermissionFeed.LockTable

variable {asked : List (List PlayerId)} {players : List PlayerId} {table after : LockTable} {id other : ClaimId}
  {player : PlayerId} {claim : Claim} {lock : LockId}

theorem mem_heldBy : player ∈ table.heldBy id ↔
    ∃ claim lock, table.claims[id]? = some claim ∧ (player, lock) ∈ claim.held := by
  rw [heldBy]
  cases table.claims[id]? with
  | none => simp
  | some claim => simp

theorem isGranted_iff : table.isGranted id ↔ ∃ claim, table.claims[id]? = some claim ∧ claim.wanted = [] := by
  rw [isGranted]
  cases table.claims[id]? with
  | none => simp
  | some claim => simp [Claim.isGranted]

theorem Consistent.first_of_held (consistent : table.Consistent asked) (held : player ∈ table.heldBy id) :
    (table.line player).head? = some id := by
  obtain ⟨claim, lock, found, had⟩ := mem_heldBy.mp held
  obtain ⟨players, _, stands⟩ := consistent.stands id claim found
  exact stands.first player lock had

theorem Consistent.heldBy_of_granted (consistent : table.Consistent asked) (given : asked[id]? = some players)
    (granted : table.isGranted id) : table.heldBy id = LockTable.distinct players := by
  obtain ⟨claim, found, complete⟩ := isGranted_iff.mp granted
  obtain ⟨those, givenToo, stands⟩ := consistent.stands id claim found
  obtain rfl := Option.some.inj (given.symm.trans givenToo)
  rw [← stands.parts, complete, List.append_nil, heldBy, found]
  rfl

theorem Consistent.existsUnique_player (consistent : table.Consistent asked) (live : lock ∈ table.queues) :
    ∃! player : PlayerId, table.registry[player]? = some lock := by
  obtain ⟨queue, queued⟩ := mem_iff_getElem?.mp live
  obtain ⟨_, player, registered⟩ := consistent.occupied lock queue queued
  exact ⟨player, registered, fun other also => consistent.apart player other lock live registered also⟩

theorem Consistent.registry_lockOf (consistent : table.Consistent asked) (found : table.claims[id]? = some claim)
    (place : (player, lock) ∈ claim.places) (other : PlayerId) :
    (table.lockOf other).2.registry[player]? = some lock := by
  obtain ⟨players, _, stands⟩ := consistent.stands id claim found
  have joined := joined_grab consistent.toSound consistent.apart other id
  exact joined.registry_of_live (stands.live place) (stands.registered player lock place)

theorem getElem?_advance_of_ne (different : id ≠ other) :
    (table.advance id).claims[other]? = table.claims[other]? := by
  unfold advance
  split
  · rfl
  · rw [getElem?_note, if_neg different]
  · next held player wanted found =>
      rw [getElem?_note, if_neg different, grab, enqueue, lockOf]
      split <;> rfl
  · rw [getElem?_note, if_neg different]

theorem getElem?_poll_of_ne (different : id ≠ other) :
    (table.poll id).2.claims[other]? = table.claims[other]? :=
  poll_preserves (motive := fun later => later.claims[other]? = table.claims[other]?)
    (fun _ same => (getElem?_advance_of_ne different).trans same)
    (fun later claim found same => by rw [getElem?_note, if_neg different, same]) rfl

theorem absent_poll (absent : table.claims[other]? = none) (id : ClaimId) :
    (table.poll id).2.claims[other]? = none := by
  by_cases same : id = other
  · subst same
    rw [poll_of_absent absent, absent]
  · rw [getElem?_poll_of_ne same, absent]

theorem absent_register (absent : table.claims[id]? = none) (old : id < table.nextClaim) (players : List PlayerId) :
    (table.register players).claims[id]? = none := by
  rw [getElem?_register, if_neg (Nat.ne_of_gt old), absent]

theorem claims_foldl_leave (table : LockTable) (id : ClaimId) (locks : List LockId) :
    (locks.foldl (fun table lock => table.leave id lock) table).claims = table.claims := by
  induction locks generalizing table with
  | nil => rfl
  | cons lock locks ih =>
      obtain ⟨queues, handedOver, left, _⟩ := table.leave_eq id lock
      rw [List.foldl_cons, ih, left]

theorem getElem?_release (table : LockTable) (id other : ClaimId) :
    (table.release id).claims[other]? = if id = other then none else table.claims[other]? := by
  rw [release]
  split
  · next absent =>
      split
      · next same => rw [← same, absent]
      · rfl
  · rw [claims_foldl_leave, Std.ExtTreeMap.getElem?_erase]
    simp

theorem absent_move (absent : table.claims[id]? = none) (move : LockMove)
    (old : move.asked? = none ∨ id < table.nextClaim) : (table.move move).claims[id]? = none := by
  cases move with
  | request players =>
      obtain fresh | old := old
      · contradiction
      · exact absent_poll (absent_register absent old players) _
  | enter players =>
      obtain fresh | old := old
      · contradiction
      · exact absent_register absent old players
  | poll other => exact absent_poll absent other
  | release other =>
      rw [move, getElem?_release]
      simp [absent]
  | settle =>
      exact settleWithin_preserves (motive := fun later => later.claims[id]? = none)
        (fun _ other absent => absent_poll absent other) absent _
  | advance other =>
      by_cases same : other = id
      · subst same
        rw [move, advance, absent]
        exact absent
      · exact (getElem?_advance_of_ne same).trans absent

theorem Consistent.absent_play (consistent : table.Consistent asked) (absent : table.claims[id]? = none)
    (old : id < asked.length) (moves : List LockMove) : (table.play moves).claims[id]? = none := by
  induction moves generalizing table asked with
  | nil => exact absent
  | cons move moves ih =>
      have later := absent_move absent move (Or.inr (consistent.numbered ▸ old))
      have longer : id < (asked ++ LockTable.asked [move]).length := by
        rw [List.length_append]
        exact Nat.lt_add_right _ old
      exact ih (consistent.move move) later longer

theorem Consistent.not_mem_line (consistent : table.Consistent asked) (absent : table.claims[id]? = none)
    (player : PlayerId) : id ∉ table.line player := by
  intro listed
  obtain ⟨claim, _, found, _⟩ := consistent.placed player id listed
  rw [absent] at found
  contradiction

theorem play_append (table : LockTable) (first second : List LockMove) :
    table.play (first ++ second) = (table.play first).play second :=
  List.foldl_append

theorem claims_exclude (moves : List LockMove) :
    let table := empty.play moves
    (∀ player first second, player ∈ table.heldBy first → player ∈ table.heldBy second → first = second) ∧
      (∀ id players, (LockTable.asked moves)[id]? = some players → table.isGranted id →
        (table.heldBy id).Nodup ∧ ∀ player, player ∈ table.heldBy id ↔ player ∈ players) ∧
      (∀ before after id, moves = before ++ .release id :: after → id < (LockTable.asked before).length →
        table.heldBy id = [] ∧ ∀ player, id ∉ table.line player) ∧
      (∀ lock ∈ table.queues, ∃! player : PlayerId, table.registry[player]? = some lock) ∧
      (∀ (id : ClaimId) claim player lock, table.claims[id]? = some claim → (player, lock) ∈ claim.places →
        lock ∈ table.queues ∧ table.registry[player]? = some lock ∧
          ∀ other, (table.lockOf other).2.registry[player]? = some lock) := by
  intro table
  have consistent : table.Consistent (LockTable.asked moves) := consistent_empty.play moves
  refine ⟨fun player first second held heldToo => ?_, fun id players given granted => ?_,
    fun before after id parts old => ?_, fun lock live => consistent.existsUnique_player live,
    fun id claim player lock found place => ?_⟩
  · have front := consistent.first_of_held held
    exact Option.some.inj (front.symm.trans (consistent.first_of_held heldToo))
  · rw [consistent.heldBy_of_granted given granted]
    exact ⟨nodup_distinct players, fun player => mem_distinct⟩
  · have earlier : (empty.play before).Consistent (LockTable.asked before) := consistent_empty.play before
    have released : ((empty.play before).release id).claims[id]? = none := by rw [getElem?_release, if_pos rfl]
    have absent : table.claims[id]? = none := by
      have later := (earlier.release id).absent_play released old after
      rwa [show table = ((empty.play before).release id).play after from ?_]
      rw [show table = empty.play (before ++ .release id :: after) from parts ▸ rfl, play_append]
      rfl
    exact ⟨by rw [heldBy, absent]; rfl, consistent.not_mem_line absent⟩
  · obtain ⟨players, _, stands⟩ := consistent.stands id claim found
    exact ⟨stands.live place, stands.registered player lock place, consistent.registry_lockOf found place⟩

theorem claims_exclude_disputed :
    let moves : List LockMove := [.request [.numbered 2, .numbered 1, .numbered 2], .request [.numbered 2], .release 0,
      .settle]
    let table := empty.play moves
    (.numbered 2 ∈ table.heldBy 1 ∧ ∀ other, .numbered 2 ∈ table.heldBy other → other = 1) ∧
      (table.isGranted 1 ∧ ∀ player, player ∈ table.heldBy 1 ↔ player ∈ [PlayerId.numbered 2]) ∧
      (table.heldBy 0 = [] ∧ ∀ player, 0 ∉ table.line player) ∧
      (1 ∈ table.queues ∧ ∃! player : PlayerId, table.registry[player]? = some 1) := by
  intro moves table
  obtain ⟨alone, complete, ended, unique, _⟩ := claims_exclude moves
  have held : .numbered 2 ∈ table.heldBy 1 := by decide +kernel
  have granted : table.isGranted 1 := by decide +kernel
  have live : 1 ∈ table.queues := by decide +kernel
  exact ⟨⟨held, fun other also => alone (.numbered 2) other 1 also held⟩, ⟨granted, (complete 1 _ rfl granted).2⟩,
    ended (moves.take 2) [.settle] 0 rfl (by decide), live, unique 1 live⟩

end PermissionFeed.LockTable
