import PermissionFeed.Proofs.Handovers

namespace PermissionFeed

namespace Claim

def engaged (claim : Claim) : List PlayerId :=
  claim.held.map Prod.fst ++ claim.awaited?.toList

def unreached (claim : Claim) : List PlayerId :=
  claim.wanted.drop claim.waitingFor.toList.length

theorem mem_engaged {claim : Claim} {player : PlayerId} :
    player ∈ claim.engaged ↔ ∃ lock, (player, lock) ∈ claim.places := by
  rcases claim with ⟨held, _ | ⟨first, wanted⟩, _ | lock⟩ <;>
    simp [engaged, places, awaited?, exists_or, eq_comm]

theorem engaged_append_unreached (claim : Claim) :
    claim.engaged ++ claim.unreached = claim.held.map Prod.fst ++ claim.wanted := by
  rcases claim with ⟨held, _ | ⟨first, wanted⟩, _ | lock⟩ <;> simp [engaged, unreached, awaited?]

end Claim

namespace LockTable

def engaged (table : LockTable) : PlayerSet :=
  Std.ExtTreeSet.ofList (table.claims.toList.flatMap fun (_, claim) => claim.engaged)

variable {asked : List (List PlayerId)} {table : LockTable} {id : ClaimId} {player other : PlayerId} {claim : Claim}

theorem mem_engaged_iff :
    player ∈ table.engaged ↔
      ∃ (id : ClaimId) (claim : Claim), table.claims[id]? = some claim ∧ player ∈ claim.engaged := by
  simp [engaged, Std.ExtTreeSet.mem_ofList]

theorem mem_engaged_of_found (found : table.claims[id]? = some claim) :
    player ∈ claim.engaged ↔ player ∈ table.heldBy id ∨ table.awaitedBy? id = some player := by
  simp [heldBy, awaitedBy?, found, Claim.engaged, eq_comm]

theorem mem_engaged : player ∈ table.engaged ↔ ∃ id, player ∈ table.heldBy id ∨ table.awaitedBy? id = some player := by
  rw [mem_engaged_iff]
  refine exists_congr fun id => ?_
  cases found : table.claims[id]? with
  | none => simp [heldBy, awaitedBy?, found]
  | some claim => simp [mem_engaged_of_found found]

theorem Consistent.mem_engaged (consistent : table.Consistent asked) :
    player ∈ table.engaged ↔ table.line player ≠ [] := by
  rw [mem_engaged_iff]
  constructor
  · rintro ⟨id, claim, found, engaged⟩
    obtain ⟨lock, place⟩ := Claim.mem_engaged.mp engaged
    obtain ⟨players, _, stands⟩ := consistent.stands id claim found
    exact List.ne_nil_of_mem (stands.listed player lock place)
  · intro queued
    obtain ⟨id, listed⟩ := List.exists_mem_of_ne_nil _ queued
    obtain ⟨claim, lock, found, place⟩ := consistent.placed player id listed
    exact ⟨id, claim, found, Claim.mem_engaged.mpr ⟨lock, place⟩⟩

def trackedPlayers (table : LockTable) : List PlayerId :=
  (table.registry.filter fun _ lock => table.queues.contains lock).keys

theorem mem_trackedPlayers : player ∈ table.trackedPlayers ↔ ¬table.IsFree player := by
  rw [trackedPlayers, Std.ExtTreeMap.mem_keys, Std.ExtTreeMap.mem_iff_isSome_getElem?, Std.ExtTreeMap.getElem?_filter,
    Option.pfilter_eq_filter]
  simp only [IsFree, not_forall, not_not, Option.isSome_iff_exists, Option.filter_eq_some_iff, exists_prop,
    Std.ExtTreeMap.mem_iff_contains]

theorem nodup_trackedPlayers (table : LockTable) : table.trackedPlayers.Nodup :=
  Std.ExtTreeMap.nodup_keys

theorem length_trackedPlayers (table : LockTable) : table.trackedPlayers.length = table.tracked :=
  Std.ExtTreeMap.length_keys

theorem tracked_eq_length {players : List PlayerId} (distinct : players.Nodup)
    (exact : ∀ player, player ∈ players ↔ ¬table.IsFree player) : table.tracked = players.length := by
  rw [← length_trackedPlayers]
  refine ((List.perm_ext_iff_of_nodup table.nodup_trackedPlayers distinct).mpr fun player => ?_).length_eq
  rw [mem_trackedPlayers, exact]

theorem isFree_iff (occupied : ∀ (lock : LockId) (queue : List ClaimId), table.queues[lock]? = some queue → queue ≠ []) :
    table.IsFree player ↔ table.line player = [] := by
  refine ⟨line_of_isFree, fun empty => ?_⟩
  rcases table.isFree_or_live player with free | ⟨lock, queue, registered, queued⟩
  · exact free
  · rw [line_of_live registered queued] at empty
    exact absurd empty (occupied lock queue queued)

theorem Consistent.isFree_iff (consistent : table.Consistent asked) : table.IsFree player ↔ table.line player = [] :=
  LockTable.isFree_iff fun lock queue queued => (consistent.occupied lock queue queued).1

theorem Consistent.not_isFree_iff (consistent : table.Consistent asked) :
    ¬table.IsFree player ↔ player ∈ table.engaged := by
  rw [consistent.isFree_iff, consistent.mem_engaged]

theorem Consistent.tracked_eq (consistent : table.Consistent asked) : table.tracked = table.engaged.size := by
  rw [← Std.ExtTreeSet.length_toList]
  refine tracked_eq_length (PlayerSet.nodup_toList _) fun player => ?_
  rw [Std.ExtTreeSet.mem_toList, consistent.not_isFree_iff]

theorem Consistent.tracked_of_ended (consistent : table.Consistent asked)
    (ended : ∀ id < asked.length, table.claims[id]? = none) : table.tracked = 0 := by
  have absent (id : ClaimId) : table.claims[id]? = none := by
    cases found : table.claims[id]? with
    | none => rfl
    | some claim => exact found.symm.trans (ended id (consistent.lt_numbered found))
  refine tracked_eq_length List.nodup_nil fun player => iff_of_false List.not_mem_nil ?_
  exact not_not.mpr (consistent.isFree_of_absent absent player)

theorem absent_of_released {before later : List LockMove} (old : id < (LockTable.asked before).length) :
    (empty.play (before ++ .release id :: later)).claims[id]? = none := by
  have earlier : (empty.play before).Consistent (LockTable.asked before) := consistent_empty.play before
  have released : ((empty.play before).release id).claims[id]? = none := by rw [getElem?_release, if_pos rfl]
  rw [play_append]
  exact (earlier.release id).absent_play released old later

theorem Stands.not_engaged_of_unreached {players : List PlayerId} (stands : table.Stands players id claim)
    (unreached : player ∈ claim.unreached) : player ∉ claim.engaged := by
  have once : (claim.engaged ++ claim.unreached).Nodup := by
    rw [claim.engaged_append_unreached, stands.parts]
    exact nodup_distinct players
  exact fun engaged => (List.nodup_append.mp once).2.2 player engaged player unreached rfl

theorem isFree_lockOf (sound : table.Sound) (player : PlayerId) :
    (table.lockOf player).2.IsFree other ↔ table.IsFree other := by
  rcases table.isFree_or_live player with free | ⟨lock, queue, registered, queued⟩
  · have unused : table.nextLock ∉ table.queues := fun live => Nat.lt_irrefl _ (sound.lock_lt _ live)
    rw [lockOf_of_isFree free]
    by_cases same : player = other
    · subst same
      refine iff_of_true (fun lock found => ?_) free
      obtain rfl := Option.some.inj (Std.ExtTreeMap.getElem?_insert_self.symm.trans found)
      exact unused
    · have kept : ((table.registry.filter fun _ lock => table.queues.contains lock).insert player
          table.nextLock)[other]? = table.registry[other]?.filter (table.queues.contains ·) := by
        simp [Std.ExtTreeMap.getElem?_insert, same, Std.ExtTreeMap.getElem?_filter]
      refine forall_congr' fun lock => ?_
      simp only [kept, Option.filter_eq_some_iff, ← Std.ExtTreeMap.mem_iff_contains]
      exact ⟨fun free registered live => free ⟨registered, live⟩ live, fun free found => free found.1⟩
  · have live : lock ∈ table.queues := mem_iff_getElem?.mpr ⟨queue, queued⟩
    have kept : table.registry[player]?.filter (table.queues.contains ·) = some lock := by
      simp [registered, Option.filter, live]
    simp only [lockOf, kept]

theorem tracked_lockOf (sound : table.Sound) (player : PlayerId) : (table.lockOf player).2.tracked = table.tracked := by
  rw [← table.length_trackedPlayers]
  exact tracked_eq_length table.nodup_trackedPlayers fun other => by rw [mem_trackedPlayers, isFree_lockOf sound player]

theorem Consistent.isFree_grab (consistent : table.Consistent asked) (player : PlayerId) (id : ClaimId) :
    (table.grab id player).IsFree other ↔ other ≠ player ∧ table.IsFree other := by
  have joined := joined_grab consistent.toSound consistent.apart player id
  rw [LockTable.isFree_iff fun lock queue queued => (joined.occupied consistent lock queue queued).1, joined.line,
    consistent.isFree_iff]
  split
  · next same => simp [same]
  · next different => simp [different]

theorem Consistent.tracked_grab (consistent : table.Consistent asked) (player : PlayerId) (id : ClaimId) :
    (table.grab id player).tracked = table.tracked + if player ∈ table.engaged then 0 else 1 := by
  rw [← table.length_trackedPlayers]
  split
  · next engaged =>
      refine tracked_eq_length table.nodup_trackedPlayers fun other => ?_
      have live : ¬table.IsFree player := consistent.not_isFree_iff.mpr engaged
      rw [mem_trackedPlayers, consistent.isFree_grab, not_iff_not]
      refine (and_iff_right_of_imp fun free => ?_).symm
      rintro rfl
      exact live free
  · next idle =>
      have free : table.IsFree player := not_not.mp fun live => idle (consistent.not_isFree_iff.mp live)
      have new : player ∉ table.trackedPlayers := fun listed => mem_trackedPlayers.mp listed free
      refine tracked_eq_length (List.nodup_cons.mpr ⟨new, table.nodup_trackedPlayers⟩) fun other => ?_
      rw [List.mem_cons, mem_trackedPlayers, consistent.isFree_grab, not_and_or, not_not]

/-- The live entries of the registry are those of the players that some claim has or waits for, so none are left when all
claims have ended. A player that a claim has not come to counts only for others. A look-up changes nothing for other
players, and a claim that queues for a player adds that player only if nobody else has it or waits for it. -/
theorem tracked_exact (moves : List LockMove) :
    let table := empty.play moves
    (table.tracked = table.engaged.size ∧ ∀ player, ¬table.IsFree player ↔ player ∈ table.engaged) ∧
      (∀ (id : ClaimId) (claim : Claim) player, table.claims[id]? = some claim → player ∈ claim.unreached →
        (player ∈ table.engaged ↔
          ∃ other ≠ id, player ∈ table.heldBy other ∨ table.awaitedBy? other = some player)) ∧
      ((∀ id < (LockTable.asked moves).length, ∃ before later,
        moves = before ++ .release id :: later ∧ id < (LockTable.asked before).length) → table.tracked = 0) ∧
      ∀ player,
        ((table.lockOf player).2.tracked = table.tracked ∧
          ∀ other, (table.lockOf player).2.IsFree other ↔ table.IsFree other) ∧
        ∀ id, (table.grab id player).tracked = table.tracked + (if player ∈ table.engaged then 0 else 1) ∧
          ∀ other ≠ player, (table.grab id player).IsFree other ↔ table.IsFree other := by
  intro table
  have consistent : table.Consistent (LockTable.asked moves) := consistent_empty.play moves
  refine ⟨⟨consistent.tracked_eq, fun player => consistent.not_isFree_iff⟩, fun id claim player found unreached => ?_,
    fun ended => consistent.tracked_of_ended fun id issued => ?_, fun player =>
      ⟨⟨tracked_lockOf consistent.toSound player, fun other => isFree_lockOf consistent.toSound player⟩,
        fun id => ⟨consistent.tracked_grab player id, fun other different => ?_⟩⟩⟩
  · obtain ⟨players, _, stands⟩ := consistent.stands id claim found
    have idle : ¬(player ∈ table.heldBy id ∨ table.awaitedBy? id = some player) := by
      rw [← mem_engaged_of_found found]
      exact stands.not_engaged_of_unreached unreached
    rw [mem_engaged]
    refine exists_congr fun other => (and_iff_right_of_imp fun engaged same => ?_).symm
    exact idle (same ▸ engaged)
  · obtain ⟨before, later, parts, old⟩ := ended id issued
    rw [show table = empty.play (before ++ .release id :: later) from parts ▸ rfl]
    exact absent_of_released old
  · rw [consistent.isFree_grab]
    exact and_iff_right different

theorem tracked_exact_given_up :
    let moves : List LockMove := [.request [.numbered 1, .numbered 2],
      .request [.numbered 0, .numbered 2, .numbered 3], .request [.numbered 3], .release 1, .release 0, .release 2]
    let blocked := empty.play (moves.take 3)
    (blocked.tracked = 4 ∧
        ∃ other ≠ 1, .numbered 3 ∈ blocked.heldBy other ∨ blocked.awaitedBy? other = some (.numbered 3)) ∧
      (empty.play moves).registry.size = 4 ∧ (empty.play moves).tracked = 0 := by
  intro moves blocked
  obtain ⟨⟨counted, _⟩, unreached, _⟩ := tracked_exact (moves.take 3)
  obtain ⟨_, _, ended, _⟩ := tracked_exact moves
  have waiting : blocked.claims[1]? = some ⟨[(.numbered 0, 2)], [.numbered 2, .numbered 3], some 1⟩ := by decide +kernel
  have engaged : .numbered 3 ∈ blocked.engaged := by decide +kernel
  refine ⟨⟨counted.trans (by decide +kernel), (unreached 1 _ (.numbered 3) waiting (by decide)).mp engaged⟩,
    by decide +kernel, ended fun id issued => ?_⟩
  match id, issued with
  | 0, _ => exact ⟨moves.take 4, moves.drop 5, rfl, by decide⟩
  | 1, _ => exact ⟨moves.take 3, moves.drop 4, rfl, by decide⟩
  | 2, _ => exact ⟨moves.take 5, [], rfl, by decide⟩

end LockTable

end PermissionFeed
