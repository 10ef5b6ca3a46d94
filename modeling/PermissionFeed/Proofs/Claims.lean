import Mathlib.Data.List.Nodup
import PermissionFeed.Proofs.Lines

/-!
# What claims have

A claim stands in the line of every player that it has, where it is the first, and of the one that it waits for.
Whatever calls are made on a table, in whole or in part, its claims and its lines stay in step (`LockTable.Consistent`),
and the live lock of a player is the one that is registered for the player.
-/

namespace PermissionFeed

namespace Claim

/-- The locks that a claim has, and the one that it queues for, each with its player. -/
def places (claim : Claim) : List (PlayerId × LockId) :=
  claim.held ++ claim.wanted.zip claim.waitingFor.toList

def awaited? (claim : Claim) : Option PlayerId :=
  if claim.waitingFor.isSome then claim.wanted.head? else none

end Claim

/-- What may happen to a table. A request can also be made in parts, which others may come between: a claim is entered,
and then it advances by one look-up or one look at a lock at a time. -/
inductive LockMove where
  | request (players : List PlayerId)
  | poll (id : ClaimId)
  | release (id : ClaimId)
  | settle
  | enter (players : List PlayerId)
  | advance (id : ClaimId)

def LockMove.asked? : LockMove → Option (List PlayerId)
  | request players | enter players => some players
  | _ => none

namespace LockTable

def heldBy (table : LockTable) (id : ClaimId) : List PlayerId :=
  (table.claims[id]?.map fun claim => claim.held.map Prod.fst).getD []

def awaitedBy? (table : LockTable) (id : ClaimId) : Option PlayerId :=
  table.claims[id]?.bind Claim.awaited?

def isGranted (table : LockTable) (id : ClaimId) : Bool :=
  (table.claims[id]?.map Claim.isGranted).getD false

def advance (table : LockTable) (id : ClaimId) : LockTable :=
  match table.claims[id]? with
  | none => table
  | some ⟨held, [], _⟩ => table.note id ⟨held, [], none⟩
  | some ⟨held, player :: wanted, none⟩ =>
      (table.grab id player).note id ⟨held, player :: wanted, some (table.lockOf player).1⟩
  | some ⟨held, player :: wanted, some lock⟩ =>
      table.note id (if table.holds id lock then ⟨held ++ [(player, lock)], wanted, none⟩
        else ⟨held, player :: wanted, some lock⟩)

def move (table : LockTable) : LockMove → LockTable
  | .request players => (table.request players).2
  | .poll id => (table.poll id).2
  | .release id => table.release id
  | .settle => table.settle.2
  | .enter players => table.register players
  | .advance id => table.advance id

def play (table : LockTable) (moves : List LockMove) : LockTable :=
  moves.foldl move table

def asked (moves : List LockMove) : List (List PlayerId) :=
  moves.filterMap LockMove.asked?

/-- How a claim for some players stands in the lines of a table. -/
structure Stands (table : LockTable) (players : List PlayerId) (id : ClaimId) (claim : Claim) : Prop where
  parts : claim.held.map Prod.fst ++ claim.wanted = distinct players
  locks : claim.places.map Prod.snd = claim.held.map Prod.snd ++ claim.waitingFor.toList
  registered : ∀ player lock, (player, lock) ∈ claim.places → table.registry[player]? = some lock
  listed : ∀ player lock, (player, lock) ∈ claim.places → id ∈ table.line player
  first : ∀ player lock, (player, lock) ∈ claim.held → (table.line player).head? = some id

theorem mem_iff_getElem? {Value : Type} {map : Std.ExtTreeMap Nat Value} {key : Nat} :
    key ∈ map ↔ ∃ value, map[key]? = some value := by
  rw [Std.ExtTreeMap.mem_iff_isSome_getElem?, Option.isSome_iff_exists]

theorem asked_append (first second : List LockMove) : asked (first ++ second) = asked first ++ asked second :=
  List.filterMap_append

structure Consistent (asked : List (List PlayerId)) (table : LockTable) : Prop extends Sound table where
  apart : table.Apart
  occupied : ∀ (lock : LockId) (queue : List ClaimId), table.queues[lock]? = some queue →
    queue ≠ [] ∧ ∃ player : PlayerId, table.registry[player]? = some lock
  distinct : ∀ player, (table.line player).Nodup
  numbered : asked.length = table.nextClaim
  stands : ∀ (id : ClaimId) (claim : Claim), table.claims[id]? = some claim →
    ∃ players, asked[id]? = some players ∧ table.Stands players id claim
  placed : ∀ player, ∀ id ∈ table.line player, ∃ claim lock,
    table.claims[id]? = some claim ∧ (player, lock) ∈ claim.places

variable {asked : List (List PlayerId)} {players : List PlayerId} {table after : LockTable} {id : ClaimId}
  {player other : PlayerId} {claim later : Claim} {lock : LockId}

theorem consistent_empty : empty.Consistent [] where
  lock_lt lock live := by simp [empty] at live
  claim_lt id live := by simp [empty] at live
  apart player other lock live := by simp [empty] at live
  occupied lock queue queued := by simp [empty] at queued
  distinct player := by simp [line, empty]
  numbered := rfl
  stands id claim found := by simp [empty] at found
  placed player id listed := by simp [line, empty] at listed

theorem Stands.live (stands : table.Stands players id claim) (place : (player, lock) ∈ claim.places) :
    lock ∈ table.queues :=
  live_of_mem (stands.listed player lock place) (stands.registered player lock place)

theorem Stands.of_kept (stands : table.Stands players id claim)
    (registered : ∀ player lock, (player, lock) ∈ claim.places → after.registry[player]? = some lock)
    (listed : ∀ player, id ∈ table.line player → id ∈ after.line player)
    (first : ∀ player, (table.line player).head? = some id → (after.line player).head? = some id) :
    after.Stands players id claim where
  parts := stands.parts
  locks := stands.locks
  registered := registered
  listed player lock place := listed player (stands.listed player lock place)
  first player lock held := first player (stands.first player lock held)

theorem Stands.note (stands : table.Stands players id claim) (other : ClaimId) (later : Claim) :
    (table.note other later).Stands players id claim :=
  ⟨stands.parts, stands.locks, stands.registered, stands.listed, stands.first⟩

theorem Consistent.lt_numbered (consistent : table.Consistent asked) (found : table.claims[id]? = some claim) :
    id < asked.length := by
  obtain ⟨players, given, _⟩ := consistent.stands id claim found
  exact (List.getElem?_eq_some_iff.mp given).1

/-! ## Entering -/

theorem getElem?_register (table : LockTable) (players : List PlayerId) (id : ClaimId) :
    (table.register players).claims[id]? =
      if table.nextClaim = id then some ⟨[], LockTable.distinct players, none⟩ else table.claims[id]? := by
  simp [register, Std.ExtTreeMap.getElem?_insert]

theorem Consistent.register (consistent : table.Consistent asked) (players : List PlayerId) :
    (table.register players).Consistent (asked ++ [players]) where
  toSound := register_sound consistent.toSound players
  apart := consistent.apart
  occupied := consistent.occupied
  distinct := consistent.distinct
  numbered := by simp [LockTable.register, consistent.numbered]
  stands id claim found := by
    rw [getElem?_register] at found
    split at found
    · next new =>
        obtain rfl := Option.some.inj found
        refine ⟨players, by rw [← new, ← consistent.numbered, List.getElem?_concat_length], ?_⟩
        exact ⟨rfl, by simp [Claim.places], fun _ _ place => by simp [Claim.places] at place,
          fun _ _ place => by simp [Claim.places] at place, fun _ _ held => by simp at held⟩
    · obtain ⟨those, given, stands⟩ := consistent.stands id claim found
      have old := consistent.lt_numbered found
      exact ⟨those, by rw [List.getElem?_append_left old, given],
        stands.of_kept stands.registered (fun _ listed => listed) fun _ first => first⟩
  placed player id listed := by
    obtain ⟨claim, lock, found, place⟩ := consistent.placed player id listed
    have old : table.nextClaim ≠ id := by
      rw [← consistent.numbered]
      exact Nat.ne_of_gt (consistent.lt_numbered found)
    exact ⟨claim, lock, by rw [getElem?_register, if_neg old, found], place⟩

/-! ## Advancing -/

theorem getElem?_note (table : LockTable) (id : ClaimId) (claim : Claim) (other : ClaimId) :
    (table.note id claim).claims[other]? = if id = other then some claim else table.claims[other]? := by
  simp [note, Std.ExtTreeMap.getElem?_insert]

theorem Consistent.note (consistent : table.Consistent asked) (found : table.claims[id]? = some claim)
    (places : later.places = claim.places)
    (stands : ∀ players, table.Stands players id claim → table.Stands players id later) :
    (table.note id later).Consistent asked where
  lock_lt := consistent.lock_lt
  claim_lt other live := by
    rcases Std.ExtTreeMap.mem_insert.mp live with same | live
    · obtain rfl : id = other := by simpa using same
      exact consistent.numbered ▸ consistent.lt_numbered found
    · exact consistent.claim_lt other live
  apart := consistent.apart
  occupied := consistent.occupied
  distinct := consistent.distinct
  numbered := consistent.numbered
  stands other claim standing := by
    rw [getElem?_note] at standing
    split at standing
    · next same =>
        subst same
        obtain ⟨players, given, stood⟩ := consistent.stands id _ found
        rw [← Option.some.inj standing]
        exact ⟨players, given, (stands players stood).note id later⟩
    · obtain ⟨players, given, stood⟩ := consistent.stands other claim standing
      exact ⟨players, given, stood.note id later⟩
  placed player other listed := by
    obtain ⟨old, lock, standing, place⟩ := consistent.placed player other listed
    by_cases same : id = other
    · subst same
      obtain rfl : claim = old := Option.some.inj (found.symm.trans standing)
      exact ⟨later, lock, by rw [getElem?_note, if_pos rfl], places ▸ place⟩
    · exact ⟨old, lock, by rw [getElem?_note, if_neg same, standing], place⟩

theorem Consistent.fresh (consistent : table.Consistent asked) {held : List (PlayerId × LockId)}
    {wanted : List PlayerId} (found : table.claims[id]? = some ⟨held, player :: wanted, none⟩) :
    id ∉ table.line player := by
  intro listed
  obtain ⟨claim, lock, standing, place⟩ := consistent.placed player id listed
  obtain ⟨players, _, stands⟩ := consistent.stands id _ found
  obtain rfl := Option.some.inj (found.symm.trans standing)
  have had : player ∈ held.map Prod.fst := List.mem_map_of_mem (by simpa [Claim.places] using place)
  have once : (held.map Prod.fst ++ player :: wanted).Nodup := stands.parts ▸ nodup_distinct players
  exact (List.nodup_append.mp once).2.2 player had player (by simp) rfl

theorem Joined.registry_of_live (joined : table.Joined player id lock after) {live : LockId}
    (listed : live ∈ table.queues) (registered : table.registry[other]? = some live) :
    after.registry[other]? = some live := by
  by_cases same : other = player
  · subst same
    rw [joined.kept live listed registered]
    exact joined.registered
  · exact (joined.registry other live same listed).mpr registered

theorem Joined.occupied (joined : table.Joined player id lock after) (consistent : table.Consistent asked)
    (live : LockId) (queue : List ClaimId) (queued : after.queues[live]? = some queue) :
    queue ≠ [] ∧ ∃ player : PlayerId, after.registry[player]? = some live := by
  by_cases same : live = lock
  · subst same
    obtain rfl := Option.some.inj (joined.queue.symm.trans queued)
    exact ⟨by simp, player, joined.registered⟩
  · rw [joined.queues live same] at queued
    obtain ⟨some, other, registered⟩ := consistent.occupied live queue queued
    exact ⟨some, other, joined.registry_of_live (mem_iff_getElem?.mpr ⟨queue, queued⟩) registered⟩

theorem Stands.join (stands : table.Stands players id claim) {newcomer : ClaimId}
    (joined : table.Joined player newcomer lock after) : after.Stands players id claim := by
  refine stands.of_kept (fun other live place => ?_) (fun other listed => ?_) fun other first => ?_
  · exact joined.registry_of_live (stands.live place) (stands.registered other live place)
  · rw [joined.line]
    split
    · next same => simp [← same, listed]
    · exact listed
  · rw [joined.line]
    split
    · next same => rw [← same, List.head?_append, first, Option.some_or]
    · exact first

theorem Stands.queue {held : List (PlayerId × LockId)} {wanted : List PlayerId}
    (stands : table.Stands players id ⟨held, player :: wanted, none⟩) (joined : table.Joined player id lock after) :
    after.Stands players id ⟨held, player :: wanted, some lock⟩ := by
  have still := stands.join joined
  have places : Claim.places ⟨held, player :: wanted, some lock⟩ =
      Claim.places ⟨held, player :: wanted, none⟩ ++ [(player, lock)] := by
    simp [Claim.places]
  refine ⟨still.parts, by simp [Claim.places], fun other live place => ?_, fun other live place => ?_, still.first⟩
  all_goals rcases List.mem_append.mp (places ▸ place) with had | new
  · exact still.registered other live had
  · obtain ⟨rfl, rfl⟩ : other = player ∧ live = lock := by simpa using new
    exact joined.registered
  · exact still.listed other live had
  · obtain ⟨rfl, rfl⟩ : other = player ∧ live = lock := by simpa using new
    simp [joined.line]

theorem Consistent.join (consistent : table.Consistent asked) {held : List (PlayerId × LockId)}
    {wanted : List PlayerId} (found : table.claims[id]? = some ⟨held, player :: wanted, none⟩)
    (joined : table.Joined player id lock after) :
    (after.note id ⟨held, player :: wanted, some lock⟩).Consistent asked where
  lock_lt := joined.lock_lt
  claim_lt other live := by
    rcases Std.ExtTreeMap.mem_insert.mp live with same | live
    · obtain rfl : id = other := by simpa using same
      exact joined.nextClaim ▸ consistent.numbered ▸ consistent.lt_numbered found
    · exact joined.nextClaim ▸ consistent.claim_lt other (joined.claims ▸ live)
  apart := joined.apart consistent.apart
  occupied := joined.occupied consistent
  distinct other := by
    change (after.line other).Nodup
    rw [joined.line]
    split
    · refine List.nodup_append.mpr ⟨consistent.distinct player, by simp, fun first listed last only => ?_⟩
      obtain rfl : last = id := by simpa using only
      rintro rfl
      exact consistent.fresh found listed
    · exact consistent.distinct other
  numbered := consistent.numbered.trans joined.nextClaim.symm
  stands other claim standing := by
    rw [getElem?_note, joined.claims] at standing
    split at standing
    · next same =>
        subst same
        obtain ⟨players, given, stood⟩ := consistent.stands id _ found
        rw [← Option.some.inj standing]
        exact ⟨players, given, (stood.queue joined).note id _⟩
    · obtain ⟨players, given, stood⟩ := consistent.stands other claim standing
      exact ⟨players, given, (stood.join joined).note id _⟩
  placed other next listed := by
    change next ∈ after.line other at listed
    rw [joined.line] at listed
    by_cases new : other = player ∧ next = id
    · obtain ⟨rfl, rfl⟩ := new
      exact ⟨_, lock, by rw [getElem?_note, if_pos rfl], by simp [Claim.places]⟩
    · have before : next ∈ table.line other := by
        split at listed
        · next same => simpa [same, show next ≠ id from fun also => new ⟨same, also⟩] using listed
        · exact listed
      obtain ⟨old, live, standing, place⟩ := consistent.placed other next before
      by_cases same : id = next
      · subst same
        obtain rfl := Option.some.inj (found.symm.trans standing)
        refine ⟨_, live, by rw [getElem?_note, if_pos rfl], List.mem_append_left _ ?_⟩
        simpa [Claim.places] using place
      · exact ⟨old, live, by rw [getElem?_note, if_neg same, joined.claims, standing], place⟩

theorem Stands.of_places (stands : table.Stands players id claim) (places : later.places = claim.places)
    (parts : later.held.map Prod.fst ++ later.wanted = claim.held.map Prod.fst ++ claim.wanted)
    (locks : later.places.map Prod.snd = later.held.map Prod.snd ++ later.waitingFor.toList)
    (first : ∀ player lock, (player, lock) ∈ later.held → (table.line player).head? = some id) :
    table.Stands players id later where
  parts := parts.trans stands.parts
  locks := locks
  registered player lock place := stands.registered player lock (places ▸ place)
  listed player lock place := stands.listed player lock (places ▸ place)
  first := first

theorem Stands.look {held : List (PlayerId × LockId)} {wanted : List PlayerId}
    (stands : table.Stands players id ⟨held, player :: wanted, some lock⟩) (holds : table.holds id lock) :
    table.Stands players id ⟨held ++ [(player, lock)], wanted, none⟩ := by
  refine stands.of_places (by simp [Claim.places]) (by simp) (by simp [Claim.places]) fun other live had => ?_
  rcases List.mem_append.mp had with had | new
  · exact stands.first other live had
  · obtain ⟨rfl, rfl⟩ : other = player ∧ live = lock := by simpa using new
    exact (holds_iff (stands.registered other live (by simp [Claim.places]))).mp holds

theorem Consistent.advance (consistent : table.Consistent asked) (id : ClaimId) :
    (table.advance id).Consistent asked := by
  unfold LockTable.advance
  split
  · exact consistent
  · next held waitingFor found =>
      refine consistent.note found (by simp [Claim.places]) fun players stands => ?_
      exact stands.of_places (by simp [Claim.places]) rfl (by simp [Claim.places]) stands.first
  · next found => exact consistent.join found (joined_grab consistent.toSound consistent.apart _ id)
  · next held player wanted lock found =>
      split
      · next holds => exact consistent.note found (by simp [Claim.places]) fun players stands => stands.look holds
      · exact consistent.note found rfl fun _ stands => stands

/-! ## Polling -/

theorem note_note (table : LockTable) (id : ClaimId) (first second : Claim) :
    (table.note id first).note id second = table.note id second := by
  have claims : (table.claims.insert id first).insert id second = table.claims.insert id second := by
    apply Std.ExtTreeMap.ext_getElem?
    intro other
    rw [Std.ExtTreeMap.getElem?_insert, Std.ExtTreeMap.getElem?_insert, Std.ExtTreeMap.getElem?_insert]
    split <;> rfl
  simp [note, claims]

theorem lockOf_note (table : LockTable) (id : ClaimId) (claim : Claim) (player : PlayerId) :
    (table.note id claim).lockOf player = ((table.lockOf player).1, (table.lockOf player).2.note id claim) := by
  unfold lockOf note
  cases table.registry[player]?.filter (table.queues.contains ·) <;> rfl

theorem grab_note (table : LockTable) (id : ClaimId) (claim : Claim) (player : PlayerId) :
    (table.note id claim).grab id player = (table.grab id player).note id claim := by
  rw [grab, lockOf_note]
  rfl

theorem advance_note_nil (table : LockTable) (id : ClaimId) (held : List (PlayerId × LockId))
    (waitingFor : Option LockId) :
    (table.note id ⟨held, [], waitingFor⟩).advance id = table.note id ⟨held, [], none⟩ := by
  simp only [advance, getElem?_note, if_true, note_note]

theorem advance_note_none (table : LockTable) (id : ClaimId) (held : List (PlayerId × LockId)) (player : PlayerId)
    (wanted : List PlayerId) :
    (table.note id ⟨held, player :: wanted, none⟩).advance id =
      (table.grab id player).note id ⟨held, player :: wanted, some (table.lockOf player).1⟩ := by
  simp only [advance, getElem?_note, if_true, grab_note, lockOf_note, note_note]

theorem advance_note_some (table : LockTable) (id : ClaimId) (held : List (PlayerId × LockId)) (player : PlayerId)
    (wanted : List PlayerId) (holds : table.holds id lock) :
    (table.note id ⟨held, player :: wanted, some lock⟩).advance id =
      table.note id ⟨held ++ [(player, lock)], wanted, none⟩ := by
  have still : (table.note id ⟨held, player :: wanted, some lock⟩).holds id lock := holds
  simp only [advance, getElem?_note, if_true, still, note_note]

theorem take_none (table : LockTable) (id : ClaimId) (held : List (PlayerId × LockId)) (player : PlayerId)
    (wanted : List PlayerId) : table.take id held none (player :: wanted) =
      (table.grab id player).take id held (some (table.lockOf player).1) (player :: wanted) := by
  rw [take, take]
  rfl

theorem take_preserves {motive : LockTable → Prop} (kept : ∀ table, motive table → motive (table.advance id))
    {held : List (PlayerId × LockId)} {wanted : List PlayerId} {waitingFor : Option LockId}
    (holds : motive (table.note id ⟨held, wanted, waitingFor⟩)) :
    motive ((table.take id held waitingFor wanted).2.note id (table.take id held waitingFor wanted).1) := by
  induction wanted generalizing table held waitingFor with
  | nil => exact advance_note_nil table id held waitingFor ▸ kept _ holds
  | cons player wanted ih =>
      -- whether the claim queues already or not, it comes to look at a lock
      have looks : ∀ (table : LockTable) (lock : LockId),
          motive (table.note id ⟨held, player :: wanted, some lock⟩) →
          motive ((table.take id held (some lock) (player :: wanted)).2.note id
            (table.take id held (some lock) (player :: wanted)).1) := by
        intro table lock holds
        rw [take]
        by_cases first : table.holds id lock
        · simp only [first, if_true]
          exact ih (advance_note_some table id held player wanted first ▸ kept _ holds)
        · simp only [first]
          exact holds
      cases waitingFor with
      | some lock => exact looks table lock holds
      | none =>
          rw [take_none]
          exact looks (table.grab id player) (table.lockOf player).1
            (advance_note_none table id held player wanted ▸ kept _ holds)

theorem poll_of_found (found : table.claims[id]? = some claim) :
    (table.poll id).2 = (table.take id claim.held claim.waitingFor claim.wanted).2.note id
      (table.take id claim.held claim.waitingFor claim.wanted).1 := by
  rw [poll, found]
  rfl

theorem poll_of_absent (absent : table.claims[id]? = none) : (table.poll id).2 = table := by
  rw [poll, absent]

theorem poll_preserves {motive : LockTable → Prop} (kept : ∀ table, motive table → motive (table.advance id))
    (noted : ∀ table claim, table.claims[id]? = some claim → motive table → motive (table.note id claim))
    (holds : motive table) : motive (table.poll id).2 := by
  cases found : table.claims[id]? with
  | none => exact (poll_of_absent found).symm ▸ holds
  | some claim =>
      rw [poll_of_found found]
      exact take_preserves kept (noted table claim found holds)

theorem Consistent.poll (consistent : table.Consistent asked) (id : ClaimId) : (table.poll id).2.Consistent asked :=
  poll_preserves (fun _ consistent => consistent.advance id)
    (fun _ _ found consistent => consistent.note found rfl fun _ stands => stands) consistent

theorem Consistent.request (consistent : table.Consistent asked) (players : List PlayerId) :
    (table.request players).2.Consistent (asked ++ [players]) :=
  (consistent.register players).poll table.nextClaim

theorem pollAll_preserves {motive : LockTable → Prop}
    (kept : ∀ table id, motive table → motive (table.poll id).2) (holds : motive table) (ids : List ClaimId) :
    motive (table.pollAll ids).2 := by
  induction ids generalizing table with
  | nil => exact holds
  | cons id ids ih => exact ih (kept table id holds)

theorem settleWithin_preserves {motive : LockTable → Prop}
    (kept : ∀ table id, motive table → motive (table.poll id).2) (holds : motive table) (rounds : Nat) :
    motive (table.settleWithin rounds).2 := by
  induction rounds generalizing table with
  | zero => exact holds
  | succ rounds ih => exact ih (pollAll_preserves kept holds table.waiting)

theorem Consistent.settle (consistent : table.Consistent asked) : table.settle.2.Consistent asked :=
  settleWithin_preserves (fun _ id consistent => consistent.poll id) consistent _

/-! ## Releasing -/

def remaining (id : ClaimId) (queue : Option (List ClaimId)) : Option (List ClaimId) :=
  (queue.map (·.erase id)).filter (· ≠ [])

theorem remaining_some {queue : List ClaimId} (occupied : queue.erase id ≠ []) :
    remaining id (some queue) = some (queue.erase id) := by
  simp [remaining, Option.filter_some, occupied]

theorem remaining_of_not_mem {queue : List ClaimId} (occupied : queue ≠ []) (unlisted : id ∉ queue) :
    remaining id (some queue) = some queue := by
  have same := List.erase_of_not_mem unlisted
  rw [remaining_some (by rwa [same]), same]

theorem leave_eq (table : LockTable) (id : ClaimId) (lock : LockId) :
    ∃ queues handedOver, table.leave id lock = { table with queues, handedOver } ∧
      ∀ other : LockId, queues[other]? =
        if lock = other then remaining id table.queues[other]? else table.queues[other]? := by
  cases queued : table.queues[lock]? with
  | none =>
      refine ⟨table.queues, table.handedOver, by rw [leave, queued], fun other => ?_⟩
      split
      · next same => rw [← same, queued]; rfl
      · rfl
  | some queue =>
      rw [leave, queued]
      by_cases alone : queue.erase id = []
      · refine ⟨table.queues.erase lock, table.handedOver, by simp [alone], fun other => ?_⟩
        rw [Std.ExtTreeMap.getElem?_erase]
        by_cases same : lock = other
        · simp [← same, queued, remaining, Option.filter_some, alone]
        · simp [same]
      · refine ⟨table.queues.insert lock (queue.erase id),
          table.handedOver ++ if queue.head? = some id then (queue.erase id).head?.toList else [],
          by simp [alone], fun other => ?_⟩
        rw [Std.ExtTreeMap.getElem?_insert]
        by_cases same : lock = other
        · simp [← same, queued, remaining_some alone]
        · simp [same]

theorem foldl_leave_eq (table : LockTable) (id : ClaimId) {locks : List LockId} (distinct : locks.Nodup) :
    ∃ queues handedOver, locks.foldl (fun table lock => table.leave id lock) table =
        { table with queues, handedOver } ∧
      ∀ other : LockId, queues[other]? =
        if other ∈ locks then remaining id table.queues[other]? else table.queues[other]? := by
  induction locks generalizing table with
  | nil => exact ⟨table.queues, table.handedOver, rfl, fun other => by simp⟩
  | cons lock locks ih =>
      obtain ⟨unlisted, distinct⟩ := List.nodup_cons.mp distinct
      obtain ⟨queues, handedOver, left, found⟩ := table.leave_eq id lock
      obtain ⟨last, handed, folded, among⟩ := ih (table.leave id lock) distinct
      refine ⟨last, handed, by rw [List.foldl_cons, folded, left], fun other => ?_⟩
      rw [among, left]
      simp only [found]
      by_cases same : lock = other
      · subst same
        simp [unlisted]
      · simp [same, Ne.symm same]

structure Parted (table : LockTable) (id : ClaimId) (after : LockTable) : Prop where
  registry : after.registry = table.registry
  claims : after.claims = table.claims.erase id
  nextLock : after.nextLock = table.nextLock
  nextClaim : after.nextClaim = table.nextClaim
  queues : ∀ lock : LockId, after.queues[lock]? = remaining id table.queues[lock]?

theorem Stands.nodup_locks (stands : table.Stands players id claim) (apart : table.Apart) :
    (claim.places.map Prod.snd).Nodup := by
  have once : (claim.places.map Prod.fst).Nodup := by
    have all : (claim.held.map Prod.fst ++ claim.wanted).Nodup := stands.parts ▸ nodup_distinct players
    refine all.sublist ?_
    rw [Claim.places, List.map_append]
    refine (List.Sublist.refl _).append ?_
    rcases claim with ⟨held, _ | ⟨player, wanted⟩, _ | lock⟩ <;> simp
  refine List.Nodup.map_on ?_ (List.Nodup.of_map _ once)
  rintro ⟨player, lock⟩ place ⟨other, _⟩ placeToo rfl
  obtain rfl := apart player other lock (stands.live place) (stands.registered player lock place)
    (stands.registered other lock placeToo)
  rfl

theorem Consistent.parted (consistent : table.Consistent asked) (found : table.claims[id]? = some claim) :
    table.Parted id (table.release id) := by
  obtain ⟨players, _, stands⟩ := consistent.stands id claim found
  obtain ⟨queues, handedOver, left, among⟩ := foldl_leave_eq { table with
    claims := table.claims.erase id
    handedOver := table.handedOver.filter (· ≠ id) } id (stands.nodup_locks consistent.apart)
  have released : table.release id = { table with claims := table.claims.erase id, queues, handedOver } := by
    rw [release, found]
    simp only [← stands.locks]
    exact left
  rw [released]
  refine ⟨rfl, rfl, rfl, rfl, fun lock => ?_⟩
  simp only [among]
  split
  · rfl
  -- a queue that the claim does not leave is one in which it does not stand
  · next elsewhere =>
      cases queued : table.queues[lock]? with
      | none => rfl
      | some queue =>
          obtain ⟨occupied, player, registered⟩ := consistent.occupied lock queue queued
          refine (remaining_of_not_mem occupied fun listed => elsewhere ?_).symm
          obtain ⟨same, live, standing, place⟩ :=
            consistent.placed player id (by rwa [line_of_live registered queued])
          obtain rfl : claim = same := Option.some.inj (found.symm.trans standing)
          obtain rfl : lock = live := Option.some.inj (registered.symm.trans (stands.registered player live place))
          exact List.mem_map_of_mem place

theorem Parted.line (parted : table.Parted id after) (player : PlayerId) :
    after.line player = (table.line player).erase id := by
  rw [LockTable.line, LockTable.line, parted.registry]
  cases registered : table.registry[player]? with
  | none => rfl
  | some lock =>
      rw [Option.bind_some, Option.bind_some, parted.queues]
      cases table.queues[lock]? with
      | none => rfl
      | some queue =>
          by_cases alone : queue.erase id = []
          · simp [remaining, Option.filter_some, alone]
          · rw [remaining_some alone]
            rfl

theorem Parted.queued (parted : table.Parted id after) {queue : List ClaimId}
    (queued : after.queues[lock]? = some queue) :
    queue ≠ [] ∧ ∃ before, table.queues[lock]? = some before := by
  rw [parted.queues, remaining] at queued
  obtain ⟨mapped, occupied⟩ := Option.filter_eq_some_iff.mp queued
  obtain ⟨before, found, _⟩ := Option.map_eq_some_iff.mp mapped
  exact ⟨by simpa using occupied, before, found⟩

theorem Parted.live (parted : table.Parted id after) (live : lock ∈ after.queues) : lock ∈ table.queues := by
  obtain ⟨queue, queued⟩ := mem_iff_getElem?.mp live
  exact mem_iff_getElem?.mpr (parted.queued queued).2

theorem Consistent.part (consistent : table.Consistent asked) (parted : table.Parted id after) :
    after.Consistent asked where
  lock_lt lock live := parted.nextLock ▸ consistent.lock_lt lock (parted.live live)
  claim_lt other live := by
    rw [parted.claims] at live
    exact parted.nextClaim ▸ consistent.claim_lt other (Std.ExtTreeMap.mem_of_mem_erase live)
  apart player other lock live := by
    rw [parted.registry]
    exact consistent.apart player other lock (parted.live live)
  occupied lock queue queued := by
    obtain ⟨occupied, before, found⟩ := parted.queued queued
    rw [parted.registry]
    exact ⟨occupied, (consistent.occupied lock before found).2⟩
  distinct player := by
    rw [parted.line]
    exact (consistent.distinct player).erase id
  numbered := consistent.numbered.trans parted.nextClaim.symm
  stands other claim found := by
    rw [parted.claims, Std.ExtTreeMap.getElem?_erase] at found
    split at found
    · contradiction
    · next different =>
        have apart : other ≠ id := by
          rintro rfl
          simp at different
        obtain ⟨players, given, stands⟩ := consistent.stands other claim found
        refine ⟨players, given,
          stands.of_kept (fun player lock place => ?_) (fun player listed => ?_) fun player first => ?_⟩
        · rw [parted.registry]
          exact stands.registered player lock place
        · rw [parted.line]
          exact (List.mem_erase_of_ne apart).mpr listed
        · rw [parted.line]
          obtain ⟨rest, ahead⟩ := List.head?_eq_some_iff.mp first
          rw [ahead, List.erase_cons_tail (by simpa using apart)]
          rfl
  placed player other listed := by
    rw [parted.line] at listed
    obtain ⟨apart, listed⟩ := (consistent.distinct player).mem_erase_iff.mp listed
    obtain ⟨claim, lock, found, place⟩ := consistent.placed player other listed
    refine ⟨claim, lock, ?_, place⟩
    rw [parted.claims, Std.ExtTreeMap.getElem?_erase, if_neg (by simpa using Ne.symm apart), found]

theorem Consistent.release (consistent : table.Consistent asked) (id : ClaimId) :
    (table.release id).Consistent asked := by
  cases found : table.claims[id]? with
  | none =>
      rw [LockTable.release, found]
      exact consistent
  | some claim => exact consistent.part (consistent.parted found)

/-! ## Runs -/

theorem Consistent.move (consistent : table.Consistent asked) (move : LockMove) :
    (table.move move).Consistent (asked ++ LockTable.asked [move]) := by
  cases move with
  | request players => exact consistent.request players
  | enter players => exact consistent.register players
  | poll id => exact (List.append_nil asked).symm ▸ consistent.poll id
  | release id => exact (List.append_nil asked).symm ▸ consistent.release id
  | settle => exact (List.append_nil asked).symm ▸ consistent.settle
  | advance id => exact (List.append_nil asked).symm ▸ consistent.advance id

theorem Consistent.play (consistent : table.Consistent asked) (moves : List LockMove) :
    (table.play moves).Consistent (asked ++ LockTable.asked moves) := by
  induction moves generalizing table asked with
  | nil => exact (List.append_nil asked).symm ▸ consistent
  | cons move moves ih =>
      have played := ih (consistent.move move)
      rwa [List.append_assoc, ← asked_append] at played

end LockTable

end PermissionFeed
