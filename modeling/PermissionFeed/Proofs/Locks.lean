import PermissionFeed.LockTable

namespace PermissionFeed

theorem PlayerId.nodup_of_ascending {players : List PlayerId}
    (ascending : players.Pairwise fun left right => compare left right = .lt) : players.Nodup := by
  apply List.Pairwise.imp _ ascending
  rintro left right less rfl
  simp at less

theorem PlayerSet.nodup_toList (players : PlayerSet) : players.toList.Nodup :=
  PlayerId.nodup_of_ascending Std.ExtTreeSet.ordered_toList

namespace LockTable

structure Sound (table : LockTable) : Prop where
  lock_lt : ∀ lock, lock ∈ table.queues → lock < table.nextLock
  claim_lt : ∀ id, id ∈ table.claims → id < table.nextClaim

def IsFree (table : LockTable) (player : PlayerId) : Prop :=
  ∀ lock, table.registry[player]? = some lock → lock ∉ table.queues

/-- The table is like a base in everything but dead registry entries and the names that were used since. -/
structure Agrees (table base : LockTable) : Prop where
  queues : table.queues = base.queues
  claims : table.claims = base.claims
  nextLock : base.nextLock ≤ table.nextLock
  nextClaim : base.nextClaim ≤ table.nextClaim
  registry : ∀ (player : PlayerId) (lock : LockId), lock ∈ base.queues →
    table.registry[player]? = some lock → base.registry[player]? = some lock

namespace Agrees

variable {table middle base : LockTable}

theorem refl (table : LockTable) : table.Agrees table :=
  ⟨rfl, rfl, Nat.le_refl _, Nat.le_refl _, fun _ _ _ found => found⟩

theorem trans (first : table.Agrees middle) (second : middle.Agrees base) : table.Agrees base where
  queues := first.queues.trans second.queues
  claims := first.claims.trans second.claims
  nextLock := Nat.le_trans second.nextLock first.nextLock
  nextClaim := Nat.le_trans second.nextClaim first.nextClaim
  registry player lock live found :=
    second.registry player lock live (first.registry player lock (second.queues ▸ live) found)

theorem sound (agrees : table.Agrees base) (sound : base.Sound) : table.Sound where
  lock_lt lock live := Nat.lt_of_lt_of_le (sound.lock_lt lock (agrees.queues ▸ live)) agrees.nextLock
  claim_lt id live := Nat.lt_of_lt_of_le (sound.claim_lt id (agrees.claims ▸ live)) agrees.nextClaim

theorem isFree (agrees : table.Agrees base) {player : PlayerId} (free : base.IsFree player) : table.IsFree player := by
  intro lock found live
  rw [agrees.queues] at live
  exact free lock (agrees.registry player lock live found) live

end Agrees

theorem lockOf_of_isFree {table : LockTable} {player : PlayerId} (free : table.IsFree player) :
    table.lockOf player = (table.nextLock,
      { table with
        registry := (table.registry.filter fun _ lock => table.queues.contains lock).insert player table.nextLock
        nextLock := table.nextLock + 1 }) := by
  -- the entry of a dead lock is not used again
  have dead : table.registry[player]?.filter (table.queues.contains ·) = none := by
    rw [Option.filter_eq_none_iff]
    intro lock found
    simpa using free lock found
  simp only [lockOf, dead]

structure Acquired (before : LockTable) (id : ClaimId) (players : List PlayerId) (after : LockTable) : Prop where
  queues : ∀ lock : LockId, after.queues[lock]? =
    if before.nextLock ≤ lock ∧ lock < before.nextLock + players.length then some [id] else before.queues[lock]?
  claims : after.claims = before.claims
  nextLock : after.nextLock = before.nextLock + players.length
  nextClaim : after.nextClaim = before.nextClaim
  registry : ∀ (player : PlayerId) (lock : LockId), lock ∈ before.queues →
    after.registry[player]? = some lock → before.registry[player]? = some lock
  isFree : ∀ player, player ∉ players → before.IsFree player → after.IsFree player

theorem acquired_nil (table : LockTable) (id : ClaimId) : table.Acquired id [] table where
  queues lock := by rw [if_neg fun within => Nat.lt_irrefl _ (Nat.lt_of_le_of_lt within.1 within.2)]
  claims := rfl
  nextLock := rfl
  nextClaim := rfl
  registry _ _ _ found := found
  isFree _ _ free := free

def grab (table : LockTable) (id : ClaimId) (player : PlayerId) : LockTable :=
  (table.lockOf player).2.enqueue id (table.lockOf player).1

theorem grab_queues {table : LockTable} {id : ClaimId} {player : PlayerId} (sound : table.Sound)
    (free : table.IsFree player) : (table.grab id player).queues = table.queues.insert table.nextLock [id] := by
  have unused : table.queues[table.nextLock]? = none := by
    apply Std.ExtTreeMap.getElem?_eq_none
    intro live
    exact Nat.lt_irrefl _ (sound.lock_lt _ live)
  simp [grab, enqueue, lockOf_of_isFree free, unused]

theorem grab_sound {table : LockTable} {id : ClaimId} {player : PlayerId} (sound : table.Sound)
    (free : table.IsFree player) : (table.grab id player).Sound where
  lock_lt lock live := by
    rw [grab_queues sound free, Std.ExtTreeMap.mem_insert] at live
    simp only [grab, enqueue, lockOf_of_isFree free]
    rcases live with same | live
    · rw [← show table.nextLock = lock by simpa using same]
      exact Nat.lt_succ_self _
    · exact Nat.lt_succ_of_lt (sound.lock_lt lock live)
  claim_lt id live := by
    simp only [grab, enqueue, lockOf_of_isFree free] at live ⊢
    exact sound.claim_lt id live

theorem grab_registry {table : LockTable} {id : ClaimId} {player : PlayerId} (free : table.IsFree player)
    (other : PlayerId) : (table.grab id player).registry[other]? =
      if player = other then some table.nextLock else table.registry[other]?.filter (table.queues.contains ·) := by
  simp only [grab, enqueue, lockOf_of_isFree free, Std.ExtTreeMap.getElem?_insert,
    Std.LawfulEqCmp.compare_eq_iff_eq, Std.ExtTreeMap.getElem?_filter, Option.pfilter_eq_filter]

theorem grab_isFree {table : LockTable} {id : ClaimId} {player other : PlayerId} (free : table.IsFree player)
    (different : player ≠ other) (otherFree : table.IsFree other) : (table.grab id player).IsFree other := by
  intro lock found
  rw [grab_registry free, if_neg different] at found
  obtain ⟨known, live⟩ := Option.filter_eq_some_iff.mp found
  exact absurd (by simpa using live) (otherFree lock known)

theorem span_succ {first lock count : Nat} (different : first ≠ lock) :
    first + 1 ≤ lock ∧ lock < first + 1 + count ↔ first ≤ lock ∧ lock < first + (count + 1) := by
  omega

theorem acquired_cons {table after : LockTable} {id : ClaimId} {player : PlayerId} {players : List PlayerId}
    (sound : table.Sound) (free : table.IsFree player) (rest : (table.grab id player).Acquired id players after) :
    table.Acquired id (player :: players) after where
  queues lock := by
    have next : (table.grab id player).nextLock = table.nextLock + 1 := by
      simp [grab, enqueue, lockOf_of_isFree free]
    rw [rest.queues, next, grab_queues sound free, Std.ExtTreeMap.getElem?_insert, List.length_cons]
    by_cases first : table.nextLock = lock
    · subst first
      rw [if_neg fun within => Nat.not_succ_le_self _ within.1, if_pos (by simp), if_pos]
      exact ⟨Nat.le_refl _, Nat.lt_add_of_pos_right (Nat.succ_pos _)⟩
    · rw [if_neg (by simpa using first : ¬compare table.nextLock lock = .eq)]
      simp only [span_succ first]
  claims := by
    rw [rest.claims]
    simp [grab, enqueue, lockOf_of_isFree free]
  nextLock := by
    rw [rest.nextLock, List.length_cons]
    simp only [grab, enqueue, lockOf_of_isFree free]
    exact Nat.succ_add_eq_add_succ _ _
  nextClaim := by
    rw [rest.nextClaim]
    simp [grab, enqueue, lockOf_of_isFree free]
  registry other lock live found := by
    have stillLive : lock ∈ (table.grab id player).queues := by
      rw [grab_queues sound free]
      exact Std.ExtTreeMap.mem_insert.mpr (Or.inr live)
    have grabbed := rest.registry other lock stillLive found
    rw [grab_registry free] at grabbed
    split at grabbed
    · exact absurd (sound.lock_lt lock live) (by rw [Option.some.inj grabbed]; exact Nat.lt_irrefl _)
    · exact (Option.filter_eq_some_iff.mp grabbed).1
  isFree other outside otherFree := by
    rw [List.mem_cons, not_or] at outside
    exact rest.isFree other outside.2 (grab_isFree free (Ne.symm outside.1) otherFree)

theorem holds_grab {table : LockTable} {id : ClaimId} {player : PlayerId} (sound : table.Sound)
    (free : table.IsFree player) : (table.grab id player).holds id table.nextLock := by
  simp [holds, grab_queues sound free]

theorem take_of_isFree {table : LockTable} (id : ClaimId) (held : List (PlayerId × LockId)) {players : List PlayerId}
    (sound : table.Sound) (free : ∀ player ∈ players, table.IsFree player) (distinct : players.Nodup) :
    ∃ after, table.take id held none players =
        (⟨held ++ players.zip (List.range' table.nextLock players.length), [], none⟩, after) ∧
      table.Acquired id players after := by
  induction players generalizing table held with
  | nil => exact ⟨table, by simp [take], acquired_nil table id⟩
  | cons player players ih =>
      have playerFree := free player (by simp)
      obtain ⟨outside, distinct⟩ := List.nodup_cons.mp distinct
      have restFree : ∀ other ∈ players, (table.grab id player).IsFree other := by
        intro other listed
        apply grab_isFree playerFree
        · rintro rfl
          exact outside listed
        · exact free other (by simp [listed])
      obtain ⟨after, taken, acquired⟩ := ih (held ++ [(player, table.nextLock)]) (grab_sound sound playerFree) restFree
        distinct
      refine ⟨after, ?_, acquired_cons sound playerFree acquired⟩
      have next : (table.grab id player).nextLock = table.nextLock + 1 := by
        simp [grab, enqueue, lockOf_of_isFree playerFree]
      have lock : (table.lockOf player).1 = table.nextLock := by rw [lockOf_of_isFree playerFree]
      have unfolded : table.take id held none (player :: players) =
          if (table.grab id player).holds id table.nextLock then
            (table.grab id player).take id (held ++ [(player, table.nextLock)]) none players
          else (⟨held, player :: players, some table.nextLock⟩, table.grab id player) := by
        rw [take]
        simp only [lock, grab]
      rw [unfolded, if_pos (holds_grab sound playerFree), taken, next]
      simp [List.range'_succ]

structure Granted (base : LockTable) (id : ClaimId) (players : List PlayerId) (table : LockTable) : Prop where
  id_eq : id = base.nextClaim
  acquired : base.Acquired id players { table with claims := base.claims, nextClaim := base.nextClaim }
  claim : table.claims[id]? = some ⟨players.zip (List.range' base.nextLock players.length), [], none⟩
  claims : table.claims.erase id = base.claims
  nextClaim : table.nextClaim = base.nextClaim + 1

def distinct (players : List PlayerId) : List PlayerId :=
  (Std.ExtTreeSet.ofList players : PlayerSet).toList

theorem mem_distinct {players : List PlayerId} {player : PlayerId} : player ∈ distinct players ↔ player ∈ players := by
  simp [distinct, Std.ExtTreeSet.mem_toList, Std.ExtTreeSet.mem_ofList]

theorem nodup_distinct (players : List PlayerId) : (distinct players).Nodup :=
  PlayerSet.nodup_toList _

def register (base : LockTable) (players : List PlayerId) : LockTable :=
  { base with
    claims := base.claims.insert base.nextClaim ⟨[], distinct players, none⟩
    nextClaim := base.nextClaim + 1 }

theorem register_sound {base : LockTable} (sound : base.Sound) (players : List PlayerId) :
    (base.register players).Sound where
  lock_lt := sound.lock_lt
  claim_lt id live := by
    rcases Std.ExtTreeMap.mem_insert.mp live with same | live
    · rw [← show base.nextClaim = id by simpa using same]
      exact Nat.lt_succ_self _
    · exact Nat.lt_succ_of_lt (sound.claim_lt id live)

theorem request_of_taken {base after : LockTable} {players : List PlayerId} {claim : Claim}
    (taken : (base.register players).take base.nextClaim [] none (distinct players) = (claim, after)) :
    base.request players = (base.nextClaim,
      { after with
        claims := after.claims.insert base.nextClaim claim
        handedOver := after.handedOver.filter (· ≠ base.nextClaim) }) := by
  have found : (base.register players).claims[base.nextClaim]? = some ⟨[], distinct players, none⟩ := by simp [register]
  have unfolded : base.request players = (base.nextClaim, ((base.register players).poll base.nextClaim).2) := rfl
  rw [unfolded, poll, found]
  simp only [taken]

theorem erase_insert_insert {claims : Std.ExtTreeMap ClaimId Claim} {id : ClaimId} (unused : id ∉ claims)
    (first second : Claim) : ((claims.insert id first).insert id second).erase id = claims := by
  apply Std.ExtTreeMap.ext_getElem?
  intro other
  rw [Std.ExtTreeMap.getElem?_erase, Std.ExtTreeMap.getElem?_insert, Std.ExtTreeMap.getElem?_insert]
  by_cases same : id = other
  · subst same
    simp [Std.ExtTreeMap.getElem?_eq_none unused]
  · simp [same]

theorem request_of_isFree {base : LockTable} {players : List PlayerId} (sound : base.Sound)
    (free : ∀ player ∈ players, base.IsFree player) :
    base.Granted (base.request players).1 (distinct players) (base.request players).2 := by
  have registeredFree : ∀ player ∈ distinct players, (base.register players).IsFree player :=
    fun player listed => free player (mem_distinct.mp listed)
  obtain ⟨after, taken, acquired⟩ :=
    take_of_isFree base.nextClaim [] (register_sound sound players) registeredFree (nodup_distinct players)
  have unused : base.nextClaim ∉ base.claims := fun live => Nat.lt_irrefl _ (sound.claim_lt _ live)
  rw [request_of_taken taken]
  exact
    { id_eq := rfl
      acquired :=
        { queues := acquired.queues
          claims := rfl
          nextLock := acquired.nextLock
          nextClaim := rfl
          registry := acquired.registry
          isFree := acquired.isFree }
      claim := Std.ExtTreeMap.getElem?_insert_self
      claims := by
        simp only [acquired.claims, register]
        exact erase_insert_insert unused _ _
      nextClaim := acquired.nextClaim }

theorem foldl_leave {table : LockTable} {id : ClaimId} {locks : List LockId} (distinct : locks.Nodup)
    (alone : ∀ lock ∈ locks, table.queues[lock]? = some [id]) :
    ∃ queues, locks.foldl (fun table lock => table.leave id lock) table = { table with queues } ∧
      ∀ lock : LockId, queues[lock]? = if lock ∈ locks then none else table.queues[lock]? := by
  induction locks generalizing table with
  | nil => exact ⟨table.queues, rfl, fun lock => by simp⟩
  | cons lock locks ih =>
      obtain ⟨unlisted, distinct⟩ := List.nodup_cons.mp distinct
      have left : table.leave id lock = { table with queues := table.queues.erase lock } := by
        simp [leave, alone lock (by simp)]
      have stillAlone : ∀ other ∈ locks, (table.leave id lock).queues[other]? = some [id] := by
        intro other listed
        have different : lock ≠ other := by
          rintro rfl
          exact unlisted listed
        rw [left, Std.ExtTreeMap.getElem?_erase, if_neg (by simpa using different)]
        exact alone other (by simp [listed])
      obtain ⟨queues, folded, found⟩ := ih distinct stillAlone
      refine ⟨queues, ?_, fun other => ?_⟩
      · rw [List.foldl_cons, folded, left]
      · rw [found, left, Std.ExtTreeMap.getElem?_erase]
        by_cases later : other ∈ locks
        · simp [later]
        · by_cases same : lock = other
          · simp [same]
          · simp [later, same, Ne.symm same]

namespace Granted

variable {base table later : LockTable} {id : ClaimId} {players : List PlayerId}

theorem sound (granted : base.Granted id players table) (sound : base.Sound) : table.Sound where
  lock_lt lock live := by
    rw [granted.acquired.nextLock]
    rw [Std.ExtTreeMap.mem_iff_isSome_getElem?, granted.acquired.queues] at live
    split at live
    · next within => exact within.2
    · have old := sound.lock_lt lock (Std.ExtTreeMap.mem_iff_isSome_getElem?.mpr live)
      exact Nat.lt_of_lt_of_le old (Nat.le_add_right _ _)
  claim_lt other live := by
    rw [granted.nextClaim]
    by_cases same : id = other
    · rw [← same, granted.id_eq]
      exact Nat.lt_succ_self _
    · have old : other ∈ base.claims := by
        rw [← granted.claims]
        exact Std.ExtTreeMap.mem_erase.mpr ⟨by simpa using same, live⟩
      exact Nat.lt_succ_of_lt (sound.claim_lt other old)

theorem isFree (granted : base.Granted id players table) {player : PlayerId} (outside : player ∉ players)
    (free : base.IsFree player) : table.IsFree player :=
  granted.acquired.isFree player outside free

theorem poll_agrees (granted : base.Granted id players table) (agrees : later.Agrees table) :
    (later.poll id).1 = true ∧ (later.poll id).2.Agrees table := by
  have found := granted.claim
  rw [← agrees.claims] at found
  have polled : later.poll id = (true,
      { later with
        claims := later.claims.insert id ⟨players.zip (List.range' base.nextLock players.length), [], none⟩
        handedOver := later.handedOver.filter (· ≠ id) }) := by
    rw [poll, found]
    rfl
  rw [polled]
  refine ⟨rfl, agrees.queues, ?_, agrees.nextLock, agrees.nextClaim, agrees.registry⟩
  rw [← agrees.claims]
  apply Std.ExtTreeMap.ext_getElem?
  intro other
  rw [Std.ExtTreeMap.getElem?_insert]
  by_cases same : id = other
  · rw [← same, found]
    simp
  · simp [same]

theorem queues_of_taken (granted : base.Granted id players table) {lock : LockId}
    (taken : lock ∈ List.range' base.nextLock players.length) : table.queues[lock]? = some [id] := by
  have queued := granted.acquired.queues lock
  rw [List.mem_range'_1] at taken
  rwa [if_pos taken] at queued

theorem queues_of_untaken (granted : base.Granted id players table) {lock : LockId}
    (untaken : lock ∉ List.range' base.nextLock players.length) : table.queues[lock]? = base.queues[lock]? := by
  have queued := granted.acquired.queues lock
  rw [List.mem_range'_1] at untaken
  rwa [if_neg untaken] at queued

theorem untaken_of_live (sound : base.Sound) {lock : LockId} (live : lock ∈ base.queues) :
    lock ∉ List.range' base.nextLock players.length := by
  intro taken
  rw [List.mem_range'_1] at taken
  exact Nat.not_le_of_lt (sound.lock_lt lock live) taken.1

theorem release_eq (granted : base.Granted id players table) (agrees : later.Agrees table) :
    ∃ queues, later.release id =
        { later with claims := later.claims.erase id, handedOver := later.handedOver.filter (· ≠ id), queues } ∧
      ∀ lock : LockId, queues[lock]? =
        if lock ∈ List.range' base.nextLock players.length then none else later.queues[lock]? := by
  have found := granted.claim
  rw [← agrees.claims] at found
  let given : LockTable :=
    { later with claims := later.claims.erase id, handedOver := later.handedOver.filter (· ≠ id) }
  have locks : (players.zip (List.range' base.nextLock players.length)).map Prod.snd =
      List.range' base.nextLock players.length := List.map_snd_zip (by simp)
  have alone : ∀ lock ∈ List.range' base.nextLock players.length, given.queues[lock]? = some [id] := by
    intro lock taken
    rw [show given.queues = later.queues from rfl, agrees.queues]
    exact granted.queues_of_taken taken
  obtain ⟨queues, folded, emptied⟩ := foldl_leave List.nodup_range' alone
  refine ⟨queues, ?_, emptied⟩
  rw [release, found]
  simp only [locks, Option.toList_none, List.append_nil]
  exact folded

theorem release_agrees (granted : base.Granted id players table) (sound : base.Sound) (agrees : later.Agrees table) :
    (later.release id).Agrees base := by
  obtain ⟨queues, released, emptied⟩ := granted.release_eq agrees
  rw [released]
  refine ⟨?_, ?_, ?_, ?_, fun player lock live known => ?_⟩
  · apply Std.ExtTreeMap.ext_getElem?
    intro lock
    rw [emptied]
    split
    · next taken =>
        exact (Std.ExtTreeMap.getElem?_eq_none fun live => untaken_of_live sound live taken).symm
    · next untaken => rw [agrees.queues, granted.queues_of_untaken untaken]
  · rw [← granted.claims, ← agrees.claims]
  · exact Nat.le_trans (granted.acquired.nextLock ▸ Nat.le_add_right _ _) agrees.nextLock
  · exact Nat.le_trans (granted.nextClaim ▸ Nat.le_succ _) agrees.nextClaim
  · have stillLive : lock ∈ table.queues := by
      rw [Std.ExtTreeMap.mem_iff_isSome_getElem?, granted.queues_of_untaken (untaken_of_live sound live)]
      exact Std.ExtTreeMap.mem_iff_isSome_getElem?.mp live
    exact granted.acquired.registry player lock live (agrees.registry player lock stillLive known)

end Granted

end LockTable

end PermissionFeed
