import PermissionFeed.Proofs.Locks

namespace PermissionFeed.LockTable

def line (table : LockTable) (player : PlayerId) : List ClaimId :=
  (table.registry[player]?.bind (table.queues[·]?)).getD []

variable {table after : LockTable} {player other : PlayerId} {id : ClaimId} {lock : LockId}

theorem line_of_live {queue : List ClaimId} (registered : table.registry[player]? = some lock)
    (queued : table.queues[lock]? = some queue) : table.line player = queue := by
  rw [line, registered, Option.bind_some, queued]
  rfl

theorem line_of_isFree (free : table.IsFree player) : table.line player = [] := by
  cases registered : table.registry[player]? with
  | none => simp [line, registered]
  | some lock => simp [line, registered, Std.ExtTreeMap.getElem?_eq_none (free lock registered)]

theorem live_of_mem (listed : id ∈ table.line player) (registered : table.registry[player]? = some lock) :
    lock ∈ table.queues := by
  refine Classical.byContradiction fun dead => ?_
  simp [line, registered, Std.ExtTreeMap.getElem?_eq_none dead] at listed

theorem isFree_or_live (table : LockTable) (player : PlayerId) : table.IsFree player ∨
    ∃ lock queue, table.registry[player]? = some lock ∧ table.queues[lock]? = some queue := by
  cases registered : table.registry[player]? with
  | none => exact Or.inl fun lock found => by simp [registered] at found
  | some lock =>
      cases queued : table.queues[lock]? with
      | none =>
          refine Or.inl fun other found live => ?_
          obtain rfl : lock = other := by simpa [registered] using found
          simp [Std.ExtTreeMap.mem_iff_isSome_getElem?, queued] at live
      | some queue => exact Or.inr ⟨lock, queue, rfl, queued⟩

def single (player : PlayerId) (lock : LockId) (granted : Bool) : Claim :=
  if granted then ⟨[(player, lock)], [], none⟩ else ⟨[], [player], some lock⟩

structure Queued (table : LockTable) (player : PlayerId) (id : ClaimId) (lock : LockId) (granted : Bool) : Prop where
  registered : table.registry[player]? = some lock
  claim : table.claims[id]? = some (single player lock granted)
  first : granted → (table.line player).head? = some id

def Apart (table : LockTable) : Prop :=
  ∀ (player other : PlayerId) (lock : LockId), lock ∈ table.queues → table.registry[player]? = some lock →
    table.registry[other]? = some lock → other = player

structure Lined (table : LockTable) : Prop extends Sound table where
  alone : table.Apart
  distinct : ∀ player, (table.line player).Nodup
  queued : ∀ player, ∀ id ∈ table.line player, ∃ lock granted, table.Queued player id lock granted

theorem Queued.lt {granted : Bool} (queued : table.Queued player id lock granted) (sound : table.Sound) :
    id < table.nextClaim := by
  apply sound.claim_lt
  rw [Std.ExtTreeMap.mem_iff_isSome_getElem?, queued.claim]
  rfl

theorem single_player {first second : LockId} {granted grantedToo : Bool}
    (same : single player first granted = single other second grantedToo) : player = other := by
  cases granted <;> cases grantedToo <;> simp [single] at same <;> exact same.1

theorem Lined.player_eq (lined : table.Lined) (listed : id ∈ table.line player) (again : id ∈ table.line other) :
    player = other := by
  obtain ⟨_, _, queued⟩ := lined.queued player id listed
  obtain ⟨_, _, queuedToo⟩ := lined.queued other id again
  exact single_player (Option.some.inj (queued.claim.symm.trans queuedToo.claim))

theorem lined_of_isFree (sound : table.Sound) (free : ∀ player, table.IsFree player) : table.Lined where
  toSound := sound
  alone player other lock live registered _ := absurd live (free player lock registered)
  distinct player := by simp [line_of_isFree (free player)]
  queued player id listed := by simp [line_of_isFree (free player)] at listed

structure Joined (table : LockTable) (player : PlayerId) (id : ClaimId) (lock : LockId) (after : LockTable) : Prop where
  claims : after.claims = table.claims
  nextClaim : after.nextClaim = table.nextClaim
  lock_lt : ∀ lock, lock ∈ after.queues → lock < after.nextLock
  registered : after.registry[player]? = some lock
  only : ∀ other, after.registry[other]? = some lock → other = player
  kept : ∀ live : LockId, live ∈ table.queues → table.registry[player]? = some live → live = lock
  registry : ∀ (other : PlayerId) (live : LockId), other ≠ player → live ∈ table.queues →
    (after.registry[other]? = some live ↔ table.registry[other]? = some live)
  queue : after.queues[lock]? = some (table.line player ++ [id])
  queues : ∀ other : LockId, other ≠ lock → after.queues[other]? = table.queues[other]?

theorem joined_grab (sound : table.Sound) (apart : table.Apart) (player : PlayerId) (id : ClaimId) :
    table.Joined player id (table.lockOf player).1 (table.grab id player) := by
  rcases table.isFree_or_live player with free | ⟨lock, queue, registered, queued⟩
  · have new : (table.lockOf player).1 = table.nextLock := by rw [lockOf_of_isFree free]
    have unused : table.nextLock ∉ table.queues := fun live => Nat.lt_irrefl _ (sound.lock_lt _ live)
    have queues : (table.grab id player).queues = table.queues.insert table.nextLock [id] :=
      grab_queues sound free
    rw [new]
    exact
      { claims := by simp [grab, enqueue, lockOf_of_isFree free]
        nextClaim := by simp [grab, enqueue, lockOf_of_isFree free]
        lock_lt := (grab_sound sound free).lock_lt
        registered := by rw [grab_registry free, if_pos rfl]
        only := fun other found => by
          rw [grab_registry free] at found
          split at found
          · next same => exact same.symm
          · exact absurd (by simpa using (Option.filter_eq_some_iff.mp found).2) unused
        kept := fun live listed registered => absurd listed (free live registered)
        registry := fun other live different listed => by
          rw [grab_registry free, if_neg (Ne.symm different), Option.filter_eq_some_iff]
          exact and_iff_left (by simpa using listed)
        queue := by simp [queues, line_of_isFree free]
        queues := fun other different => by simp [queues, Std.ExtTreeMap.getElem?_insert, Ne.symm different] }
  · have live : lock ∈ table.queues := by simp [Std.ExtTreeMap.mem_iff_isSome_getElem?, queued]
    have kept : table.registry[player]?.filter (table.queues.contains ·) = some lock := by
      simp [registered, Option.filter, live]
    have found : table.lockOf player = (lock, table) := by simp only [lockOf, kept]
    simp only [grab, found]
    exact
      { claims := rfl
        nextClaim := rfl
        lock_lt := fun other listed => by
          rcases Std.ExtTreeMap.mem_insert.mp listed with same | listed
          · obtain rfl : lock = other := by simpa using same
            exact sound.lock_lt lock live
          · exact sound.lock_lt other listed
        registered := registered
        only := fun other known => apart player other lock live registered known
        kept := fun other _ known => Option.some.inj (known.symm.trans registered)
        registry := fun _ _ _ _ => Iff.rfl
        queue := by simp [enqueue, queued, line_of_live registered queued]
        queues := fun other different => by
          simp [enqueue, Std.ExtTreeMap.getElem?_insert, Ne.symm different] }

theorem Joined.line (joined : table.Joined player id lock after) (other : PlayerId) :
    after.line other = if other = player then table.line player ++ [id] else table.line other := by
  split
  · next same =>
      subst same
      exact line_of_live joined.registered joined.queue
  · next different =>
      rcases table.isFree_or_live other with free | ⟨live, queue, registered, queued⟩
      · rw [line_of_isFree free]
        refine line_of_isFree fun live registered listed => ?_
        have foreign : live ≠ lock := by
          rintro rfl
          exact different (joined.only other registered)
        have earlier : live ∈ table.queues := by
          rw [Std.ExtTreeMap.mem_iff_isSome_getElem?, ← joined.queues live foreign]
          exact Std.ExtTreeMap.mem_iff_isSome_getElem?.mp listed
        exact free live ((joined.registry other live different earlier).mp registered) earlier
      · have listed : live ∈ table.queues := by simp [Std.ExtTreeMap.mem_iff_isSome_getElem?, queued]
        have still := (joined.registry other live different listed).mpr registered
        have foreign : live ≠ lock := by
          rintro rfl
          exact different (joined.only other still)
        rw [line_of_live registered queued]
        exact line_of_live still ((joined.queues live foreign).trans queued)

theorem Joined.sound (joined : table.Joined player id lock after) (sound : table.Sound) : after.Sound where
  lock_lt := joined.lock_lt
  claim_lt other listed := by
    rw [joined.nextClaim]
    exact sound.claim_lt other (joined.claims ▸ listed)

theorem Joined.apart (joined : table.Joined player id lock after) (apart : table.Apart) : after.Apart := by
  intro first second live listed registered again
  by_cases same : live = lock
  · subst same
    rw [joined.only first registered, joined.only second again]
  · have earlier : live ∈ table.queues := by
      rw [Std.ExtTreeMap.mem_iff_isSome_getElem?, ← joined.queues live same]
      exact Std.ExtTreeMap.mem_iff_isSome_getElem?.mp listed
    have foreign (other : PlayerId) (registered : after.registry[other]? = some live) : other ≠ player := by
      rintro rfl
      exact same (Option.some.inj (registered.symm.trans joined.registered))
    exact apart first second live earlier
      ((joined.registry first live (foreign first registered) earlier).mp registered)
      ((joined.registry second live (foreign second again) earlier).mp again)

theorem distinct_singleton (player : PlayerId) : LockTable.distinct [player] = [player] := by
  apply List.Perm.eq_singleton
  refine (List.perm_ext_iff_of_nodup (nodup_distinct [player]) (by simp)).mpr fun other => ?_
  exact mem_distinct

theorem take_waiting (table : LockTable) (id : ClaimId) (player : PlayerId) (lock : LockId) :
    table.take id [] (some lock) [player] = (single player lock (table.holds id lock), table) := by
  rw [take]
  cases table.holds id lock <;> simp [take, single]

theorem take_singleton (table : LockTable) (id : ClaimId) (player : PlayerId) :
    table.take id [] none [player] =
      (table.grab id player).take id [] (some (table.lockOf player).1) [player] := by
  rw [take, take]
  rfl

theorem Joined.queued {granted : Bool} {first : ClaimId} (joined : table.Joined player id lock after)
    (listed : first ∈ table.line other) {live : LockId} (queued : table.Queued other first live granted) :
    after.Queued other first live granted where
  registered := by
    by_cases same : other = player
    · subst same
      rw [joined.kept live (live_of_mem listed queued.registered) queued.registered]
      exact joined.registered
    · exact (joined.registry other live same (live_of_mem listed queued.registered)).mpr queued.registered
  claim := joined.claims ▸ queued.claim
  first found := by
    rw [joined.line]
    split
    · next same => rw [← same, List.head?_append, queued.first found, Option.some_or]
    · exact queued.first found

theorem lined_register (lined : table.Lined) (players : List PlayerId) : (table.register players).Lined where
  toSound := register_sound lined.toSound players
  alone := lined.alone
  distinct := lined.distinct
  queued other first listed := by
    obtain ⟨lock, granted, queued⟩ := lined.queued other first listed
    have old : table.nextClaim ≠ first := Nat.ne_of_gt (queued.lt lined.toSound)
    exact ⟨lock, granted, queued.registered, by simp [register, Std.ExtTreeMap.getElem?_insert, old, queued.claim],
      queued.first⟩

def note (table : LockTable) (id : ClaimId) (claim : Claim) : LockTable :=
  { table with claims := table.claims.insert id claim, handedOver := table.handedOver.filter (· ≠ id) }

theorem lined_note {granted : Bool} (sound : table.Sound)
    (alone : table.Apart) (distinct : ∀ player, (table.line player).Nodup)
    (others : ∀ other, ∀ first ∈ table.line other, first ≠ id → ∃ lock granted, table.Queued other first lock granted)
    (own : ∀ other, id ∈ table.line other → other = player) (lt : id < table.nextClaim)
    (registered : table.registry[player]? = some lock) (first : granted → (table.line player).head? = some id) :
    (table.note id (single player lock granted)).Lined where
  lock_lt := sound.lock_lt
  claim_lt other listed := by
    rcases Std.ExtTreeMap.mem_insert.mp listed with same | listed
    · obtain rfl : id = other := by simpa using same
      exact lt
    · exact sound.claim_lt other listed
  alone := alone
  distinct := distinct
  queued other next listed := by
    by_cases same : next = id
    · subst same
      obtain rfl := own other listed
      exact ⟨lock, granted, registered, by simp [note], first⟩
    · obtain ⟨lock, granted, queued⟩ := others other next listed same
      refine ⟨lock, granted, queued.registered, ?_, queued.first⟩
      simp [note, Std.ExtTreeMap.getElem?_insert, Ne.symm same, queued.claim]

structure Requested (table : LockTable) (player : PlayerId) (id : ClaimId) (after : LockTable) : Prop where
  id_eq : id = table.nextClaim
  lined : after.Lined
  line : ∀ other, after.line other = if other = player then table.line player ++ [id] else table.line other

theorem holds_iff (registered : table.registry[player]? = some lock) :
    table.holds id lock ↔ (table.line player).head? = some id := by
  cases queued : table.queues[lock]? with
  | none => simp [holds, line, registered, queued]
  | some queue => simp [holds, line, registered, queued]

theorem line_request (lined : table.Lined) (player : PlayerId) :
    table.Requested player (table.request [player]).1 (table.request [player]).2 := by
  have registered := lined_register lined [player]
  have joined := joined_grab registered.toSound registered.alone player table.nextClaim
  have taken := take_singleton (table.register [player]) table.nextClaim player
  rw [take_waiting] at taken
  generalize ((table.register [player]).lockOf player).1 = lock at joined taken
  generalize (table.register [player]).grab table.nextClaim player = grabbed at joined taken
  have requested : table.request [player] =
      (table.nextClaim, grabbed.note table.nextClaim (single player lock (grabbed.holds table.nextClaim lock))) :=
    request_of_taken (by rw [distinct_singleton]; exact taken)
  -- the new claim is in no line yet
  have new (other : PlayerId) : table.nextClaim ∉ table.line other := by
    intro listed
    obtain ⟨_, _, queued⟩ := lined.queued other _ listed
    exact Nat.lt_irrefl _ (queued.lt lined.toSound)
  have line (other : PlayerId) : grabbed.line other =
      if other = player then table.line player ++ [table.nextClaim] else table.line other := joined.line other
  rw [requested]
  refine ⟨rfl, ?_, line⟩
  refine lined_note (joined.sound registered.toSound) (joined.apart registered.alone) (fun other => ?_)
    (fun other first listed different => ?_) (fun other listed => ?_) ?_ joined.registered
    (holds_iff joined.registered).mp
  · rw [line]
    split
    · refine List.nodup_append.mpr ⟨lined.distinct player, by simp, fun first listed last only => ?_⟩
      obtain rfl : last = table.nextClaim := by simpa using only
      rintro rfl
      exact new player listed
    · exact lined.distinct other
  · have earlier : first ∈ table.line other := by
      rw [line] at listed
      split at listed
      · next same => simpa [same, different] using listed
      · exact listed
    obtain ⟨live, granted, queued⟩ := registered.queued other first earlier
    exact ⟨live, granted, joined.queued earlier queued⟩
  · rw [line] at listed
    split at listed
    · next same => exact same
    · exact absurd listed (new other)
  · rw [joined.nextClaim]
    exact Nat.lt_succ_self _

theorem poll_eq (lined : table.Lined) (listed : id ∈ table.line player) :
    ∃ lock, table.registry[player]? = some lock ∧
      table.poll id = (table.holds id lock, table.note id (single player lock (table.holds id lock))) := by
  obtain ⟨lock, granted, registered, claim, first⟩ := lined.queued player id listed
  refine ⟨lock, registered, ?_⟩
  have taken : table.take id (single player lock granted).held (single player lock granted).waitingFor
      (single player lock granted).wanted = (single player lock (table.holds id lock), table) := by
    cases granted with
    | false => exact take_waiting table id player lock
    | true =>
        rw [(holds_iff registered).mpr (first rfl)]
        rfl
  rw [poll, claim]
  simp only [taken]
  cases table.holds id lock <;> rfl

theorem poll_granted (lined : table.Lined) (listed : id ∈ table.line player) :
    (table.poll id).1 ↔ (table.line player).head? = some id := by
  obtain ⟨lock, registered, polled⟩ := poll_eq lined listed
  rw [polled]
  exact holds_iff registered

theorem lined_poll (lined : table.Lined) (listed : id ∈ table.line player) :
    (table.poll id).2.Lined ∧ ∀ other, (table.poll id).2.line other = table.line other := by
  obtain ⟨lock, registered, polled⟩ := poll_eq lined listed
  obtain ⟨_, _, queued⟩ := lined.queued player id listed
  rw [polled]
  refine ⟨?_, fun other => rfl⟩
  exact lined_note lined.toSound lined.alone lined.distinct
    (fun other first listed _ => lined.queued other first listed)
    (fun other again => lined.player_eq again listed) (queued.lt lined.toSound) registered (holds_iff registered).mp

structure Left (table : LockTable) (id : ClaimId) (lock : LockId) (rest : List ClaimId) (after : LockTable) : Prop where
  registry : after.registry = table.registry
  claims : after.claims = table.claims.erase id
  nextLock : after.nextLock = table.nextLock
  nextClaim : after.nextClaim = table.nextClaim
  queues : ∀ other : LockId, after.queues[other]? =
    if lock = other then if rest.isEmpty then none else some rest else table.queues[other]?

theorem left_release {granted : Bool} {rest : List ClaimId} (queued : table.Queued player id lock granted)
    (waiting : table.queues[lock]? = some (id :: rest)) : table.Left id lock rest (table.release id) := by
  have locks : (single player lock granted).held.map Prod.snd ++ (single player lock granted).waitingFor.toList =
      [lock] := by
    cases granted <;> rfl
  have released : table.release id = ({ table with
      claims := table.claims.erase id
      handedOver := table.handedOver.filter (· ≠ id) } : LockTable).leave id lock := by
    rw [release, queued.claim]
    simp only [locks]
    rfl
  rw [released, leave, waiting]
  simp only [List.erase_cons_head]
  split
  · next empty =>
      refine ⟨rfl, rfl, rfl, rfl, fun other => ?_⟩
      simp [Std.ExtTreeMap.getElem?_erase, empty]
  · next occupied =>
      refine ⟨rfl, rfl, rfl, rfl, fun other => ?_⟩
      simp [Std.ExtTreeMap.getElem?_insert, occupied]

theorem line_release (lined : table.Lined) {rest : List ClaimId} (first : table.line player = id :: rest) :
    (table.release id).Lined ∧
      ∀ other, (table.release id).line other = if other = player then rest else table.line other := by
  have listed : id ∈ table.line player := by simp [first]
  obtain ⟨lock, granted, queued⟩ := lined.queued player id listed
  have live := live_of_mem listed queued.registered
  obtain ⟨queue, waiting⟩ := Option.isSome_iff_exists.mp (Std.ExtTreeMap.mem_iff_isSome_getElem?.mp live)
  obtain rfl : id :: rest = queue := first.symm.trans (line_of_live queued.registered waiting)
  have left := left_release queued waiting
  generalize table.release id = after at left
  have line (other : PlayerId) : after.line other = if other = player then rest else table.line other := by
    split
    · next same =>
        subst same
        rw [LockTable.line, left.registry, queued.registered, Option.bind_some, left.queues, if_pos rfl]
        cases rest <;> rfl
    · next different =>
        rw [LockTable.line, LockTable.line, left.registry]
        cases registered : table.registry[other]? with
        | none => rfl
        | some foreign =>
            have apart : lock ≠ foreign := by
              rintro rfl
              exact different (lined.alone player other lock live queued.registered registered)
            rw [Option.bind_some, Option.bind_some, left.queues, if_neg apart]
  have earlier (other : LockId) (listed : other ∈ after.queues) : other ∈ table.queues := by
    rw [Std.ExtTreeMap.mem_iff_isSome_getElem?, left.queues] at listed
    split at listed
    · next same => exact same ▸ live
    · exact Std.ExtTreeMap.mem_iff_isSome_getElem?.mpr listed
  have once := List.nodup_cons.mp (first ▸ lined.distinct player)
  refine ⟨?_, line⟩
  exact
    { lock_lt := fun other listed => left.nextLock ▸ lined.lock_lt other (earlier other listed)
      claim_lt := fun other listed => by
        rw [left.claims] at listed
        exact left.nextClaim ▸ lined.claim_lt other (Std.ExtTreeMap.mem_of_mem_erase listed)
      alone := fun one other shared listed => by
        rw [left.registry]
        exact lined.alone one other shared (earlier shared listed)
      distinct := fun other => by
        rw [line]
        split
        · exact once.2
        · exact lined.distinct other
      queued := fun other next listed => by
        have still : next ∈ table.line other ∧ next ≠ id := by
          rw [line] at listed
          split at listed
          · next same => exact ⟨by simp [same, first, listed], fun leaves => once.1 (leaves ▸ listed)⟩
          · next different =>
              exact ⟨listed, fun leaves => different (lined.player_eq (leaves ▸ listed) (by simp [first]))⟩
        obtain ⟨place, held, standing⟩ := lined.queued other next still.1
        refine ⟨place, held, by rw [left.registry]; exact standing.registered, ?_, fun granted => ?_⟩
        · simp [left.claims, Std.ExtTreeMap.getElem?_erase, Ne.symm still.2, standing.claim]
        · have front := standing.first granted
          rw [line]
          split
          · next same =>
              rw [same, first] at front
              exact absurd (Option.some.inj front).symm still.2
          · exact front }

end PermissionFeed.LockTable
