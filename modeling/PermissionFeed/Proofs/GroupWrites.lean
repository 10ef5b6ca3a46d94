import PermissionFeed.Proofs.Interruption

namespace PermissionFeed

def Mutation.Outside (members : PlayerSet) (mutation : Mutation) : Prop :=
  ∃ player, mutation.player? = some player ∧ player ∉ members

namespace Service

open Engine

/-- What others leave alone while a group with some members is written: the time, the groups, the rows of the members,
and the locks that are held by then. -/
structure Kept (base : Service) (members : PlayerSet) (held : Option LockTable) (service : Service) : Prop where
  clock : service.clock = base.clock
  groups : service.store.groups = base.store.groups
  grants : ∀ player ∈ members, service.store.grants.rows player = base.store.grants.rows player
  memberships : ∀ player ∈ members, service.store.memberships.rows player = base.store.memberships.rows player
  locks : LocksAgree service.locks held

def OthersFree (members : PlayerSet) (held : Option LockTable) : Prop :=
  ∀ player, player ∉ members → AllFree held [player]

variable {base service : Service} {members : PlayerSet} {held : Option LockTable} {cache : Cache}
  {log : List ChangeEvent}

namespace Kept

theorem refl (base : Service) (members : PlayerSet) : Kept base members base.locks base :=
  ⟨rfl, rfl, fun _ _ => rfl, fun _ _ => rfl, .refl _⟩

theorem withLocks (kept : Kept base members held service) {locks now : Option LockTable}
    (agree : LocksAgree locks now) : Kept base members now { service with locks } :=
  { kept with locks := agree }

theorem alike (kept : Kept base members held service) {player : PlayerId} (inside : player ∈ members) :
    service.store.Alike player base.store :=
  ⟨kept.groups, kept.grants player inside, kept.memberships player inside⟩

theorem snapshot (kept : Kept base members held service) {player : PlayerId} (inside : player ∈ members) :
    service.store.snapshot player service.clock = base.store.snapshot player base.clock := by
  rw [kept.clock, (kept.alike inside).snapshot]

theorem snapshots (kept : Kept base members held service) :
    (members.toList.map fun player => some (base.store.snapshot player base.clock)) =
      members.toList.map fun player => some (service.store.snapshot player service.clock) := by
  refine List.map_congr_left fun player listed => ?_
  rw [kept.snapshot (by simpa [Std.ExtTreeSet.mem_toList] using listed)]

theorem other (kept : Kept base members held service) (free : OthersFree members held) {mutation : Mutation}
    (outside : mutation.Outside members) :
    ∃ ran, service.complete mutation.routine = some ran ∧ Kept base members held ran.service ∧
      service.store.Announced ran.service.store service.clock (ran.events.map ChangeEvent.toAnnouncement) := by
  obtain ⟨player, concerns, outside⟩ := outside
  obtain ⟨value, store, news, ⟨locks, agree, completed⟩, announced, only⟩ :=
    announces_playerMutation concerns ((free player outside).of_agree kept.locks)
  have other : ∀ member ∈ members, member ≠ player := by
    rintro member inside rfl
    exact outside inside
  refine ⟨_, completed, ?_, by rwa [EventId.Supply.map_stamp]⟩
  exact
    { clock := kept.clock
      groups := only.groups.trans kept.groups
      grants := fun member inside => (only.grants member (other member inside)).trans (kept.grants member inside)
      memberships := fun member inside =>
        (only.memberships member (other member inside)).trans (kept.memberships member inside)
      locks := agree.trans kept.locks }

theorem asks (base : Service) (members : PlayerSet) (order : List Nat) :
    (Routine.sideBySide order (members.toList.map fun player => .snapshot player .full base.clock)).Asks
      (fun store => ∀ player ∈ members, store.Alike player base.store)
      (members.toList.map fun player => .ok (base.store.snapshot player base.clock)) := by
  refine .sideBySide (.inquireAll fun player listed => ?_) order
  have inside : player ∈ members := by simpa [Std.ExtTreeSet.mem_toList] using listed
  exact .snapshot (fun store shares => shares player inside) base.clock

end Kept

structure Undisturbed (base : Service) (members : PlayerSet) (held : Option LockTable) (cache : Cache)
    (service : Service) (log : List ChangeEvent) : Prop extends Kept base members held service where
  synced : (cache.applyAll log).InSync service.store service.clock

theorem Undisturbed.withLocks (undisturbed : Undisturbed base members held cache service log)
    {locks now : Option LockTable} (agree : LocksAgree locks now) :
    Undisturbed base members now cache { service with locks } log :=
  ⟨undisturbed.toKept.withLocks agree, undisturbed.synced⟩

theorem stable_undisturbed (base : Service) (free : OthersFree members held) (cache : Cache) :
    Stable (Mutation.Outside members) (Undisturbed base members held cache) := by
  intro service log mutation outside undisturbed
  obtain ⟨ran, completed, kept, announced⟩ := undisturbed.toKept.other free outside
  refine ⟨ran, completed, kept, ?_⟩
  rw [Cache.applyAll_append, Cache.applyAll_eq_hearAll _ ran.events, kept.clock, ← undisturbed.clock]
  exact announced.told.inSync undisturbed.synced

def WritesGroup (write : Routine (Except StoreError Outcome)) : Prop :=
  ∃ call next, write = .step (.call call) next ∧ Effect.writesGroup (.call call)

inductive Unlocks {α : Type} : (α → Routine α) → Prop where
  | nothing : Unlocks pure
  | claim (claim : ClaimId) : Unlocks fun result => .step (.release claim) fun _ => .done result

theorem Unlocks.complete {α : Type} {ending : α → Routine α} (unlocks : Unlocks ending) {routine : Routine α} {value : α}
    {store : Store} {news : List Announcement} (achieves : service.Achieves routine value store news) :
    ∃ ran, service.complete (routine >>= ending) = some ran ∧ ran.value = value ∧ ran.service.store = store ∧
      ran.service.clock = service.clock ∧ ran.events.map ChangeEvent.toAnnouncement = news := by
  obtain ⟨locks, _, completed⟩ := achieves
  obtain ⟨unlocked, ended⟩ : ∃ unlocked, (service.settle store locks news).complete (ending value) =
      some ⟨value, [], { service.settle store locks news with locks := unlocked }⟩ := by
    cases unlocks with
    | nothing => exact ⟨_, rfl⟩
    | claim claim => exact ⟨_, rfl⟩
  refine ⟨_, by rw [complete_bind completed, ended]; rfl, rfl, rfl, rfl, ?_⟩
  exact (congrArg _ (List.append_nil _)).trans (EventId.Supply.map_stamp service.ids news)

def AtWrite (base : Service) (members : PlayerSet) (cache : Cache) (write : Routine (Except StoreError Outcome))
    (conclude : List (Option Snapshot) → Except StoreError Outcome → Routine (Except EngineError Outcome))
    (order : List Nat) (left : Routine (Except EngineError Outcome)) (service : Service) (log : List ChangeEvent) :
    Prop :=
  ∃ held ending, Undisturbed base members held cache service log ∧ OthersFree members held ∧ Unlocks ending ∧
    left = ((write >>= conclude (members.toList.map fun player =>
      some (service.store.snapshot player service.clock))) >>= ending).spread order

theorem meets_captureAll (base : Service) (cache : Cache) (free : OthersFree members held)
    {write : Routine (Except StoreError Outcome)} (writes : WritesGroup write)
    (conclude : List (Option Snapshot) → Except StoreError Outcome → Routine (Except EngineError Outcome))
    {ending : Except EngineError Outcome → Routine (Except EngineError Outcome)} (unlocks : Unlocks ending)
    (order : List Nat) :
    Meets Effect.writesGroup (Mutation.Outside members) (Undisturbed base members held cache)
      (Routine.spread order ((captureAll members.toList >>= fun before => write >>= conclude before) >>= ending))
      (AtWrite base members cache write conclude order) := by
  have stable := stable_undisturbed base free cache
  refine .silent .readClock stable rfl fun service log undisturbed => ?_
  refine ⟨service.clock, service, rfl, rfl, Undisturbed base members held cache, undisturbed, ?_⟩
  rw [undisturbed.clock]
  refine .of_asks stable (Effect.not_of_asks (fun _ _ => rfl) (fun _ _ => rfl) fun _ _ => rfl)
    (Kept.asks base members order) (fun service log undisturbed player inside => undisturbed.toKept.alike inside) ?_
  obtain ⟨call, next, rfl, writesGroup⟩ := writes
  refine .stop (.call call) stable writesGroup fun service log undisturbed => ?_
  refine ⟨held, ending, undisturbed, free, unlocks, ?_⟩
  rw [← undisturbed.snapshots, List.map_map]
  rfl

theorem allFree_of_granted {before taken : LockTable} {claim : ClaimId} {players : List PlayerId} {player : PlayerId}
    (granted : before.Granted claim players taken) (sound : before.Sound) (outside : player ∉ players)
    (free : before.IsFree player) : AllFree (some taken) [player] := by
  intro table kept
  obtain rfl := Option.some.inj kept
  refine ⟨granted.sound sound, fun other listed => ?_⟩
  obtain rfl : other = player := by simpa using listed
  exact granted.isFree outside free

theorem meets_withLocks (members : PlayerSet) (cache : Cache) (idle : Idle base.locks)
    {write : Routine (Except StoreError Outcome)}
    (writes : WritesGroup write)
    (conclude : List (Option Snapshot) → Except StoreError Outcome → Routine (Except EngineError Outcome))
    (order : List Nat) :
    Meets Effect.writesGroup (Mutation.Outside members) (Undisturbed base members base.locks cache)
      (Routine.spread order (Routine.withLocks members.toList
        (captureAll members.toList >>= fun before => write >>= conclude before)))
      (AtWrite base members cache write conclude order) := by
  have free : OthersFree members base.locks := fun player _ => idle [player]
  refine .silent (.request members.toList) (stable_undisturbed base free cache) rfl fun service log undisturbed => ?_
  have membersFree := (idle members.toList).of_agree undisturbed.locks
  cases kept : service.locks with
  | none =>
      have requested := perform_request_of_unkept kept members.toList
      refine ⟨none, service, requested, rfl, Undisturbed base members base.locks cache, undisturbed, ?_⟩
      have unlocked := meets_captureAll base cache free writes conclude .nothing order
      rw [Routine.bind_pure] at unlocked
      exact unlocked
  | some table =>
      obtain ⟨sound, listedFree⟩ := membersFree table kept
      have granted := LockTable.request_of_isFree sound listedFree
      have requested := perform_request_of_kept kept members.toList
      -- whoever is not a member can still be locked by others
      have othersFree : OthersFree members (some (table.request members.toList).2) := by
        intro player outside
        have playerFree := ((idle [player]).of_agree undisturbed.locks table kept).2 player (by simp)
        apply allFree_of_granted granted sound _ playerFree
        simpa [LockTable.mem_distinct, Std.ExtTreeSet.mem_toList] using outside
      generalize table.request members.toList = claimed at granted requested othersFree
      obtain ⟨claim, taken⟩ := claimed
      refine ⟨some claim, _, requested, rfl, Undisturbed base members (some taken) cache,
        undisturbed.withLocks (.refl (some taken)), ?_⟩
      refine .silent (.await claim) (stable_undisturbed base othersFree cache) rfl fun service log undisturbed => ?_
      cases held : service.locks with
      | none => exact absurd undisturbed.locks (by simp [held, LocksAgree])
      | some later =>
          have agrees : later.Agrees taken := by simpa [held, LocksAgree] using undisturbed.locks
          obtain ⟨all, polled⟩ := granted.poll_agrees agrees
          exact ⟨(), _, perform_await held all, rfl, Undisturbed base members (some taken) cache,
            undisturbed.withLocks polled, meets_captureAll base cache othersFree writes conclude (.claim claim) order⟩

theorem interrupt_now {α : Type} (service : Service) (gaps : List (List Mutation)) (order : List Nat)
    (next : Instant → Routine α) :
    service.interrupt gaps ((Routine.now >>= next).spread order) =
      service.interrupt gaps ((next service.clock).spread order) :=
  (interrupt_step rfl gaps _).trans (Ran.map_after_nil _)

theorem interrupt_activeMembers {α : Type} (service : Service) (gaps : List (List Mutation)) (order : List Nat)
    (group : String) (time : Instant) (next : Except StoreError PlayerSet → Routine α) :
    service.interrupt gaps ((Routine.call (.activeMembers group time) >>= next).spread order) =
      service.meetWhere Effect.writesGroup gaps ((next (.ok (service.store.activeMembers group time))).spread order) :=
  (interrupt_step rfl gaps _).trans (Ran.map_after_nil _)

theorem interrupt_changeGroup (idle : Idle base.locks) (synced : cache.InSync base.store base.clock)
    {write : Routine (Except StoreError Outcome)} (writes : WritesGroup write) (group reason : String)
    (dimensions : Dimensions) (order : List Nat) {gaps : List (List Mutation)}
    (outside : ∀ mutation ∈ gaps.flatten, mutation.Outside (base.store.activeMembers group base.clock)) :
    ∃ met, base.interrupt gaps ((changeGroup group reason dimensions write).spread order) = some met ∧
      AtWrite base (base.store.activeMembers group base.clock) cache write
        (concludeGroup group reason dimensions (base.store.activeMembers group base.clock)) order met.value met.service
        met.events := by
  have meets := meets_withLocks (base.store.activeMembers group base.clock) cache idle writes
    (concludeGroup group reason dimensions (base.store.activeMembers group base.clock)) order
  obtain ⟨met, reached, atWrite⟩ := meets base [] gaps outside ⟨.refl base _, synced⟩
  refine ⟨met, ?_, atWrite⟩
  rw [changeGroup_eq, interrupt_now]
  exact (interrupt_activeMembers base gaps order group base.clock _).trans reached

/-- What becomes of a group write among others. `met` is what it comes to up to the write, `ran` what follows. The write
and its news are about the store that it meets, and the consumer is in sync until then. -/
structure Overtaken (base : Service) (cache : Cache) (members : PlayerSet) (group reason : String)
    (dimensions : Dimensions) (effect : Store → Store.Write) (met : Ran (Routine (Except EngineError Outcome)))
    (ran : Ran (Except EngineError Outcome)) : Prop where
  synced : (cache.applyAll met.events).InSync met.service.store met.service.clock
  value : ran.value = (effect met.service.store).1.mapError .store
  store : ran.service.store = (effect met.service.store).2
  clock : ran.service.clock = met.service.clock
  news : ran.events.map ChangeEvent.toAnnouncement =
    if Outcome.isEmitted (effect met.service.store).1 then
      groupNews group reason dimensions members (met.service.store.snapshot · met.service.clock)
        (effect met.service.store).2 met.service.clock
    else []

theorem overtaken_changeGroup (idle : Idle base.locks) (synced : cache.InSync base.store base.clock)
    (write : Routine (Except StoreError Outcome)) (effect : Store → Store.Write) (writesGroup : WritesGroup write)
    (writes : Writes write effect) (group reason : String) (dimensions : Dimensions) (order : List Nat)
    {gaps : List (List Mutation)}
    (outside : ∀ mutation ∈ gaps.flatten, mutation.Outside (base.store.activeMembers group base.clock)) :
    ∃ met ran, base.interrupt gaps ((changeGroup group reason dimensions write).spread order) = some met ∧
      met.service.complete met.value = some ran ∧
      Overtaken base cache (base.store.activeMembers group base.clock) group reason dimensions effect met ran := by
  obtain ⟨met, interrupted, held, ending, undisturbed, _, unlocks, left⟩ :=
    interrupt_changeGroup idle synced writesGroup group reason dimensions order outside
  let members := base.store.activeMembers group base.clock
  have concluded : met.service.Achieves
      (write >>= concludeGroup group reason dimensions members (members.toList.map fun player =>
        some (met.service.store.snapshot player met.service.clock)))
      ((effect met.service.store).1.mapError .store) (effect met.service.store).2
      (if Outcome.isEmitted (effect met.service.store).1 then
        groupNews group reason dimensions members (met.service.store.snapshot · met.service.clock)
          (effect met.service.store).2 met.service.clock
      else []) :=
    Achieves.bind_of_quiet (writes.achieves met.service) fun locks _ =>
      achieves_concludeGroup { met.service with store := (effect met.service.store).2, locks } group reason dimensions
        members (met.service.store.snapshot · met.service.clock) (effect met.service.store).1
  obtain ⟨ran, completed, value, store, clock, news⟩ := unlocks.complete concluded
  -- what is left of the routine is still spread, which makes no difference when it runs alone
  exact ⟨met, ran, interrupted, by rw [left, complete_spread, completed], undisturbed.synced, value, store, clock, news⟩

end Service

end PermissionFeed
