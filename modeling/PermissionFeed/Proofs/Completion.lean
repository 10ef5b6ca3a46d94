import PermissionFeed.Proofs.Feeds
import PermissionFeed.Proofs.Locks
import PermissionFeed.Service

namespace PermissionFeed

theorem Routine.bind_pure {α : Type} (routine : Routine α) : routine >>= pure = routine := by
  induction routine with
  | done value => rfl
  | step effect rest ih => exact congrArg (step effect) (funext ih)

theorem Routine.bind_assoc {α β γ : Type} (routine : Routine α) (next : α → Routine β) (last : β → Routine γ) :
    routine >>= next >>= last = routine >>= fun value => next value >>= last := by
  induction routine with
  | done value => rfl
  | step effect rest ih => exact congrArg (step effect) (funext ih)

structure Ran (α : Type) where
  value : α
  events : List ChangeEvent
  service : Service

def Ran.after {α : Type} (ran : Ran α) (events : List ChangeEvent) : Ran α :=
  { ran with events := events ++ ran.events }

theorem Ran.map_after_nil {α : Type} (ran : Option (Ran α)) : ran.map (·.after []) = ran := by
  cases ran <;> rfl

namespace Service

def announced (service : Service) : Effect → List ChangeEvent
  | .publish announcement => [⟨announcement, service.ids.next.1⟩]
  | _ => []

/-- Runs a routine alone from start to end; nothing comes of it if it has to wait. -/
def complete {α : Type} (service : Service) : Routine α → Option (Ran α)
  | .done value => some ⟨value, [], service⟩
  | .step effect next =>
      match service.perform effect with
      | (some answer, after) => (after.complete (next answer)).map (·.after (service.announced effect))
      | (none, _) => none

theorem run_of_complete {α : Type} {service : Service} {routine : Routine α} {ran : Ran α}
    (completed : service.complete routine = some ran) : service.run routine = (some ran.value, ran.service) := by
  induction routine generalizing service ran with
  | done value =>
      obtain rfl := Option.some.inj completed
      rfl
  | step effect next ih =>
      unfold complete at completed
      unfold run
      rcases performed : service.perform effect with ⟨_ | answer, after⟩
      · simp [performed] at completed
      · rw [performed] at completed
        obtain ⟨rest, restCompleted, rfl⟩ := Option.map_eq_some_iff.mp completed
        have ran := ih answer restCompleted
        exact ran

theorem complete_step {α : Type} {service after : Service} {effect : Effect} {answer : effect.Answer}
    (performed : service.perform effect = (some answer, after)) (next : effect.Answer → Routine α) :
    service.complete (.step effect next) = (after.complete (next answer)).map (·.after (service.announced effect)) := by
  rw [complete, performed]

theorem complete_bind {α β : Type} {service : Service} {routine : Routine α} {ran : Ran α}
    (completed : service.complete routine = some ran) (next : α → Routine β) :
    service.complete (routine >>= next) = (ran.service.complete (next ran.value)).map (·.after ran.events) := by
  induction routine generalizing service ran with
  | done value =>
      obtain rfl := Option.some.inj completed
      change service.complete (next value) = _
      cases service.complete (next value) <;> rfl
  | step effect rest ih =>
      unfold complete at completed
      change service.complete (.step effect fun answer => (rest answer).bind next) = _
      rw [complete]
      rcases performed : service.perform effect with ⟨_ | answer, after⟩
      · simp [performed] at completed
      · rw [performed] at completed
        obtain ⟨middle, middleCompleted, rfl⟩ := Option.map_eq_some_iff.mp completed
        change (after.complete (rest answer >>= next)).map _ = _
        rw [ih answer middleCompleted, Option.map_map]
        congr 1
        funext last
        simp [Ran.after]

end Service

def EventId.Supply.stamp (ids : Supply) : List Announcement → List ChangeEvent
  | [] => []
  | first :: rest => ⟨first, ids.next.1⟩ :: ids.next.2.stamp rest

def EventId.Supply.skip (ids : Supply) (count : Nat) : Supply :=
  { ids with issued := ids.issued + count }

theorem EventId.Supply.stamp_append (ids : Supply) (first second : List Announcement) :
    ids.stamp (first ++ second) = ids.stamp first ++ (ids.skip first.length).stamp second := by
  induction first generalizing ids with
  | nil => rfl
  | cons announcement first ih =>
      have skipped : ids.next.2.skip first.length = ids.skip (announcement :: first).length := by
        simp [skip, next, Nat.add_comm, Nat.add_left_comm]
      simp [stamp, ih, skipped]

theorem EventId.Supply.map_stamp (ids : Supply) (news : List Announcement) :
    (ids.stamp news).map ChangeEvent.toAnnouncement = news := by
  induction news generalizing ids with
  | nil => rfl
  | cons announcement news ih => simp [stamp, ih]

namespace Service

def settle (service : Service) (store : Store) (locks : Option LockTable) (news : List Announcement) : Service :=
  { service with
    store
    locks
    feed := service.feed.publishAll (service.ids.stamp news)
    ids := service.ids.skip news.length }

theorem settle_settle (service : Service) (store later : Store) (locks laterLocks : Option LockTable)
    (first second : List Announcement) :
    (service.settle store locks first).settle later laterLocks second =
      service.settle later laterLocks (first ++ second) := by
  simp [settle, EventId.Supply.stamp_append, Feed.publishAll_append, EventId.Supply.skip, Nat.add_assoc]

def LocksAgree : Option LockTable → Option LockTable → Prop
  | some table, some base => table.Agrees base
  | none, none => True
  | _, _ => False

theorem LocksAgree.refl (locks : Option LockTable) : LocksAgree locks locks := by
  cases locks with
  | none => trivial
  | some table => exact LockTable.Agrees.refl table

theorem LocksAgree.trans {locks middle base : Option LockTable} (first : LocksAgree locks middle)
    (second : LocksAgree middle base) : LocksAgree locks base := by
  cases locks <;> cases middle <;> cases base <;> simp only [LocksAgree] at *
  exact LockTable.Agrees.trans first second

theorem LocksAgree.isSome {locks base : Option LockTable} (agree : LocksAgree locks base) :
    locks.isSome = base.isSome := by
  cases locks <;> cases base <;> first | rfl | exact agree.elim

def AllFree (locks : Option LockTable) (players : List PlayerId) : Prop :=
  ∀ table, locks = some table → table.Sound ∧ ∀ player ∈ players, table.IsFree player

theorem AllFree.of_agree {locks base : Option LockTable} {players : List PlayerId} (free : AllFree base players)
    (agree : LocksAgree locks base) : AllFree locks players := by
  rintro table rfl
  cases base with
  | none => exact agree.elim
  | some base =>
      obtain ⟨sound, free⟩ := free base rfl
      exact ⟨LockTable.Agrees.sound agree sound, fun player listed => LockTable.Agrees.isFree agree (free player listed)⟩

/-- The routine ends with a value, leaves a store behind, publishes news, and ends the claims that it makes. -/
def Achieves {α : Type} (service : Service) (routine : Routine α) (value : α) (store : Store)
    (news : List Announcement) : Prop :=
  ∃ locks, LocksAgree locks service.locks ∧
    service.complete routine = some ⟨value, service.ids.stamp news, service.settle store locks news⟩

namespace Achieves

variable {α β : Type} {service : Service}

theorem run {routine : Routine α} {value : α} {store : Store} {news : List Announcement}
    (achieves : service.Achieves routine value store news) :
    ∃ locks, LocksAgree locks service.locks ∧ service.run routine = (some value, service.settle store locks news) := by
  obtain ⟨locks, agree, completed⟩ := achieves
  exact ⟨locks, agree, run_of_complete completed⟩

theorem pure (service : Service) (value : α) : service.Achieves (pure value) value service.store [] :=
  ⟨service.locks, .refl _, rfl⟩

theorem bind {routine : Routine α} {next : α → Routine β} {value : α} {result : β} {middle store : Store}
    {first second : List Announcement} (begins : service.Achieves routine value middle first)
    (ends : ∀ locks, LocksAgree locks service.locks →
      (service.settle middle locks first).Achieves (next value) result store second) :
    service.Achieves (routine >>= next) result store (first ++ second) := by
  obtain ⟨locks, agree, completed⟩ := begins
  obtain ⟨laterLocks, laterAgree, laterCompleted⟩ := ends locks agree
  refine ⟨laterLocks, laterAgree.trans agree, ?_⟩
  rw [complete_bind completed, laterCompleted]
  rw [settle_settle, EventId.Supply.stamp_append]
  rfl

theorem bind_of_quiet {routine : Routine α} {next : α → Routine β} {value : α} {result : β} {middle store : Store}
    {news : List Announcement} (begins : service.Achieves routine value middle [])
    (ends : ∀ locks, LocksAgree locks service.locks →
      ({ service with store := middle, locks } : Service).Achieves (next value) result store news) :
    service.Achieves (routine >>= next) result store news :=
  begins.bind ends

theorem bind_of_silent {routine : Routine α} {next : α → Routine β} {value : α} {result : β} {store : Store}
    {news : List Announcement} (begins : service.complete routine = some ⟨value, [], service⟩)
    (ends : service.Achieves (next value) result store news) : service.Achieves (routine >>= next) result store news := by
  obtain ⟨locks, agree, completed⟩ := ends
  refine ⟨locks, agree, ?_⟩
  rw [complete_bind begins, completed]
  rfl

theorem andReturn {routine : Routine α} {value : α} {store : Store} {news : List Announcement}
    (achieves : service.Achieves routine value store news) (result : β) :
    service.Achieves (routine >>= fun _ => return result) result store news := by
  have ended : service.Achieves (routine >>= fun _ => return result) result store (news ++ []) :=
    achieves.bind fun locks _ => .pure _ result
  rwa [List.append_nil] at ended

end Achieves

theorem with_locks {service : Service} {table : LockTable} (kept : service.locks = some table) :
    { service with locks := some table } = service := by
  rw [← kept]

theorem perform_call {service : Service} {call : StoreCall} {answer : Except StoreError call.Answer}
    (reads : call.run service.store = (answer, service.store)) :
    service.perform (.call call) = (some answer, service) := by
  simp only [perform, reads]
  rfl

theorem perform_request_of_unkept {service : Service} (unkept : service.locks = none) (players : List PlayerId) :
    service.perform (.request players) = (some none, service) := by
  simp only [perform, unkept]
  rfl

theorem perform_request_of_kept {service : Service} {table : LockTable} (kept : service.locks = some table)
    (players : List PlayerId) :
    service.perform (.request players) =
      (some (some (table.request players).1), { service with locks := some (table.request players).2 }) := by
  simp only [perform, kept]
  rfl

theorem perform_await {service : Service} {table : LockTable} (kept : service.locks = some table) {claim : ClaimId}
    (granted : (table.poll claim).1 = true) :
    service.perform (.await claim) = (some (), { service with locks := some (table.poll claim).2 }) := by
  simp only [perform, poll, kept, granted, if_true]
  rfl

theorem perform_publish (service : Service) (announcement : Announcement) :
    service.perform (.publish announcement) =
      (some (service.publish announcement).1, (service.publish announcement).2) :=
  rfl

theorem isSome_perform (service : Service) {effect : Effect} (free : ∀ claim, effect ≠ .await claim) :
    (service.perform effect).1.isSome := by
  cases effect with
  | await claim => exact absurd rfl (free claim)
  | request players =>
      simp only [perform]
      split <;> rfl
  | _ => rfl

theorem complete_now (service : Service) : service.complete Routine.now = some ⟨service.clock, [], service⟩ :=
  rfl

theorem complete_call (service : Service) (call : StoreCall) :
    service.complete (Routine.call call) =
      some ⟨(call.run service.store).1, [], { service with store := (call.run service.store).2 }⟩ :=
  rfl

theorem achieves_call (service : Service) (call : StoreCall) :
    service.Achieves (Routine.call call) (call.run service.store).1 (call.run service.store).2 [] :=
  ⟨service.locks, .refl _, rfl⟩

theorem achieves_withLocks {α : Type} {service : Service} {players : List PlayerId} {body : Routine α} {value : α}
    {store : Store} {news : List Announcement} (free : AllFree service.locks players)
    (inside : ∀ locks, ({ service with locks } : Service).Achieves body value store news) :
    service.Achieves (Routine.withLocks players body) value store news := by
  -- without locks the body runs as it is, else the claim is granted at once
  cases kept : service.locks with
  | none =>
      have unlocked : service.complete (Routine.withLocks players body) = (service.complete body).map (·.after []) :=
        complete_step (perform_request_of_unkept kept players) _
      obtain ⟨locks, agree, completed⟩ := inside service.locks
      refine ⟨locks, agree, ?_⟩
      rw [unlocked, completed]
      rfl
  | some base =>
      obtain ⟨sound, listedFree⟩ := free base kept
      have granted := LockTable.request_of_isFree sound listedFree
      have requested := perform_request_of_kept kept players
      generalize base.request players = claimed at granted requested
      obtain ⟨claim, table⟩ := claimed
      obtain ⟨all, polled⟩ := granted.poll_agrees (.refl _)
      have awaited : ({ service with locks := some table } : Service).perform (.await claim) =
          (some (), { service with locks := some (table.poll claim).2 }) := perform_await rfl all
      obtain ⟨locks, agree, completed⟩ := inside (some (table.poll claim).2)
      cases locks with
      | none => exact agree.elim
      | some later =>
          have released := granted.release_agrees sound (LockTable.Agrees.trans agree polled)
          refine ⟨some (later.release claim), kept ▸ released, ?_⟩
          let ending (result : α) : Routine α := .step (.release claim) fun _ => .done result
          calc service.complete (Routine.withLocks players body)
            _ = (({ service with locks := some table } : Service).complete
                  (.step (.await claim) fun _ => body >>= ending)).map (·.after []) := complete_step requested _
            _ = ((({ service with locks := some (table.poll claim).2 } : Service).complete
                  (body >>= ending)).map (·.after [])).map (·.after []) := by rw [complete_step awaited]; rfl
            _ = _ := by rw [complete_bind completed]; simp [ending, complete, perform, announced, Ran.after, settle]

end Service

end PermissionFeed
