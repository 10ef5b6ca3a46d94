import PermissionFeed.Proofs.Mutations
import PermissionFeed.Scanner

namespace PermissionFeed

inductive Routine.Only (kind : Effect → Prop) {α : Type} : Routine α → Prop where
  | done (value : α) : Only kind (.done value)
  | step {effect : Effect} {next : effect.Answer → Routine α} (first : kind effect)
      (rest : ∀ answer, Only kind (next answer)) : Only kind (.step effect next)

namespace Routine.Only

variable {kind : Effect → Prop} {α β : Type}

theorem bind {routine : Routine α} {next : α → Routine β} (begins : Only kind routine)
    (ends : ∀ value, Only kind (next value)) : Only kind (routine >>= next) := by
  induction begins with
  | done value => exact ends value
  | step first rest ih => exact .step first ih

theorem perform {effect : Effect} (first : kind effect) : Only kind (Routine.perform effect) :=
  .step first fun _ => .done _

theorem of_forall (every : ∀ effect, kind effect) (routine : Routine α) : Only kind routine := by
  induction routine with
  | done value => exact .done value
  | step effect next ih => exact .step (every effect) ih

end Routine.Only

theorem Engine.only_emitRefreshes (kind : Effect → Prop) (reads : kind .readClock)
    (publishes : ∀ announcement, kind (.publish announcement)) (players : List PlayerId) (reason : String) :
    (emitRefreshes players reason).Only kind := by
  induction players with
  | nil => exact .done _
  | cons player players ih => exact .bind (.step reads fun _ => .step (publishes _) fun _ => .done _) fun _ => ih

namespace Scanner

theorem only_membersOf (kind : Effect → Prop) (calls : ∀ call, kind (.call call)) (time : Instant)
    (groups : List String) (found : PlayerSet) : (membersOf time groups found).Only kind := by
  induction groups generalizing found with
  | nil => exact .done _
  | cons group groups ih =>
      refine .bind (.perform (calls _)) fun answer => ?_
      split
      · exact .done _
      · exact ih _

theorem only_affected (kind : Effect → Prop) (calls : ∀ call, kind (.call call)) (reads : kind .readClock)
    (window : Window) : (affected window).Only kind := by
  refine .bind (.bind (.perform (calls _)) fun direct => ?_) fun rows => ?_
  · split
    · exact .done _
    · refine .bind (.perform (calls _)) fun joined => ?_
      split <;> exact .done _
  · split
    · exact .done _
    · refine .bind (.perform (calls _)) fun groups => ?_
      split
      · exact .done _
      · exact .bind (.perform reads) fun time => only_membersOf kind calls _ _ _

end Scanner

namespace Service

theorem run_preserves {α : Type} {kind : Effect → Prop} (invariant : Service → Prop)
    (preserves : ∀ (service : Service) (effect : Effect), kind effect → invariant service →
      invariant (service.perform effect).2)
    {routine : Routine α} (only : routine.Only kind) {service : Service} (holds : invariant service) :
    invariant (service.run routine).2 := by
  induction only generalizing service with
  | done value => exact holds
  | @step effect next first rest ih =>
      have stepped := preserves service effect first holds
      unfold run
      rcases performed : service.perform effect with ⟨_ | answer, after⟩
      · rwa [performed] at stepped
      · rw [performed] at stepped
        exact ih answer stepped

/-! ## Locks -/

end Service

def Effect.IsUnlocked : Effect → Prop
  | .request _ | .await _ | .release _ => False
  | _ => True

namespace Service

theorem locks_perform (service : Service) {effect : Effect} (unlocked : effect.IsUnlocked) :
    (service.perform effect).2.locks = service.locks := by
  cases effect with
  | request players => exact unlocked.elim
  | await claim => exact unlocked.elim
  | release claim => exact unlocked.elim
  | capture players time => simp only [perform, capture_eq]
  | advance scanner last =>
      simp only [perform, advance]
      split <;> rfl
  | rewind scanner window =>
      simp only [perform, rewind]
      split <;> rfl
  | _ => rfl

theorem locks_run {α : Type} {routine : Routine α} (unlocked : routine.Only Effect.IsUnlocked) (service : Service) :
    (service.run routine).2.locks = service.locks :=
  run_preserves (fun after => after.locks = service.locks)
    (fun before _ unlocked same => (locks_perform before unlocked).trans same) unlocked rfl

theorem unlocked_subscribe (server : String) (lastEvent : Option String) :
    (Engine.subscribe server lastEvent).Only Effect.IsUnlocked := by
  refine .bind (.perform trivial) fun subscription => ?_
  split
  · exact .done _
  · refine .bind (.perform trivial) fun time => .bind (.perform trivial) fun answer => ?_
    split
    · exact .bind (.perform trivial) fun _ => .done _
    · exact .bind (Engine.only_emitRefreshes _ trivial (fun _ => trivial) _ _) fun _ => .done _

theorem unlocked_tick (scanner : Nat) : (Scanner.tick scanner).Only Effect.IsUnlocked := by
  refine .bind (.perform trivial) fun time => .bind (.perform trivial) fun window => ?_
  split
  · exact .done _
  · refine .bind (Scanner.only_affected _ (fun _ => trivial) trivial _) fun players => ?_
    split
    · exact .bind (.step trivial fun _ => .done _) fun _ => .done _
    · exact .bind (Engine.only_emitRefreshes _ trivial (fun _ => trivial) _ _) fun _ => .done _

theorem unlocked_startupRefresh : Scanner.startupRefresh.Only Effect.IsUnlocked := by
  refine .bind (.perform trivial) fun answer => ?_
  split
  · exact .done _
  · exact .bind (Engine.only_emitRefreshes _ trivial (fun _ => trivial) _ _) fun _ => .done _

/-! ## Feeds -/

def KeepsHistory (service : Service) : Prop :=
  ∃ history, service.feed.Holds history

theorem keepsHistory_publish {service : Service} (keeps : service.KeepsHistory) (announcement : Announcement) :
    (service.publish announcement).2.KeepsHistory := by
  obtain ⟨history, holds⟩ := keeps
  unfold publish
  simp only [KeepsHistory]
  cases heard : service.feed.subscriptions.isEmpty with
  | true => exact ⟨history, by rwa [Feed.publish_of_unheard heard]⟩
  | false => exact ⟨_, holds.publish heard _⟩

theorem keepsHistory_perform (service : Service) (effect : Effect) (keeps : service.KeepsHistory) :
    (service.perform effect).2.KeepsHistory := by
  obtain ⟨history, holds⟩ := keeps
  cases effect with
  | publish announcement => exact keepsHistory_publish ⟨history, holds⟩ announcement
  | attach server => exact ⟨history, holds.position, holds.kept⟩
  | detach subscription => exact ⟨history, holds.of_subscriptions _⟩
  | capture players time => simpa only [perform, capture_eq] using ⟨history, holds⟩
  | request players =>
      simp only [perform]
      split <;> exact ⟨history, holds⟩
  | await claim =>
      simp only [perform, poll]
      split <;> exact ⟨history, holds⟩
  | advance scanner last =>
      simp only [perform, advance]
      split <;> exact ⟨history, holds⟩
  | rewind scanner window =>
      simp only [perform, rewind]
      split <;> exact ⟨history, holds⟩
  | _ => exact ⟨history, holds⟩

theorem keepsHistory_run {α : Type} {service : Service} (keeps : service.KeepsHistory) (routine : Routine α) :
    (service.run routine).2.KeepsHistory :=
  have only : routine.Only fun _ => True := .of_forall (fun _ => trivial) routine
  run_preserves KeepsHistory (fun before effect _ => keepsHistory_perform before effect) only keeps

/-! ## Reachability -/

/-- The states between two requests. The store is shared, so calls that nobody announces also happen to it. -/
inductive Reachable (config : Config) : Service → Prop where
  | start (clock : Instant) (ids : EventId.Supply) : Reachable config (.start config .empty clock ids)
  | mutate {service : Service} (mutation : Mutation) : Reachable config service →
      Reachable config (service.run mutation.routine).2
  | subscribe {service : Service} (server : String) (lastEvent : Option String) : Reachable config service →
      Reachable config (service.run (Engine.subscribe server lastEvent)).2
  | receive {service : Service} (id : Nat) : Reachable config service →
      Reachable config { service with feed := (service.feed.receive id).2 }
  | unsubscribe {service : Service} (id : Nat) : Reachable config service →
      Reachable config { service with feed := service.feed.unsubscribe id }
  | publish {service : Service} (announcement : Announcement) : Reachable config service →
      Reachable config (service.publish announcement).2
  | newScanner {service : Service} : Reachable config service →
      Reachable config (service.newScanner config.bootstrap)
  | tick {service : Service} (scanner : Nat) : Reachable config service →
      Reachable config (service.run (Scanner.tick scanner)).2
  | startupRefresh {service : Service} : Reachable config service →
      Reachable config (service.run Scanner.startupRefresh).2
  | call {service : Service} (call : StoreCall) : Reachable config service →
      Reachable config { service with store := (call.run service.store).2 }
  | moveClock {service : Service} (time : Instant) : Reachable config service →
      Reachable config { service with clock := time }

namespace Reachable

variable {config : Config} {service : Service}

theorem idle (reachable : Reachable config service) : Idle service.locks := by
  induction reachable with
  | start clock ids =>
      intro players table kept
      cases serialized : config.serialize with
      | false => simp [Service.start, serialized] at kept
      | true =>
          obtain rfl : LockTable.empty = table := by simpa [Service.start, serialized] using kept
          refine ⟨⟨?_, ?_⟩, ?_⟩ <;> intros <;> simp_all [LockTable.empty, LockTable.IsFree]
  | mutate mutation _ idle =>
      obtain ⟨_, _, _, achieves, _⟩ := tells_mutation idle mutation
      obtain ⟨locks, agree, ran⟩ := achieves.run
      rw [ran]
      exact idle.of_agree agree
  | subscribe server lastEvent _ idle =>
      rw [locks_run (unlocked_subscribe server lastEvent)]
      exact idle
  | tick scanner _ idle =>
      rw [locks_run (unlocked_tick scanner)]
      exact idle
  | startupRefresh _ idle =>
      rw [locks_run unlocked_startupRefresh]
      exact idle
  | _ => assumption

theorem isSome_locks (reachable : Reachable config service) : service.locks.isSome = config.serialize := by
  induction reachable with
  | start clock ids =>
      simp only [Service.start]
      split <;> simp_all
  | mutate mutation before same =>
      obtain ⟨_, _, _, achieves, _⟩ := tells_mutation before.idle mutation
      obtain ⟨locks, agree, ran⟩ := achieves.run
      rw [ran]
      exact agree.isSome.trans same
  | subscribe server lastEvent _ same =>
      rw [locks_run (unlocked_subscribe server lastEvent)]
      exact same
  | tick scanner _ same =>
      rw [locks_run (unlocked_tick scanner)]
      exact same
  | startupRefresh _ same =>
      rw [locks_run unlocked_startupRefresh]
      exact same
  | _ => assumption

theorem holds (reachable : Reachable config service) : service.KeepsHistory := by
  induction reachable with
  | start clock ids => exact ⟨[], Feed.holds_ofCapacity _⟩
  | mutate mutation _ keeps => exact keepsHistory_run keeps _
  | subscribe server lastEvent _ keeps => exact keepsHistory_run keeps _
  | tick scanner _ keeps => exact keepsHistory_run keeps _
  | startupRefresh _ keeps => exact keepsHistory_run keeps _
  | publish announcement _ keeps => exact keepsHistory_publish keeps announcement
  | receive id _ keeps =>
      obtain ⟨history, holds⟩ := keeps
      refine ⟨history, ?_⟩
      unfold Feed.receive
      split
      · exact holds
      · exact holds.of_subscriptions _
  | unsubscribe id _ keeps =>
      obtain ⟨history, holds⟩ := keeps
      exact ⟨history, holds.of_subscriptions _⟩
  | _ => assumption

end Reachable

/-! ## A small service -/

def chief : PlayerId :=
  ⟨.replicate 16 1⟩

def newcomer : PlayerId :=
  ⟨.replicate 16 2⟩

def staffed : Service :=
  let created := ((start {} .empty 0 ⟨0, 0⟩).run (Mutation.createGroup "staff").routine).2
  let granted := (created.run (Mutation.addGroupPermissions "staff" [⟨"kick", none⟩]).routine).2
  (granted.run (Mutation.addPlayerGroups chief [⟨"staff", none⟩]).routine).2

theorem reachable_staffed : Reachable {} staffed :=
  .mutate _ (.mutate _ (.mutate _ (.start 0 ⟨0, 0⟩)))

def staffedCache : Cache :=
  .loadedFrom staffed.store staffed.clock staffed.store.playersWithAnyRows.toList

theorem inSync_staffedCache : staffedCache.InSync staffed.store staffed.clock :=
  Cache.inSync_loadedFrom (fun _ listed => Std.ExtTreeSet.mem_toList.mpr listed) _

end Service

end PermissionFeed
