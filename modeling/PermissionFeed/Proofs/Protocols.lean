import PermissionFeed.Proofs.Scans
import PermissionFeed.Proofs.SideBySide

/-!
# Protocols

A protocol says which effects a routine may perform in a state, and to which state their answers lead. A routine that
obeys a lenient protocol also obeys it when its store calls fail and when its snapshots are read side by side
(`Routine.Obeys.failing`, `Routine.Obeys.spread`). What every allowed effect preserves holds at its end
(`Service.complete_of_obeys`).
-/

namespace PermissionFeed

structure Protocol (σ : Type) where
  allows : σ → Effect → Prop
  after : σ → (effect : Effect) → effect.Answer → σ

namespace Protocol

variable {σ : Type}

def Ignores (protocol : Protocol σ) (state : σ) (effect : Effect) : Prop :=
  protocol.allows state effect ∧ ∀ answer, protocol.after state effect answer = state

structure Lenient (protocol : Protocol σ) : Prop where
  fails : ∀ (state : σ) (call : StoreCall) (error : StoreError),
    protocol.after state (.call call) (Except.error error : Except StoreError call.Answer) = state
  asks : ∀ (state : σ) (effect : Effect), effect.asksOfPlayer → protocol.Ignores state effect
  captures : ∀ (state : σ) (players : List PlayerId) (time : Instant), protocol.Ignores state (.capture players time)

end Protocol

namespace Routine

/-- From a state on, the routine performs what is allowed, and it ends in a state that fits its value. -/
inductive Obeys {σ α : Type} (protocol : Protocol σ) (ends : σ → α → Prop) : σ → Routine α → Prop where
  | done {state : σ} {value : α} (ended : ends state value) : Obeys protocol ends state (.done value)
  | step {state : σ} {effect : Effect} {next : effect.Answer → Routine α} (allowed : protocol.allows state effect)
      (rest : ∀ answer, Obeys protocol ends (protocol.after state effect answer) (next answer)) :
      Obeys protocol ends state (.step effect next)

variable {σ α β : Type}

theorem only_inquireAll {kind : Effect → Prop} {inquiries : List (Inquiry α)}
    (each : ∀ inquiry ∈ inquiries, (inquire inquiry).Only kind) : (inquireAll inquiries).Only kind := by
  induction inquiries with
  | nil => exact .done _
  | cons inquiry inquiries ih =>
      refine .bind (each inquiry List.mem_cons_self) fun _ => .bind (ih fun other listed => ?_) fun _ => .done _
      exact each other (List.mem_cons_of_mem _ listed)

theorem only_sideBySide {kind : Effect → Prop} {inquiries : List (Inquiry α)}
    (each : ∀ inquiry ∈ inquiries, (inquire inquiry).Only kind) (order : List Nat) :
    (sideBySide order inquiries).Only kind := by
  induction order generalizing inquiries with
  | nil => exact only_inquireAll each
  | cons place order ih =>
      unfold sideBySide
      split
      · next call next placed =>
          cases each _ (List.mem_of_getElem? placed) with
          | step first rest =>
              refine .step first fun answer => ih fun inquiry listed => ?_
              rcases List.mem_or_eq_of_mem_set listed with untouched | rfl
              · exact each inquiry untouched
              · exact rest answer
      · exact ih each

theorem only_snapshot {kind : Effect → Prop} (asks : ∀ effect : Effect, effect.asksOfPlayer → kind effect)
    (player : PlayerId) (time : Instant) : (inquire (.snapshot player .full time)).Only kind := by
  refine .step (asks _ rfl) fun grants => ?_
  cases grants with
  | error error => exact .done _
  | ok grants =>
      refine .step (asks _ rfl) fun memberships => ?_
      cases memberships with
      | error error => exact .done _
      | ok memberships =>
          refine .step (asks _ rfl) fun inherited => ?_
          cases inherited with
          | error error => exact .done _
          | ok inherited => exact .done _

namespace Obeys

variable {protocol : Protocol σ} {ends : σ → α → Prop} {concludes : σ → β → Prop} {state : σ}

theorem bind {routine : Routine α} {next : α → Routine β} (begins : Obeys protocol ends state routine)
    (rest : ∀ reached value, ends reached value → Obeys protocol concludes reached (next value)) :
    Obeys protocol concludes state (routine >>= next) := by
  induction begins with
  | done ended => exact rest _ _ ended
  | step allowed _ ih => exact .step allowed ih

theorem of_only {routine : Routine α} (only : routine.Only (protocol.Ignores state)) :
    Obeys protocol (fun reached _ => reached = state) state routine := by
  induction only with
  | done value => exact .done rfl
  | step first _ ih =>
      refine .step first.1 fun answer => ?_
      rw [first.2]
      exact ih answer

theorem only_bind {routine : Routine α} {next : α → Routine β} (only : routine.Only (protocol.Ignores state))
    (rest : ∀ value, Obeys protocol concludes state (next value)) :
    Obeys protocol concludes state (routine >>= next) := by
  refine (of_only only).bind fun reached value same => ?_
  subst same
  exact rest value

theorem failing (lenient : protocol.Lenient) {routine : Routine α} (obeys : Obeys protocol ends state routine)
    (failures : List (Option StoreError)) : Obeys protocol ends state (routine.failing failures) := by
  induction obeys generalizing failures with
  | done ended =>
      cases failures with
      | nil => exact .done ended
      | cons failure failures => exact .done ended
  | @step state effect next allowed rest ih =>
      cases effect with
      | call call =>
          rcases failures with _ | ⟨_ | error, failures⟩
          · exact .step allowed fun answer => ih answer []
          · exact .step allowed fun answer => ih answer failures
          -- the call is left out
          · have left := ih (Except.error error : Except StoreError call.Answer) failures
            rw [lenient.fails] at left
            exact left
      | _ => exact .step allowed fun answer => ih answer failures

theorem spread (lenient : protocol.Lenient) {routine : Routine α} (obeys : Obeys protocol ends state routine)
    (order : List Nat) : Obeys protocol ends state (routine.spread order) := by
  induction obeys with
  | done ended => exact .done ended
  | @step state effect next allowed rest ih =>
      cases effect with
      | capture players time =>
          have asks : (Routine.sideBySide order (players.map fun player => .snapshot player .full time)).Only
              (protocol.Ignores state) := by
            refine only_sideBySide (fun inquiry listed => ?_) order
            obtain ⟨player, _, rfl⟩ := List.mem_map.mp listed
            exact only_snapshot (lenient.asks state) player time
          refine only_bind asks fun answers => ?_
          have stays := (lenient.captures state players time).2 (answers.map Except.toOption)
          have left := ih (answers.map Except.toOption)
          rwa [stays] at left
      | _ => exact .step allowed ih

end Obeys

end Routine

namespace Engine

variable {kind : Effect → Prop}

theorem only_capture (reads : kind .readClock) (asks : ∀ effect : Effect, effect.asksOfPlayer → kind effect)
    (player : PlayerId) : (capture player).Only kind :=
  .bind (.perform reads) fun time => .bind (Routine.only_snapshot asks player time) fun _ => .done _

theorem only_captureAll (reads : kind .readClock) (captures : ∀ players time, kind (.capture players time))
    (players : List PlayerId) : (captureAll players).Only kind :=
  .step reads fun _ => .perform (captures _ _)

theorem only_emitDelta (reads : kind .readClock) (publishes : ∀ announcement, kind (.publish announcement))
    (player : PlayerId) (reason : String) (before after : Option Snapshot) (dimensions : Dimensions) :
    (emitDelta player reason before after dimensions).Only kind := by
  unfold emitDelta
  split
  · exact .step reads fun _ => .step (publishes _) fun _ => .done _
  · split
    · exact .done _
    · exact .step reads fun _ => .step (publishes _) fun _ => .done _

theorem only_emitDeltas (reads : kind .readClock) (publishes : ∀ announcement, kind (.publish announcement))
    (reason : String) (dimensions : Dimensions) (players : List PlayerId) (befores afters : List (Option Snapshot)) :
    (emitDeltas reason dimensions players befores afters).Only kind := by
  induction players generalizing befores afters with
  | nil => exact .done _
  | cons player players ih =>
      rcases befores with _ | ⟨before, befores⟩
      · exact .done _
      · rcases afters with _ | ⟨after, afters⟩
        · exact .done _
        · exact .bind (.bind (only_emitDelta reads publishes player reason before after dimensions) fun _ => .done _)
            fun _ => ih befores afters

theorem only_refreshLateJoiners (reads : kind .readClock) (publishes : ∀ announcement, kind (.publish announcement))
    (members : ∀ group time, kind (.call (.activeMembers group time))) (group reason : String) (known : PlayerSet) :
    (refreshLateJoiners group reason known).Only kind := by
  refine .step reads fun time => .step (members group time) fun answer => ?_
  cases answer with
  | error error => exact .done _
  | ok current => exact only_emitRefreshes kind reads publishes _ reason

end Engine

theorem Service.complete_of_obeys {σ α : Type} {protocol : Protocol σ} {ends : σ → α → Prop}
    {invariant : σ → Service → List ChangeEvent → Prop}
    (performs : ∀ (state : σ) (effect : Effect) (service : Service) (log : List ChangeEvent),
      protocol.allows state effect → invariant state service log →
      ∃ answer after, service.perform effect = (some answer, after) ∧
        invariant (protocol.after state effect answer) after (log ++ service.announced effect))
    {routine : Routine α} {state : σ} (obeys : routine.Obeys protocol ends state) {service : Service}
    {log : List ChangeEvent} (holds : invariant state service log) :
    ∃ ran reached, service.complete routine = some ran ∧ ends reached ran.value ∧
      invariant reached ran.service (log ++ ran.events) := by
  induction obeys generalizing service log with
  | done ended =>
      refine ⟨⟨_, [], service⟩, _, rfl, ended, ?_⟩
      rwa [List.append_nil]
  | @step state effect next allowed rest ih =>
      obtain ⟨answer, after, performed, stepped⟩ := performs state effect service log allowed holds
      obtain ⟨ran, reached, completed, ended, last⟩ := ih answer stepped
      refine ⟨ran.after (service.announced effect), reached, ?_, ended, ?_⟩
      · rw [complete_step performed, completed]
        rfl
      · rwa [List.append_assoc] at last

end PermissionFeed
