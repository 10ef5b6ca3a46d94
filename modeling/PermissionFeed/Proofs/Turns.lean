import PermissionFeed.Proofs.Mutations
import PermissionFeed.Proofs.SideBySide

namespace PermissionFeed.Engine

inductive Settles (claim : ClaimId) : Routine (Except EngineError Outcome) → Prop where
  | release (result : Except EngineError Outcome) : Settles claim (.step (.release claim) fun _ => .done result)

inductive Tells (player : PlayerId) (claim : ClaimId) (time : Instant) (before : Snapshot) (view : Store) :
    Routine (Except EngineError Outcome) → Prop where
  | clock {next : Instant → Routine (Except EngineError Outcome)}
      (rest : Tells player claim time before view (next time)) :
      Tells player claim time before view (.step .readClock next)
  | ask {call : StoreCall} {next : Except StoreError call.Answer → Routine (Except EngineError Outcome)}
      (answer : Except StoreError call.Answer) (reads : ∀ store, Store.Alike player store view →
        call.run store = (answer, store)) (asked : Effect.asksOfPlayer (.call call))
      (rest : Tells player claim time before view (next answer)) :
      Tells player claim time before view (.step (.call call) next)
  | publish {next : EventId × Nat → Routine (Except EngineError Outcome)} (reason : String)
      (settles : ∀ answer, Settles claim (next answer)) :
      Tells player claim time before view
        (.step (.publish (.ofDelta player reason (.between before (view.snapshot player time) .all) time)) next)
  | silent {routine : Routine (Except EngineError Outcome)} (same : before = view.snapshot player time)
      (settles : Settles claim routine) : Tells player claim time before view routine

inductive Reads (player : PlayerId) (claim : ClaimId) (time : Instant) (view : Store) :
    Routine (Except EngineError Outcome) → Prop where
  | clock {next : Instant → Routine (Except EngineError Outcome)} (rest : Reads player claim time view (next time)) :
      Reads player claim time view (.step .readClock next)
  | ask {call : StoreCall} {next : Except StoreError call.Answer → Routine (Except EngineError Outcome)}
      (answer : Except StoreError call.Answer) (reads : ∀ store, Store.Alike player store view →
        call.run store = (answer, store)) (asked : Effect.asksOfPlayer (.call call))
      (rest : Reads player claim time view (next answer)) : Reads player claim time view (.step (.call call) next)
  | write {call : StoreCall} {next : Except StoreError call.Answer → Routine (Except EngineError Outcome)}
      (effect : Store → Store.Write) (writes : Effect.writesPlayer (.call call))
      (only : ∀ store, Store.OnlyPlayer player store (effect store).2)
      (written : ∀ store, call.run store = ((call.run store).1, (effect store).2))
      (rest : ∀ store, Store.Alike player store view →
        Tells player claim time (view.snapshot player time) (effect store).2 (next (call.run store).1)) :
      Reads player claim time view (.step (.call call) next)

inductive Waits (player : PlayerId) (claim : ClaimId) (time : Instant) :
    Routine (Except EngineError Outcome) → Prop where
  | await {next : Unit → Routine (Except EngineError Outcome)}
      (reads : ∀ view, Reads player claim time view (next ())) :
      Waits player claim time (.step (.await claim) next)

inductive Starts (player : PlayerId) (time : Instant) : Routine (Except EngineError Outcome) → Prop where
  | refused (error : EngineError) : Starts player time (.done (.error error))
  | clock {next : Instant → Routine (Except EngineError Outcome)} (rest : Starts player time (next time)) :
      Starts player time (.step .readClock next)
  | request {next : Option ClaimId → Routine (Except EngineError Outcome)}
      (waits : ∀ claim, Waits player claim time (next (some claim))) :
      Starts player time (.step (.request [player]) next)

variable {player : PlayerId} {claim : ClaimId} {time : Instant} {before : Snapshot} {store view : Store}
  {routine : Routine (Except EngineError Outcome)}

theorem Tells.of_alike (tells : Tells player claim time before view routine) (alike : store.Alike player view) :
    Tells player claim time before store routine := by
  induction tells with
  | clock rest ih => exact .clock ih
  | ask answer reads asked rest ih =>
      exact .ask answer (fun other same => reads other (same.trans alike)) asked ih
  | publish reason settles =>
      rw [← alike.snapshot time]
      exact .publish reason settles
  | silent same settles => exact .silent (same.trans (alike.snapshot time).symm) settles

theorem Reads.of_alike (reads : Reads player claim time view routine) (alike : store.Alike player view) :
    Reads player claim time store routine := by
  induction reads with
  | clock rest ih => exact .clock ih
  | ask answer reads asked rest ih =>
      exact .ask answer (fun other same => reads other (same.trans alike)) asked ih
  | write effect writes only written rest =>
      refine .write effect writes only written fun other same => ?_
      rw [alike.snapshot time]
      exact rest other (same.trans alike)

theorem asks_capture (view : Store) (player : PlayerId) (time : Instant) :
    (Routine.inquire (.snapshot player .full time) >>= fun result => return result.toOption).Asks
      (Store.Alike player · view) (some (view.snapshot player time)) :=
  .bind (.snapshot (fun _ alike => alike) time) (.done _)

theorem Tells.of_asks {α : Type} {routine : Routine α} {value : α} {next : α → Routine (Except EngineError Outcome)}
    (asks : routine.Asks (Store.Alike player · view) value) (rest : Tells player claim time before view (next value)) :
    Tells player claim time before view (routine >>= next) := by
  induction asks with
  | done value => exact rest
  | step answer reads asked later ih => exact .ask answer reads asked (ih rest)

theorem Tells.capture {next : Option Snapshot → Routine (Except EngineError Outcome)}
    (rest : Tells player claim time before view (next (some (view.snapshot player time)))) :
    Tells player claim time before view (Engine.capture player >>= next) :=
  .clock (.of_asks (asks_capture view player time) rest)

theorem Reads.of_asks {α : Type} {routine : Routine α} {value : α} {next : α → Routine (Except EngineError Outcome)}
    (asks : routine.Asks (Store.Alike player · view) value) (rest : Reads player claim time view (next value)) :
    Reads player claim time view (routine >>= next) := by
  induction asks with
  | done value => exact rest
  | step answer reads asked later ih => exact .ask answer reads asked (ih rest)

theorem Reads.capture {next : Option Snapshot → Routine (Except EngineError Outcome)}
    (rest : Reads player claim time view (next (some (view.snapshot player time)))) :
    Reads player claim time view (Engine.capture player >>= next) :=
  .clock (.of_asks (asks_capture view player time) rest)

theorem tells_emitDelta (store view : Store) (reason : String) (result : Except EngineError Outcome) :
    Tells player claim time (store.snapshot player time) view
      (discard (emitDelta player reason (some (store.snapshot player time)) (some (view.snapshot player time)) .all) >>=
        fun _ => .step (.release claim) fun _ => .done result) := by
  have difference : Delta.between? (some (store.snapshot player time)) (some (view.snapshot player time)) .all =
      some (.between (store.snapshot player time) (view.snapshot player time) .all) := rfl
  unfold emitDelta
  rw [difference]
  simp only
  split
  · next empty => exact .silent (Store.isEmpty_between_iff.mp empty) (.release result)
  · exact .clock (.publish reason fun _ => .release result)

def concludePlayer (player : PlayerId) (reason : String) (before : Option Snapshot) :
    Except StoreError Outcome → Routine (Except EngineError Outcome)
  | .error error => return .error (.store error)
  | .ok outcome => do
      if outcome.emits then
        let after ← capture player
        discard (emitDelta player reason before after .all)
      return .ok outcome

theorem changePlayer_eq (player : PlayerId) (reason : String) (write : Routine (Except StoreError Outcome)) :
    changePlayer player reason write = Routine.withLocks [player]
      (capture player >>= fun before => write >>= concludePlayer player reason before) :=
  rfl

theorem tells_concludePlayer {effect : Store → Store.Write} (reports : store.Reports (effect store)) (reason : String) :
    Tells player claim time (store.snapshot player time) (effect store).2
      (concludePlayer player reason (some (store.snapshot player time)) (effect store).1 >>=
        fun result => .step (.release claim) fun _ => .done result) := by
  have quiet (silent : Outcome.isEmitted (effect store).1 = false) :
      store.snapshot player time = (effect store).2.snapshot player time := by
    rw [reports silent]
  cases written : (effect store).1 with
  | error error => exact .silent (quiet (by rw [written]; rfl)) (.release _)
  | ok outcome =>
      cases emits : outcome.emits with
      | false =>
          simp only [concludePlayer, emits]
          exact .silent (quiet (by rw [written]; exact emits)) (.release _)
      | true =>
          simp only [concludePlayer, emits]
          change Tells _ _ _ _ _ ((capture player >>= fun after =>
            discard (emitDelta player reason (some (store.snapshot player time)) after .all) >>= fun _ =>
              return (.ok outcome : Except EngineError Outcome)) >>= _)
          rw [Routine.bind_assoc]
          refine .capture ?_
          rw [Routine.bind_assoc]
          exact tells_emitDelta store (effect store).2 reason (.ok outcome)

theorem reads_changePlayer {reason : String} {write : Routine (Except StoreError Outcome)}
    {effect : Store → Store.Write} (playerWrite : PlayerWrite player write effect) (claim : ClaimId) (time : Instant)
    (view : Store) : Reads player claim time view
      ((capture player >>= fun before => write >>= concludePlayer player reason before) >>=
        fun result => .step (.release claim) fun _ => .done result) := by
  obtain ⟨call, next, rfl, writes, written⟩ := playerWrite.atOnce
  rw [Routine.bind_assoc]
  refine .capture (.write effect writes playerWrite.only (fun store => (written store).1) fun store alike => ?_)
  rw [← alike.snapshot time]
  simp only [(written store).2]
  exact tells_concludePlayer (playerWrite.reports store) reason

theorem starts_playerMutation {mutation : Mutation} (concerns : mutation.player? = some player) (time : Instant) :
    Starts player time mutation.routine := by
  have checks := checks_playerMutation concerns
  generalize mutation.routine = routine at checks
  induction checks with
  | refused error => exact .refused error
  | reads rest ih => exact .clock (ih time)
  | passed changes =>
      obtain ⟨reason, write, effect, playerWrite, rfl⟩ := changes
      rw [changePlayer_eq]
      exact .request fun claim => .await (reads_changePlayer playerWrite claim time)

end PermissionFeed.Engine
