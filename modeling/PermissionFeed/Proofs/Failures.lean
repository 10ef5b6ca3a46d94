import PermissionFeed.Proofs.Protocols

/-!
# Requests that fail

A mutation first checks its request, then writes once, and publishes only what it has written; so one that ends with an
error has neither written nor published, and it has released its locks (`Service.failure_changes_nothing`). A request
that is refused meets no store at all.
-/

namespace PermissionFeed

/-! ## Store calls -/

namespace StoreCall

def isWrite : StoreCall → Bool
  | addGrants .. | removeGrants .. | addMemberships .. | removeMemberships .. | addGroupGrants ..
  | removeGroupGrants .. | createGroup _ | deleteGroup _ => true
  | _ => false

theorem run_of_read {call : StoreCall} (read : call.isWrite = false) (store : Store) : (call.run store).2 = store := by
  cases call <;> first | rfl | simp [isWrite] at read

theorem run_of_error {call : StoreCall} {store : Store} {error : StoreError}
    (failed : (call.run store).1 = .error error) : (call.run store).2 = store := by
  cases call with
  | addMemberships player rows =>
      simp only [run, Store.addMemberships] at failed ⊢
      split at failed
      · rfl
      · contradiction
  | addGroupGrants group rows =>
      simp only [run, Store.addGroupGrants] at failed ⊢
      split at failed
      · rfl
      · contradiction
  | removeGroupGrants group names =>
      simp only [run, Store.removeGroupGrants] at failed
      split at failed <;> contradiction
  | createGroup name =>
      simp only [run, Store.createGroup] at failed
      split at failed <;> contradiction
  | deleteGroup name =>
      simp only [run, Store.deleteGroup] at failed
      split at failed <;> contradiction
  | _ => contradiction

end StoreCall

/-! ## The protocol of a request -/

inductive Hold where
  | free
  | waits (claim : ClaimId)
  | holds (claim : ClaimId)

structure Progress where
  hold : Hold
  written : Bool

def requests : Protocol Progress where
  allows
    | ⟨_, written⟩, .call call => call.isWrite → written = false
    | _, .capture .. | _, .readClock => True
    | ⟨_, written⟩, .publish _ => written = true
    | ⟨hold, _⟩, .request _ => hold = .free
    | ⟨hold, _⟩, .await claim => hold = .waits claim
    | ⟨hold, _⟩, .release claim => hold = .holds claim
    | _, _ => False
  after
    | ⟨hold, written⟩, .call call, .ok _ => ⟨hold, written || call.isWrite⟩
    | ⟨_, written⟩, .request _, some claim => ⟨.waits claim, written⟩
    | ⟨_, written⟩, .await claim, _ => ⟨.holds claim, written⟩
    | ⟨_, written⟩, .release _, _ => ⟨.free, written⟩
    | progress, _, _ => progress

theorem ignores_of_read {call : StoreCall} (read : call.isWrite = false) (progress : Progress) :
    requests.Ignores progress (.call call) := by
  refine ⟨fun write => by simp [read] at write, fun answer => ?_⟩
  cases answer with
  | error error => rfl
  | ok answer => simp [requests, read]

theorem lenient_requests : requests.Lenient where
  fails progress call error := rfl
  asks progress effect asks := by
    unfold Effect.asksOfPlayer at asks
    split at asks
    · exact ignores_of_read rfl progress
    · exact ignores_of_read rfl progress
    · exact ignores_of_read rfl progress
    · contradiction
  captures progress players time := ⟨trivial, fun _ => rfl⟩

namespace Service

/-! ## Locks on the way -/

def Taken (base locks : Option LockTable) (claim : ClaimId) : Prop :=
  ∃ before granted table players, LocksAgree (some before) base ∧ before.Sound ∧
    before.Granted claim players granted ∧ table.Agrees granted ∧ locks = some table

variable {base : Option LockTable} {table : LockTable} {claim : ClaimId}

theorem taken_request (idle : Idle base) (agree : LocksAgree (some table) base) (players : List PlayerId) :
    Taken base (some (table.request players).2) (table.request players).1 := by
  obtain ⟨sound, free⟩ := (idle players).of_agree agree table rfl
  exact ⟨table, _, _, _, agree, sound, LockTable.request_of_isFree sound free, .refl _, rfl⟩

theorem Taken.poll (taken : Taken base (some table) claim) :
    (table.poll claim).1 = true ∧ Taken base (some (table.poll claim).2) claim := by
  obtain ⟨before, granted, _, players, agree, sound, grants, agrees, ⟨⟩⟩ := taken
  obtain ⟨all, polled⟩ := grants.poll_agrees agrees
  exact ⟨all, before, granted, _, players, agree, sound, grants, polled, rfl⟩

theorem Taken.release (taken : Taken base (some table) claim) : LocksAgree (some (table.release claim)) base := by
  obtain ⟨before, granted, _, players, agree, sound, grants, agrees, ⟨⟩⟩ := taken
  have released : LocksAgree (some (table.release claim)) (some before) := grants.release_agrees sound agrees
  exact released.trans agree

theorem Taken.exists_table {locks : Option LockTable} (taken : Taken base locks claim) :
    ∃ table, locks = some table := by
  obtain ⟨_, _, table, _, _, _, _, _, kept⟩ := taken
  exact ⟨table, kept⟩

end Service

def Hold.Stands (base locks : Option LockTable) : Hold → Prop
  | .free => Service.LocksAgree locks base
  | .waits claim | .holds claim => Service.Taken base locks claim

structure Pending (start : Service) (progress : Progress) (service : Service) (log : List ChangeEvent) : Prop where
  unwritten : progress.written = false → log = [] ∧ service = { start with locks := service.locks }
  stands : progress.hold.Stands start.locks service.locks

namespace Pending

variable {base service after : Service} {progress : Progress} {log : List ChangeEvent}

theorem start (service : Service) : Pending service ⟨.free, false⟩ service [] where
  unwritten _ := ⟨rfl, rfl⟩
  stands := .refl _

theorem quietly {effect : Effect} (quiet : service.announced effect = []) (pending : Pending base progress after log) :
    Pending base progress after (log ++ service.announced effect) := by
  rwa [quiet, List.append_nil]

theorem call (pending : Pending base progress service log) (call : StoreCall) :
    Pending base (requests.after progress (.call call) (call.run service.store).1)
      { service with store := (call.run service.store).2 } log := by
  obtain ⟨hold, written⟩ := progress
  cases answered : (call.run service.store).1 with
  | error error =>
      rw [StoreCall.run_of_error answered]
      exact pending
  | ok answer =>
      refine ⟨fun unwritten => ?_, pending.stands⟩
      obtain ⟨before, read⟩ : written = false ∧ call.isWrite = false := by simpa [requests] using unwritten
      rw [StoreCall.run_of_read read]
      exact pending.unwritten before

theorem relock {hold : Hold} {locks : Option LockTable} (pending : Pending base progress service log)
    (stands : hold.Stands base.locks locks) :
    Pending base ⟨hold, progress.written⟩ { service with locks } log where
  unwritten unwritten := by
    obtain ⟨quiet, same⟩ := pending.unwritten unwritten
    exact ⟨quiet, by rw [same]⟩
  stands := stands

theorem perform (idle : Service.Idle base.locks) (pending : Pending base progress service log) {effect : Effect}
    (allowed : requests.allows progress effect) :
    ∃ answer after, service.perform effect = (some answer, after) ∧
      Pending base (requests.after progress effect answer) after (log ++ service.announced effect) := by
  cases effect with
  | call call => exact ⟨_, _, rfl, (pending.call call).quietly rfl⟩
  | capture players time => exact ⟨_, _, service.perform_capture players time, pending.quietly rfl⟩
  | readClock => exact ⟨_, _, rfl, pending.quietly rfl⟩
  | publish announcement =>
      obtain ⟨hold, written⟩ := progress
      obtain rfl : written = true := allowed
      exact ⟨_, _, rfl, nofun, pending.stands⟩
  | request players =>
      obtain ⟨hold, written⟩ := progress
      obtain rfl : hold = .free := allowed
      cases kept : service.locks with
      | none => exact ⟨_, _, Service.perform_request_of_unkept kept players, pending.quietly rfl⟩
      | some table =>
          have agree : Service.LocksAgree (some table) base.locks := kept ▸ pending.stands
          have waits : Hold.Stands base.locks (some (table.request players).2) (.waits (table.request players).1) :=
            Service.taken_request idle agree players
          exact ⟨_, _, Service.perform_request_of_kept kept players, (pending.relock waits).quietly rfl⟩
  | await claim =>
      obtain ⟨hold, written⟩ := progress
      obtain rfl : hold = .waits claim := allowed
      have taken : Service.Taken base.locks service.locks claim := pending.stands
      obtain ⟨table, kept⟩ := taken.exists_table
      obtain ⟨all, polled⟩ := (kept ▸ taken).poll
      have holds : Hold.Stands base.locks (some (table.poll claim).2) (.holds claim) := polled
      exact ⟨_, _, Service.perform_await kept all, (pending.relock holds).quietly rfl⟩
  | release claim =>
      obtain ⟨hold, written⟩ := progress
      obtain rfl : hold = .holds claim := allowed
      have taken : Service.Taken base.locks service.locks claim := pending.stands
      obtain ⟨table, kept⟩ := taken.exists_table
      have released : Hold.Stands base.locks (service.locks.map (·.release claim)) .free := by
        rw [kept] at taken ⊢
        exact taken.release
      exact ⟨_, _, rfl, (pending.relock released).quietly rfl⟩
  | _ => exact allowed.elim

theorem complete {α : Type} {ends : Progress → α → Prop} {routine : Routine α} (idle : Service.Idle service.locks)
    (obeys : routine.Obeys requests ends ⟨.free, false⟩) :
    ∃ ran reached, service.complete routine = some ran ∧ ends reached ran.value ∧
      Pending service reached ran.service ran.events := by
  have performs (progress : Progress) (effect : Effect) (current : Service) (log : List ChangeEvent)
      (allowed : requests.allows progress effect) (pending : Pending service progress current log) :=
    pending.perform idle allowed
  exact Service.complete_of_obeys performs obeys (Pending.start service)

end Pending

/-! ## Mutations obey -/

namespace Engine

variable {hold : Hold} {written : Bool}

def Wrote (hold : Hold) (reached : Progress) : Except StoreError Outcome → Prop
  | .error _ => reached = ⟨hold, false⟩
  | .ok _ => reached = ⟨hold, true⟩

def Settled (hold : Hold) (reached : Progress) : Except EngineError Outcome → Prop
  | .error error => reached = ⟨hold, false⟩ ∧ error.isInvalidInput = false
  | .ok _ => reached.hold = hold

theorem ignores_readClock (progress : Progress) : requests.Ignores progress .readClock :=
  ⟨trivial, fun _ => rfl⟩

theorem ignores_publish (hold : Hold) (announcement : Announcement) :
    requests.Ignores ⟨hold, true⟩ (.publish announcement) :=
  ⟨rfl, fun _ => rfl⟩

theorem ignores_capture (progress : Progress) (player : PlayerId) : (capture player).Only (requests.Ignores progress) :=
  only_capture (ignores_readClock progress) (lenient_requests.asks progress) player

theorem obeys_withLocks {players : List PlayerId} {body : Routine (Except EngineError Outcome)}
    (inside : ∀ hold, body.Obeys requests (Settled hold) ⟨hold, false⟩) :
    (Routine.withLocks players body).Obeys requests (Settled .free) ⟨.free, false⟩ := by
  refine .step rfl fun claimed => ?_
  cases claimed with
  | none => exact inside .free
  | some claim =>
      refine .step rfl fun _ => (inside (.holds claim)).bind fun reached value settled => ?_
      cases value with
      | error error =>
          obtain ⟨rfl, valid⟩ := settled
          exact .step rfl fun _ => .done ⟨rfl, valid⟩
      | ok outcome =>
          obtain ⟨hold, written⟩ := reached
          obtain rfl : hold = .holds claim := settled
          exact .step rfl fun _ => .done rfl

theorem obeys_changePlayer {player : PlayerId} {reason : String} {write : Routine (Except StoreError Outcome)}
    (writes : ∀ hold, write.Obeys requests (Wrote hold) ⟨hold, false⟩) :
    (changePlayer player reason write).Obeys requests (Settled .free) ⟨.free, false⟩ := by
  apply obeys_withLocks
  intro hold
  refine .only_bind (ignores_capture _ player) fun before => (writes hold).bind fun reached answer wrote => ?_
  cases answer with
  | error error =>
      obtain rfl := wrote
      exact .done ⟨rfl, rfl⟩
  | ok outcome =>
      obtain rfl := wrote
      have settles : (return .ok outcome : Routine (Except EngineError Outcome)).Obeys requests (Settled hold)
          ⟨hold, true⟩ := .done rfl
      simp only
      split
      · refine .only_bind (ignores_capture _ player) fun after => .only_bind ?_ fun _ => settles
        exact .bind (only_emitDelta (ignores_readClock _) (ignores_publish hold) player reason before after .all)
          fun _ => .done _
      · exact settles

theorem obeys_changeGroup {group reason : String} {dimensions : Dimensions}
    {write : Routine (Except StoreError Outcome)} (writes : ∀ hold, write.Obeys requests (Wrote hold) ⟨hold, false⟩) :
    (changeGroup group reason dimensions write).Obeys requests (Settled .free) ⟨.free, false⟩ := by
  refine .only_bind (.perform (ignores_readClock _)) fun time =>
    .only_bind (.perform (ignores_of_read rfl _)) fun answer => ?_
  cases answer with
  | error error => exact .done ⟨rfl, rfl⟩
  | ok members =>
      apply obeys_withLocks
      intro hold
      have reads (progress : Progress) (players : List PlayerId) :
          (captureAll players).Only (requests.Ignores progress) :=
        only_captureAll (ignores_readClock progress) (lenient_requests.captures progress) players
      refine .only_bind (reads _ _) fun before => (writes hold).bind fun reached answer wrote => ?_
      cases answer with
      | error error =>
          obtain rfl := wrote
          exact .done ⟨rfl, rfl⟩
      | ok outcome =>
          obtain rfl := wrote
          have settles : (return .ok outcome : Routine (Except EngineError Outcome)).Obeys requests (Settled hold)
              ⟨hold, true⟩ := .done rfl
          simp only
          split
          · refine .only_bind (reads _ _) fun after => .only_bind ?_ fun _ => .only_bind ?_ fun _ => settles
            · exact only_emitDeltas (ignores_readClock _) (ignores_publish hold) reason dimensions _ before after
            · exact only_refreshLateJoiners (ignores_readClock _) (ignores_publish hold)
                (fun _ _ => ignores_of_read rfl _) group reason members
          · exact settles

theorem obeys_write {call : StoreCall} {next : Except StoreError call.Answer → Routine (Except StoreError Outcome)}
    (write : call.isWrite = true) (fails : ∀ error, next (.error error) = .done (.error error))
    (succeeds : ∀ answer, ∃ outcome, next (.ok answer) = .done (.ok outcome)) (hold : Hold) :
    (Routine.step (.call call) next).Obeys requests (Wrote hold) ⟨hold, false⟩ := by
  refine .step (fun _ => rfl) fun answer => ?_
  cases answer with
  | error error =>
      rw [fails error]
      exact .done rfl
  | ok answer =>
      obtain ⟨outcome, same⟩ := succeeds answer
      rw [same]
      exact .done (congrArg (Progress.mk hold) write)

def GoesOn (routine : Routine (Except EngineError Outcome)) : Prop :=
  routine.Obeys requests (Settled .free) ⟨.free, false⟩

theorem checks_goesOn (mutation : Mutation) : Checks GoesOn mutation.routine := by
  cases mutation <;> simp only [Mutation.routine]
  case addPlayerPermissions player grants =>
    exact .of_lasting fun rows _ => .passed <| obeys_changePlayer <|
      obeys_write rfl (fun _ => rfl) fun outcome => ⟨outcome, rfl⟩
  case removePlayerPermissions player permissions =>
    exact .of_cleaned fun names _ => .passed <| obeys_changePlayer <|
      obeys_write rfl (fun _ => rfl) fun outcome => ⟨outcome, rfl⟩
  case addPlayerGroups player memberships =>
    exact .of_lasting fun rows _ => .passed <| obeys_changePlayer <|
      obeys_write rfl (fun _ => rfl) fun outcome => ⟨outcome, rfl⟩
  case removePlayerGroups player groups =>
    exact .of_cleaned fun names _ => .passed <| obeys_changePlayer <|
      obeys_write rfl (fun _ => rfl) fun outcome => ⟨outcome, rfl⟩
  case addGroupPermissions group grants =>
    exact .of_cleaned fun name _ => .of_lasting fun rows _ => .passed <| obeys_changeGroup <|
      obeys_write rfl (fun _ => rfl) fun outcome => ⟨outcome, rfl⟩
  case removeGroupPermissions group permissions =>
    exact .of_cleaned fun name _ => .of_cleaned fun names _ => .passed <| obeys_changeGroup <|
      obeys_write rfl (fun _ => rfl) fun outcome => ⟨outcome, rfl⟩
  case createGroup name =>
    refine .of_cleaned fun name _ => .passed (.step (fun _ => rfl) fun answer => ?_)
    cases answer with
    | error error => exact .done ⟨rfl, rfl⟩
    | ok outcome => exact .done rfl
  case deleteGroup name =>
    exact .of_cleaned fun name _ => .passed <| obeys_changeGroup <|
      obeys_write rfl (fun _ => rfl) fun outcome => ⟨outcome, rfl⟩

end Engine

/-! ## What a failed request leaves behind -/

namespace Service

open Engine

variable {α : Type} {service : Service}

def disturbed (routine : Routine α) (order : List Nat) (failures : List (Option StoreError)) : Routine α :=
  (routine.spread order).failing failures

theorem complete_disturbed_readClock (service : Service) (next : Instant → Routine α) (order : List Nat)
    (failures : List (Option StoreError)) :
    service.complete (disturbed (.step .readClock next) order failures) =
      service.complete (disturbed (next service.clock) order failures) := by
  have stepped : disturbed (.step .readClock next) order failures =
      .step .readClock fun time => disturbed (next time) order failures := by
    rcases failures with _ | ⟨_ | _, _⟩ <;> rfl
  rw [stepped]
  exact (complete_step rfl _).trans (Ran.map_after_nil _)

theorem disturbed_done (value : α) (order : List Nat) (failures : List (Option StoreError)) :
    disturbed (.done value) order failures = .done value := by
  cases failures <;> rfl

def Refuses (routine : Routine (Except EngineError Outcome)) (time : Instant) (error : EngineError) : Prop :=
  ∀ (other : Service) (order : List Nat) (failures : List (Option StoreError)), other.clock = time →
    other.complete (disturbed routine order failures) = some ⟨.error error, [], other⟩

structure FailsCleanly (service : Service) (routine : Routine (Except EngineError Outcome))
    (ran : Ran (Except EngineError Outcome)) : Prop where
  clean : ∀ error, ran.value = .error error →
    ran.events = [] ∧ ran.service = { service with locks := ran.service.locks }
  idle : Idle ran.service.locks
  refuses : ∀ error, ran.value = .error error → error.isInvalidInput → Refuses routine service.clock error

theorem failsCleanly_of_goesOn (idle : Idle service.locks) {routine : Routine (Except EngineError Outcome)}
    (goesOn : GoesOn routine) (order : List Nat) (failures : List (Option StoreError)) :
    ∃ ran, service.complete (disturbed routine order failures) = some ran ∧ service.FailsCleanly routine ran := by
  have obeys := (goesOn.spread lenient_requests order).failing lenient_requests failures
  obtain ⟨⟨value, events, after⟩, reached, completed, settled, pending⟩ := Pending.complete idle obeys
  refine ⟨_, completed, ?_⟩
  cases value with
  | error error =>
      obtain ⟨rfl, valid⟩ := settled
      refine ⟨fun _ _ => pending.unwritten rfl, idle.of_agree pending.stands, fun other same invalid => ?_⟩
      obtain rfl := Except.error.inj same
      simp [valid] at invalid
  | ok outcome =>
      obtain ⟨hold, written⟩ := reached
      obtain rfl : hold = .free := settled
      exact ⟨nofun, idle.of_agree pending.stands, nofun⟩

theorem exists_failsCleanly (idle : Idle service.locks) {routine : Routine (Except EngineError Outcome)}
    (checks : Checks GoesOn routine) (order : List Nat) (failures : List (Option StoreError)) :
    ∃ ran, service.complete (disturbed routine order failures) = some ran ∧ service.FailsCleanly routine ran := by
  induction checks with
  | refused error =>
      refine ⟨⟨.error error, [], service⟩, ?_, fun _ _ => ⟨rfl, rfl⟩, idle, ?_⟩
      · rw [disturbed_done]
        rfl
      · rintro _ ⟨⟩ _ other order failures _
        rw [disturbed_done]
        rfl
  | passed goesOn => exact failsCleanly_of_goesOn idle goesOn order failures
  | @reads next rest ih =>
      obtain ⟨ran, completed, clean, free, refuses⟩ := ih service.clock
      refine ⟨ran, (complete_disturbed_readClock service next order failures).trans completed, clean, free, ?_⟩
      intro error failed invalid other order failures same
      rw [complete_disturbed_readClock, same]
      exact refuses error failed invalid other order failures same

/-- A mutation that ends with an error has changed nothing, whichever store calls failed; a refusal depends on the
request and the clock alone. -/
theorem failure_changes_nothing {config : Config} (reachable : Reachable config service) (mutation : Mutation)
    (order : List Nat) (failures : List (Option StoreError)) :
    ∃ ran, service.complete (disturbed mutation.routine order failures) = some ran ∧ Idle ran.service.locks ∧
      ∀ error, ran.value = .error error →
        ran.events = [] ∧ ran.service = { service with locks := ran.service.locks } ∧
          (error.isInvalidInput → Refuses mutation.routine service.clock error) := by
  obtain ⟨ran, completed, fails⟩ :=
    exists_failsCleanly reachable.idle (checks_goesOn mutation) order failures
  refine ⟨ran, completed, fails.idle, fun error failed => ?_⟩
  obtain ⟨quiet, same⟩ := fails.clean error failed
  exact ⟨quiet, same, fails.refuses error failed⟩

def halfKnown : Mutation :=
  .addPlayerGroups newcomer [⟨"ghost", none⟩, ⟨"staff", none⟩]

theorem half_known_changes_nothing : ∃ ran, staffed.complete (disturbed halfKnown.routine [] []) = some ran ∧
    ran.value = .error (.store (.groupNotFound "ghost")) ∧ Idle ran.service.locks ∧ ran.events = [] ∧
      ran.service = { staffed with locks := ran.service.locks } := by
  obtain ⟨ran, completed, idle, fails⟩ := failure_changes_nothing reachable_staffed halfKnown [] []
  have answered : ((staffed.complete (disturbed halfKnown.routine [] [])).bind fun ran =>
      match ran.value with
      | .error error => some error
      | .ok _ => none) = some (.store (.groupNotFound "ghost")) := by
    decide +kernel
  rw [completed, Option.bind_some] at answered
  cases failed : ran.value with
  | ok outcome => simp [failed] at answered
  | error error =>
      obtain rfl : error = .store (.groupNotFound "ghost") := by simpa [failed] using answered
      obtain ⟨quiet, same, _⟩ := fails _ failed
      exact ⟨ran, completed, failed, idle, quiet, same⟩

end Service

end PermissionFeed
