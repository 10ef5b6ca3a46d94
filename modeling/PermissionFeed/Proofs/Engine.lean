import PermissionFeed.Proofs.Announcing

namespace PermissionFeed.Service

open Engine

theorem capture_eq (service : Service) (time : Instant) (players : List PlayerId) :
    service.capture time players = (players.map fun player => some (service.store.snapshot player time), service) := by
  induction players with
  | nil => rfl
  | cons player players ih =>
      rw [capture, Store.run_snapshot]
      simp only [ih]
      rfl

theorem run_playerPermissions (service : Service) (player : PlayerId) :
    service.run (playerPermissions player .full) =
      (some (.ok (service.store.snapshot player service.clock)), service) :=
  rfl

theorem complete_capture (service : Service) (player : PlayerId) :
    service.complete (Engine.capture player) = some ⟨some (service.store.snapshot player service.clock), [], service⟩ :=
  rfl

theorem perform_capture (service : Service) (players : List PlayerId) (time : Instant) :
    service.perform (.capture players time) =
      (some (players.map fun player => some (service.store.snapshot player time)), service) := by
  simp only [perform, capture_eq]
  rfl

theorem complete_captureAll (service : Service) (players : List PlayerId) :
    service.complete (captureAll players) =
      some ⟨players.map fun player => some (service.store.snapshot player service.clock), [], service⟩ := by
  change (service.complete (.step (.capture players service.clock) .done)).map (·.after []) = _
  rw [complete_step (perform_capture service players service.clock)]
  rfl

variable {service : Service}

theorem achieves_emitRefresh (service : Service) (player : PlayerId) (reason : String) :
    service.Achieves (discard (emitRefresh player reason)) () service.store [.refresh player reason service.clock] :=
  ⟨service.locks, .refl _, rfl⟩

theorem achieves_emitRefreshes (service : Service) (players : List PlayerId) (reason : String) :
    service.Achieves (emitRefreshes players reason) () service.store
      (players.map fun player => .refresh player reason service.clock) := by
  induction players generalizing service with
  | nil => exact .pure service ()
  | cons player players ih =>
      refine Achieves.bind (achieves_emitRefresh service player reason) fun locks _ => ?_
      exact ih _

theorem achieves_emitDelta (service : Service) (player : PlayerId) (reason : String) (before after : Snapshot)
    (dimensions : Dimensions) :
    service.Achieves (discard (emitDelta player reason (some before) (some after) dimensions)) () service.store
      (Announcement.ofChange player reason dimensions before after service.clock) := by
  have difference : Delta.between? (some before) (some after) dimensions = some (.between before after dimensions) := rfl
  unfold emitDelta Announcement.ofChange
  rw [difference]
  simp only
  split
  · exact ⟨service.locks, .refl _, rfl⟩
  · exact ⟨service.locks, .refl _, rfl⟩

theorem achieves_emitDeltas (service : Service) (reason : String) (dimensions : Dimensions) (players : List PlayerId)
    (before after : PlayerId → Snapshot) :
    service.Achieves
      (emitDeltas reason dimensions players (players.map fun player => some (before player))
        (players.map fun player => some (after player))) () service.store
      (players.flatMap fun player =>
        Announcement.ofChange player reason dimensions (before player) (after player) service.clock) := by
  induction players generalizing service with
  | nil => exact .pure service ()
  | cons player players ih =>
      refine Achieves.bind (achieves_emitDelta service player reason _ _ dimensions) fun locks _ => ?_
      exact ih _

def Writes (write : Routine (Except StoreError Outcome)) (effect : Store → Store.Write) : Prop :=
  ∀ service : Service, service.complete write =
    some ⟨(effect service.store).1, [], { service with store := (effect service.store).2 }⟩

def WritesAtOnce (kind : Effect → Bool) (write : Routine (Except StoreError Outcome)) (effect : Store → Store.Write) :
    Prop :=
  ∃ (call : StoreCall) (next : (Effect.call call).Answer → Routine (Except StoreError Outcome)),
    write = .step (.call call) next ∧ kind (.call call) ∧
      ∀ store, call.run store = ((call.run store).1, (effect store).2) ∧ next (call.run store).1 = .done (effect store).1

theorem perform_write {call : StoreCall} {effect : Store → Store.Write} {service : Service}
    (written : call.run service.store = ((call.run service.store).1, (effect service.store).2)) :
    service.perform (.call call) =
      (some (call.run service.store).1, { service with store := (effect service.store).2 }) := by
  simp only [perform]
  rw [written]
  rfl

theorem WritesAtOnce.writes {kind : Effect → Bool} {write : Routine (Except StoreError Outcome)}
    {effect : Store → Store.Write} (atOnce : WritesAtOnce kind write effect) : Writes write effect := by
  obtain ⟨call, next, rfl, _, written⟩ := atOnce
  intro service
  rw [complete_step (perform_write (written service.store).1), (written service.store).2]
  rfl

theorem Writes.achieves {write : Routine (Except StoreError Outcome)} {effect : Store → Store.Write}
    (writes : Writes write effect) (service : Service) :
    service.Achieves write (effect service.store).1 (effect service.store).2 [] :=
  ⟨service.locks, .refl _, writes service⟩

theorem achieves_changePlayer {player : PlayerId} {reason : String} {write : Routine (Except StoreError Outcome)}
    {effect : Store → Store.Write} (writes : Writes write effect) (free : AllFree service.locks [player]) :
    service.Achieves (changePlayer player reason write) ((effect service.store).1.mapError .store)
      (effect service.store).2
      (if Outcome.isEmitted (effect service.store).1 then
        Announcement.ofChange player reason .all (service.store.snapshot player service.clock)
          ((effect service.store).2.snapshot player service.clock) service.clock
      else []) := by
  refine achieves_withLocks free fun locks => ?_
  refine Achieves.bind_of_silent (complete_capture _ player) ?_
  refine Achieves.bind_of_quiet (writes.achieves _) fun locks _ => ?_
  cases written : (effect service.store).1 with
  | error error => exact .pure _ _
  | ok outcome =>
      rw [show Outcome.isEmitted (.ok outcome : Except StoreError Outcome) = outcome.emits from rfl]
      by_cases emits : outcome.emits
      · rw [if_pos emits]
        simp only [emits, if_true]
        refine Achieves.bind_of_silent (complete_capture _ player) ?_
        have told := achieves_emitDelta { service with store := (effect service.store).2, locks } player reason
          (service.store.snapshot player service.clock) ((effect service.store).2.snapshot player service.clock) .all
        exact told.andReturn (.ok outcome : Except EngineError Outcome)
      · rw [if_neg emits]
        simp only [emits]
        exact .pure _ _

theorem achieves_refreshLateJoiners (service : Service) (group reason : String) (members : PlayerSet) :
    service.Achieves (refreshLateJoiners group reason members) () service.store
      ((service.store.activeMembers group service.clock \ members).toList.map fun player =>
        .refresh player reason service.clock) := by
  refine Achieves.bind_of_silent (complete_now service) ?_
  refine Achieves.bind_of_silent (complete_call service _) ?_
  exact achieves_emitRefreshes service _ reason

def concludeGroup (group reason : String) (dimensions : Dimensions) (members : PlayerSet)
    (before : List (Option Snapshot)) : Except StoreError Outcome → Routine (Except EngineError Outcome)
  | .error error => return .error (.store error)
  | .ok outcome => do
      if outcome.emits then
        let after ← captureAll members.toList
        emitDeltas reason dimensions members.toList before after
        refreshLateJoiners group reason members
      return .ok outcome

def groupNews (group reason : String) (dimensions : Dimensions) (members : PlayerSet) (before : PlayerId → Snapshot)
    (after : Store) (time : Instant) : List Announcement :=
  (members.toList.flatMap fun player =>
      Announcement.ofChange player reason dimensions (before player) (after.snapshot player time) time) ++
    (after.activeMembers group time \ members).toList.map fun player => .refresh player reason time

theorem changeGroup_eq (group reason : String) (dimensions : Dimensions)
    (write : Routine (Except StoreError Outcome)) :
    changeGroup group reason dimensions write =
      (Routine.now >>= fun time => Routine.call (.activeMembers group time) >>= fun
        | .error error => return .error (.store error)
        | .ok (members : PlayerSet) => Routine.withLocks members.toList (captureAll members.toList >>= fun before =>
            write >>= concludeGroup group reason dimensions members before)) := by
  rfl

theorem achieves_concludeGroup (service : Service) (group reason : String) (dimensions : Dimensions)
    (members : PlayerSet) (before : PlayerId → Snapshot) (result : Except StoreError Outcome) :
    service.Achieves
      (concludeGroup group reason dimensions members (members.toList.map fun player => some (before player)) result)
      (result.mapError .store) service.store
      (if Outcome.isEmitted result then
        groupNews group reason dimensions members before service.store service.clock
      else []) := by
  cases result with
  | error error => exact .pure _ _
  | ok outcome =>
      rw [show Outcome.isEmitted (.ok outcome : Except StoreError Outcome) = outcome.emits from rfl]
      unfold concludeGroup
      by_cases emits : outcome.emits
      · rw [if_pos emits]
        simp only [emits, if_true]
        refine Achieves.bind_of_silent (complete_captureAll service _) ?_
        refine Achieves.bind (achieves_emitDeltas service reason dimensions members.toList before _) fun locks _ => ?_
        exact (achieves_refreshLateJoiners _ group reason members).andReturn _
      · rw [if_neg emits]
        simp only [emits]
        exact .pure _ _

theorem achieves_changeGroup {group reason : String} {dimensions : Dimensions}
    {write : Routine (Except StoreError Outcome)} {effect : Store → Store.Write} (writes : Writes write effect)
    (free : AllFree service.locks (service.store.activeMembers group service.clock).toList) :
    service.Achieves (changeGroup group reason dimensions write) ((effect service.store).1.mapError .store)
      (effect service.store).2
      (if Outcome.isEmitted (effect service.store).1 then
        groupNews group reason dimensions (service.store.activeMembers group service.clock)
          (service.store.snapshot · service.clock) (effect service.store).2 service.clock
      else []) := by
  rw [changeGroup_eq]
  refine Achieves.bind_of_silent (complete_now service) ?_
  refine Achieves.bind_of_silent (complete_call service _) ?_
  refine achieves_withLocks free fun locks => ?_
  refine Achieves.bind_of_silent (complete_captureAll _ _) ?_
  refine Achieves.bind_of_quiet (writes.achieves _) fun locks _ => ?_
  exact achieves_concludeGroup { service with store := (effect service.store).2, locks } group reason dimensions _ _ _

end PermissionFeed.Service
