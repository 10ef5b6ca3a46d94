import PermissionFeed.Request
import PermissionFeed.Routine

/-!
# The engine

The requests of administrators and consumers as routines. A write on one player is surrounded by two snapshots of that
player, and their difference is announced; a write on a group does the same for each active member, and members that
joined meanwhile are asked to load again. A snapshot that cannot be read turns the announcement into a request to load.
-/

namespace PermissionFeed

inductive EngineError where
  | request (error : RequestError)
  | store (error : StoreError)
  deriving DecidableEq

namespace EngineError

def message : EngineError → String
  | request error => s!"validation error: {error.message}"
  | store error => s!"storage error: {error.message}"

def isInvalidInput : EngineError → Bool
  | request _ => true
  | store _ => false

end EngineError

inductive Emission where
  | delta (id : EventId) (delivered : Nat)
  | refresh (id : EventId) (delivered : Nat)
  | skipped
  deriving DecidableEq

def Emission.isPublished (emission : Emission) : Bool :=
  emission ≠ .skipped

namespace Engine

open Routine

def read (player : PlayerId) (scope : Scope) (time : Instant) : Routine (Except StoreError Snapshot) :=
  inquire (.snapshot player scope time)

def capture (player : PlayerId) : Routine (Option Snapshot) := do
  return (← read player .full (← now)).toOption

def captureAll (players : List PlayerId) : Routine (List (Option Snapshot)) := do
  perform (.capture players (← now))

def emitRefresh (player : PlayerId) (reason : String) : Routine Emission := do
  let (id, delivered) ← publish (.refresh player reason (← now))
  return .refresh id delivered

def emitDelta (player : PlayerId) (reason : String) (before after : Option Snapshot) (dimensions : Dimensions) :
    Routine Emission :=
  match Delta.between? before after dimensions with
  | none => emitRefresh player reason
  | some delta =>
      if delta.isEmpty then return .skipped
      else do
        let (id, delivered) ← publish (.ofDelta player reason delta (← now))
        return .delta id delivered

def emitRefreshes (players : List PlayerId) (reason : String) : Routine Unit :=
  players.forM fun player => discard (emitRefresh player reason)

def emitDeltas (reason : String) (dimensions : Dimensions) :
    List PlayerId → List (Option Snapshot) → List (Option Snapshot) → Routine Unit
  | player :: players, before :: befores, after :: afters => do
      discard (emitDelta player reason before after dimensions)
      emitDeltas reason dimensions players befores afters
  | _, _, _ => pure ()

def changePlayer (player : PlayerId) (reason : String) (write : Routine (Except StoreError Outcome)) :
    Routine (Except EngineError Outcome) :=
  withLocks [player] do
    let before ← capture player
    match ← write with
    | .error error => return .error (.store error)
    | .ok outcome =>
        if outcome.emits then
          let after ← capture player
          discard (emitDelta player reason before after .all)
        return .ok outcome

def refreshLateJoiners (group reason : String) (members : PlayerSet) : Routine Unit := do
  match ← call (.activeMembers group (← now)) with
  | .error _ => pure ()
  | .ok (current : PlayerSet) => emitRefreshes (current \ members).toList reason

def changeGroup (group reason : String) (dimensions : Dimensions) (write : Routine (Except StoreError Outcome)) :
    Routine (Except EngineError Outcome) := do
  match ← call (.activeMembers group (← now)) with
  | .error error => return .error (.store error)
  | .ok (members : PlayerSet) =>
      withLocks members.toList do
        let before ← captureAll members.toList
        match ← write with
        | .error error => return .error (.store error)
        | .ok outcome =>
            if outcome.emits then
              let after ← captureAll members.toList
              emitDeltas reason dimensions members.toList before after
              refreshLateJoiners group reason members
            return .ok outcome

def cleaned {α β : Type} (request : Except RequestError α) (next : α → Routine (Except EngineError β)) :
    Routine (Except EngineError β) :=
  match request with
  | .error error => return .error (.request error)
  | .ok value => next value

def lasting {β : Type} (rows : Except RequestError (List Row)) (next : List Row → Routine (Except EngineError β)) :
    Routine (Except EngineError β) :=
  cleaned rows fun rows => do
    let time ← now
    cleaned (Request.rejectPast rows time) fun _ => next rows

def addPlayerPermissions (player : PlayerId) (grants : List Grant) : Routine (Except EngineError Outcome) :=
  lasting (Request.grants grants) fun grants =>
    changePlayer player Reason.playerPermissionAdd (call (.addGrants player grants))

def removePlayerPermissions (player : PlayerId) (permissions : List String) :
    Routine (Except EngineError Outcome) :=
  cleaned (Request.names permissions "permissions") fun permissions =>
    changePlayer player Reason.playerPermissionRemove (call (.removeGrants player permissions))

def addPlayerGroups (player : PlayerId) (memberships : List Membership) : Routine (Except EngineError Outcome) :=
  lasting (Request.memberships memberships) fun memberships =>
    changePlayer player Reason.playerGroupAdd (call (.addMemberships player memberships))

def removePlayerGroups (player : PlayerId) (groups : List String) : Routine (Except EngineError Outcome) :=
  cleaned (Request.names groups "group_names") fun groups =>
    changePlayer player Reason.playerGroupRemove (call (.removeMemberships player groups))

def addGroupPermissions (group : String) (grants : List Grant) : Routine (Except EngineError Outcome) :=
  cleaned (Request.groupName group) fun group =>
    lasting (Request.grants grants) fun grants =>
      changeGroup group Reason.groupPermissionAdd .effectiveOnly (call (.addGroupGrants group grants))

def removeGroupPermissions (group : String) (permissions : List String) : Routine (Except EngineError Outcome) :=
  cleaned (Request.groupName group) fun group =>
    cleaned (Request.names permissions "permissions") fun permissions =>
      changeGroup group Reason.groupPermissionRemove .effectiveOnly (call (.removeGroupGrants group permissions))

def createGroup (name : String) : Routine (Except EngineError Outcome) :=
  cleaned (Request.groupName name) fun name => do
    return (← call (.createGroup name)).mapError .store

def deleteGroup (name : String) : Routine (Except EngineError Outcome) :=
  cleaned (Request.groupName name) fun name =>
    changeGroup name Reason.groupDelete .all (call (.deleteGroup name))

def group (name : String) : Routine (Except EngineError (Option Group)) :=
  cleaned (Request.groupName name) fun name => do
    return (← call (.group name (← now))).mapError .store

def listGroups (includeGrants : Bool) : Routine (Except EngineError (List Group)) := do
  match ← call (.listGroups (← now)) with
  | .error error => return .error (.store error)
  | .ok (groups : List Group) => return .ok (if includeGrants then groups else groups.map fun group => .empty group.name)

def playerPermissions (player : PlayerId) (scope : Scope) : Routine (Except EngineError Snapshot) := do
  return (← read player scope (← now)).mapError .store

def checkPermission (player : PlayerId) (permission : String) : Routine (Except EngineError Bool) :=
  cleaned (Request.permission permission) fun permission => do
    match ← read player .effectiveOnly (← now) with
    | .error error => return .error (.store error)
    | .ok snapshot => return .ok (snapshot.hasPermission permission)

/-- Attaches a subscription. A consumer that was here before is asked to load every player with active rows; if they
cannot be found, the subscription is gone. -/
def subscribe (server : String) (lastEvent : Option String) : Routine (Except EngineError Nat) := do
  let subscription ← perform (.attach (Text.trim server))
  match (lastEvent.map Text.trim).filter (!·.isEmpty) with
  | none => return .ok subscription
  | some _ =>
      match ← call (.playersWithActiveRows (← now)) with
      | .error error =>
          perform (.detach subscription)
          return .error (.store error)
      | .ok (players : PlayerSet) =>
          emitRefreshes players.toList Reason.subscriptionResume
          return .ok subscription

end Engine

end PermissionFeed
