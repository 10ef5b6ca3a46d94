import PermissionFeed.Mutation
import PermissionFeed.Scanner
import PermissionFeed.Store.Misfiled

namespace PermissionFeed.Scenario

structure Fault where
  kind : StoreCall.Kind
  player : Option PlayerId
  /-- How many matching calls are let through first. -/
  skip : Nat
  count : Nat
  error : StoreError
  deriving DecidableEq

inductive Side where
  | before
  | after
  deriving DecidableEq

mutual

structure Hook where
  kind : StoreCall.Kind
  side : Side
  skip : Nat
  /-- The steps run as tasks of their own, which may wait for locks while the interrupted call goes on. -/
  spawns : Bool
  steps : List Step

inductive Step where
  | refused (error : RequestError)
  | setClock (time : Instant)
  | advanceClock (span : Instant)
  | mutate (mutation : Mutation)
  | group (name : String)
  | listGroups (includeGrants : Bool)
  | playerPermissions (player : PlayerId) (scope : Scope)
  | checkPermission (player : PlayerId) (permission : String)
  | subscribe (server : String) (lastEvent : Option String)
  | drain (subscription : Nat)
  | receive (subscription : Nat) (waits : Bool)
  | unsubscribe (subscription : Nat)
  | subscriberCount
  | emitRefresh (player : PlayerId) (reason : String)
  | emitDelta (player : PlayerId) (reason : String) (before after : Option Snapshot) (dimensions : Dimensions)
  | publish (event : ChangeEvent)
  | newScanner
  | tick (scanner : Nat)
  | startupRefresh
  | cursorPosition (scanner : Nat)
  | advanceCursor (scanner : Nat) (last : Instant)
  | rewindCursor (scanner : Nat) (window : Window)
  | read (player : PlayerId) (scope : Scope) (time : Instant)
  | callStore (call : StoreCall)
  | playersWithLapsedRows (window : Window)
  | seedGroup (name : String) (permissions : List String)
  | loadCache (player : PlayerId)
  | applyToCache (subscription : Nat)
  | applyEventToCache (event : ChangeEvent)
  | cachedPlayer (player : PlayerId)
  | reopen
  | insertRow (row : MisfiledRow)
  | addFault (fault : Fault)
  | addHook (hook : Hook)
  | startLoop (scanner : Nat)
  | passTime (span : Nat)
  | signal (stop : Bool)

end

mutual

def Step.size : Step → Nat
  | .addHook hook => hook.size + 1
  | _ => 1

def Hook.size : Hook → Nat
  | ⟨_, _, _, _, steps⟩ => sizeOfSteps steps

def sizeOfSteps : List Step → Nat
  | [] => 0
  | step :: rest => step.size + sizeOfSteps rest

end

mutual

def Step.eventIds : Step → List EventId
  | .publish event | .applyEventToCache event => [event.id]
  | .addHook hook => hook.eventIds
  | _ => []

def Hook.eventIds : Hook → List EventId
  | ⟨_, _, _, _, steps⟩ => eventIdsOfSteps steps

def eventIdsOfSteps : List Step → List EventId
  | [] => []
  | step :: rest => step.eventIds ++ eventIdsOfSteps rest

end

end PermissionFeed.Scenario
