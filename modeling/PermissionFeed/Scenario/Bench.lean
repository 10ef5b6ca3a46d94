import PermissionFeed.Scenario.Answer
import PermissionFeed.Scenario.Step
import PermissionFeed.Service

/-!
# The bench of a scenario

Everything that steps act on besides tasks that wait: the service with its misfiled rows, the arranged faults and hooks,
the subscriptions by their order, one consumer cache, and the loop that lets a scanner run by itself.

When the stored data is opened again, a new service takes over the store, the clock and the supply of ids. What the
service before it has begun goes on with the feed, the locks and the cursors of that service.
-/

namespace PermissionFeed.Scenario

structure Loop where
  scanner : Nat
  timer : ScanTimer
  deriving DecidableEq

def Loop.start? (scanner interval now : Nat) : Option Loop :=
  if interval = 0 then none else some ⟨scanner, .start interval now⟩

abbrev ServiceId := Nat

def takeOver (service other : Service) : Service :=
  { service with store := other.store, clock := other.clock, ids := other.ids }

structure Bench where
  config : Config
  slowStore : Bool
  service : Service
  /-- The services that were opened before it. Their data and time are those of the last one. -/
  former : List Service
  misfiled : List MisfiledRow
  faults : List Fault
  hooks : List Hook
  subscriptions : List (ServiceId × Nat)
  observer : Option Nat
  cache : Cache
  loop : Option Loop
  elapsed : Nat

namespace Bench

def current (bench : Bench) : ServiceId :=
  bench.former.length

def serviceAt (bench : Bench) (id : ServiceId) : Service :=
  match bench.former[id]? with
  | some service => takeOver service bench.service
  | none => bench.service

def setService (bench : Bench) (id : ServiceId) (service : Service) : Bench :=
  if id < bench.current then
    { bench with service := takeOver bench.service service, former := bench.former.set id service }
  else { bench with service }

def observe (bench : Bench) : Bench :=
  let (subscription, feed) := bench.service.feed.subscribe ""
  { bench with service := { bench.service with feed }, observer := some subscription.id }

def start (config : Config) (slowStore : Bool) (clock : Instant) (ids : EventId.Supply) (observes : Bool) : Bench :=
  let bench :=
    { config
      slowStore
      service := .start config .empty clock ids
      former := []
      misfiled := []
      faults := []
      hooks := []
      subscriptions := []
      observer := none
      cache := .empty
      loop := none
      elapsed := 0 : Bench }
  if observes then bench.observe else bench

def reopen (bench : Bench) : Bench :=
  let service := bench.service
  let reopened := { bench with service := .start bench.config service.store service.clock service.ids
                               former := bench.former ++ [service]
                               subscriptions := []
                               observer := none
                               loop := none }
  if bench.observer.isSome then reopened.observe else reopened

def retire (bench : Bench) : Bench :=
  { bench with former := bench.former.map fun service => { service with feed := { service.feed with handles := 0 } } }

def cursorPosition (bench : Bench) (service : ServiceId) (scanner : Nat) : Instant :=
  ((bench.serviceAt service).cursors[scanner]?.map Cursor.position).getD 0

def newScanner (bench : Bench) : Instant × Bench :=
  let cursor := Cursor.reachingBack bench.service.clock bench.config.bootstrap
  (cursor.position, { bench with service := bench.service.newScanner bench.config.bootstrap })

def drain (bench : Bench) (service : ServiceId) (id : Nat) : (List ChangeEvent × Nat) × Bench :=
  let opened := bench.serviceAt service
  let (events, feed) := opened.feed.drain id
  ((events, feed.dropped id), bench.setService service { opened with feed })

def drainAt (bench : Bench) (subscription : Nat) : (List ChangeEvent × Nat) × Bench :=
  match bench.subscriptions[subscription]? with
  | none => (([], 0), bench)
  | some (service, id) => bench.drain service id

def receiveAt (bench : Bench) (subscription : Nat) : (Received ChangeEvent × Nat) × Bench :=
  match bench.subscriptions[subscription]? with
  | none => ((.ended, 0), bench)
  | some (service, id) =>
      let opened := bench.serviceAt service
      let (received, feed) := opened.feed.receive id
      ((received, feed.dropped id), bench.setService service { opened with feed })

def unsubscribeAt (bench : Bench) (subscription : Nat) : Bool × Bench :=
  match bench.subscriptions[subscription]? with
  | none => (false, bench)
  | some (service, id) =>
      let opened := bench.serviceAt service
      (opened.feed.subscriptions.contains id,
        bench.setService service { opened with feed := opened.feed.unsubscribe id })

def setClock (bench : Bench) (time : Instant) : Bench :=
  { bench with service := { bench.service with clock := time } }

def perform (bench : Bench) (id : ServiceId) (effect : Effect) : Option effect.Answer × Bench :=
  let (answer, service) := (bench.serviceAt id).perform effect
  (answer, bench.setService id service)

def callStore (bench : Bench) (call : StoreCall) : Except StoreError call.Answer × Bench :=
  let file : StoreFile := ⟨bench.service.store, bench.misfiled⟩
  let (answer, file) := file.run call
  (answer, { bench with service := { bench.service with store := file.store }, misfiled := file.misfiled })

def insertRow (bench : Bench) (row : MisfiledRow) : Bench :=
  let file : StoreFile := ⟨bench.service.store, bench.misfiled⟩
  let file := file.insert row
  { bench with service := { bench.service with store := file.store }, misfiled := file.misfiled }

def takeFault (bench : Bench) (call : StoreCall) : Option StoreError × Bench :=
  let (error, faults) := strike call bench.faults
  (error, { bench with faults })
where
  strike (call : StoreCall) : List Fault → Option StoreError × List Fault
    | [] => (none, [])
    | fault :: rest =>
        if fault.kind = call.kind ∧ (fault.player = none ∨ fault.player = call.player?) then
          match fault.skip with
          | skip + 1 => (none, { fault with skip } :: rest)
          | 0 => (some fault.error, if fault.count ≤ 1 then rest else { fault with count := fault.count - 1 } :: rest)
        else
          let (error, rest) := strike call rest
          (error, fault :: rest)

def takeHook (bench : Bench) (call : StoreCall) (side : Side) : Option Hook × Bench :=
  let (hook, hooks) := trip call side bench.hooks
  (hook, { bench with hooks })
where
  trip (call : StoreCall) (side : Side) : List Hook → Option Hook × List Hook
    | [] => (none, [])
    | hook :: rest =>
        if hook.kind = call.kind ∧ hook.side = side then
          match hook.skip with
          | skip + 1 => (none, { hook with skip } :: rest)
          | 0 => (some hook, rest)
        else
          let (fired, rest) := trip call side rest
          (fired, hook :: rest)

def observed (bench : Bench) : List ChangeEvent × Bench :=
  match bench.observer with
  | none => ([], bench)
  | some id =>
      let ((events, _), bench) := bench.drain bench.current id
      (events, bench)

def snapshot (bench : Bench) (player : PlayerId) : Except Failure Snapshot :=
  match (bench.service.run (Engine.read player .full bench.service.clock)).1 with
  | none => .error .stuck
  | some answer => answer.mapError .store

end Bench

end PermissionFeed.Scenario
