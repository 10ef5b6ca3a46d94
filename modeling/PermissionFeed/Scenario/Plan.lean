import PermissionFeed.Scenario.Bench

namespace PermissionFeed.Scenario

abbrev Ending := Bench → Result × Bench

namespace Ending

def result (result : Result) : Ending :=
  fun bench => (result, bench)

def answer (answer : Answer) : Ending :=
  result (.ok answer)

end Ending

abbrev Plan := Bench → Routine Ending × Bench

namespace Plan

def act (action : Bench → Answer × Bench) : Plan :=
  fun bench => (.done fun bench => let (answer, bench) := action bench; (.ok answer, bench), bench)

def engine {α : Type} (routine : Routine (Except EngineError α)) (answer : α → Answer) : Plan :=
  fun bench => (return .result ((← routine).mapError .engine |>.map answer), bench)

def store {α : Type} (routine : Routine (Except StoreError α)) (answer : α → Answer) : Plan :=
  fun bench => (return .result ((← routine).mapError .store |>.map answer), bench)

def engineThen {α : Type} (routine : Routine (Except EngineError α)) (next : α → Bench → Answer × Bench) : Plan :=
  fun bench =>
    (do
      let result ← routine
      return fun bench =>
        match result with
        | .error error => (.error (.engine error), bench)
        | .ok value => let (answer, bench) := next value bench; (.ok answer, bench), bench)

end Plan

def answerOf : (call : StoreCall) → call.Answer → Answer
  | .directGrants .., answer => .rows answer
  | .memberships .., answer => .rows answer
  | .inherited .., answer => .names answer
  | .group .., answer => .group answer
  | .listGroups .., answer => .groups answer
  | .activeMembers .., answer => .players answer
  | .playersWithAnyRows, answer => .players answer
  | .playersWithActiveRows .., answer => .players answer
  | .playersWithLapsedGrants .., answer => .players answer
  | .playersWithLapsedMemberships .., answer => .players answer
  | .groupsWithLapsedGrants .., answer => .names answer
  | .addGrants .., answer => .outcome answer
  | .removeGrants .., answer => .outcome answer
  | .addMemberships .., answer => .outcome answer
  | .removeMemberships .., answer => .outcome answer
  | .addGroupGrants .., answer => .outcome answer
  | .removeGroupGrants .., answer => .outcome answer
  | .createGroup .., answer => .outcome answer
  | .deleteGroup .., answer => .outcome answer

def seed (name : String) (permissions : List String) : Routine (Except StoreError Unit) := do
  match ← Routine.call (.createGroup name) with
  | .error error => return .error error
  | .ok _ =>
      if permissions.isEmpty then return .ok ()
      else
        return (← Routine.call (.addGroupGrants name (permissions.map (⟨·, none⟩)))).map fun _ => ()

def loopAnswer (bench : Bench) : Answer :=
  .loop bench.loop.isSome bench.service.clock

def fireLoop (loop : Option Loop) (now : Nat) : Routine Ending := do
  match loop with
  | none => return fun bench => (.ok (loopAnswer bench), bench)
  | some loop =>
      let timer ← loop.timer.fire (discard (Scanner.tick loop.scanner)) now
      return fun bench =>
        let bench := { bench with loop := bench.loop.map fun loop => { loop with timer } }
        (.ok (loopAnswer bench), bench)

def Step.plan : Step → Plan
  | .refused error => fun bench => (.done (.result (.error (.request error))), bench)
  | .setClock time => .act fun bench => (.instant time, bench.setClock time)
  | .advanceClock span => .act fun bench =>
      let time := bench.service.clock + span
      (.instant time, bench.setClock time)
  | .mutate mutation => .engine mutation.routine .outcome
  | .group name => .engine (Engine.group name) .group
  | .listGroups includeGrants => .engine (Engine.listGroups includeGrants) .groups
  | .playerPermissions player scope => .engine (Engine.playerPermissions player scope) .snapshot
  | .checkPermission player permission => .engine (Engine.checkPermission player permission) .flag
  | .subscribe server lastEvent => fun bench =>
      let service := bench.current
      Plan.engineThen (Engine.subscribe server lastEvent) (fun id bench =>
        let server := ((bench.serviceAt service).feed.subscriptions[id]?.map Subscription.server).getD ""
        (.subscribed bench.subscriptions.length id server,
          { bench with subscriptions := bench.subscriptions ++ [(service, id)] })) bench
  | .drain subscription => .act fun bench =>
      let ((events, dropped), bench) := bench.drainAt subscription
      (.drained events dropped, bench)
  | .receive subscription waits => .act fun bench =>
      let ((received, dropped), bench) := bench.receiveAt subscription
      (.received received waits dropped, bench)
  | .unsubscribe subscription => .act fun bench =>
      let (attached, bench) := bench.unsubscribeAt subscription
      (.flag attached, bench)
  | .subscriberCount => .act fun bench => (.count bench.service.feed.subscriberCount, bench)
  | .emitRefresh player reason => fun bench =>
      (return .answer (.emission (← Engine.emitRefresh player reason)), bench)
  | .emitDelta player reason before after dimensions => fun bench =>
      (return .answer (.emission (← Engine.emitDelta player reason before after dimensions)), bench)
  | .publish event => .act fun bench =>
      let (delivered, feed) := bench.service.feed.publish event
      (.count delivered, { bench with service := { bench.service with feed } })
  | .newScanner => .act fun bench =>
      let (position, bench) := bench.newScanner
      (.instant position, bench)
  | .tick scanner => fun bench =>
      let service := bench.current
      (do
        let result ← Scanner.tick scanner
        return fun bench =>
          let position := bench.cursorPosition service scanner
          match result with
          | .error error => (.error (.scan error position), bench)
          | .ok report => (.ok (.scan report position), bench), bench)
  | .startupRefresh => .store Scanner.startupRefresh .count
  | .cursorPosition scanner => .act fun bench => (.instant (bench.cursorPosition bench.current scanner), bench)
  | .advanceCursor scanner last => .act fun bench =>
      let (window, service) := bench.service.advance scanner last
      (.window window, { bench with service })
  | .rewindCursor scanner window => .act fun bench =>
      let (rewound, service) := bench.service.rewind scanner window
      (.flag rewound, { bench with service })
  | .read player scope time => .store (Engine.read player scope time) .snapshot
  | .callStore call => .store (Routine.call call) (answerOf call)
  | .playersWithLapsedRows window => .store (Scanner.playersWithLapsedRows window) .players
  | .seedGroup name permissions => .store (seed name permissions) fun _ => .nothing
  | .loadCache player => .engineThen (Engine.playerPermissions player .full) fun snapshot bench =>
      let cache := bench.cache.load snapshot
      (.stale cache.stale, { bench with cache })
  | .applyToCache subscription => .act fun bench =>
      let ((events, _), bench) := bench.drainAt subscription
      let cache := bench.cache.applyAll events
      (.applied events.length cache.stale, { bench with cache })
  | .applyEventToCache event => .act fun bench =>
      let cache := bench.cache.apply event
      (.stale cache.stale, { bench with cache })
  | .cachedPlayer player => .act fun bench => (.cached bench.cache.players[player]?, bench)
  | .reopen => .act fun bench => (.nothing, bench.reopen)
  | .insertRow row => .act fun bench => (.count 1, bench.insertRow row)
  | .addFault fault => .act fun bench => (.nothing, { bench with faults := bench.faults ++ [fault] })
  | .addHook hook => .act fun bench => (.nothing, { bench with hooks := bench.hooks ++ [hook] })
  | .startLoop scanner => fun bench =>
      let loop := Loop.start? scanner bench.config.interval bench.elapsed
      (do
        discard Scanner.startupRefresh
        fireLoop loop bench.elapsed, { bench with loop })
  | .passTime span => fun bench =>
      let elapsed := bench.elapsed + span
      let bench := { bench.setClock (bench.service.clock + Int64.ofNat span) with elapsed }
      (fireLoop bench.loop elapsed, bench)
  | .signal stop => .act fun bench =>
      let bench := if stop then { bench with loop := none } else bench
      (loopAnswer bench, bench)

end PermissionFeed.Scenario
