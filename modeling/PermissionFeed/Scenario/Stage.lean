import PermissionFeed.Scenario.Plan

/-!
# Stages

A stage is a bench on which several tasks are under way: the step that was taken from the script, the steps that hooks
spawn, and the snapshots that are read side by side. One task runs at a time, until it ends or has to wait; tasks that
can go on do so in the order in which they became able to. The task of the script is the exception: it goes on only when
no other task can.

- A hook interrupts a task at a call. Its steps become the first jobs of that task, or it spawns them one by one and
  rests after each, so that the others go on first.
- A task that calls a slow store waits for the answer; the store answers in the order of the calls.
- `Stage.settle` lets tasks run until all of them have ended or wait for each other.
-/

namespace PermissionFeed.Scenario

inductive Outlet where
  | step (place : Option Place) (ending : Ending)
  | snapshot (slot : Nat) (snapshot : Option Snapshot)

structure Work where
  service : ServiceId
  routine : Routine Outlet

structure Call where
  service : ServiceId
  call : StoreCall
  next : Except StoreError call.Answer → Routine Outlet

inductive Job where
  | take (place : Option Place) (step : Step)
  | spawn (step : Step)
  | resume (work : Work)
  | call (call : Call)
  | answer (call : Call) (answer : Except StoreError call.call.Answer)
  | collect (first count : Nat) (service : ServiceId) (next : List (Option Snapshot) → Routine Outlet)

structure Task where
  ofScript : Bool
  jobs : List Job

namespace Task

def first (task : Task) (job : Job) : Task :=
  { task with jobs := job :: task.jobs }

def claim? (task : Task) : Option (ServiceId × ClaimId) :=
  match task.jobs with
  | .resume ⟨service, .step (.await claim) _⟩ :: _ => some (service, claim)
  | _ => none

def collects (task : Task) (slot : Nat) : Bool :=
  match task.jobs with
  | .collect first count .. :: _ => first ≤ slot && slot < first + count
  | _ => false

end Task

structure Stage where
  bench : Bench
  ready : List Task
  script : Option Task
  resting : List (Nat × Task)
  calling : List Task
  waiting : List Task
  snapshots : List (Option (Option Snapshot))
  result : Option Result
  hooked : List (Place × Result)
  spawned : Nat

namespace Stage

def ofBench (bench : Bench) (step : Step) : Stage where
  bench := bench
  ready := [⟨true, [.take none step]⟩]
  script := none
  resting := []
  calling := []
  waiting := []
  snapshots := []
  result := none
  hooked := []
  spawned := 0

def wake (stage : Stage) (task : Task) : Stage :=
  if task.ofScript then { stage with script := some task } else { stage with ready := stage.ready ++ [task] }

def wakeWhere (stage : Stage) (condition : Task → Bool) : Stage :=
  let (woken, waiting) := stage.waiting.partition condition
  woken.foldl wake { stage with waiting }

def wakeHeirs (stage : Stage) (service : ServiceId) : Stage :=
  let heirs := ((stage.bench.serviceAt service).locks.map LockTable.handedOver).getD []
  heirs.foldl (fun stage claim => stage.wakeWhere fun task => task.claim? == some (service, claim)) stage

def goOn (stage : Stage) (task : Task) : Stage :=
  { stage with ready := task :: stage.ready }

def wait (stage : Stage) (task : Task) : Stage :=
  { stage with waiting := stage.waiting ++ [task] }

/-- For how many rounds a task rests; a round lasts until no task can go on. That is long enough for what a spawned step
sets off. -/
def patience : Nat :=
  64

/-- Ends a round: tasks that have rested long enough can go on again. Rounds in which nothing else would happen pass
at once. -/
def endRound (stage : Stage) : Stage :=
  let passed := if stage.script.isSome then 1 else (stage.resting.head?.map Prod.fst).getD 0
  let resting := stage.resting.map fun (rounds, task) => (rounds - passed, task)
  let (rested, resting) := resting.partition fun (rounds, _) => rounds = 0
  rested.foldl (fun stage (_, task) => stage.wake task) { stage with resting }

def next? (stage : Stage) : Option (Task × Stage) :=
  match stage.ready with
  | task :: ready => some (task, { stage with ready })
  | [] =>
      let stage := stage.endRound
      match stage.script, stage.ready, stage.calling with
      | some task, _, _ => some (task, { stage with script := none })
      | none, task :: ready, _ => some (task, { stage with ready })
      | none, [], task :: calling => some (task, { stage with calling })
      | none, [], [] => none

def spawn (stage : Stage) (step : Step) : Stage :=
  { stage with ready := stage.ready ++ [⟨false, [.take (some (.beside stage.spawned)) step]⟩]
               spawned := stage.spawned + 1 }

def capture (stage : Stage) (service : ServiceId) (time : Instant) (players : List PlayerId) : Stage :=
  players.foldl (fun stage player =>
    let slot := stage.snapshots.length
    let routine : Routine Outlet := do
      return .snapshot slot (← Routine.inquire (.snapshot player .full time)).toOption
    { stage with ready := stage.ready ++ [⟨false, [.resume ⟨service, routine⟩]⟩]
                 snapshots := stage.snapshots ++ [none] }) stage

def leave (stage : Stage) : Outlet → Stage
  | .step place ending =>
      let (result, bench) := ending stage.bench
      match place with
      | none => { stage with bench, result := some result }
      | some place => { stage with bench, hooked := stage.hooked ++ [(place, result)] }
  | .snapshot slot snapshot =>
      let stage := { stage with snapshots := stage.snapshots.set slot (some snapshot) }
      stage.wakeWhere (·.collects slot)

def interrupt (stage : Stage) (hook : Hook) (task : Task) : Stage :=
  let steps := hook.steps.map fun step => if hook.spawns then Job.spawn step else .take (some .inside) step
  stage.goOn { task with jobs := steps ++ task.jobs }

def receive (stage : Stage) (task : Task) (call : Call) (answer : Except StoreError call.call.Answer) :
    Option (Except StoreError call.call.Answer) × Stage :=
  match stage.bench.takeHook call.call .after with
  | (some hook, bench) =>
      (none, interrupt { stage with bench } hook (task.first (.resume ⟨call.service, call.next answer⟩)))
  | (none, bench) => (some answer, { stage with bench })

def make (stage : Stage) (task : Task) (call : Call) : Option (Except StoreError call.call.Answer) × Stage :=
  match stage.bench.takeFault call.call with
  | (some error, bench) => (some (.error error), { stage with bench })
  | (none, bench) =>
      let (answer, bench) := bench.callStore call.call
      if bench.slowStore then
        (none, { stage with bench, calling := stage.calling ++ [task.first (.answer call answer)] })
      else receive { stage with bench } task call answer

def reach (stage : Stage) (task : Task) (call : Call) : Option (Except StoreError call.call.Answer) × Stage :=
  match stage.bench.takeHook call.call .before with
  | (some hook, bench) => (none, interrupt { stage with bench } hook (task.first (.call call)))
  | (none, bench) => make { stage with bench } task call

def run (task : Task) (service : ServiceId) : Routine Outlet → Stage → Stage
  | .done outlet, stage =>
      let stage := stage.leave outlet
      if task.jobs.isEmpty then stage else stage.goOn task
  | .step (.call call) next, stage =>
      match stage.reach task ⟨service, call, next⟩ with
      | (some answer, stage) => run task service (next answer) stage
      | (none, stage) => stage
  | .step (.capture players time) next, stage =>
      if players.isEmpty then run task service (next []) stage
      else
        let collected := .collect stage.snapshots.length players.length service next
        (stage.capture service time players).wait (task.first collected)
  | .step effect next, stage =>
      match stage.bench.perform service effect with
      | (some answer, bench) => run task service (next answer) (wakeHeirs { stage with bench } service)
      | (none, bench) => wait { stage with bench } (task.first (.resume ⟨service, .step effect next⟩))

def goOnAfter (task : Task) (call : Call) : Option (Except StoreError call.call.Answer) × Stage → Stage
  | (some answer, stage) => run task call.service (call.next answer) stage
  | (none, stage) => stage

def advance (task : Task) (stage : Stage) : Stage :=
  match task.jobs with
  | [] => stage
  | job :: jobs =>
      let task := { task with jobs }
      match job with
      | .take place step =>
          let service := stage.bench.current
          let (routine, bench) := step.plan stage.bench
          run task service (return .step place (← routine)) { stage with bench }
      | .spawn step =>
          let stage := stage.spawn step
          { stage with resting := stage.resting ++ [(patience, task)] }
      | .resume work => run task work.service work.routine stage
      | .call call => goOnAfter task call (stage.make task call)
      | .answer call answer => goOnAfter task call (stage.receive task call answer)
      | .collect first count service next =>
          match ((stage.snapshots.drop first).take count).mapM id with
          | some snapshots => run task service (next snapshots) stage
          | none => stage.wait (task.first job)

def settle : (turns : Nat) → Stage → Stage
  | 0, stage => stage
  | turns + 1, stage =>
      match stage.next? with
      | none => stage
      | some (task, stage) => settle turns (stage.advance task)

end Stage

structure Script where
  config : Config := {}
  slowStore : Bool := false
  start : Instant := 1768392000000
  observes : Bool := false
  watched : List (Except RequestError PlayerId) := []
  steps : List Step := []

namespace Script

def state (bench : Bench) (watched : Except RequestError PlayerId) : Except Failure Snapshot :=
  match watched with
  | .error error => .error (.request error)
  | .ok player => bench.snapshot player

/-- How many turns the tasks of one step may take, in a script of the given size. There are no more steps and hooks than
that, nor more players and groups, and for each step and each of these a task starts, takes a lock, calls the store or
reads a snapshot a few times. -/
def turns (size : Nat) : Nat :=
  32 * (size + 1) * (size + 1)

def take (script : Script) (size : Nat) (bench : Bench) (step : Step) : Report × Bench :=
  let stage := (Stage.ofBench bench step).settle (turns size)
  let unfinished := (List.range stage.spawned).filter fun number =>
    stage.hooked.all fun (place, _) => place ≠ .beside number
  let (events, bench) := stage.bench.retire.observed
  ({ hooked := stage.hooked ++ unfinished.map fun number => (.beside number, .error .stuck)
     result := stage.result.getD (.error .stuck)
     events
     states := script.watched.map (state bench) }, bench)

def takeAll (script : Script) (size : Nat) (bench : Bench) : List Step → List Report
  | [] => []
  | step :: rest =>
      let (report, bench) := script.take size bench step
      report :: script.takeAll size bench rest

def bench (script : Script) : Bench :=
  .start script.config script.slowStore script.start (.avoiding (eventIdsOfSteps script.steps)) script.observes

def run (script : Script) : List Report :=
  script.takeAll (sizeOfSteps script.steps) script.bench script.steps

end Script

end PermissionFeed.Scenario
