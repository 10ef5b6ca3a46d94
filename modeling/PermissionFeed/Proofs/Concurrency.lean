import PermissionFeed.Proofs.Publications
import PermissionFeed.Proofs.Reachable

namespace PermissionFeed.Crowd

variable {crowd : Crowd} {place : Nat} {effect : Effect} {next : effect.Answer → Routine (Except EngineError Outcome)}

theorem step_of_answered {answer : effect.Answer} {after : Service}
    (placed : crowd.tasks[place]? = some (.step effect next))
    (performed : crowd.service.perform effect = (some answer, after)) :
    crowd.step place = ⟨after, crowd.tasks.set place (next answer),
      crowd.beats ++ [⟨place, effect, crowd.service, after⟩]⟩ := by
  simp only [step, placed, performed]

theorem published_concat (beats : List Beat) (beat : Beat) :
    published (beats ++ [beat]) = published beats ++ beat.before.announced beat.effect := by
  simp [published]

def Advances {α : Type} (after before : List (Routine α)) : Prop :=
  ∃ (place : Nat) (effect : Effect) (next : effect.Answer → Routine α) (answer : effect.Answer),
    before[place]? = some (.step effect next) ∧ after = before.set place (next answer)

theorem acc_cons {α : Type} {task : Routine α} {tasks : List (Routine α)}
    (heads : ∀ (effect : Effect) (next : effect.Answer → Routine α), task = .step effect next →
      ∀ answer tasks, Acc Advances tasks → Acc Advances (next answer :: tasks))
    (acc : Acc Advances tasks) : Acc Advances (task :: tasks) := by
  induction acc with
  | intro tasks below ih =>
      refine ⟨_, fun after ⟨place, effect, next, answer, placed, same⟩ => ?_⟩
      subst same
      cases place with
      | zero => exact heads effect next (Option.some.inj placed) answer tasks ⟨tasks, below⟩
      | succ place => exact ih _ ⟨place, effect, next, answer, placed, rfl⟩

theorem acc_advances {α : Type} (tasks : List (Routine α)) : Acc Advances tasks := by
  induction tasks with
  | nil => exact ⟨_, fun _ ⟨_, _, _, _, placed, _⟩ => by simp at placed⟩
  | cons task tasks ih =>
      induction task generalizing tasks with
      | done value => exact acc_cons (fun _ _ same => nomatch same) ih
      | step effect next rest =>
          refine acc_cons (fun effect next same answer tasks acc => ?_) ih
          cases same
          exact rest answer tasks acc

structure Orderly (start : Service) (cache : Cache) (players : Nat → PlayerId) (table : LockTable)
    (stages : Nat → Stage) (crowd : Crowd) : Prop where
  clock : crowd.service.clock = start.clock
  locks : crowd.service.locks = some table
  feed : crowd.service.feed = start.feed.publishAll (published crowd.beats)
  queues : Queues table players stages
  staged : Staged crowd.service.store start.clock players stages crowd.tasks
  hears : Hears (cache.applyAll (published crowd.beats)) crowd.service.store start.clock players stages
  records : Records crowd.service.store start.clock players stages crowd.beats

namespace Orderly

variable {start : Service} {cache : Cache} {players : Nat → PlayerId} {table later : LockTable} {stages : Nat → Stage}

theorem quiet (orderly : Orderly start cache players table stages crowd) {answer : effect.Answer} {stage : Stage}
    (placed : crowd.tasks[place]? = some (.step effect next))
    (performed : crowd.service.perform effect = (some answer, { crowd.service with locks := some later }))
    (silent : crowd.service.announced effect = []) (keeps : effect.writesPlayer = false)
    (queues : Queues later players (assign stages place stage)) (untold : stage.untold? = (stages place).untold?)
    (early : stage.beforeWrite → (stages place).beforeWrite)
    (fits : stage.Fits (players place) start.clock crowd.service.store (next answer)) :
    Orderly start cache players later (assign stages place stage) (crowd.step place) := by
  rw [step_of_answered placed performed]
  obtain ⟨bound, _⟩ := List.getElem?_eq_some_iff.mp placed
  let beat : Beat := ⟨place, effect, crowd.service, { crowd.service with locks := some later }⟩
  have unheard : published (crowd.beats ++ [beat]) = published crowd.beats := by
    rw [published_concat, silent, List.append_nil]
  exact
    { clock := orderly.clock
      locks := rfl
      feed := by rw [unheard]; exact orderly.feed
      queues
      staged := orderly.staged.set bound fits fun _ _ _ => .refl _ _
      hears := by rw [unheard]; exact orderly.hears.move untold
      records := by
        refine (orderly.records.add keeps fun announcement same => ?_).move (fun _ => untold.symm.trans) early
        have same : effect = .publish announcement := same
        subst same
        contradiction }

theorem pause (orderly : Orderly start cache players table stages crowd) {answer : effect.Answer}
    (placed : crowd.tasks[place]? = some (.step effect next))
    (performed : crowd.service.perform effect = (some answer, crowd.service))
    (silent : crowd.service.announced effect = []) (keeps : effect.writesPlayer = false)
    (fits : (stages place).Fits (players place) start.clock crowd.service.store (next answer)) :
    Orderly start cache players table stages (crowd.step place) := by
  have unmoved : assign stages place (stages place) = stages := assign_eq_self stages place
  have stepped : Orderly start cache players table (assign stages place (stages place)) (crowd.step place) :=
    orderly.quiet placed (by rw [performed, Service.with_locks orderly.locks]) silent keeps
      (by rw [unmoved]; exact orderly.queues) rfl id fits
  rwa [unmoved] at stepped

theorem clockRead (orderly : Orderly start cache players table stages crowd)
    {next : Instant → Routine (Except EngineError Outcome)}
    (placed : crowd.tasks[place]? = some (.step .readClock next))
    (fits : (stages place).Fits (players place) start.clock crowd.service.store (next start.clock)) :
    Orderly start cache players table stages (crowd.step place) := by
  have performed : crowd.service.perform .readClock = (some start.clock, crowd.service) := by
    rw [← orderly.clock]
    rfl
  exact orderly.pause placed performed rfl rfl fits

theorem asked (orderly : Orderly start cache players table stages crowd) {call : StoreCall}
    {answer : Except StoreError call.Answer}
    {next : Except StoreError call.Answer → Routine (Except EngineError Outcome)}
    (placed : crowd.tasks[place]? = some (.step (.call call) next))
    (reads : call.run crowd.service.store = (answer, crowd.service.store)) (asks : Effect.asksOfPlayer (.call call))
    (fits : (stages place).Fits (players place) start.clock crowd.service.store (next answer)) :
    Orderly start cache players table stages (crowd.step place) :=
  orderly.pause placed (Service.perform_call reads) rfl
    (Effect.not_of_asks (fun _ _ => rfl) (fun _ _ => rfl) (fun _ _ => rfl) _ asks) fits

theorem request (orderly : Orderly start cache players table stages crowd)
    {next : Option ClaimId → Routine (Except EngineError Outcome)} (starting : stages place = .starting)
    (placed : crowd.tasks[place]? = some (.step (.request [players place]) next))
    (waits : ∀ claim, Engine.Waits (players place) claim start.clock (next (some claim))) :
    Orderly start cache players (table.request [players place]).2
      (assign stages place (.waiting (table.request [players place]).1)) (crowd.step place) :=
  orderly.quiet placed (Service.perform_request_of_kept orderly.locks _) rfl rfl
    (orderly.queues.request (by rw [starting]; rfl)) (by rw [starting]; rfl) (fun _ => by rw [starting]; rfl) (waits _)

theorem granted (orderly : Orderly start cache players table stages crowd) {claim : ClaimId}
    {next : Unit → Routine (Except EngineError Outcome)} (waiting : stages place = .waiting claim)
    (placed : crowd.tasks[place]? = some (.step (.await claim) next))
    (first : (table.line (players place)).head? = some claim)
    (reads : ∀ view, Engine.Reads (players place) claim start.clock view (next ())) :
    Orderly start cache players (table.poll claim).2 (assign stages place (.reading claim)) (crowd.step place) := by
  have owns : (stages place).claim? = some claim := by rw [waiting]; rfl
  have listed := orderly.queues.listed place claim owns
  refine orderly.quiet placed (Service.perform_await orderly.locks
    ((LockTable.poll_granted orderly.queues.lined listed).mpr first)) rfl rfl ?_ (by rw [waiting]; rfl)
    (fun _ => by rw [waiting]; rfl) (reads _)
  refine (orderly.queues.poll owns).move (by rw [waiting]; rfl) fun mine holds => ?_
  obtain rfl : claim = mine := Option.some.inj holds
  rw [(LockTable.lined_poll orderly.queues.lined listed).2, first]

theorem refused (orderly : Orderly start cache players table stages crowd) {claim : ClaimId}
    {next : Unit → Routine (Except EngineError Outcome)} (waiting : stages place = .waiting claim)
    (placed : crowd.tasks[place]? = some (.step (.await claim) next))
    (behind : (table.line (players place)).head? ≠ some claim) :
    Orderly start cache players (table.poll claim).2 stages (crowd.step place) := by
  have owns : (stages place).claim? = some claim := by rw [waiting]; rfl
  have later : (table.poll claim).1 = false := by
    have granted := LockTable.poll_granted orderly.queues.lined (orderly.queues.listed place claim owns)
    exact Bool.eq_false_iff.mpr fun all => behind (granted.mp all)
  have stepped : crowd.step place =
      { crowd with service := { crowd.service with locks := some (table.poll claim).2 } } := by
    simp [step, placed, Service.perform, Service.poll, orderly.locks, later]
  rw [stepped]
  exact
    { clock := orderly.clock
      locks := rfl
      feed := orderly.feed
      queues := orderly.queues.poll owns
      staged := orderly.staged
      hears := orderly.hears
      records := orderly.records }

theorem write (orderly : Orderly start cache players table stages crowd) {claim : ClaimId} {call : StoreCall}
    {next : Except StoreError call.Answer → Routine (Except EngineError Outcome)} {effect : Store → Store.Write}
    (reading : stages place = .reading claim) (placed : crowd.tasks[place]? = some (.step (.call call) next))
    (writes : Effect.writesPlayer (.call call))
    (only : Store.OnlyPlayer (players place) crowd.service.store (effect crowd.service.store).2)
    (written : call.run crowd.service.store = ((call.run crowd.service.store).1, (effect crowd.service.store).2))
    (tells : Engine.Tells (players place) claim start.clock (crowd.service.store.snapshot (players place) start.clock)
      (effect crowd.service.store).2 (next (call.run crowd.service.store).1)) :
    Orderly start cache players table
      (assign stages place (.telling claim (crowd.service.store.snapshot (players place) start.clock)))
      (crowd.step place) := by
  rw [step_of_answered placed (Service.perform_write written)]
  obtain ⟨bound, _⟩ := List.getElem?_eq_some_iff.mp placed
  have holds : (stages place).held? = some claim := by rw [reading]; rfl
  have held : (stages place).held?.isSome := by rw [holds]; rfl
  have early : (stages place).beforeWrite := by rw [reading]; rfl
  have alone := orderly.queues.alone held
  let beat : Beat := ⟨place, .call call, crowd.service, { crowd.service with store := (effect crowd.service.store).2 }⟩
  have unheard : published (crowd.beats ++ [beat]) = published crowd.beats := by
    rw [published_concat]
    exact List.append_nil _
  exact
    { clock := orderly.clock
      locks := orderly.locks
      feed := by rw [unheard]; exact orderly.feed
      queues := orderly.queues.move (by rw [reading]; rfl) fun mine same =>
        orderly.queues.held place mine (holds.trans same)
      staged := orderly.staged.set bound tells fun other apart alsoHeld =>
        only.alike fun same => apart (orderly.queues.exclusive held alsoHeld same)
      hears := by
        rw [unheard]
        exact orderly.hears.write (by rw [reading]; rfl) alone only claim
      records := Records.write beat orderly.records rfl early alone writes only claim }

theorem publish (orderly : Orderly start cache players table stages crowd) {claim : ClaimId} {before : Snapshot}
    {next : EventId × Nat → Routine (Except EngineError Outcome)} {reason : String}
    (telling : stages place = .telling claim before)
    (placed : crowd.tasks[place]? = some (.step (.publish (.ofDelta (players place) reason
      (.between before (crowd.service.store.snapshot (players place) start.clock) .all) start.clock)) next))
    (settles : ∀ answer, Engine.Settles claim (next answer)) :
    Orderly start cache players table (assign stages place (.settling claim)) (crowd.step place) := by
  have performed := Service.perform_publish crowd.service (.ofDelta (players place) reason
    (.between before (crowd.service.store.snapshot (players place) start.clock) .all) start.clock)
  rw [step_of_answered placed performed]
  obtain ⟨bound, _⟩ := List.getElem?_eq_some_iff.mp placed
  have holds : (stages place).held? = some claim := by rw [telling]; rfl
  have untold : (stages place).untold? = some before := by rw [telling]; rfl
  have alone := orderly.queues.alone (by rw [holds]; rfl)
  exact
    { clock := orderly.clock
      locks := orderly.locks
      feed := by
        rw [published_concat, Feed.publishAll_append, ← orderly.feed]
        rfl
      queues := orderly.queues.move (by rw [telling]; rfl) fun mine same =>
        orderly.queues.held place mine (holds.trans same)
      staged := orderly.staged.set bound (settles _) fun _ _ _ => .refl _ _
      hears := by
        rw [published_concat, Cache.applyAll_append]
        exact orderly.hears.publish untold alone rfl reason
      records := by
        refine (orderly.records.add rfl fun announcement same => ?_).move (fun _ none => nomatch none) fun early =>
          nomatch early
        obtain rfl := Effect.publish.inj same
        exact ⟨rfl, orderly.records.exact untold reason⟩ }

theorem drop (orderly : Orderly start cache players table stages crowd) {claim : ClaimId} {before : Snapshot}
    {task : Routine (Except EngineError Outcome)} (telling : stages place = .telling claim before)
    (placed : crowd.tasks[place]? = some task)
    (same : before = crowd.service.store.snapshot (players place) start.clock) (settles : Engine.Settles claim task) :
    Orderly start cache players table (assign stages place (.settling claim)) crowd := by
  have holds : (stages place).held? = some claim := by rw [telling]; rfl
  have untold : (stages place).untold? = some before := by rw [telling]; rfl
  exact
    { orderly with
      queues := orderly.queues.move (by rw [telling]; rfl) fun mine same =>
        orderly.queues.held place mine (holds.trans same)
      staged := orderly.staged.move placed settles
      hears := orderly.hears.drop untold (orderly.queues.alone (by rw [holds]; rfl)) rfl same
      records := orderly.records.move (fun _ none => nomatch none) fun early => nomatch early }

theorem release (orderly : Orderly start cache players table stages crowd) {claim : ClaimId}
    {task : Routine (Except EngineError Outcome)} (settling : stages place = .settling claim)
    (placed : crowd.tasks[place]? = some task) (settles : Engine.Settles claim task) :
    Orderly start cache players (table.release claim) (assign stages place .finished) (crowd.step place) := by
  cases settles with
  | release result =>
      have performed : crowd.service.perform (.release claim) =
          (some (), { crowd.service with locks := some (table.release claim) }) := by
        simp only [Service.perform, orderly.locks]
        rfl
      exact orderly.quiet placed performed rfl rfl (orderly.queues.release (by rw [settling]; rfl))
        (by rw [settling]; rfl) (fun early => absurd early Bool.false_ne_true) rfl

theorem step (orderly : Orderly start cache players table stages crowd) (place : Nat) :
    ∃ later moved, Orderly start cache players later moved (crowd.step place) := by
  match placed : crowd.tasks[place]? with
  | none => exact ⟨table, stages, by rwa [Crowd.step, placed]⟩
  | some (.done result) => exact ⟨table, stages, by rwa [Crowd.step, placed]⟩
  | some (.step effect next) =>
      have fits := orderly.staged.fits place _ placed
      generalize here : stages place = stage at fits
      cases stage with
      | starting =>
          cases fits with
          | clock rest => exact ⟨_, _, orderly.clockRead placed (by rw [here]; exact rest)⟩
          | request waits => exact ⟨_, _, orderly.request here placed waits⟩
      | waiting claim =>
          cases fits with
          | await reads =>
              by_cases first : (table.line (players place)).head? = some claim
              · exact ⟨_, _, orderly.granted here placed first reads⟩
              · exact ⟨_, _, orderly.refused here placed first⟩
      | reading claim =>
          cases fits with
          | clock rest => exact ⟨_, _, orderly.clockRead placed (by rw [here]; exact rest)⟩
          | ask answer reads asked rest =>
              exact ⟨_, _, orderly.asked placed (reads _ (.refl _ _)) asked (by rw [here]; exact rest)⟩
          | write effect writes only written rest =>
              exact ⟨_, _, orderly.write here placed writes (only _) (written _) (rest _ (.refl _ _))⟩
      | telling claim before =>
          cases fits with
          | clock rest => exact ⟨_, _, orderly.clockRead placed (by rw [here]; exact rest)⟩
          | ask answer reads asked rest =>
              exact ⟨_, _, orderly.asked placed (reads _ (.refl _ _)) asked (by rw [here]; exact rest)⟩
          | publish reason settles => exact ⟨_, _, orderly.publish here placed settles⟩
          | silent same settles =>
              exact ⟨_, _, (orderly.drop here placed same settles).release (assign_self ..) placed settles⟩
      | settling claim => exact ⟨_, _, orderly.release here placed fits⟩
      | finished => contradiction

theorem play (orderly : Orderly start cache players table stages crowd) (schedule : List Nat) :
    ∃ later moved, Orderly start cache players later moved (crowd.play schedule) := by
  induction schedule generalizing crowd table stages with
  | nil => exact ⟨table, stages, orderly⟩
  | cons place schedule ih =>
      obtain ⟨later, moved, stepped⟩ := orderly.step place
      exact ih stepped

theorem answered (orderly : Orderly start cache players table stages crowd)
    (placed : crowd.tasks[place]? = some (.step effect next))
    (first : ∀ claim, stages place = .waiting claim → (table.line (players place)).head? = some claim) :
    (crowd.service.perform effect).1.isSome := by
  by_cases free : ∀ claim, effect ≠ .await claim
  · exact crowd.service.isSome_perform free
  · obtain ⟨claim, awaits⟩ := Classical.not_forall.mp free
    obtain rfl := Classical.not_not.mp awaits
    have fits := orderly.staged.fits place _ placed
    generalize here : stages place = stage at fits
    cases stage with
    | waiting mine =>
        cases fits with
        | await reads =>
            have listed := orderly.queues.listed place claim (by rw [here]; rfl)
            rw [Service.perform_await orderly.locks
              ((LockTable.poll_granted orderly.queues.lined listed).mpr (first claim here))]
            rfl
    | telling claim before => cases fits with | silent same settles => contradiction
    | _ => contradiction

theorem exists_answered (orderly : Orderly start cache players table stages crowd) (unfinished : ¬ crowd.Finished) :
    ∃ (place : Nat) (effect : Effect) (next : effect.Answer → Routine (Except EngineError Outcome)),
      crowd.tasks[place]? = some (.step effect next) ∧ (crowd.service.perform effect).1.isSome := by
  have steps {place : Nat} {task : Routine (Except EngineError Outcome)} (placed : crowd.tasks[place]? = some task)
      (undone : task.isDone = false) : ∃ (effect : Effect) (next : effect.Answer → _),
      crowd.tasks[place]? = some (.step effect next) := by
    cases task with
    | done result => contradiction
    | step effect next => exact ⟨effect, next, placed⟩
  obtain ⟨task, listed, undone⟩ : ∃ task ∈ crowd.tasks, task.isDone = false := by
    simpa [Finished] using unfinished
  obtain ⟨place, placed⟩ := List.mem_iff_getElem?.mp listed
  by_cases first : ∀ claim, stages place = .waiting claim → (table.line (players place)).head? = some claim
  · obtain ⟨effect, next, placed⟩ := steps placed undone
    exact ⟨place, effect, next, placed, orderly.answered placed first⟩
  · -- whoever is first in the line need not wait
    obtain ⟨claim, waiting, behind⟩ : ∃ claim, stages place = .waiting claim ∧
        (table.line (players place)).head? ≠ some claim := by
      simpa using first
    have inLine := orderly.queues.listed place claim (by rw [waiting]; rfl)
    obtain ⟨front, head⟩ : ∃ front, (table.line (players place)).head? = some front := by
      cases queue : table.line (players place) with
      | nil => simp [queue] at inLine
      | cons front rest => exact ⟨front, rfl⟩
    have frontListed := List.mem_of_head? head
    obtain ⟨other, owns⟩ := orderly.queues.owned _ front frontListed
    have same := orderly.queues.lined.player_eq (orderly.queues.listed other front owns) frontListed
    cases found : crowd.tasks[other]? with
    | none =>
        rw [orderly.staged.absent other found] at owns
        contradiction
    | some task =>
        obtain ⟨effect, next, placed⟩ := steps found ((orderly.staged.fits other task found).not_done owns)
        refine ⟨other, effect, next, placed, orderly.answered placed fun mine waits => ?_⟩
        rw [waits] at owns
        obtain rfl : mine = front := Option.some.inj owns
        rw [same, head]

theorem finishes (orderly : Orderly start cache players table stages crowd) : ∃ rest, (crowd.play rest).Finished := by
  have acc := acc_advances crowd.tasks
  generalize left : crowd.tasks = tasks at acc
  induction acc generalizing crowd table stages with
  | intro tasks _ ih =>
      by_cases finished : crowd.Finished
      · exact ⟨[], finished⟩
      · obtain ⟨place, effect, next, placed, answered⟩ := orderly.exists_answered finished
        rcases performed : crowd.service.perform effect with ⟨_ | answer, after⟩
        · simp [performed] at answered
        · obtain ⟨later, moved, stepped⟩ := orderly.step place
          have advanced : Advances (crowd.step place).tasks tasks :=
            ⟨place, effect, next, answer, left ▸ placed, by rw [step_of_answered placed performed, left]⟩
          obtain ⟨rest, ended⟩ := ih _ advanced stepped rfl
          exact ⟨place :: rest, ended⟩

theorem inSync (orderly : Orderly start cache players table stages crowd) (finished : crowd.Finished) :
    (cache.applyAll (published crowd.beats)).InSync crowd.service.store start.clock := by
  refine ⟨orderly.hears.fresh, fun player => orderly.hears.settled player fun place _ => ?_⟩
  cases untold : (stages place).untold? with
  | none => rfl
  | some before =>
      obtain ⟨claim, holds⟩ := Option.isSome_iff_exists.mp (Stage.isSome_held_of_untold untold)
      have owns := Stage.claim_of_held holds
      cases found : crowd.tasks[place]? with
      | none =>
          rw [orderly.staged.absent place found] at owns
          contradiction
      | some task =>
          have undone := (orderly.staged.fits place task found).not_done owns
          rw [finished task (List.mem_of_getElem? found)] at undone
          contradiction

end Orderly

def Within (count : Nat) (crowd : Crowd) : Prop :=
  crowd.tasks.length = count ∧ ∀ beat ∈ crowd.beats, beat.place < count

theorem Within.step {count : Nat} (within : Within count crowd) (place : Nat) : Within count (crowd.step place) := by
  unfold Crowd.step
  split
  · next effect next placed =>
      obtain ⟨bound, _⟩ := List.getElem?_eq_some_iff.mp placed
      split
      · refine ⟨by rw [List.length_set, within.1], fun beat listed => ?_⟩
        rcases List.mem_append.mp listed with earlier | last
        · exact within.2 beat earlier
        · obtain rfl := List.mem_singleton.mp last
          exact within.1 ▸ bound
      · exact within
  · exact within

theorem Within.play {count : Nat} (within : Within count crowd) (schedule : List Nat) :
    Within count (crowd.play schedule) := by
  induction schedule generalizing crowd with
  | nil => exact within
  | cons place schedule ih => exact ih (within.step place)

variable {config : Config} {service : Service} {cache : Cache} {mutations : List Mutation}

theorem orderly_start (reachable : Service.Reachable config service) (serialized : config.serialize)
    (synced : cache.InSync service.store service.clock) {players : Nat → PlayerId}
    (concerns : ∀ place mutation, mutations[place]? = some mutation → mutation.player? = some (players place)) :
    ∃ table stages, Orderly service cache players table stages (start service mutations) := by
  obtain ⟨table, kept⟩ := Option.isSome_iff_exists.mp (reachable.isSome_locks.trans serialized)
  have free (player : PlayerId) : table.IsFree player :=
    (reachable.idle [player] table kept).2 player List.mem_cons_self
  refine ⟨table, unbegun mutations.length, ?_⟩
  exact
    { clock := rfl
      locks := kept
      feed := rfl
      queues := .start (reachable.idle [] table kept).1 free players _
      staged := .start concerns service.store service.clock
      hears := .start synced players _
      records := .start service.store service.clock players _ }

/-- Whatever turns the mutations take, what they publish is exact, they can be finished, and then a consumer that has
taken in what they published is in sync. -/
theorem interleaved_converges (reachable : Service.Reachable config service) (serialized : config.serialize)
    (synced : cache.InSync service.store service.clock) (ofPlayers : ∀ mutation ∈ mutations, mutation.player?.isSome)
    (schedule : List Nat) :
    let crowd := (start service mutations).play schedule
    crowd.service.clock = service.clock ∧
    crowd.service.feed = service.feed.publishAll (published crowd.beats) ∧
    (crowd.Finished → (cache.applyAll (published crowd.beats)).InSync crowd.service.store service.clock) ∧
    (∀ beat ∈ crowd.beats, ∀ announcement, beat.effect = .publish announcement →
      mutations[beat.place]?.bind Mutation.player? = some announcement.player ∧
        Exact crowd.beats service.clock beat.place announcement) ∧
    ∃ rest, (crowd.play rest).Finished := by
  have named : ∀ place : Nat, ∃ player, ∀ mutation : Mutation, mutations[place]? = some mutation →
      mutation.player? = some player := by
    intro place
    cases found : mutations[place]? with
    | none => exact ⟨⟨.replicate 16 0⟩, fun _ missing => nomatch missing⟩
    | some mutation =>
        obtain ⟨player, concerns⟩ := Option.isSome_iff_exists.mp (ofPlayers mutation (List.mem_of_getElem? found))
        exact ⟨player, fun other same => by rwa [← Option.some.inj same]⟩
  obtain ⟨players, concerns⟩ := Classical.axiomOfChoice named
  obtain ⟨_, _, begun⟩ := orderly_start reachable serialized synced concerns
  obtain ⟨table, stages, orderly⟩ := begun.play schedule
  have within : Within mutations.length ((start service mutations).play schedule) :=
    Within.play ⟨List.length_map _, fun _ listed => absurd listed List.not_mem_nil⟩ schedule
  refine ⟨orderly.clock, orderly.feed, orderly.inSync, fun beat listed announcement published => ?_, orderly.finishes⟩
  obtain ⟨ofPlayer, exact⟩ := orderly.records.told beat listed announcement published
  refine ⟨?_, exact⟩
  have found := List.getElem?_eq_getElem (within.2 beat listed)
  rw [found, Option.bind_some, concerns _ _ found, ofPlayer]

def rivals : List Mutation :=
  [.addPlayerPermissions Service.chief [⟨"fly", none⟩], .removePlayerGroups Service.chief ["staff"],
    .addPlayerGroups Service.newcomer [⟨"staff", none⟩]]

def turns : List Nat :=
  (List.replicate 40 [0, 1, 2]).flatten

def contest : Crowd :=
  (start Service.staffed rivals).play turns

theorem contest_converges : contest.Finished ∧
    (published contest.beats).map (·.player) = [Service.chief, Service.newcomer, Service.chief] ∧
    (Service.staffedCache.applyAll (published contest.beats)).InSync contest.service.store Service.staffed.clock := by
  have finished : contest.Finished := by decide +kernel
  have heard : (published contest.beats).map (·.player) = [Service.chief, Service.newcomer, Service.chief] := by
    decide +kernel
  obtain ⟨_, _, converged, _⟩ := interleaved_converges Service.reachable_staffed rfl Service.inSync_staffedCache
    (show ∀ mutation ∈ rivals, mutation.player?.isSome by decide) turns
  rw [← contest] at converged
  exact ⟨finished, heard, converged finished⟩

end PermissionFeed.Crowd
