import PermissionFeed.Proofs.Lines
import PermissionFeed.Proofs.Turns

/-!
# Mutations that run at the same time

A crowd is a number of mutations that run at the same time, each of them as far as it has got. One step lets one of them
perform its next effect. What each mutation of a player is at (`Stage`) says what is left of it (`Crowd.Staged`), and
who stands in which line (`Crowd.Queues`).
-/

namespace PermissionFeed

def Routine.isDone {α : Type} : Routine α → Bool
  | done _ => true
  | step .. => false

structure Beat where
  place : Nat
  effect : Effect
  before : Service
  after : Service

structure Crowd where
  service : Service
  tasks : List (Routine (Except EngineError Outcome))
  beats : List Beat

namespace Crowd

def start (service : Service) (mutations : List Mutation) : Crowd :=
  ⟨service, mutations.map Mutation.routine, []⟩

def step (crowd : Crowd) (place : Nat) : Crowd :=
  match crowd.tasks[place]? with
  | some (.step effect next) =>
      match crowd.service.perform effect with
      | (some answer, after) =>
          ⟨after, crowd.tasks.set place (next answer), crowd.beats ++ [⟨place, effect, crowd.service, after⟩]⟩
      | (none, after) => { crowd with service := after }
  | _ => crowd

def play (crowd : Crowd) (schedule : List Nat) : Crowd :=
  schedule.foldl step crowd

def Finished (crowd : Crowd) : Prop :=
  ∀ task ∈ crowd.tasks, task.isDone

instance (crowd : Crowd) : Decidable crowd.Finished :=
  inferInstanceAs (Decidable (∀ task ∈ crowd.tasks, task.isDone))

def published (beats : List Beat) : List ChangeEvent :=
  beats.flatMap fun beat => beat.before.announced beat.effect

def writesAt (beats : List Beat) (place : Nat) : List Beat :=
  beats.filter fun beat => decide (beat.place = place) && beat.effect.writesPlayer

end Crowd

inductive Stage where
  | starting
  | waiting (claim : ClaimId)
  | reading (claim : ClaimId)
  | telling (claim : ClaimId) (before : Snapshot)
  | settling (claim : ClaimId)
  | finished

namespace Stage

def claim? : Stage → Option ClaimId
  | waiting claim | reading claim | telling claim _ | settling claim => some claim
  | starting | finished => none

def held? : Stage → Option ClaimId
  | reading claim | telling claim _ | settling claim => some claim
  | starting | waiting _ | finished => none

def untold? : Stage → Option Snapshot
  | telling _ before => some before
  | _ => none

def beforeWrite : Stage → Bool
  | starting | waiting _ | reading _ => true
  | telling .. | settling _ | finished => false

theorem claim_of_held {stage : Stage} {claim : ClaimId} (held : stage.held? = some claim) :
    stage.claim? = some claim := by
  cases stage <;> first | exact held | contradiction

theorem isSome_held_of_untold {stage : Stage} {before : Snapshot} (untold : stage.untold? = some before) :
    stage.held?.isSome := by
  cases stage <;> first | rfl | contradiction

def Fits (player : PlayerId) (time : Instant) (store : Store) (task : Routine (Except EngineError Outcome)) :
    Stage → Prop
  | starting => Engine.Starts player time task
  | waiting claim => Engine.Waits player claim time task
  | reading claim => Engine.Reads player claim time store task
  | telling claim before => Engine.Tells player claim time before store task
  | settling claim => Engine.Settles claim task
  | finished => task.isDone

theorem Fits.of_alike {player : PlayerId} {time : Instant} {store after : Store}
    {task : Routine (Except EngineError Outcome)} {stage : Stage} (fits : stage.Fits player time store task)
    (alike : stage.held?.isSome → after.Alike player store) : stage.Fits player time after task := by
  cases stage with
  | reading claim => exact Engine.Reads.of_alike fits (alike rfl)
  | telling claim before => exact Engine.Tells.of_alike fits (alike rfl)
  | _ => exact fits

theorem Fits.not_done {player : PlayerId} {time : Instant} {store : Store} {task : Routine (Except EngineError Outcome)}
    {stage : Stage} {claim : ClaimId} (fits : stage.Fits player time store task) (owns : stage.claim? = some claim) :
    task.isDone = false := by
  cases stage with
  | starting => contradiction
  | finished => contradiction
  | waiting claim => cases fits with | await reads => rfl
  | reading claim => cases fits <;> rfl
  | telling claim before =>
      cases fits with
      | silent same settles => cases settles with | release result => rfl
      | _ => rfl
  | settling claim => cases fits with | release result => rfl

end Stage

namespace Crowd

variable {table : LockTable} {players : Nat → PlayerId} {stages : Nat → Stage} {place : Nat} {claim : ClaimId}

def assign (stages : Nat → Stage) (place : Nat) (stage : Stage) : Nat → Stage :=
  fun other => if other = place then stage else stages other

theorem assign_self (stages : Nat → Stage) (place : Nat) (stage : Stage) : assign stages place stage place = stage :=
  if_pos rfl

theorem assign_of_ne (stages : Nat → Stage) {place other : Nat} (different : other ≠ place) (stage : Stage) :
    assign stages place stage other = stages other :=
  if_neg different

theorem assign_eq_self (stages : Nat → Stage) (place : Nat) : assign stages place (stages place) = stages := by
  funext other
  by_cases same : other = place
  · rw [same, assign_self]
  · rw [assign_of_ne stages same]

def unbegun (count place : Nat) : Stage :=
  if place < count then .starting else .finished

theorem claim_unbegun (count place : Nat) : (unbegun count place).claim? = none := by
  unfold unbegun
  split <;> rfl

theorem untold_unbegun (count place : Nat) : (unbegun count place).untold? = none := by
  unfold unbegun
  split <;> rfl

def Alone (players : Nat → PlayerId) (stages : Nat → Stage) (place : Nat) : Prop :=
  ∀ other, other ≠ place → players other = players place → (stages other).untold? = none

theorem untold_assign {stage : Stage} (same : stage.untold? = (stages place).untold?) (other : Nat) :
    (assign stages place stage other).untold? = (stages other).untold? := by
  by_cases here : other = place
  · rw [here, assign_self, same]
  · rw [assign_of_ne stages here]

structure Queues (table : LockTable) (players : Nat → PlayerId) (stages : Nat → Stage) : Prop where
  lined : table.Lined
  listed : ∀ place claim, (stages place).claim? = some claim → claim ∈ table.line (players place)
  held : ∀ place claim, (stages place).held? = some claim → (table.line (players place)).head? = some claim
  distinct : ∀ place other claim, (stages place).claim? = some claim → (stages other).claim? = some claim →
    other = place
  owned : ∀ player, ∀ claim ∈ table.line player, ∃ place, (stages place).claim? = some claim

namespace Queues

theorem start (sound : table.Sound) (free : ∀ player, table.IsFree player) (players : Nat → PlayerId) (count : Nat) :
    Queues table players (unbegun count) where
  lined := LockTable.lined_of_isFree sound free
  listed place claim owns := by simp [claim_unbegun] at owns
  held place claim holds := by simpa [claim_unbegun] using Stage.claim_of_held holds
  distinct place other claim owns := by simp [claim_unbegun] at owns
  owned player claim listed := by simp [LockTable.line_of_isFree (free player)] at listed

theorem exclusive (queues : Queues table players stages) {other : Nat} (held : (stages place).held?.isSome)
    (alsoHeld : (stages other).held?.isSome) (same : players other = players place) : other = place := by
  obtain ⟨claim, holds⟩ := Option.isSome_iff_exists.mp held
  obtain ⟨second, alsoHolds⟩ := Option.isSome_iff_exists.mp alsoHeld
  have first := queues.held place claim holds
  have firstToo := queues.held other second alsoHolds
  rw [same, first] at firstToo
  obtain rfl := Option.some.inj firstToo
  exact queues.distinct place other claim (Stage.claim_of_held holds) (Stage.claim_of_held alsoHolds)

theorem move (queues : Queues table players stages) {stage : Stage} (claim : stage.claim? = (stages place).claim?)
    (held : ∀ claim, stage.held? = some claim → (table.line (players place)).head? = some claim) :
    Queues table players (assign stages place stage) := by
  have claims (other : Nat) : (assign stages place stage other).claim? = (stages other).claim? := by
    by_cases same : other = place
    · rw [same, assign_self, claim]
    · rw [assign_of_ne stages same]
  refine ⟨queues.lined, fun other mine => ?_, fun other mine holds => ?_, fun first second mine => ?_,
    fun player mine listed => ?_⟩
  · rw [claims]
    exact queues.listed other mine
  · by_cases same : other = place
    · subst same
      rw [assign_self] at holds
      exact held mine holds
    · rw [assign_of_ne stages same] at holds
      exact queues.held other mine holds
  · rw [claims, claims]
    exact queues.distinct first second mine
  · obtain ⟨other, owns⟩ := queues.owned player mine listed
    exact ⟨other, (claims other).trans owns⟩

theorem poll (queues : Queues table players stages) (waits : (stages place).claim? = some claim) :
    Queues (table.poll claim).2 players stages := by
  obtain ⟨lined, line⟩ := LockTable.lined_poll queues.lined (queues.listed place claim waits)
  exact
    { lined
      listed := fun other mine has => line _ ▸ queues.listed other mine has
      held := fun other mine has => line _ ▸ queues.held other mine has
      distinct := queues.distinct
      owned := fun player mine listed => queues.owned player mine (line player ▸ listed) }

theorem request (queues : Queues table players stages) (unclaimed : (stages place).claim? = none) :
    Queues (table.request [players place]).2 players
      (assign stages place (.waiting (table.request [players place]).1)) := by
  have requested := LockTable.line_request queues.lined (players place)
  generalize table.request [players place] = result at requested
  obtain ⟨id, after⟩ := result
  simp only at requested ⊢
  have new (other : Nat) (mine : ClaimId) (has : (stages other).claim? = some mine) : mine ≠ id := by
    obtain ⟨_, _, queued⟩ := queues.lined.queued _ mine (queues.listed other mine has)
    exact requested.id_eq ▸ Nat.ne_of_lt (queued.lt queues.lined.toSound)
  have grows {player : PlayerId} {mine : ClaimId} (listed : mine ∈ table.line player) : mine ∈ after.line player := by
    rw [requested.line]
    split
    · next same => exact List.mem_append_left _ (same ▸ listed)
    · exact listed
  refine ⟨requested.lined, fun other mine has => ?_, fun other mine holds => ?_,
    fun first second mine has alsoHas => ?_, fun player mine listed => ?_⟩
  · by_cases same : other = place
    · subst same
      rw [assign_self] at has
      obtain rfl : id = mine := Option.some.inj has
      simp [requested.line]
    · rw [assign_of_ne stages same] at has
      exact grows (queues.listed other mine has)
  · by_cases same : other = place
    · subst same
      rw [assign_self] at holds
      contradiction
    · rw [assign_of_ne stages same] at holds
      have front := queues.held other mine holds
      rw [requested.line]
      split
      · next same => rw [List.head?_append, ← same, front, Option.some_or]
      · exact front
  · by_cases same : first = place <;> by_cases sameToo : second = place
    · exact sameToo.trans same.symm
    · rw [same, assign_self] at has
      rw [assign_of_ne stages sameToo] at alsoHas
      exact absurd (Option.some.inj has).symm (new second mine alsoHas)
    · rw [sameToo, assign_self] at alsoHas
      rw [assign_of_ne stages same] at has
      exact absurd (Option.some.inj alsoHas).symm (new first mine has)
    · rw [assign_of_ne stages same] at has
      rw [assign_of_ne stages sameToo] at alsoHas
      exact queues.distinct first second mine has alsoHas
  · have earlier : mine ∈ table.line player ∨ mine = id := by
      rw [requested.line] at listed
      split at listed
      · next same => simpa [same] using listed
      · exact Or.inl listed
    rcases earlier with old | rfl
    · obtain ⟨other, owns⟩ := queues.owned player mine old
      have different : other ≠ place := by
        rintro rfl
        rw [unclaimed] at owns
        contradiction
      exact ⟨other, by rwa [assign_of_ne stages different]⟩
    · exact ⟨place, by rw [assign_self]; rfl⟩

theorem release (queues : Queues table players stages) (holds : (stages place).held? = some claim) :
    Queues (table.release claim) players (assign stages place .finished) := by
  have owns := Stage.claim_of_held holds
  obtain ⟨rest, first⟩ : ∃ rest, table.line (players place) = claim :: rest := by
    have front := queues.held place claim holds
    cases queue : table.line (players place) with
    | nil => simp [queue] at front
    | cons head rest =>
        obtain rfl : head = claim := by simpa [queue] using front
        exact ⟨rest, rfl⟩
  obtain ⟨lined, line⟩ := LockTable.line_release queues.lined first
  have once := List.nodup_cons.mp (first ▸ queues.lined.distinct (players place))
  have others {other : Nat} {mine : ClaimId} (has : (assign stages place .finished other).claim? = some mine) :
      (stages other).claim? = some mine ∧ other ≠ place := by
    by_cases same : other = place
    · rw [same, assign_self] at has
      contradiction
    · exact ⟨by rwa [assign_of_ne stages same] at has, same⟩
  refine ⟨lined, fun other mine has => ?_, fun other mine has => ?_, fun one other mine has alsoHas => ?_,
    fun player mine listed => ?_⟩
  · obtain ⟨had, different⟩ := others has
    have listed := queues.listed other mine had
    rw [line]
    split
    · next same =>
        rw [same, first] at listed
        rcases List.mem_cons.mp listed with rfl | later
        · exact absurd (queues.distinct place other mine owns had) different
        · exact later
    · exact listed
  · obtain ⟨_, different⟩ := others (Stage.claim_of_held has)
    rw [assign_of_ne stages different] at has
    rw [line, if_neg]
    · exact queues.held other mine has
    · exact fun same => different (queues.exclusive (by simp [holds]) (by simp [has]) same)
  · exact queues.distinct one other mine (others has).1 (others alsoHas).1
  · have still : mine ∈ table.line player ∧ mine ≠ claim := by
      rw [line] at listed
      split at listed
      · next same => exact ⟨by simp [same, first, listed], fun leaves => once.1 (leaves ▸ listed)⟩
      · next different =>
          exact ⟨listed, fun leaves => different (queues.lined.player_eq (leaves ▸ listed) (by simp [first]))⟩
    obtain ⟨other, had⟩ := queues.owned player mine still.1
    have different : other ≠ place := by
      rintro rfl
      exact still.2 (Option.some.inj (had.symm.trans owns))
    exact ⟨other, by rwa [assign_of_ne stages different]⟩

theorem alone (queues : Queues table players stages) (held : (stages place).held?.isSome) :
    Alone players stages place := by
  intro other different same
  cases untold : (stages other).untold? with
  | none => rfl
  | some before =>
      exact absurd (queues.exclusive held (Stage.isSome_held_of_untold untold) same) different

end Queues

variable {store after : Store} {time : Instant}

structure Staged (store : Store) (time : Instant) (players : Nat → PlayerId) (stages : Nat → Stage)
    (tasks : List (Routine (Except EngineError Outcome))) : Prop where
  fits : ∀ place task, tasks[place]? = some task → (stages place).Fits (players place) time store task
  absent : ∀ place, tasks[place]? = none → stages place = .finished

namespace Staged

variable {tasks : List (Routine (Except EngineError Outcome))} {task : Routine (Except EngineError Outcome)}

theorem start {mutations : List Mutation}
    (concerns : ∀ place mutation, mutations[place]? = some mutation → mutation.player? = some (players place))
    (store : Store) (time : Instant) :
    Staged store time players (unbegun mutations.length) (mutations.map Mutation.routine) where
  fits place task placed := by
    rw [List.getElem?_map, Option.map_eq_some_iff] at placed
    obtain ⟨mutation, found, rfl⟩ := placed
    obtain ⟨bound, _⟩ := List.getElem?_eq_some_iff.mp found
    rw [unbegun, if_pos bound]
    exact Engine.starts_playerMutation (concerns place mutation found) time
  absent place missing := by
    rw [List.getElem?_eq_none_iff, List.length_map] at missing
    exact if_neg (Nat.not_lt_of_le missing)

theorem set (staged : Staged store time players stages tasks) {stage : Stage} (placed : place < tasks.length)
    (fits : stage.Fits (players place) time after task)
    (alike : ∀ other, other ≠ place → (stages other).held?.isSome → after.Alike (players other) store) :
    Staged after time players (assign stages place stage) (tasks.set place task) := by
  refine ⟨fun other found listed => ?_, fun other missing => ?_⟩
  · by_cases same : other = place
    · subst same
      rw [List.getElem?_set_self placed] at listed
      rw [assign_self, ← Option.some.inj listed]
      exact fits
    · rw [List.getElem?_set_ne (Ne.symm same)] at listed
      rw [assign_of_ne stages same]
      exact (staged.fits other found listed).of_alike (alike other same)
  · rw [List.getElem?_eq_none_iff, List.length_set] at missing
    rw [assign_of_ne stages (Nat.ne_of_gt (Nat.lt_of_lt_of_le placed missing))]
    exact staged.absent other (List.getElem?_eq_none_iff.mpr missing)

theorem move (staged : Staged store time players stages tasks) {stage : Stage} (placed : tasks[place]? = some task)
    (fits : stage.Fits (players place) time store task) :
    Staged store time players (assign stages place stage) tasks := by
  obtain ⟨bound, found⟩ := List.getElem?_eq_some_iff.mp placed
  have same := staged.set bound fits fun other _ _ => .refl _ store
  rwa [← found, List.set_getElem_self] at same

end Staged

end Crowd

end PermissionFeed
