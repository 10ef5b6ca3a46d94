import Mathlib.Data.List.Forall2
import PermissionFeed.Proofs.Sweeps

namespace PermissionFeed

def Service.withCursors (service : Service) (cursors : List Cursor) : Service :=
  { service with cursors }

/-- What a tick meets: the service but for its cursors, and which of its store calls fail. -/
structure Round where
  surroundings : Service
  failures : List (Option StoreError)

structure Sweep where
  before : Service
  ran : Ran (Except StoreError ScanReport)

def Sweep.window? (sweep : Sweep) : Option Window :=
  sweep.ran.value.toOption.bind ScanReport.window

/-- What a tick comes to whose cursor stands at a position. It makes no store calls if no time has passed since then, and
otherwise it fails with the first of its store calls that fails, or scans the time that has passed. -/
structure Round.Answered (round : Round) (scanner : Nat) (sweep : Sweep) (position : Instant) : Prop where
  before : sweep.before = round.surroundings.withCursors sweep.before.cursors
  placed : sweep.before.cursors[scanner]? = some ⟨position⟩
  idle : sweep.before.clock ≤ position → sweep.ran = ⟨.ok ⟨none, ∅⟩, [], sweep.before⟩
  failed : position < sweep.before.clock → ∀ error,
    Routine.firstFailure? round.failures (sweep.before.store.scanCalls ⟨position, sweep.before.clock⟩) = some error →
      sweep.ran = ⟨.error error, [], sweep.before⟩
  scanned : position < sweep.before.clock →
    Routine.firstFailure? round.failures (sweep.before.store.scanCalls ⟨position, sweep.before.clock⟩) = none →
      ∃ refreshed, sweep.ran.value = .ok ⟨some ⟨position, sweep.before.clock⟩, refreshed⟩ ∧
        (∀ player, player ∈ refreshed ↔ sweep.before.store.Concerned ⟨position, sweep.before.clock⟩ player) ∧
        sweep.ran.events.map ChangeEvent.toAnnouncement =
          refreshed.toList.map (fun player => .refresh player Reason.expiry sweep.before.clock) ∧
        sweep.ran.service.cursors = sweep.before.cursors.set scanner ⟨sweep.before.clock⟩

theorem Round.Answered.reported_or_unchanged {round : Round} {scanner : Nat} {sweep : Sweep} {position : Instant}
    (answered : round.Answered scanner sweep position) :
    sweep.window? = none ∧ sweep.ran.events = [] ∧ sweep.ran.service = sweep.before ∨
      ∃ next, sweep.window? = some ⟨position, next⟩ ∧ position < next ∧
        sweep.ran.service.cursors[scanner]? = some ⟨next⟩ := by
  by_cases behind : position < sweep.before.clock
  · cases outcome :
        Routine.firstFailure? round.failures (sweep.before.store.scanCalls ⟨position, sweep.before.clock⟩) with
    | none =>
        obtain ⟨refreshed, reported, _, _, moved⟩ := answered.scanned behind outcome
        obtain ⟨bound, _⟩ := List.getElem?_eq_some_iff.mp answered.placed
        refine Or.inr ⟨sweep.before.clock, ?_, behind, by rw [moved, List.getElem?_set_self bound]⟩
        rw [Sweep.window?, reported]
        rfl
    | some error =>
        rw [Sweep.window?, answered.failed behind error outcome]
        exact Or.inl ⟨rfl, rfl, rfl⟩
  · rw [Sweep.window?, answered.idle (Int64.not_lt.mp behind)]
    exact Or.inl ⟨rfl, rfl, rfl⟩

namespace Service

def sweepInTurn (scanner : Nat) (cursors : List Cursor) : List Round → Option (List Sweep × List Cursor)
  | [] => some ([], cursors)
  | round :: rounds =>
      let before := round.surroundings.withCursors cursors
      match before.complete ((Scanner.tick scanner).failing round.failures) with
      | none => none
      | some ran =>
          (sweepInTurn scanner ran.service.cursors rounds).map fun (sweeps, last) => (⟨before, ran⟩ :: sweeps, last)

variable {scanner : Nat} {cursors : List Cursor} {position : Instant} {round : Round}
  {ran : Ran (Except StoreError ScanReport)}

theorem Ticked.answered {service : Service} (met : service = round.surroundings.withCursors service.cursors)
    (placed : service.cursors[scanner]? = some ⟨position⟩) (ticked : service.Ticked scanner round.failures ran) :
    round.Answered scanner ⟨service, ran⟩ position := by
  cases ticked with
  | idle level =>
      have level : ¬position < service.clock := fun behind => by
        simp [window?_eq_some.mpr ⟨_, placed, behind, rfl⟩] at level
      exact ⟨met, placed, fun _ => rfl, fun behind => absurd behind level, fun behind => absurd behind level⟩
  | failed claimed failed =>
      obtain ⟨cursor, found, behind, rfl⟩ := window?_eq_some.mp claimed
      obtain rfl : cursor = ⟨position⟩ := Option.some.inj (found.symm.trans placed)
      refine ⟨met, placed, fun level => absurd behind (Int64.not_lt.mpr level), fun _ other first => ?_, fun _ none => ?_⟩
      · rw [Option.some.inj (first.symm.trans failed)]
      · simp [none] at failed
  | refreshed claimed unhindered agree =>
      obtain ⟨cursor, found, behind, rfl⟩ := window?_eq_some.mp claimed
      obtain rfl : cursor = ⟨position⟩ := Option.some.inj (found.symm.trans placed)
      refine ⟨met, placed, fun level => absurd behind (Int64.not_lt.mpr level), fun _ error first => ?_, fun _ _ => ?_⟩
      · simp [first] at unhindered
      · exact ⟨_, rfl, fun player => Store.mem_affected_iff_concerned, EventId.Supply.map_stamp _ _, rfl⟩

theorem sweepInTurn_cons {rounds : List Round} {sweeps : List Sweep} {later : List Cursor}
    (completed : (round.surroundings.withCursors cursors).complete ((Scanner.tick scanner).failing round.failures) =
      some ran)
    (swept : sweepInTurn scanner ran.service.cursors rounds = some (sweeps, later)) :
    sweepInTurn scanner cursors (round :: rounds) =
      some (⟨round.surroundings.withCursors cursors, ran⟩ :: sweeps, later) := by
  simp only [sweepInTurn, completed, swept, Option.map_some]

theorem sweepInTurn_tiles (placed : cursors[scanner]? = some ⟨position⟩) (rounds : List Round) :
    ∃ sweeps later last, sweepInTurn scanner cursors rounds = some (sweeps, later) ∧ later[scanner]? = some ⟨last⟩ ∧
      rounds.Forall₂ (fun round sweep => ∃ position, round.Answered scanner sweep position) sweeps ∧
      Tiles position (sweeps.filterMap Sweep.window?) last := by
  induction rounds generalizing cursors position with
  | nil => exact ⟨[], cursors, position, rfl, placed, .nil, .nil⟩
  | cons round rounds ih =>
      let before := round.surroundings.withCursors cursors
      obtain ⟨ran, completed, ticked⟩ := ticked before scanner round.failures
      have answered : round.Answered scanner ⟨before, ran⟩ position := ticked.answered rfl placed
      rcases answered.reported_or_unchanged with ⟨unreported, -, unchanged⟩ | ⟨next, reported, begins, stands⟩
      · have stands : ran.service.cursors[scanner]? = some ⟨position⟩ := by rwa [unchanged]
        obtain ⟨sweeps, later, last, swept, ends, allAnswered, tiles⟩ := ih stands
        refine ⟨_, later, last, sweepInTurn_cons completed swept, ends, .cons ⟨_, answered⟩ allAnswered, ?_⟩
        rwa [List.filterMap_cons_none unreported]
      · obtain ⟨sweeps, later, last, swept, ends, allAnswered, tiles⟩ := ih stands
        refine ⟨_, later, last, sweepInTurn_cons completed swept, ends, .cons ⟨_, answered⟩ allAnswered, ?_⟩
        rw [List.filterMap_cons_some reported]
        exact tiles.cons begins

/-- However its ticks go, a scanner that is made now begins no later than now, and every instant from there up to its
cursor is in the window of exactly one tick that reported it. -/
theorem successive_ticks_tile (service : Service) (reach : Nat) (rounds : List Round) :
    ∃ start sweeps cursors last,
      (service.newScanner reach).cursors[service.cursors.length]? = some ⟨start⟩ ∧
      start.toInt = max Int64.minValue.toInt (service.clock.toInt - min (reach : Int) Int64.maxValue.toInt) ∧
      start ≤ service.clock ∧
      sweepInTurn service.cursors.length (service.newScanner reach).cursors rounds = some (sweeps, cursors) ∧
      cursors[service.cursors.length]? = some ⟨last⟩ ∧
      rounds.Forall₂ (fun round sweep => ∃ position, round.Answered service.cursors.length sweep position) sweeps ∧
      Tiles start (sweeps.filterMap Sweep.window?) last ∧
      (∀ sweep ∈ sweeps, sweep.window? = none → sweep.ran.events = [] ∧ sweep.ran.service = sweep.before) ∧
      ∀ instant, start < instant → instant ≤ last →
        ∃! place : Nat, ∃ window, sweeps[place]?.bind Sweep.window? = some window ∧ instant ∈ window := by
  have placed : (service.newScanner reach).cursors[service.cursors.length]? =
      some (Cursor.reachingBack service.clock reach) := by
    simp [newScanner]
  obtain ⟨sweeps, cursors, last, swept, stands, allAnswered, tiles⟩ := sweepInTurn_tiles placed rounds
  refine ⟨_, sweeps, cursors, last, placed, Cursor.toInt_reachingBack _ _, Cursor.reachingBack_le _ _, swept, stands,
    allAnswered, tiles, fun sweep listed unreported => ?_, fun instant after upTo => ?_⟩
  · obtain ⟨sameLength, answered⟩ := List.forall₂_iff_get.mp allAnswered
    obtain ⟨place, bound, rfl⟩ := List.getElem_of_mem listed
    obtain ⟨position, answered⟩ := answered place (sameLength ▸ bound) bound
    rcases answered.reported_or_unchanged with ⟨-, unchanged⟩ | ⟨next, reported, -⟩
    · exact unchanged
    · exact absurd (reported.symm.trans unreported) (Option.some_ne_none _)
  have tiled : Tiled (Cursor.reachingBack service.clock reach).position (sweeps.map Sweep.window?) last :=
    ⟨_, by rw [List.filterMap_map]; rfl, tiles⟩
  simpa [Option.bind_eq_some_iff, Option.map_eq_some_iff] using tiled.mem_iff.mp ⟨after, upTo⟩

example : (sweepInTurn 0 lapsing.cursors
    [⟨{ lapsing with clock := 12 }, [none, some (.taskFailed "gone")]⟩, ⟨lapsing, []⟩]).map
      (fun (sweeps, _) => sweeps.map Sweep.window?) = some [none, some ⟨0, 20⟩] := by
  decide +kernel

end Service

end PermissionFeed
