import PermissionFeed.Proofs.Rounds

/-!
# Ticks at the same time

The ticks of a scanner may overlap: after any effect of one, others may go on, and anything may happen but to the cursors.
A tick whose scan fails can hand its window back unless another holds a later one; then the window is abandoned, and
nobody scans it again. Once all ticks have ended, every instant from where the cursor started up to where it stands is
either in the window of a tick that completed its scan or in an abandoned one (`Overlap.overlapping_ticks_tile`).
-/

namespace PermissionFeed

def Effect.keepsCursors : Effect → Bool
  | .advance .. | .rewind .. => false
  | _ => true

def Effect.kept : (effect : Effect) → effect.Answer → Option Window → Option Window
  | .advance .., claimed, _ => claimed
  | .rewind .., true, _ => none
  | _, _, held => held

theorem Effect.kept_of_keepsCursors {effect : Effect} (keeps : effect.keepsCursors = true) (answer : effect.Answer)
    (held : Option Window) : effect.kept answer held = held := by
  cases effect with
  | advance | rewind => contradiction
  | _ => rfl

structure Underway where
  rest : Routine (Except StoreError ScanReport)
  -- claimed and not handed back
  window : Option Window

namespace Underway

def Ended (tick : Underway) : Prop :=
  ∃ result, tick.rest = .done result

instance (tick : Underway) : Decidable tick.Ended :=
  match tick with
  | ⟨.done result, _⟩ => .isTrue ⟨result, rfl⟩
  | ⟨.step _ _, _⟩ => .isFalse fun ⟨_, same⟩ => nomatch same

def completed? (tick : Underway) : Option Window :=
  match tick.rest with
  | .done (.ok report) => report.window
  | _ => none

def abandoned? (tick : Underway) : Option Window :=
  match tick.rest with
  | .done (.error _) => tick.window
  | _ => none

def step (service : Service) (tick : Underway) : Underway × List Cursor :=
  match tick.rest with
  | .done _ => (tick, service.cursors)
  | .step effect next =>
      match service.perform effect with
      | (none, after) => (tick, after.cursors)
      | (some answer, after) => (⟨next answer, effect.kept answer tick.window⟩, after.cursors)

end Underway

structure Overlap where
  cursors : List Cursor
  ticks : List Underway

namespace Overlap

def start (scanner : Nat) (cursors : List Cursor) (failures : List (List (Option StoreError))) : Overlap where
  cursors := cursors
  ticks := failures.map fun failures => ⟨(Scanner.tick scanner).failing failures, none⟩

def step (overlap : Overlap) (surroundings : Service) (place : Nat) : Overlap :=
  match overlap.ticks[place]? with
  | none => overlap
  | some tick =>
      let (after, cursors) := tick.step (surroundings.withCursors overlap.cursors)
      ⟨cursors, overlap.ticks.set place after⟩

def play (overlap : Overlap) (moves : List (Service × Nat)) : Overlap :=
  moves.foldl (fun overlap (surroundings, place) => overlap.step surroundings place) overlap

def held (overlap : Overlap) : List (Option Window) :=
  overlap.ticks.map Underway.window

def Holds (overlap : Overlap) (place : Nat) (window : Window) : Prop :=
  ∃ tick, overlap.ticks[place]? = some tick ∧ tick.window = some window

end Overlap

inductive Remains (scanner : Nat) : Option Window → Routine (Except StoreError ScanReport) → Prop where
  | quiet {held : Option Window} {effect : Effect} {next : effect.Answer → Routine (Except StoreError ScanReport)}
      (keeps : effect.keepsCursors = true) (rest : ∀ answer, Remains scanner held (next answer)) :
      Remains scanner held (.step effect next)
  | claims {last : Instant} {next : Option Window → Routine (Except StoreError ScanReport)}
      (rest : ∀ claimed, Remains scanner claimed (next claimed)) : Remains scanner none (.step (.advance scanner last) next)
  | rewinds {window : Window} {next : Bool → Routine (Except StoreError ScanReport)} (error : StoreError)
      (fails : ∀ answer, next answer = .done (.error error)) :
      Remains scanner (some window) (.step (.rewind scanner window) next)
  | reports (held : Option Window) (players : PlayerSet) : Remains scanner held (.done (.ok ⟨held, players⟩))
  | fails (held : Option Window) (error : StoreError) : Remains scanner held (.done (.error error))

namespace Remains

variable {scanner : Nat} {held : Option Window} {window : Window}
  {routine : Routine (Except StoreError ScanReport)}

theorem of_only {α : Type} {reading : Routine α} {next : α → Routine (Except StoreError ScanReport)}
    (only : reading.Only fun effect => effect.keepsCursors = true) (rest : ∀ value, Remains scanner held (next value)) :
    Remains scanner held (reading >>= next) := by
  induction only with
  | done value => exact rest value
  | step keeps _ ih => exact .quiet keeps ih

theorem concludeTick (players : Except StoreError PlayerSet) :
    Remains scanner (some window) (Service.concludeTick scanner window players) := by
  cases players with
  | error error => exact .rewinds error fun _ => rfl
  | ok players =>
      have only := Engine.only_emitRefreshes (fun effect => effect.keepsCursors = true) rfl (fun _ => rfl)
      exact of_only (only _ _) fun _ => .reports (some window) players

theorem failing (remains : Remains scanner held routine) (failures : List (Option StoreError)) :
    Remains scanner held (routine.failing failures) := by
  induction remains generalizing failures with
  | @quiet held effect next keeps rest ih =>
      cases effect with
      | call call =>
          rcases failures with _ | ⟨_ | error, failures⟩
          · exact .quiet rfl fun answer => ih answer []
          · exact .quiet rfl fun answer => ih answer failures
          -- the call is left out
          · exact ih (.error error) failures
      | advance | rewind => contradiction
      | _ => exact .quiet keeps fun answer => ih answer failures
  | claims rest ih => exact .claims fun claimed => ih claimed failures
  | rewinds error fails =>
      refine .rewinds error fun answer => ?_
      rw [fails answer]
      rfl
  | reports held players => exact .reports held players
  | fails held error => exact .fails held error

theorem tick (scanner : Nat) (failures : List (Option StoreError)) :
    Remains scanner none ((Scanner.tick scanner).failing failures) := by
  rw [Service.tick_failing]
  refine .quiet rfl fun time => .claims fun claimed => ?_
  cases claimed with
  | none => exact .reports none ∅
  | some window =>
      have only := Scanner.only_affected (fun effect => effect.keepsCursors = true) (fun _ => rfl) rfl window
      exact (of_only only Remains.concludeTick).failing failures

end Remains

namespace Service

variable {service : Service} {scanner : Nat} {cursor : Cursor}

theorem cursors_perform (service : Service) {effect : Effect} (keeps : effect.keepsCursors = true) :
    (service.perform effect).2.cursors = service.cursors := by
  cases effect with
  | advance | rewind => contradiction
  | capture players time => simp only [perform, capture_eq]
  | request players =>
      simp only [perform]
      split <;> rfl
  | await claim =>
      simp only [perform, poll]
      split <;> rfl
  | _ => rfl

theorem perform_advance (placed : service.cursors[scanner]? = some cursor) (last : Instant) :
    service.perform (.advance scanner last) =
      (some (cursor.advance last).1, service.withCursors (service.cursors.set scanner (cursor.advance last).2)) := by
  simp only [perform, advance, placed]
  rfl

theorem perform_rewind (placed : service.cursors[scanner]? = some cursor) (window : Window) :
    service.perform (.rewind scanner window) =
      (some (cursor.rewind window).1, service.withCursors (service.cursors.set scanner (cursor.rewind window).2)) := by
  simp only [perform, rewind, placed]
  rfl

end Service

namespace Underway

variable {service after : Service} {scanner : Nat} {cursor : Cursor} {held : Option Window} {window : Window}
  {rest : Routine (Except StoreError ScanReport)}

theorem step_of_waiting {effect : Effect} {next : effect.Answer → Routine (Except StoreError ScanReport)}
    (performed : service.perform effect = (none, after)) :
    step service ⟨.step effect next, held⟩ = (⟨.step effect next, held⟩, after.cursors) := by
  simp only [step, performed]

theorem step_of_answered {effect : Effect} {next : effect.Answer → Routine (Except StoreError ScanReport)}
    {answer : effect.Answer} (performed : service.perform effect = (some answer, after)) :
    step service ⟨.step effect next, held⟩ = (⟨next answer, effect.kept answer held⟩, after.cursors) := by
  simp only [step, performed]

theorem step_rewind {next : Bool → Routine (Except StoreError ScanReport)} {error : StoreError}
    (fails : ∀ answer, next answer = .done (.error error)) (placed : service.cursors[scanner]? = some cursor) :
    step service ⟨.step (.rewind scanner window) next, some window⟩ =
      (⟨.done (.error error), if (cursor.rewind window).1 then none else some window⟩,
        service.cursors.set scanner (cursor.rewind window).2) := by
  refine (step_of_answered (Service.perform_rewind placed window)).trans ?_
  rw [fails]
  cases (cursor.rewind window).1 <;> rfl

theorem remains_step (service : Service) (remains : Remains scanner held rest)
    (placed : service.cursors[scanner]? = some cursor) :
    ∃ (tick : Underway) (cursors : List Cursor) (later : Cursor), step service ⟨rest, held⟩ = (tick, cursors) ∧
      Remains scanner tick.window tick.rest ∧ cursors[scanner]? = some later ∧
      cursor.Dealt held later tick.window := by
  obtain ⟨bound, _⟩ := List.getElem?_eq_some_iff.mp placed
  cases remains with
  | @quiet _ effect next keeps rest =>
      have stands := service.cursors_perform keeps
      rcases performed : service.perform effect with ⟨_ | answer, after⟩
      · rw [performed] at stands
        exact ⟨_, _, cursor, step_of_waiting performed, .quiet keeps rest, stands ▸ placed, .nothing held⟩
      · rw [performed] at stands
        refine ⟨_, _, cursor, step_of_answered performed, ?_, stands ▸ placed, ?_⟩
        · rw [Effect.kept_of_keepsCursors keeps]
          exact rest answer
        · rw [Effect.kept_of_keepsCursors keeps]
          exact .nothing held
  | @claims last next rest =>
      refine ⟨_, _, (cursor.advance last).2, step_of_answered (Service.perform_advance placed last), rest _, ?_, ?_⟩
      · exact List.getElem?_set_self bound
      · exact cursor.dealt_advance last
  | @rewinds window next error fails =>
      refine ⟨_, _, (cursor.rewind window).2, step_rewind fails placed, .fails _ error, ?_, ?_⟩
      · exact List.getElem?_set_self bound
      · exact cursor.dealt_rewind window
  | reports held players => exact ⟨_, _, cursor, rfl, .reports held players, placed, .nothing held⟩
  | fails held error => exact ⟨_, _, cursor, rfl, .fails held error, placed, .nothing held⟩

theorem of_ended {tick : Underway} (remains : Remains scanner tick.window tick.rest) (ended : tick.Ended) :
    (tick.completed? = tick.window ∧ tick.abandoned? = none) ∨
      (tick.abandoned? = tick.window ∧ tick.completed? = none) := by
  obtain ⟨rest, held⟩ := tick
  obtain ⟨result, rfl⟩ := ended
  change Remains scanner held (.done result) at remains
  cases remains with
  | reports players => exact Or.inl ⟨rfl, rfl⟩
  | fails error => exact Or.inr ⟨rfl, rfl⟩

end Underway

namespace Overlap

structure Shared (scanner : Nat) (position : Instant) (cursor : Cursor) (overlap : Overlap) : Prop where
  placed : overlap.cursors[scanner]? = some cursor
  remains : ∀ tick ∈ overlap.ticks, Remains scanner tick.window tick.rest
  tiled : Tiled position overlap.held cursor.position

variable {scanner place : Nat} {position : Instant} {cursor : Cursor} {overlap : Overlap} {window : Window}
  {tick : Underway}

theorem holds_iff : overlap.Holds place window ↔ overlap.held[place]? = some (some window) := by
  rw [held, List.getElem?_map, Option.map_eq_some_iff, Holds]

theorem held_of_found (found : overlap.ticks[place]? = some tick) : overlap.held[place]? = some tick.window := by
  rw [held, List.getElem?_map, found]
  rfl

theorem step_of_found {surroundings : Service} {after : Underway} {cursors : List Cursor}
    (found : overlap.ticks[place]? = some tick)
    (stepped : tick.step (surroundings.withCursors overlap.cursors) = (after, cursors)) :
    overlap.step surroundings place = ⟨cursors, overlap.ticks.set place after⟩ := by
  simp only [step, found, stepped]

namespace Shared

theorem start {cursors : List Cursor} (placed : cursors[scanner]? = some ⟨position⟩)
    (failures : List (List (Option StoreError))) :
    Shared scanner position ⟨position⟩ (Overlap.start scanner cursors failures) where
  placed := placed
  remains := by
    intro tick listed
    obtain ⟨failures, _, rfl⟩ := List.mem_map.mp listed
    exact .tick scanner failures
  tiled := by
    refine .of_free fun holding listed => ?_
    obtain ⟨tick, begun, rfl⟩ := List.mem_map.mp listed
    obtain ⟨failures, _, rfl⟩ := List.mem_map.mp begun
    rfl

theorem step (shared : Shared scanner position cursor overlap) (surroundings : Service) (place : Nat) :
    ∃ later, Shared scanner position later (overlap.step surroundings place) := by
  cases found : overlap.ticks[place]? with
  | none => exact ⟨cursor, by simpa only [Overlap.step, found] using shared⟩
  | some tick =>
      have remains := shared.remains tick (List.mem_of_getElem? found)
      obtain ⟨after, cursors, later, stepped, remains, placed, dealt⟩ :=
        Underway.remains_step (surroundings.withCursors overlap.cursors) remains shared.placed
      rw [step_of_found found stepped]
      refine ⟨later, placed, fun other listed => ?_, ?_⟩
      · rcases List.mem_or_eq_of_mem_set listed with untouched | rfl
        · exact shared.remains other untouched
        · exact remains
      · have moved : Overlap.held ⟨cursors, overlap.ticks.set place after⟩ = overlap.held.set place after.window :=
          List.map_set
        rw [moved]
        exact shared.tiled.deal (held_of_found found) dealt

theorem play (shared : Shared scanner position cursor overlap) (moves : List (Service × Nat)) :
    ∃ later, Shared scanner position later (overlap.play moves) := by
  induction moves generalizing overlap cursor with
  | nil => exact ⟨cursor, shared⟩
  | cons move moves ih =>
      obtain ⟨later, shared⟩ := shared.step move.1 move.2
      exact ih shared

theorem mem_iff {last instant : Instant} (shared : Shared scanner position ⟨last⟩ overlap) :
    position < instant ∧ instant ≤ last ↔ ∃! place : Nat, ∃ window, overlap.Holds place window ∧ instant ∈ window := by
  simp only [holds_iff]
  exact shared.tiled.mem_iff

theorem rewind (shared : Shared scanner position cursor overlap)
    {next : Bool → Routine (Except StoreError ScanReport)} (found : overlap.ticks[place]? = some tick)
    (rests : tick.rest = .step (.rewind scanner window) next) (surroundings : Service) :
    ∃ after, (overlap.step surroundings place).ticks[place]? = some after ∧ after.Ended ∧
      (after.abandoned? = some window ↔
        ∃ other later, overlap.Holds other later ∧ window.last < later.last) := by
  obtain ⟨bound, _⟩ := List.getElem?_eq_some_iff.mp found
  have remains := shared.remains tick (List.mem_of_getElem? found)
  obtain ⟨rest, held⟩ := tick
  obtain rfl : rest = .step (.rewind scanner window) next := rests
  cases remains with
  | quiet keeps rest => contradiction
  | rewinds error fails =>
      have placed : (surroundings.withCursors overlap.cursors).cursors[scanner]? = some cursor := shared.placed
      have holds : overlap.held[place]? = some (some window) := held_of_found found
      rw [step_of_found found (Underway.step_rewind fails placed)]
      refine ⟨_, List.getElem?_set_self bound, ⟨_, rfl⟩, ?_⟩
      simp only [holds_iff]
      rw [← shared.tiled.last_ne_iff holds]
      by_cases ends : cursor.position = window.last <;> simp [Underway.abandoned?, Cursor.rewind, ends]

theorem outcome (shared : Shared scanner position cursor overlap) (ended : ∀ tick ∈ overlap.ticks, tick.Ended)
    (found : overlap.ticks[place]? = some tick) :
    (tick.completed? = tick.window ∧ tick.abandoned? = none) ∨
      (tick.abandoned? = tick.window ∧ tick.completed? = none) := by
  have listed := List.mem_of_getElem? found
  exact Underway.of_ended (shared.remains tick listed) (ended tick listed)

theorem completed_iff {last instant : Instant} (shared : Shared scanner position ⟨last⟩ overlap)
    (ended : ∀ tick ∈ overlap.ticks, tick.Ended) (after : position < instant) (upTo : instant ≤ last) :
    (∃ tick ∈ overlap.ticks, ∃ window, tick.completed? = some window ∧ instant ∈ window) ↔
      ¬∃ tick ∈ overlap.ticks, ∃ window, tick.abandoned? = some window ∧ instant ∈ window := by
  obtain ⟨place, ⟨window, ⟨tick, found, holds⟩, mem⟩, only⟩ := shared.mem_iff.mp ⟨after, upTo⟩
  constructor
  · rintro ⟨tick, listed, window, completed, mem⟩ ⟨other, alsoListed, another, abandoned, alsoMem⟩
    obtain ⟨first, found⟩ := List.mem_iff_getElem?.mp listed
    obtain ⟨second, alsoFound⟩ := List.mem_iff_getElem?.mp alsoListed
    rcases shared.outcome ended found with ⟨reported, kept⟩ | ⟨_, unreported⟩
    · rcases shared.outcome ended alsoFound with ⟨_, unkept⟩ | ⟨lost, _⟩
      · simp [unkept] at abandoned
      -- both hold the instant, so they are the same
      · have same : first = second :=
          (only first ⟨window, ⟨tick, found, reported.symm.trans completed⟩, mem⟩).trans
            (only second ⟨another, ⟨other, alsoFound, lost.symm.trans abandoned⟩, alsoMem⟩).symm
        subst same
        obtain rfl : tick = other := Option.some.inj (found.symm.trans alsoFound)
        simp [kept] at abandoned
    · simp [unreported] at completed
  · intro kept
    rcases shared.outcome ended found with ⟨reported, _⟩ | ⟨lost, _⟩
    · exact ⟨tick, List.mem_of_getElem? found, window, reported.trans holds, mem⟩
    · exact absurd ⟨tick, List.mem_of_getElem? found, window, lost.trans holds, mem⟩ kept

end Shared

theorem overlapping_ticks_tile {scanner : Nat} {cursors : List Cursor} {position : Instant}
    (placed : cursors[scanner]? = some ⟨position⟩) (failures : List (List (Option StoreError)))
    (moves : List (Service × Nat)) :
    let overlap := (start scanner cursors failures).play moves
    ∃ last, overlap.cursors[scanner]? = some ⟨last⟩ ∧
      (∀ instant, position < instant ∧ instant ≤ last ↔
        ∃! place : Nat, ∃ window, overlap.Holds place window ∧ instant ∈ window) ∧
      (∀ surroundings place tick window next, overlap.ticks[place]? = some tick →
        tick.rest = .step (.rewind scanner window) next →
        ∃ after, (overlap.step surroundings place).ticks[place]? = some after ∧ after.Ended ∧
          (after.abandoned? = some window ↔
            ∃ other later, overlap.Holds other later ∧ window.last < later.last)) ∧
      ((∀ tick ∈ overlap.ticks, tick.Ended) → ∀ instant, position < instant → instant ≤ last →
        ((∃ tick ∈ overlap.ticks, ∃ window, tick.completed? = some window ∧ instant ∈ window) ↔
          ¬∃ tick ∈ overlap.ticks, ∃ window, tick.abandoned? = some window ∧ instant ∈ window)) := by
  intro overlap
  obtain ⟨⟨last⟩, shared⟩ := (Shared.start placed failures).play moves
  refine ⟨last, shared.placed, fun instant => shared.mem_iff, ?_, ?_⟩
  · intro surroundings place tick window next found rests
    exact shared.rewind found rests surroundings
  · intro ended instant after upTo
    exact shared.completed_iff ended after upTo

def contestFailures : List (List (Option StoreError)) :=
  [[some (.taskFailed "cancelled")], []]

/-- The first tick claims a window and the second claims the next one. Then the scan of the first fails, and that of the
second succeeds. -/
def contestMoves : List (Service × Nat) :=
  let early := { Service.staffed with clock := 10 }
  let late := { Service.staffed with clock := 20 }
  [(early, 0), (early, 0), (late, 1), (late, 1), (late, 0)] ++ List.replicate 10 (late, 1)

def contested : Overlap :=
  (start 0 [⟨0⟩] contestFailures).play contestMoves

theorem ended_contested : ∀ tick ∈ contested.ticks, tick.Ended := by
  decide +kernel

theorem stands_contested : contested.cursors[0]? = some ⟨20⟩ := by
  decide +kernel

theorem contested_ticks_tile : ([⟨0⟩] : List Cursor)[0]? = some ⟨0⟩ ∧ (∀ tick ∈ contested.ticks, tick.Ended) ∧
    ∀ instant : Instant, 0 < instant → instant ≤ 20 →
      ((∃ tick ∈ contested.ticks, ∃ window, tick.completed? = some window ∧ instant ∈ window) ↔
        ¬∃ tick ∈ contested.ticks, ∃ window, tick.abandoned? = some window ∧ instant ∈ window) := by
  have placed : ([⟨0⟩] : List Cursor)[0]? = some ⟨0⟩ := rfl
  obtain ⟨last, stands, _, _, accounted⟩ := overlapping_ticks_tile placed contestFailures contestMoves
  obtain rfl : 20 = last := by simpa using stands_contested.symm.trans stands
  exact ⟨placed, ended_contested, accounted ended_contested⟩

theorem window_unscanned : ¬∀ (scanner : Nat) (cursors : List Cursor) (position last : Instant)
    (failures : List (List (Option StoreError))) (moves : List (Service × Nat)),
    cursors[scanner]? = some ⟨position⟩ →
    (∀ tick ∈ ((start scanner cursors failures).play moves).ticks, tick.Ended) →
    ((start scanner cursors failures).play moves).cursors[scanner]? = some ⟨last⟩ →
    ∀ instant, position < instant → instant ≤ last →
      ∃ tick ∈ ((start scanner cursors failures).play moves).ticks, ∃ window,
        tick.completed? = some window ∧ instant ∈ window := by
  intro scanned
  obtain ⟨tick, listed, window, completed, mem⟩ :=
    scanned 0 [⟨0⟩] 0 20 contestFailures contestMoves rfl ended_contested stands_contested 5 (by decide) (by decide)
  have reported : contested.ticks.map Underway.completed? = [none, some ⟨10, 20⟩] := by decide +kernel
  have among : some window ∈ [none, some (⟨10, 20⟩ : Window)] := by
    rw [← reported, ← completed]
    exact List.mem_map_of_mem listed
  obtain rfl : window = ⟨10, 20⟩ := by simpa using among
  exact absurd mem (by decide)

end Overlap

end PermissionFeed
