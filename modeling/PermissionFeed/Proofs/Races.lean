import PermissionFeed.Proofs.Windows

namespace PermissionFeed

def Cursor.exchange (cursor : Cursor) (expected wanted : Instant) : Bool × Cursor :=
  if cursor.position = expected then (true, ⟨wanted⟩) else (false, cursor)

inductive Seeker where
  | looking (last : Instant)
  | moving (since last : Instant) (ahead : since < last)
  | refused
  | holding (window : Window)
  | overtaken (window : Window)
  | handedBack
  deriving DecidableEq

namespace Seeker

def wanted? : Seeker → Option Instant
  | looking last | moving _ last _ => some last
  | _ => none

def window? : Seeker → Option Window
  | holding window | overtaken window => some window
  | _ => none

def Fruitless : Seeker → Prop
  | holding _ | handedBack => False
  | _ => True

def seeing (position last : Instant) : Seeker :=
  if ahead : position < last then moving position last ahead else refused

def step (cursor : Cursor) : Seeker → Seeker × Cursor
  | looking last => (seeing cursor.position last, cursor)
  | moving since last _ =>
      match cursor.exchange since last with
      | (true, later) => (holding ⟨since, last⟩, later)
      | (false, later) => (seeing cursor.position last, later)
  | holding window =>
      match cursor.exchange window.last window.since with
      | (true, later) => (handedBack, later)
      | (false, later) => (overtaken window, later)
  | seeker => (seeker, cursor)

inductive Stepped (cursor : Cursor) : Seeker → Seeker → Cursor → Prop where
  | tries {seeker after : Seeker} {last : Instant} (wants : seeker.wanted? = some last)
      (still : after.wanted? = some last) : Stepped cursor seeker after cursor
  | refused {seeker : Seeker} {last : Instant} (wants : seeker.wanted? = some last)
      (advanced : cursor.advance last = (none, cursor)) : Stepped cursor seeker refused cursor
  | claimed {seeker : Seeker} {last : Instant} {window : Window} {later : Cursor} (wants : seeker.wanted? = some last)
      (advanced : cursor.advance last = (some window, later)) : Stepped cursor seeker (holding window) later
  | rewound {window : Window} {later : Cursor} (rewound : cursor.rewind window = (true, later)) :
      Stepped cursor (holding window) handedBack later
  | overtaken {window : Window} (stands : cursor.rewind window = (false, cursor)) :
      Stepped cursor (holding window) (overtaken window) cursor
  | rests {seeker : Seeker} (finished : seeker.step cursor = (seeker, cursor)) : Stepped cursor seeker seeker cursor

variable {cursor later : Cursor} {seeker after : Seeker} {last : Instant}

theorem Stepped.seeing (wants : seeker.wanted? = some last) :
    Stepped cursor seeker (seeing cursor.position last) cursor := by
  unfold Seeker.seeing
  split
  · exact .tries wants rfl
  · next reached => exact .refused wants (Cursor.advance_eq_none.mpr ⟨reached, rfl⟩)

theorem stepped (cursor : Cursor) (seeker : Seeker) :
    Stepped cursor seeker (seeker.step cursor).1 (seeker.step cursor).2 := by
  cases seeker with
  | looking last => exact .seeing rfl
  | moving since last ahead =>
      by_cases stands : cursor.position = since
      · subst stands
        simp only [step, Cursor.exchange, if_true]
        exact .claimed rfl (Cursor.advance_eq_some.mpr ⟨ahead, rfl, rfl⟩)
      -- the position is not where it was seen, so it is seen anew
      · simp only [step, Cursor.exchange, if_neg stands]
        exact .seeing rfl
  | holding window =>
      by_cases stands : cursor.position = window.last
      · simp only [step, Cursor.exchange, if_pos stands]
        exact .rewound (Cursor.rewind_eq_true.mpr ⟨stands, rfl⟩)
      · simp only [step, Cursor.exchange, if_neg stands]
        exact .overtaken (Cursor.rewind_eq_false.mpr ⟨stands, rfl⟩)
  | refused | overtaken | handedBack => exact .rests rfl

theorem window?_of_wanted (wants : seeker.wanted? = some last) : seeker.window? = none := by
  cases seeker with
  | looking | moving => rfl
  | refused | holding | overtaken | handedBack => contradiction

theorem Stepped.dealt (stepped : Stepped cursor seeker after later) :
    cursor.Dealt seeker.window? later after.window? := by
  cases stepped with
  | tries wants still =>
      rw [window?_of_wanted wants, window?_of_wanted still]
      exact .nothing none
  | refused wants advanced =>
      rw [window?_of_wanted wants]
      exact .nothing none
  | claimed wants advanced =>
      rw [window?_of_wanted wants]
      exact .claim advanced
  | rewound rewound => exact .handBack rewound
  | overtaken | rests => exact .nothing _

theorem Stepped.of_fruitless (stepped : Stepped cursor seeker after later) (fruitless : after.Fruitless) :
    later = cursor ∧ after.window? = seeker.window? := by
  cases stepped with
  | tries wants still => exact ⟨rfl, (window?_of_wanted still).trans (window?_of_wanted wants).symm⟩
  | refused wants advanced => exact ⟨rfl, (window?_of_wanted wants).symm⟩
  | claimed | rewound => exact fruitless.elim
  | overtaken | rests => exact ⟨rfl, rfl⟩

end Seeker

structure Race where
  cursor : Cursor
  seekers : List Seeker
  deriving DecidableEq

namespace Race

def start (position : Instant) (lasts : List Instant) : Race where
  cursor := ⟨position⟩
  seekers := lasts.map .looking

def step (race : Race) (place : Nat) : Race :=
  match race.seekers[place]? with
  | none => race
  | some seeker => ⟨(seeker.step race.cursor).2, race.seekers.set place (seeker.step race.cursor).1⟩

def play (race : Race) (schedule : List Nat) : Race :=
  schedule.foldl step race

def held (race : Race) : List (Option Window) :=
  race.seekers.map Seeker.window?

def Holds (race : Race) (place : Nat) (window : Window) : Prop :=
  ∃ seeker, race.seekers[place]? = some seeker ∧ seeker.window? = some window

variable {race : Race} {place : Nat} {seeker after : Seeker} {cursor : Cursor} {position : Instant} {window : Window}

theorem holds_iff : race.Holds place window ↔ race.held[place]? = some (some window) := by
  rw [held, List.getElem?_map, Option.map_eq_some_iff, Holds]

theorem held_of_found (found : race.seekers[place]? = some seeker) : race.held[place]? = some seeker.window? := by
  rw [held, List.getElem?_map, found]
  rfl

theorem step_of_found (found : race.seekers[place]? = some seeker) :
    race.step place = ⟨(seeker.step race.cursor).2, race.seekers.set place (seeker.step race.cursor).1⟩ := by
  simp only [step, found]

theorem held_set (after : Seeker) :
    Race.held ⟨cursor, race.seekers.set place after⟩ = race.held.set place after.window? :=
  List.map_set

theorem held_set_of_same (found : race.seekers[place]? = some seeker) (same : after.window? = seeker.window?) :
    Race.held ⟨cursor, race.seekers.set place after⟩ = race.held := by
  obtain ⟨bound, holds⟩ := List.getElem?_eq_some_iff.mp (held_of_found found)
  rw [held_set, same, ← holds, List.set_getElem_self]

theorem tiled_start (position : Instant) (lasts : List Instant) :
    Tiled position (start position lasts).held (start position lasts).cursor.position := by
  refine .of_free fun holding listed => ?_
  obtain ⟨seeker, joined, rfl⟩ := List.mem_map.mp listed
  obtain ⟨last, _, rfl⟩ := List.mem_map.mp joined
  rfl

theorem tiled_step (tiled : Tiled position race.held race.cursor.position) (place : Nat) :
    Tiled position (race.step place).held (race.step place).cursor.position := by
  cases found : race.seekers[place]? with
  | none => simpa only [step, found] using tiled
  | some seeker =>
      rw [step_of_found found, held_set]
      exact tiled.deal (held_of_found found) (seeker.stepped race.cursor).dealt

theorem tiled_play (tiled : Tiled position race.held race.cursor.position) (schedule : List Nat) :
    Tiled position (race.play schedule).held (race.play schedule).cursor.position := by
  induction schedule generalizing race with
  | nil => exact tiled
  | cons place schedule ih => exact ih (tiled_step tiled place)

/-- After any steps of any number of seekers, the windows that are held are not empty, lie between where the cursor
started and where it stands, and have no instant in common; and a seeker whose next step does not succeed changes
nothing by it. -/
theorem claimed_windows_disjoint (position : Instant) (lasts : List Instant) (schedule : List Nat) :
    let race := (start position lasts).play schedule
    (∀ place window, race.Holds place window →
      (∃ instant, instant ∈ window) ∧ ∀ instant ∈ window, position < instant ∧ instant ≤ race.cursor.position) ∧
    (∀ place other window another, race.Holds place window → race.Holds other another → place ≠ other →
      ∀ instant ∈ window, instant ∉ another) ∧
    ∀ place seeker, race.seekers[place]? = some seeker → ∃ after cursor,
      race.step place = ⟨cursor, race.seekers.set place after⟩ ∧ seeker.Stepped race.cursor after cursor ∧
      (after.Fruitless → cursor = race.cursor ∧
        ∀ other window, (race.step place).Holds other window ↔ race.Holds other window) := by
  intro race
  have tiled : Tiled position race.held race.cursor.position := tiled_play (tiled_start position lasts) schedule
  refine ⟨fun place window holds => ?_, fun place other window another holds alsoHolds different => ?_,
    fun place seeker found => ?_⟩
  · obtain ⟨begun, lasting, ended⟩ := tiled.within (holds_iff.mp holds)
    refine ⟨⟨window.last, lasting, Int64.le_refl _⟩, fun instant mem => ⟨?_, ?_⟩⟩
    · exact Int64.lt_of_le_of_lt begun mem.1
    · exact Int64.le_trans mem.2 ended
  · intro instant
    exact (tiled.apart (holds_iff.mp holds) (holds_iff.mp alsoHolds) different).not_mem
  · have stepped := seeker.stepped race.cursor
    refine ⟨_, _, step_of_found found, stepped, fun fruitless => ?_⟩
    obtain ⟨still, same⟩ := stepped.of_fruitless fruitless
    refine ⟨still, fun other window => ?_⟩
    rw [holds_iff, holds_iff, step_of_found found, held_set_of_same found same]

example : ((start 0 [10, 20]).play [0, 1, 0, 1, 1, 0, 1]) = ⟨⟨10⟩, [.overtaken ⟨0, 10⟩, .handedBack]⟩ := by
  decide +kernel

end Race

end PermissionFeed
