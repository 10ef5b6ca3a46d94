import Mathlib.Logic.ExistsUnique
import PermissionFeed.Cursor

namespace PermissionFeed

namespace Window

instance : Membership Instant Window :=
  ⟨fun window instant => window.since < instant ∧ instant ≤ window.last⟩

instance (instant : Instant) (window : Window) : Decidable (instant ∈ window) :=
  inferInstanceAs (Decidable (_ ∧ _))

theorem mem_iff {window : Window} {instant : Instant} :
    instant ∈ window ↔ window.since < instant ∧ instant ≤ window.last :=
  Iff.rfl

def Apart (window other : Window) : Prop :=
  window.last ≤ other.since ∨ other.last ≤ window.since

theorem Apart.symm {window other : Window} (apart : window.Apart other) : other.Apart window :=
  Or.symm apart

theorem Apart.not_mem {window other : Window} (apart : window.Apart other) {instant : Instant}
    (mem : instant ∈ window) : instant ∉ other := by
  rw [mem_iff] at mem ⊢
  rcases apart with before | after
  · exact fun both => Int64.not_le.mpr both.1 (Int64.le_trans mem.2 before)
  · exact fun both => Int64.not_le.mpr mem.1 (Int64.le_trans both.2 after)

end Window

namespace Cursor

variable {cursor later : Cursor} {last : Instant} {window : Window}

theorem advance_eq_some : cursor.advance last = (some window, later) ↔
    cursor.position < last ∧ window = ⟨cursor.position, last⟩ ∧ later = ⟨last⟩ := by
  by_cases ahead : cursor.position < last <;> simp [advance, ahead, eq_comm]

theorem advance_eq_none : cursor.advance last = (none, later) ↔ ¬cursor.position < last ∧ later = cursor := by
  by_cases ahead : cursor.position < last <;> simp [advance, ahead, eq_comm]

theorem rewind_eq_true : cursor.rewind window = (true, later) ↔
    cursor.position = window.last ∧ later = ⟨window.since⟩ := by
  by_cases ends : cursor.position = window.last <;> simp [rewind, ends, eq_comm]

theorem rewind_eq_false : cursor.rewind window = (false, later) ↔
    cursor.position ≠ window.last ∧ later = cursor := by
  by_cases ends : cursor.position = window.last <;> simp [rewind, ends, eq_comm]

inductive Dealt (cursor : Cursor) : Option Window → Cursor → Option Window → Prop where
  | nothing (held : Option Window) : Dealt cursor held cursor held
  | claim {last : Instant} {window : Window} {later : Cursor} (advanced : cursor.advance last = (some window, later)) :
      Dealt cursor none later (some window)
  | handBack {window : Window} {later : Cursor} (rewound : cursor.rewind window = (true, later)) :
      Dealt cursor (some window) later none

theorem dealt_advance (cursor : Cursor) (last : Instant) :
    cursor.Dealt none (cursor.advance last).2 (cursor.advance last).1 := by
  rcases advanced : cursor.advance last with ⟨_ | window, later⟩
  · obtain ⟨_, rfl⟩ := advance_eq_none.mp advanced
    exact .nothing none
  · exact .claim advanced

theorem dealt_rewind (cursor : Cursor) (window : Window) :
    cursor.Dealt (some window) (cursor.rewind window).2 (if (cursor.rewind window).1 then none else some window) := by
  rcases rewound : cursor.rewind window with ⟨_ | _, later⟩
  · obtain ⟨_, rfl⟩ := rewind_eq_false.mp rewound
    exact .nothing (some window)
  · exact .handBack rewound

end Cursor

/-- Windows that are not empty and follow on one another, from a start up to a last instant. -/
inductive Tiles (start : Instant) : List Window → Instant → Prop where
  | nil : Tiles start [] start
  | concat {windows : List Window} {since last : Instant} (tiles : Tiles start windows since) (begins : since < last) :
      Tiles start (windows ++ [⟨since, last⟩]) last

namespace Tiles

variable {start since last instant : Instant} {windows : List Window} {window : Window}

theorem cons (begins : start < since) (tiles : Tiles since windows last) :
    Tiles start (⟨start, since⟩ :: windows) last := by
  induction tiles with
  | nil => exact concat nil begins
  | concat tiles later ih => exact concat ih later

theorem start_le (tiles : Tiles start windows last) : start ≤ last := by
  induction tiles with
  | nil => exact Int64.le_refl _
  | concat tiles begins ih => exact Int64.le_trans ih (Int64.le_of_lt begins)

theorem within (tiles : Tiles start windows last) (listed : window ∈ windows) :
    start ≤ window.since ∧ window.since < window.last ∧ window.last ≤ last := by
  induction tiles with
  | nil => contradiction
  | concat tiles begins ih =>
      rcases List.mem_append.mp listed with earlier | newest
      · obtain ⟨begun, lasting, ended⟩ := ih earlier
        exact ⟨begun, lasting, Int64.le_trans ended (Int64.le_of_lt begins)⟩
      · obtain rfl := List.mem_singleton.mp newest
        exact ⟨tiles.start_le, begins, Int64.le_refl _⟩

theorem apart (tiles : Tiles start windows last) : windows.Pairwise Window.Apart := by
  induction tiles with
  | nil => exact .nil
  | concat tiles begins ih =>
      refine List.pairwise_append.mpr ⟨ih, List.pairwise_singleton _ _, fun earlier listed newest same => ?_⟩
      obtain rfl := List.mem_singleton.mp same
      exact Or.inl (tiles.within listed).2.2

theorem exists_mem (tiles : Tiles start windows last) (after : start < instant) (upTo : instant ≤ last) :
    ∃ window ∈ windows, instant ∈ window := by
  induction tiles with
  | nil => exact absurd upTo (Int64.not_le.mpr after)
  | @concat windows since last tiles begins ih =>
      by_cases early : instant ≤ since
      · obtain ⟨window, listed, mem⟩ := ih early
        exact ⟨window, List.mem_append_left _ listed, mem⟩
      · exact ⟨⟨since, last⟩, by simp, Int64.not_le.mp early, upTo⟩

theorem eq_concat (tiles : Tiles start windows last) (listed : window ∈ windows) (ends : last = window.last) :
    ∃ earlier, windows = earlier ++ [window] ∧ Tiles start earlier window.since := by
  cases tiles with
  | nil => contradiction
  | @concat earlier since _ tiles begins =>
      rcases List.mem_append.mp listed with inside | newest
      · have ended := (tiles.within inside).2.2
        rw [← ends] at ended
        exact absurd ended (Int64.not_le.mpr begins)
      · obtain rfl := List.mem_singleton.mp newest
        exact ⟨earlier, rfl, tiles⟩

end Tiles

/-- The windows of holders follow on one another, in some order, from a start up to a last instant. -/
def Tiled (start : Instant) (held : List (Option Window)) (last : Instant) : Prop :=
  ∃ windows, windows.Perm (held.filterMap id) ∧ Tiles start windows last

namespace Tiled

variable {start last instant : Instant} {held : List (Option Window)} {place : Nat} {window : Window}

theorem perm_set_some (free : held[place]? = some none) :
    ((held.set place (some window)).filterMap id).Perm (window :: held.filterMap id) := by
  induction held generalizing place with
  | nil => simp at free
  | cons first held ih =>
      cases place with
      | zero =>
          obtain rfl : first = none := by simpa using free
          simp
      | succ place =>
          have unheld : held[place]? = some none := by simpa using free
          have rest := ih unheld
          cases first with
          | none => simpa using rest
          | some other => simpa using (rest.cons other).trans (List.Perm.swap window other _)

theorem of_free (free : ∀ holding ∈ held, holding = none) : Tiled start held start := by
  have none : held.filterMap id = [] := List.filterMap_eq_nil_iff.mpr free
  exact ⟨[], by rw [none], .nil⟩

theorem within (tiled : Tiled start held last) (holds : held[place]? = some (some window)) :
    start ≤ window.since ∧ window.since < window.last ∧ window.last ≤ last := by
  obtain ⟨windows, perm, tiles⟩ := tiled
  have listed : window ∈ held.filterMap id := List.mem_filterMap.mpr ⟨_, List.mem_of_getElem? holds, rfl⟩
  exact tiles.within (perm.mem_iff.mpr listed)

theorem apart (tiled : Tiled start held last) {other : Nat} {another : Window}
    (holds : held[place]? = some (some window)) (alsoHolds : held[other]? = some (some another))
    (different : place ≠ other) : window.Apart another := by
  obtain ⟨windows, perm, tiles⟩ := tiled
  have pairwise := (perm.pairwise_iff Window.Apart.symm).mp tiles.apart
  rw [List.pairwise_filterMap, List.pairwise_iff_getElem] at pairwise
  obtain ⟨bound, found⟩ := List.getElem?_eq_some_iff.mp holds
  obtain ⟨alsoBound, alsoFound⟩ := List.getElem?_eq_some_iff.mp alsoHolds
  rcases Nat.lt_or_gt_of_ne different with before | after
  · exact pairwise place other bound alsoBound before window found another alsoFound
  · exact (pairwise other place alsoBound bound after another alsoFound window found).symm

theorem mem_iff (tiled : Tiled start held last) : start < instant ∧ instant ≤ last ↔
    ∃! place : Nat, ∃ window, held[place]? = some (some window) ∧ instant ∈ window := by
  constructor
  · rintro ⟨after, upTo⟩
    obtain ⟨windows, perm, tiles⟩ := id tiled
    obtain ⟨window, listed, mem⟩ := tiles.exists_mem after upTo
    obtain ⟨_, listed, rfl⟩ := List.mem_filterMap.mp (perm.mem_iff.mp listed)
    obtain ⟨place, holds⟩ := List.mem_iff_getElem?.mp listed
    refine ⟨place, ⟨window, holds, mem⟩, fun other ⟨another, alsoHolds, alsoMem⟩ => ?_⟩
    apply Classical.not_not.mp
    intro different
    exact (tiled.apart alsoHolds holds different).not_mem alsoMem mem
  · rintro ⟨place, ⟨window, holds, mem⟩, _⟩
    obtain ⟨begun, _, ended⟩ := tiled.within holds
    exact ⟨Int64.lt_of_le_of_lt begun mem.1, Int64.le_trans mem.2 ended⟩

theorem last_ne_iff (tiled : Tiled start held last) (holds : held[place]? = some (some window)) :
    last ≠ window.last ↔
      ∃ (other : Nat) (later : Window), held[other]? = some (some later) ∧ window.last < later.last := by
  obtain ⟨begun, lasting, ended⟩ := tiled.within holds
  constructor
  · intro differs
    have begins := Int64.lt_of_le_of_lt begun (Int64.lt_of_lt_of_le lasting ended)
    obtain ⟨other, ⟨later, alsoHolds, mem⟩, _⟩ := tiled.mem_iff.mp ⟨begins, Int64.le_refl last⟩
    exact ⟨other, later, alsoHolds, Int64.lt_of_lt_of_le (Int64.lt_of_le_of_ne ended differs.symm) mem.2⟩
  · rintro ⟨other, later, alsoHolds, longer⟩ rfl
    exact Int64.not_le.mpr longer (tiled.within alsoHolds).2.2

theorem claim {cursor later : Cursor} (tiled : Tiled start held cursor.position) (free : held[place]? = some none)
    (advanced : cursor.advance last = (some window, later)) :
    Tiled start (held.set place (some window)) later.position := by
  obtain ⟨ahead, rfl, rfl⟩ := Cursor.advance_eq_some.mp advanced
  obtain ⟨windows, perm, tiles⟩ := tiled
  let newest : Window := ⟨cursor.position, last⟩
  refine ⟨windows ++ [newest], ?_, tiles.concat ahead⟩
  have begun : (windows ++ [newest]).Perm (newest :: held.filterMap id) :=
    (List.perm_append_singleton _ _).trans (perm.cons newest)
  exact begun.trans (perm_set_some free).symm

theorem handBack {cursor later : Cursor} (tiled : Tiled start held cursor.position)
    (holds : held[place]? = some (some window)) (rewound : cursor.rewind window = (true, later)) :
    Tiled start (held.set place none) later.position := by
  obtain ⟨ends, rfl⟩ := Cursor.rewind_eq_true.mp rewound
  obtain ⟨windows, perm, tiles⟩ := tiled
  obtain ⟨bound, found⟩ := List.getElem?_eq_some_iff.mp holds
  have restored : (held.set place none).set place (some window) = held := by
    rw [List.set_set, ← found, List.set_getElem_self]
  have free : (held.set place none)[place]? = some none := by simp [bound]
  have split : (((held.set place none).set place (some window)).filterMap id).Perm
      (window :: (held.set place none).filterMap id) := perm_set_some free
  rw [restored] at split
  have listed : window ∈ windows := perm.mem_iff.mpr (split.mem_iff.mpr List.mem_cons_self)
  obtain ⟨earlier, rfl, rest⟩ := tiles.eq_concat listed ends
  refine ⟨earlier, List.Perm.cons_inv (a := window) ?_, rest⟩
  exact (List.perm_append_singleton _ _).symm.trans (perm.trans split)

theorem deal {cursor later : Cursor} {before after : Option Window} (tiled : Tiled start held cursor.position)
    (found : held[place]? = some before) (dealt : cursor.Dealt before later after) :
    Tiled start (held.set place after) later.position := by
  cases dealt with
  | nothing =>
      obtain ⟨bound, rfl⟩ := List.getElem?_eq_some_iff.mp found
      rwa [List.set_getElem_self]
  | claim advanced => exact tiled.claim found advanced
  | handBack rewound => exact tiled.handBack found rewound

end Tiled

end PermissionFeed
