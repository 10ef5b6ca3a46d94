import Mathlib.Logic.ExistsUnique
import PermissionFeed.Proofs.Evaluation

namespace PermissionFeed

def Row.Prevails (rows : List Row) (now : Instant) (row : Row) : Prop :=
  ∃ earlier later, rows = earlier ++ row :: later ∧ row.isActive now ∧
    ∀ other ∈ later, other.key = row.key → ¬ other.isActive now

structure RowSet.Keeps (kept : RowSet) (rows : List Row) (now : Instant) : Prop where
  mem_iff : ∀ row, row ∈ kept ↔ row.Prevails rows now
  single : ∀ row ∈ rows, row.isActive now → ∃! last, last ∈ kept ∧ last.key = row.key

namespace Row

variable {rows : List Row} {now : Instant} {row : Row} {key : String}

theorem prevails_iff : row.Prevails rows now ↔ last? (rows.filter (·.isActive now)) row.key = some row.expiry := by
  simp only [Prevails, last?, List.filter_filter, Option.map_eq_some_iff, getLast?_filter_eq_some_iff,
    Bool.and_eq_true, decide_eq_true_eq]
  constructor
  · rintro ⟨earlier, later, split, active, outlasts⟩
    have passed (other : Row) (listed : other ∈ later) : ¬ (other.key = row.key ∧ other.isActive now) :=
      fun both => outlasts other listed both.1 both.2
    exact ⟨row, ⟨earlier, later, split, ⟨rfl, active⟩, passed⟩, rfl⟩
  · rintro ⟨last, ⟨earlier, later, split, ⟨named, active⟩, passed⟩, sameExpiry⟩
    obtain rfl : last = row := by
      cases last
      cases row
      simp_all
    exact ⟨earlier, later, split, active, fun other listed same stillActive => passed other listed ⟨same, stillActive⟩⟩

theorem last?_active_ne_none_iff :
    last? (rows.filter (·.isActive now)) key ≠ none ↔ ∃ row ∈ rows, row.isActive now ∧ row.key = key := by
  rw [ne_eq, last?_eq_none_iff]
  simp

theorem existsUnique_prevails (listed : row ∈ rows) (active : row.isActive now) :
    ∃! last : Row, last.Prevails rows now ∧ last.key = row.key := by
  obtain ⟨expiry, found⟩ := Option.ne_none_iff_exists'.mp (last?_active_ne_none_iff.mpr ⟨row, listed, active, rfl⟩)
  refine ⟨⟨row.key, expiry⟩, ⟨prevails_iff.mpr found, rfl⟩, ?_⟩
  rintro ⟨_, other⟩ ⟨prevails, rfl⟩
  have same : some other = some expiry := (prevails_iff.mp prevails).symm.trans found
  rw [Option.some.inj same]

end Row

theorem Rows.keeps_toSet (rows : List Row) (now : Instant) :
    RowSet.Keeps (ofRows (rows.filter (·.isActive now))).toSet rows now := by
  have kept (row : Row) : row ∈ (ofRows (rows.filter (·.isActive now))).toSet ↔ row.Prevails rows now := by
    rw [mem_toSet, getElem?_ofRows_last, Row.prevails_iff]
  refine ⟨kept, fun row listed active => ?_⟩
  simp only [kept]
  exact Row.existsUnique_prevails listed active

theorem Rows.mem_ofRows_active {rows : List Row} {now : Instant} {key : String} :
    key ∈ ofRows (rows.filter (·.isActive now)) ↔ ∃ row ∈ rows, row.isActive now ∧ row.key = key := by
  rw [mem_iff_getElem?, getElem?_ofRows_last, ← Option.ne_none_iff_exists', Row.last?_active_ne_none_iff]

def Groups.Reordered (groups others : Groups) : Prop :=
  ∀ name : String, Option.Rel (fun group other => group.grants.Perm other.grants) groups[name]? others[name]?

theorem Groups.Reordered.symm {groups others : Groups} (reordered : groups.Reordered others) : others.Reordered groups := by
  intro name
  have related := reordered name
  generalize groups[name]? = found at related ⊢
  generalize others[name]? = foundToo at related ⊢
  cases related with
  | none => exact .none
  | some same => exact .some same.symm

namespace Snapshot

inductive Permits (direct memberships : List Row) (groups : Groups) (now : Instant) (permission : String) : Prop where
  | direct {row : Row} (listed : row ∈ direct) (active : row.isActive now) (named : row.key = permission)
  | inherited {membership grant : Row} {group : Group} (joined : membership ∈ memberships)
      (active : membership.isActive now) (found : groups[membership.key]? = some group) (granted : grant ∈ group.grants)
      (lasting : grant.isActive now) (named : grant.key = permission)

variable {direct memberships otherDirect otherMemberships : List Row} {groups otherGroups : Groups} {now : Instant}
  {permission : String}

theorem permits_iff : Permits direct memberships groups now permission ↔
    permission ∈ Rows.ofRows (direct.filter (·.isActive now)) ∨ permission ∈ groups.inherited memberships now := by
  rw [Rows.mem_ofRows_active, Groups.mem_inherited]
  constructor
  · rintro (⟨listed, active, named⟩ | ⟨joined, active, found, granted, lasting, named⟩)
    · exact Or.inl ⟨_, listed, active, named⟩
    · exact Or.inr ⟨_, joined, active, _, found, _, granted, lasting, named⟩
  · rintro (⟨_, listed, active, named⟩ | ⟨_, joined, active, _, found, _, granted, lasting, named⟩)
    · exact .direct listed active named
    · exact .inherited joined active found granted lasting named

theorem Permits.reorder (sameDirect : direct.Perm otherDirect) (sameMemberships : memberships.Perm otherMemberships)
    (sameGroups : groups.Reordered otherGroups) (permits : Permits direct memberships groups now permission) :
    Permits otherDirect otherMemberships otherGroups now permission := by
  cases permits with
  | direct listed active named => exact .direct (sameDirect.mem_iff.mp listed) active named
  | @inherited membership _ _ joined active found granted lasting named =>
      have related := sameGroups membership.key
      rw [found] at related
      cases foundToo : otherGroups[membership.key]? with
      | none =>
          rw [foundToo] at related
          cases related
      | some other =>
          rw [foundToo] at related
          cases related with
          | some same =>
              exact .inherited (sameMemberships.mem_iff.mp joined) active foundToo (same.mem_iff.mp granted) lasting named

theorem mem_effective_evaluate (player : PlayerId) :
    permission ∈ (evaluate player .full direct memberships groups now).effective ↔
      Permits direct memberships groups now permission := by
  rw [permits_iff]
  simp [evaluate, assemble, Scope.full, Std.ExtTreeSet.mem_insertMany_list, Rows.mem_names, Std.ExtTreeSet.mem_toList]

theorem effective_evaluate_of_reordered (player : PlayerId) (sameDirect : direct.Perm otherDirect)
    (sameMemberships : memberships.Perm otherMemberships) (sameGroups : groups.Reordered otherGroups) :
    (evaluate player .full otherDirect otherMemberships otherGroups now).effective =
      (evaluate player .full direct memberships groups now).effective := by
  apply Std.ExtTreeSet.ext_mem
  intro permission
  rw [mem_effective_evaluate, mem_effective_evaluate]
  exact ⟨.reorder sameDirect.symm sameMemberships.symm sameGroups.symm, .reorder sameDirect sameMemberships sameGroups⟩

/-- A snapshot of any rows keeps the last active row of each key, and its effective permissions are those of the active
rows, whatever the order of the rows is. A scope leaves dimensions out and changes nothing about the others. -/
theorem evaluates_raw_rows (player : PlayerId) (direct memberships : List Row) (groups : Groups) (now : Instant) :
    let full := evaluate player .full direct memberships groups now
    full.player = player ∧ full.direct.Keeps direct now ∧ full.memberships.Keeps memberships now ∧
      (∀ permission, permission ∈ full.effective ↔ Permits direct memberships groups now permission) ∧
      (∀ row ∈ full.direct, row.key ∈ full.effective) ∧
      (∀ scope, evaluate player scope direct memberships groups now = full.within scope) ∧
      ∀ otherDirect otherMemberships otherGroups, direct.Perm otherDirect → memberships.Perm otherMemberships →
        groups.Reordered otherGroups →
        (evaluate player .full otherDirect otherMemberships otherGroups now).effective = full.effective := by
  intro full
  have directKept : full.direct.Keeps direct now := Rows.keeps_toSet direct now
  refine ⟨rfl, directKept, Rows.keeps_toSet memberships now, fun _ => mem_effective_evaluate player, ?_, fun _ => rfl,
    fun _ _ _ => effective_evaluate_of_reordered player⟩
  intro row kept
  obtain ⟨earlier, later, rfl, active, _⟩ := (directKept.mem_iff row).mp kept
  exact (mem_effective_evaluate player).mpr (.direct (by simp) active rfl)

theorem evaluates_raw_rows_lapsed :
    let direct : List Row := [⟨"fly", some 9⟩, ⟨"ban", none⟩, ⟨"fly", some 5⟩]
    let memberships : List Row := [⟨"staff", some 6⟩, ⟨"ghosts", none⟩, ⟨"staff", some 4⟩]
    let grants : List Row := [⟨"kick", some 9⟩, ⟨"mute", some 5⟩, ⟨"kick", some 2⟩]
    let staff (grants : List Row) : Groups := (∅ : Groups).insert "staff" ⟨"staff", grants⟩
    let full := evaluate (.numbered 1) .full direct memberships (staff grants) 5
    direct.Perm direct.reverse ∧ memberships.Perm memberships.reverse ∧ (staff grants).Reordered (staff grants.reverse) ∧
      full.direct.toList = [⟨"ban", none⟩, ⟨"fly", some 9⟩] ∧ full.direct.Keeps direct 5 ∧
      full.memberships.toList = [⟨"ghosts", none⟩, ⟨"staff", some 6⟩] ∧ full.effective.toList = ["ban", "fly", "kick"] ∧
      evaluate (.numbered 1) .effectiveOnly direct memberships (staff grants) 5 = full.within .effectiveOnly ∧
      (evaluate (.numbered 1) .full direct.reverse memberships.reverse (staff grants.reverse) 5).effective =
        full.effective := by
  intro direct memberships grants staff full
  have backwards (rows : List Row) : rows.Perm rows.reverse := (List.reverse_perm rows).symm
  have sameGroups : Groups.Reordered (staff grants) (staff grants.reverse) := by
    intro name
    simp only [staff, Std.ExtTreeMap.getElem?_insert, Std.ExtTreeMap.getElem?_empty]
    split
    · exact .some (backwards grants)
    · exact .none
  obtain ⟨_, kept, _, _, _, parts, reordered⟩ := evaluates_raw_rows (.numbered 1) direct memberships (staff grants) 5
  exact ⟨backwards _, backwards _, sameGroups, by decide +kernel, kept, by decide +kernel, by decide +kernel,
    parts .effectiveOnly, reordered _ _ _ (backwards _) (backwards _) sameGroups⟩

end Snapshot

end PermissionFeed
