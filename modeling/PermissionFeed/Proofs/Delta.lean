import PermissionFeed.Cache
import PermissionFeed.Proofs.Rows

namespace PermissionFeed

namespace Entry

def additions (entries : List Entry) : List Row :=
  (entries.filter (·.action = .add)).map fun entry => ⟨entry.key, entry.expiry⟩

def removals (entries : List Entry) : List String :=
  (entries.filter (·.action = .remove)).map Entry.key

theorem mem_additions {entries : List Entry} {row : Row} :
    row ∈ additions entries ↔ Entry.add row.key row.expiry ∈ entries := by
  simp only [additions, List.mem_map, List.mem_filter, decide_eq_true_eq]
  constructor
  · rintro ⟨⟨_, key, expiry⟩, ⟨listed, rfl⟩, rfl⟩
    exact listed
  · intro listed
    exact ⟨_, ⟨listed, rfl⟩, rfl⟩

theorem mem_removals {entries : List Entry} {key : String} :
    key ∈ removals entries ↔ ∃ entry ∈ entries, entry.action = .remove ∧ entry.key = key := by
  simp [removals, and_assoc]

end Entry

namespace Rows

theorem apply_eq_foldl (rows : Rows) (entries : List Entry) :
    rows.apply entries =
      (Entry.additions entries).foldl put ((Entry.removals entries).foldl (fun rows key => rows.erase key) rows) := by
  simp [apply, Entry.additions, Entry.removals, List.foldl_map]

theorem getElem?_apply (rows : Rows) (entries : List Entry) (key : String) :
    (rows.apply entries)[key]? =
      match (Entry.additions entries).reverse.find? fun row => decide (row.key = key) with
      | some row => some row.expiry
      | none => if key ∈ Entry.removals entries then none else rows[key]? := by
  cases found : (Entry.additions entries).reverse.find? fun row => decide (row.key = key) with
  | none => simp only [apply_eq_foldl, getElem?_foldl_put, getElem?_foldl_erase, found]
  | some row => simp only [apply_eq_foldl, getElem?_foldl_put, found]

theorem add_mem_changesTo {before after : Rows} {key : String} {expiry : Expiry} :
    Entry.add key expiry ∈ before.changesTo after ↔ after[key]? = some expiry ∧ before[key]? ≠ some expiry := by
  simp only [changesTo, List.mem_append, List.mem_flatMap, List.mem_filterMap, Prod.exists,
    Std.ExtTreeMap.mem_toList_iff_getElem?_eq_some]
  constructor
  · rintro (⟨other, earlier, found, listed⟩ | ⟨other, later, found, listed⟩)
    · cases kept : after[other]? with
      | none => simp [kept, Entry.add, Entry.remove] at listed
      | some later =>
          rw [kept] at listed
          by_cases same : later = earlier
          · simp [same] at listed
          · obtain ⟨rfl, rfl⟩ : key = other ∧ expiry = later := by simpa [same, Entry.add, Entry.remove] using listed
            exact ⟨kept, by rw [found]; simpa using Ne.symm same⟩
    · by_cases known : before.contains other
      · simp [known] at listed
      · obtain ⟨rfl, rfl⟩ : other = key ∧ later = expiry := by simpa [known, Entry.add] using listed
        refine ⟨found, ?_⟩
        have absent : other ∉ before := by simpa using known
        simp [absent]
  · rintro ⟨added, differs⟩
    cases found : before[key]? with
    | none =>
        right
        refine ⟨key, expiry, added, ?_⟩
        have unknown : before.contains key = false := by
          rw [Std.ExtTreeMap.contains_eq_isSome_getElem?, found]
          rfl
        simp [unknown, Entry.add]
    | some earlier =>
        left
        have different : expiry ≠ earlier := by
          intro same
          exact differs (by rw [found, same])
        exact ⟨key, earlier, found, by simp [added, different]⟩

theorem mem_removals_changesTo {before after : Rows} {key : String} :
    key ∈ Entry.removals (before.changesTo after) ↔ ∃ expiry, before[key]? = some expiry ∧ after[key]? ≠ some expiry := by
  rw [Entry.mem_removals]
  simp only [changesTo, List.mem_append, List.mem_flatMap, List.mem_filterMap, Prod.exists,
    Std.ExtTreeMap.mem_toList_iff_getElem?_eq_some]
  constructor
  · rintro ⟨entry, ⟨other, earlier, found, listed⟩ | ⟨other, later, found, listed⟩, removes, rfl⟩
    · cases kept : after[other]? with
      | none =>
          obtain rfl : entry = .remove other := by simpa [kept] using listed
          exact ⟨earlier, found, by simp [Entry.remove, kept]⟩
      | some later =>
          rw [kept] at listed
          by_cases same : later = earlier
          · simp [same] at listed
          · obtain rfl | rfl : entry = .remove other ∨ entry = .add other later := by simpa [same] using listed
            · exact ⟨earlier, found, by simpa [Entry.remove, kept] using same⟩
            · simp [Entry.add] at removes
    · by_cases known : before.contains other
      · simp [known] at listed
      · obtain rfl : Entry.add other later = entry := by simpa [known] using listed
        simp [Entry.add] at removes
  · rintro ⟨earlier, found, differs⟩
    refine ⟨.remove key, Or.inl ⟨key, earlier, found, ?_⟩, rfl, rfl⟩
    cases kept : after[key]? with
    | none => simp
    | some later =>
        have different : later ≠ earlier := by
          intro same
          exact differs (by rw [kept, same])
        simp [different]

theorem getElem?_apply_changesTo (rows before after : Rows) (key : String) :
    (rows.apply (before.changesTo after))[key]? = if before[key]? = after[key]? then rows[key]? else after[key]? := by
  rw [getElem?_apply]
  cases found : (Entry.additions (before.changesTo after)).reverse.find? fun row => decide (row.key = key) with
  | some row =>
      have listed : row ∈ Entry.additions (before.changesTo after) := by simpa using List.mem_of_find?_eq_some found
      have named : row.key = key := by simpa using List.find?_some found
      obtain ⟨added, differs⟩ := add_mem_changesTo.mp (Entry.mem_additions.mp listed)
      rw [named] at added differs
      rw [added, if_neg differs]
  | none =>
      have unadded : ∀ expiry, after[key]? = some expiry → before[key]? = some expiry := by
        intro expiry later
        by_cases earlier : before[key]? = some expiry
        · exact earlier
        · have listed : ⟨key, expiry⟩ ∈ Entry.additions (before.changesTo after) :=
            Entry.mem_additions.mpr (add_mem_changesTo.mpr ⟨later, earlier⟩)
          simpa using List.find?_eq_none.mp found ⟨key, expiry⟩ (by simpa using listed)
      by_cases same : before[key]? = after[key]?
      · have unremoved : key ∉ Entry.removals (before.changesTo after) := by
          rw [mem_removals_changesTo]
          rintro ⟨expiry, earlier, differs⟩
          exact differs (by rw [← same, earlier])
        simp [same, unremoved]
      · have gone : after[key]? = none := by
          cases later : after[key]? with
          | none => rfl
          | some expiry => exact absurd (by rw [unadded expiry later, later]) same
        have removed : key ∈ Entry.removals (before.changesTo after) := by
          rw [mem_removals_changesTo]
          cases earlier : before[key]? with
          | none => exact absurd (by rw [earlier, gone]) same
          | some expiry => exact ⟨expiry, rfl, by simp [gone]⟩
        simp only [removed, if_true, gone, if_neg (gone ▸ same)]

theorem apply_nil (rows : Rows) : rows.apply [] = rows :=
  rfl

theorem exists_mem_changesTo_iff {before after : Rows} {key : String} :
    (∃ entry ∈ before.changesTo after, entry.key = key) ↔ before[key]? ≠ after[key]? := by
  constructor
  · rintro ⟨⟨action, key, expiry⟩, listed, rfl⟩
    cases action with
    | add =>
        obtain ⟨added, differs⟩ := add_mem_changesTo.mp listed
        exact fun same => differs (same.trans added)
    | remove =>
        obtain ⟨earlier, found, differs⟩ := mem_removals_changesTo.mp (Entry.mem_removals.mpr ⟨_, listed, rfl, rfl⟩)
        exact fun same => differs (same.symm.trans found)
  · intro differs
    cases found : before[key]? with
    | some earlier =>
        have removed : key ∈ Entry.removals (before.changesTo after) :=
          mem_removals_changesTo.mpr ⟨earlier, found, fun kept => differs (found.trans kept.symm)⟩
        obtain ⟨entry, listed, _, named⟩ := Entry.mem_removals.mp removed
        exact ⟨entry, listed, named⟩
    | none =>
        obtain ⟨later, added⟩ := Option.ne_none_iff_exists'.mp fun gone => differs (found.trans gone.symm)
        exact ⟨.add key later, add_mem_changesTo.mpr ⟨added, by simp [found]⟩, rfl⟩

theorem changesTo_eq_nil_iff {before after : Rows} : before.changesTo after = [] ↔ before = after := by
  constructor
  · intro unchanged
    apply Std.ExtTreeMap.ext_getElem?
    intro key
    by_cases same : before[key]? = after[key]?
    · exact same
    · obtain ⟨entry, listed, _⟩ := exists_mem_changesTo_iff.mpr same
      simp [unchanged] at listed
  · rintro rfl
    rw [List.eq_nil_iff_forall_not_mem]
    exact fun entry listed => exists_mem_changesTo_iff.mp ⟨entry, listed, rfl⟩ rfl

end Rows

inductive Facet where
  | direct
  | groups
  | effective
  deriving DecidableEq

namespace Delta

def entries (delta : Delta) : Facet → List Entry
  | .direct => delta.direct
  | .groups => delta.groups
  | .effective => delta.effective

def Mentions (delta : Delta) (facet : Facet) (key : String) : Prop :=
  ∃ entry ∈ delta.entries facet, entry.key = key

theorem between_eq_all {before after : Snapshot} {dimensions : Dimensions}
    (direct : dimensions.direct = false → before.direct = after.direct)
    (groups : dimensions.groups = false → before.memberships = after.memberships) :
    between before after dimensions = between before after .all := by
  obtain ⟨_ | _, _ | _⟩ := dimensions <;>
    simp_all [between, Dimensions.all, Rows.changesTo_eq_nil_iff.mpr]

end Delta

namespace CachedPlayer

def entry (cached : CachedPlayer) : Facet → String → Option Expiry
  | .direct, key => cached.direct[key]?
  | .groups, key => cached.groups[key]?
  | .effective, name => (NameSet.keyed cached.effective)[name]?

@[simp]
theorem entry_empty (facet : Facet) (key : String) : CachedPlayer.empty.entry facet key = none := by
  cases facet <;> simp [entry, empty, Rows.getElem?_keyed_names]

theorem ext_entries {left right : CachedPlayer}
    (same : ∀ (facet : Facet) (key : String), left.entry facet key = right.entry facet key) : left = right := by
  obtain ⟨leftDirect, leftGroups, leftEffective⟩ := left
  obtain ⟨rightDirect, rightGroups, rightEffective⟩ := right
  congr
  · exact Std.ExtTreeMap.ext_getElem? fun key => same .direct key
  · exact Std.ExtTreeMap.ext_getElem? fun key => same .groups key
  · have keyed : NameSet.keyed leftEffective = NameSet.keyed rightEffective :=
      Std.ExtTreeMap.ext_getElem? fun key => same .effective key
    rw [← Rows.names_keyed leftEffective, keyed, Rows.names_keyed]

def changesTo (before after : CachedPlayer) : Delta where
  direct := before.direct.changesTo after.direct
  groups := before.groups.changesTo after.groups
  effective := (NameSet.keyed before.effective).changesTo (NameSet.keyed after.effective)

theorem between_all (before after : Snapshot) :
    Delta.between before after .all = (ofSnapshot before).changesTo (ofSnapshot after) :=
  rfl

theorem mentions_changesTo_iff {before after : CachedPlayer} {facet : Facet} {key : String} :
    (before.changesTo after).Mentions facet key ↔ before.entry facet key ≠ after.entry facet key := by
  cases facet <;> exact Rows.exists_mem_changesTo_iff

theorem isEmpty_changesTo_iff {before after : CachedPlayer} : (before.changesTo after).isEmpty ↔ before = after := by
  constructor
  · intro empty
    apply ext_entries
    simp only [Delta.isEmpty, Bool.and_eq_true, List.isEmpty_iff, changesTo, Rows.changesTo_eq_nil_iff] at empty
    obtain ⟨⟨direct, groups⟩, effective⟩ := empty
    intro facet key
    cases facet with
    | direct => simp only [entry, direct]
    | groups => simp only [entry, groups]
    | effective => simp only [entry, effective]
  · rintro rfl
    simp [Delta.isEmpty, changesTo, Rows.changesTo_eq_nil_iff.mpr]

def Follows (cached before after reached : CachedPlayer) : Prop :=
  ∀ (facet : Facet) (key : String), reached.entry facet key =
    if before.entry facet key = after.entry facet key then cached.entry facet key else after.entry facet key

theorem apply_changesTo (cached before after : CachedPlayer) :
    cached.Follows before after (cached.apply (before.changesTo after)) := by
  intro facet key
  cases facet with
  | direct => exact Rows.getElem?_apply_changesTo _ _ _ _
  | groups => exact Rows.getElem?_apply_changesTo _ _ _ _
  | effective =>
      -- names go through keyed rows and back, which loses expiries; here there are none to lose
      have lasting : NameSet.keyed (cached.apply (before.changesTo after)).effective =
          (NameSet.keyed cached.effective).apply (before.changesTo after).effective := by
        apply Rows.keyed_names_of_lasting
        intro name expiry found
        rw [changesTo, Rows.getElem?_apply_changesTo] at found
        split at found
        · exact Rows.eq_none_of_keyed found
        · exact Rows.eq_none_of_keyed found
      rw [entry, lasting]
      exact Rows.getElem?_apply_changesTo _ _ _ _

namespace Follows

variable {cached before after reached : CachedPlayer}

theorem eq_of_synced (follows : cached.Follows before after reached) (synced : cached = before) : reached = after := by
  subst synced
  apply ext_entries
  intro facet key
  rw [follows facet key]
  split
  · next same => exact same
  · rfl

theorem refl (cached state : CachedPlayer) : cached.Follows state state cached := by
  intro facet key
  rw [if_pos rfl]

end Follows

theorem apply_of_isEmpty (cached : CachedPlayer) {delta : Delta} (empty : delta.isEmpty) : cached.apply delta = cached := by
  obtain ⟨direct, groups, effective⟩ := delta
  simp only [Delta.isEmpty, Bool.and_eq_true, List.isEmpty_iff] at empty
  obtain ⟨⟨rfl, rfl⟩, rfl⟩ := empty
  simp [apply, Rows.apply_nil, Rows.names_keyed]

theorem apply_between (cached : CachedPlayer) {before after : Snapshot} {dimensions : Dimensions}
    (direct : dimensions.direct = false → before.direct = after.direct)
    (groups : dimensions.groups = false → before.memberships = after.memberships) :
    cached.Follows (ofSnapshot before) (ofSnapshot after) (cached.apply (.between before after dimensions)) := by
  rw [Delta.between_eq_all direct groups, between_all]
  exact cached.apply_changesTo (ofSnapshot before) (ofSnapshot after)

end CachedPlayer

end PermissionFeed
