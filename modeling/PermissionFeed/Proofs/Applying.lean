import PermissionFeed.Proofs.Delta

namespace PermissionFeed

theorem Row.last?_congr {rows others : List Row} {key : String}
    (same : ∀ expiry, ⟨key, expiry⟩ ∈ rows ↔ ⟨key, expiry⟩ ∈ others)
    (single : ∀ first second, ⟨key, first⟩ ∈ rows → ⟨key, second⟩ ∈ rows → first = second) :
    last? rows key = last? others key := by
  cases found : last? rows key with
  | none =>
      symm
      rw [last?_eq_none_iff] at found ⊢
      rintro ⟨_, expiry⟩ listed rfl
      exact found _ ((same expiry).mpr listed) rfl
  | some first =>
      have listed := mem_of_last? found
      cases foundThere : last? others key with
      | none => exact absurd rfl (last?_eq_none_iff.mp foundThere _ ((same first).mp listed))
      | some second => rw [single first second listed ((same second).mpr (mem_of_last? foundThere))]

namespace Entry

def effect (entries : List Entry) (key : String) : Option (Option Expiry) :=
  match Row.last? (additions entries) key with
  | some expiry => some (some expiry)
  | none => if key ∈ removals entries then some none else none

theorem effect_of_unmentioned {entries : List Entry} {key : String} (unmentioned : ∀ entry ∈ entries, entry.key ≠ key) :
    effect entries key = none := by
  have unadded : Row.last? (additions entries) key = none :=
    Row.last?_eq_none_iff.mpr fun row listed => unmentioned _ (mem_additions.mp listed)
  have unremoved : key ∉ removals entries := by
    rw [mem_removals]
    rintro ⟨entry, listed, _, named⟩
    exact unmentioned entry listed named
  simp only [effect, unadded, if_neg unremoved]

theorem effect_congr {entries others : List Entry} {key : String} (same : ∀ entry, entry ∈ entries ↔ entry ∈ others)
    (single : ∀ first second, add key first ∈ entries → add key second ∈ entries → first = second) :
    effect entries key = effect others key := by
  have added : Row.last? (additions entries) key = Row.last? (additions others) key := by
    apply Row.last?_congr
    · intro expiry
      rw [mem_additions, mem_additions, same]
    · intro first second listed listedToo
      exact single first second (mem_additions.mp listed) (mem_additions.mp listedToo)
  have removed : key ∈ removals entries ↔ key ∈ removals others := by
    rw [mem_removals, mem_removals]
    simp only [same]
  simp only [effect, added, removed]

end Entry

namespace Rows

theorem getElem?_apply_effect (rows : Rows) (entries : List Entry) (key : String) :
    (rows.apply entries)[key]? = (Entry.effect entries key).getD rows[key]? := by
  rw [apply_eq_foldl, getElem?_foldl_put_last, getElem?_foldl_erase, Entry.effect]
  cases Row.last? (Entry.additions entries) key with
  | some expiry => rfl
  | none => by_cases removed : key ∈ Entry.removals entries <;> simp [removed]

theorem getElem?_apply_of_unmentioned (rows : Rows) {entries : List Entry} {key : String}
    (unmentioned : ∀ entry ∈ entries, entry.key ≠ key) : (rows.apply entries)[key]? = rows[key]? := by
  rw [getElem?_apply_effect, Entry.effect_of_unmentioned unmentioned]
  rfl

theorem mem_apply {rows : Rows} {entries : List Entry} {key : String} :
    key ∈ rows.apply entries ↔ (Entry.effect entries key).elim (key ∈ rows) (·.isSome) := by
  rw [Std.ExtTreeMap.mem_iff_isSome_getElem?, getElem?_apply_effect]
  cases Entry.effect entries key with
  | none => exact Std.ExtTreeMap.mem_iff_isSome_getElem?.symm
  | some kept => rfl

theorem apply_apply (rows : Rows) (entries : List Entry) : (rows.apply entries).apply entries = rows.apply entries := by
  apply Std.ExtTreeMap.ext_getElem?
  intro key
  rw [getElem?_apply_effect, getElem?_apply_effect]
  cases Entry.effect entries key <;> rfl

theorem apply_changesTo_relisted {before after : Rows} {entries : List Entry}
    (relisted : ∀ entry, entry ∈ entries ↔ entry ∈ before.changesTo after) : before.apply entries = after := by
  apply Std.ExtTreeMap.ext_getElem?
  intro key
  have single : ∀ first second, Entry.add key first ∈ entries → Entry.add key second ∈ entries → first = second := by
    intro first second listed listedToo
    have added := (add_mem_changesTo.mp ((relisted _).mp listed)).1
    have addedToo := (add_mem_changesTo.mp ((relisted _).mp listedToo)).1
    exact Option.some.inj (added.symm.trans addedToo)
  rw [getElem?_apply_effect, Entry.effect_congr relisted single, ← getElem?_apply_effect, getElem?_apply_changesTo]
  split
  · next same => exact same
  · rfl

end Rows

namespace RowSet

def Counts (rows : RowSet) (row : Row) : Prop :=
  row ∈ rows ∧ ∀ other ∈ rows, other.key = row.key → (compare other row).isLE

theorem Counts.unique {rows : RowSet} {row other : Row} (counts : Counts rows row) (countsToo : Counts rows other)
    (same : other.key = row.key) : other = row :=
  Std.LawfulEqCmp.eq_of_compare <| Std.OrientedCmp.isLE_antisymm (counts.2 other countsToo.1 same)
    (countsToo.2 row counts.1 same.symm)

theorem isLE_of_found {rows : List Row} (ascending : rows.Pairwise fun left right => compare left right = .lt)
    {key : String} {last : Row} (found : rows.reverse.find? (fun other => decide (other.key = key)) = some last)
    {other : Row} (listed : other ∈ rows) (same : other.key = key) : (compare other last).isLE := by
  -- read backwards, the rows before the one that is found have other keys, and the rest is descending
  obtain ⟨_, later, earlier, split, others⟩ := List.find?_eq_some_iff_append.mp found
  have descending : (later ++ last :: earlier).Pairwise fun left right => compare right left = .lt := by
    rwa [← split, List.pairwise_reverse]
  have position : other ∈ later ++ last :: earlier := by rwa [← split, List.mem_reverse]
  rcases List.mem_append.mp position with before | after
  · exact absurd same (by simpa using others other before)
  · rcases List.mem_cons.mp after with rfl | after
    · simp
    · have precedes := (List.pairwise_cons.mp (List.pairwise_append.mp descending).2.1).1 other after
      rw [precedes]
      rfl

theorem exists_counts {rows : RowSet} {row : Row} (listed : row ∈ rows) :
    ∃ last, Counts rows last ∧ last.key = row.key ∧ (keyed rows)[row.key]? = some last.expiry := by
  have listedThere : row ∈ rows.toList := Std.ExtTreeSet.mem_toList.mpr listed
  cases found : rows.toList.reverse.find? fun other => decide (other.key = row.key) with
  | none =>
      have missed := List.find?_eq_none.mp found row (List.mem_reverse.mpr listedThere)
      simp at missed
  | some last =>
      have named : last.key = row.key := by simpa using List.find?_some found
      have lastListed : last ∈ rows :=
        Std.ExtTreeSet.mem_toList.mp (List.mem_reverse.mp (List.mem_of_find?_eq_some found))
      refine ⟨last, ⟨lastListed, ?_⟩, named, by rw [keyed, Rows.getElem?_ofRows, found]; rfl⟩
      intro other listedOther sameKey
      exact isLE_of_found Std.ExtTreeSet.ordered_toList found (Std.ExtTreeSet.mem_toList.mpr listedOther)
        (sameKey.trans named)

theorem getElem?_keyed_eq_some_iff {rows : RowSet} {row : Row} :
    (keyed rows)[row.key]? = some row.expiry ↔ Counts rows row := by
  constructor
  · intro found
    have listed : row ∈ rows := by
      rw [keyed, Rows.getElem?_ofRows_last] at found
      exact Std.ExtTreeSet.mem_toList.mp (Row.mem_of_last? found)
    obtain ⟨last, counts, named, stored⟩ := exists_counts listed
    obtain rfl : last = row := by
      have sameExpiry := Option.some.inj (stored.symm.trans found)
      cases last
      cases row
      simp_all
    exact counts
  · intro counts
    obtain ⟨last, countsToo, named, stored⟩ := exists_counts counts.1
    rw [stored, counts.unique countsToo named]

end RowSet

def Dimensions.covers (dimensions : Dimensions) : Facet → Bool
  | .direct => dimensions.direct
  | .groups => dimensions.groups
  | .effective => true

namespace Snapshot

def keyed (snapshot : Snapshot) : Facet → Rows
  | .direct => RowSet.keyed snapshot.direct
  | .groups => RowSet.keyed snapshot.memberships
  | .effective => NameSet.keyed snapshot.effective

def Counts (snapshot : Snapshot) (row : Row) : Facet → Prop
  | .direct => RowSet.Counts snapshot.direct row
  | .groups => RowSet.Counts snapshot.memberships row
  | .effective => row.key ∈ snapshot.effective ∧ row.expiry = none

theorem getElem?_keyed_eq_some_iff {snapshot : Snapshot} {row : Row} {facet : Facet} :
    (snapshot.keyed facet)[row.key]? = some row.expiry ↔ snapshot.Counts row facet := by
  cases facet with
  | direct => exact RowSet.getElem?_keyed_eq_some_iff
  | groups => exact RowSet.getElem?_keyed_eq_some_iff
  | effective =>
      rw [keyed, Rows.getElem?_keyed_names, Counts]
      by_cases member : row.key ∈ snapshot.effective <;> simp [member, eq_comm]

end Snapshot

namespace Delta

theorem entries_between (before after : Snapshot) (dimensions : Dimensions) (facet : Facet) :
    (between before after dimensions).entries facet =
      if dimensions.covers facet then (before.keyed facet).changesTo (after.keyed facet) else [] := by
  cases facet <;> rfl

/-- Applied in any order, the entries between two snapshots lead from the keyed rows of the one to those of the other in
every view that is covered, and change nothing in the others. -/
theorem round_trips (before after : Snapshot) (dimensions : Dimensions) (facet : Facet) {entries : List Entry}
    (reordered : entries.Perm ((between before after dimensions).entries facet)) :
    let reached := (before.keyed facet).apply entries
    let target := if dimensions.covers facet then after else before
    reached = target.keyed facet ∧ ∀ row : Row, reached[row.key]? = some row.expiry ↔ target.Counts row facet := by
  intro reached target
  have arrived : reached = target.keyed facet := by
    rw [entries_between] at reordered
    by_cases covered : dimensions.covers facet
    · rw [if_pos covered] at reordered
      simp only [target, if_pos covered]
      exact Rows.apply_changesTo_relisted fun _ => reordered.mem_iff
    · rw [if_neg covered] at reordered
      simp only [target, if_neg covered, reached, reordered.eq_nil, Rows.apply_nil]
  exact ⟨arrived, fun _ => by rw [arrived, Snapshot.getElem?_keyed_eq_some_iff]⟩

def lapsing : Snapshot :=
  { Snapshot.empty ⟨.replicate 16 1⟩ with
    direct := .ofList ([⟨"fly", some 5⟩, ⟨"fly", some 9⟩, ⟨"kick", none⟩] : List Row)
    effective := .ofList ["fly", "kick"] }

def renewed : Snapshot :=
  { Snapshot.empty ⟨.replicate 16 1⟩ with
    direct := .ofList ([⟨"ban", none⟩, ⟨"fly", none⟩, ⟨"fly", some 7⟩] : List Row)
    effective := .ofList ["ban", "fly"] }

theorem round_trips_renewed :
    let entries : List Entry := [.add "ban" none, .add "fly" (some 7), .remove "kick", .remove "fly"]
    let reached := (lapsing.keyed .direct).apply entries
    entries.Perm ((between lapsing renewed ⟨true, false⟩).entries .direct) ∧ reached = renewed.keyed .direct ∧
      ∀ row : Row, reached[row.key]? = some row.expiry ↔ renewed.Counts row .direct := by
  have reordered : [.add "ban" none, .add "fly" (some 7), .remove "kick", .remove "fly"].Perm
      ((between lapsing renewed ⟨true, false⟩).entries .direct) := by
    decide +kernel
  exact ⟨reordered, round_trips lapsing renewed ⟨true, false⟩ .direct reordered⟩

end Delta

end PermissionFeed
