import PermissionFeed.Delta

namespace PermissionFeed

theorem getLast?_filter_eq_some_iff {α : Type} {holds : α → Bool} {values : List α} {last : α} :
    (values.filter holds).getLast? = some last ↔
      ∃ earlier later, values = earlier ++ last :: later ∧ holds last ∧ ∀ other ∈ later, ¬ holds other := by
  rw [List.getLast?_filter, List.find?_eq_some_iff_append]
  constructor
  · rintro ⟨chosen, later, earlier, split, passed⟩
    refine ⟨earlier.reverse, later.reverse, ?_, chosen, fun other listed => ?_⟩
    · rw [← List.reverse_reverse values, split]
      simp
    · simpa using passed other (List.mem_reverse.mp listed)
  · rintro ⟨earlier, later, rfl, chosen, passed⟩
    exact ⟨chosen, later.reverse, earlier.reverse, by simp, by simpa using passed⟩

namespace Row

def last? (rows : List Row) (key : String) : Option Expiry :=
  (rows.filter fun row => row.key = key).getLast?.map expiry

theorem mem_of_last? {rows : List Row} {key : String} {expiry : Expiry} (last : last? rows key = some expiry) :
    ⟨key, expiry⟩ ∈ rows := by
  obtain ⟨row, found, rfl⟩ := Option.map_eq_some_iff.mp last
  obtain ⟨listed, named⟩ := List.mem_filter.mp (List.mem_of_getLast? found)
  obtain rfl : row.key = key := by simpa using named
  exact listed

theorem last?_eq_none_iff {rows : List Row} {key : String} : last? rows key = none ↔ ∀ row ∈ rows, row.key ≠ key := by
  simp [last?]

end Row

namespace Rows

theorem mem_iff_getElem? {rows : Rows} {key : String} : key ∈ rows ↔ ∃ expiry, rows[key]? = some expiry := by
  rw [Std.ExtTreeMap.mem_iff_isSome_getElem?, Option.isSome_iff_exists]

theorem mem_list {rows : Rows} {row : Row} : row ∈ rows.list ↔ rows[row.key]? = some row.expiry := by
  simp only [list, List.mem_map, Prod.exists, Std.ExtTreeMap.mem_toList_iff_getElem?_eq_some]
  constructor
  · rintro ⟨key, expiry, found, rfl⟩
    exact found
  · intro found
    exact ⟨row.key, row.expiry, found, rfl⟩

theorem ofRows_eq_of_mem_iff {list : List Row} {rows : Rows}
    (same : ∀ row, row ∈ list ↔ rows[row.key]? = some row.expiry) : ofRows list = rows := by
  apply Std.ExtTreeMap.ext_getElem?
  intro key
  rw [getElem?_ofRows]
  cases found : list.reverse.find? fun row => decide (row.key = key) with
  | none =>
      have absent : ∀ row ∈ list, row.key ≠ key := by simpa using found
      cases stored : rows[key]? with
      | none => rfl
      | some expiry => exact absurd rfl (absent ⟨key, expiry⟩ ((same _).mpr stored))
  | some row =>
      have listed : row ∈ list := by simpa using List.mem_of_find?_eq_some found
      have named : row.key = key := by simpa using List.find?_some found
      rw [Option.map_some, ← named, (same row).mp listed]

theorem ofRows_list (rows : Rows) : ofRows rows.list = rows :=
  ofRows_eq_of_mem_iff fun _ => mem_list

theorem getElem?_foldl_put_last (list : List Row) (rows : Rows) (key : String) :
    (list.foldl put rows)[key]? = (Row.last? list key).or rows[key]? := by
  rw [getElem?_foldl_put, Row.last?, List.getLast?_filter]
  cases list.reverse.find? fun row => decide (row.key = key) <;> rfl

theorem getElem?_ofRows_last (list : List Row) (key : String) : (ofRows list)[key]? = Row.last? list key := by
  rw [ofRows, getElem?_foldl_put_last]
  simp

theorem mem_toSet {rows : Rows} {row : Row} : row ∈ rows.toSet ↔ rows[row.key]? = some row.expiry := by
  simp [toSet, Std.ExtTreeSet.mem_ofList, mem_list]

theorem mem_map_key {rows : Rows} {listed : List Row} (same : ∀ row, row ∈ listed ↔ rows[row.key]? = some row.expiry)
    {key : String} : key ∈ listed.map Row.key ↔ key ∈ rows := by
  simp only [List.mem_map, same, mem_iff_getElem?]
  constructor
  · rintro ⟨row, stored, rfl⟩
    exact ⟨row.expiry, stored⟩
  · rintro ⟨expiry, stored⟩
    exact ⟨⟨key, expiry⟩, stored, rfl⟩

theorem keyed_toSet (rows : Rows) : RowSet.keyed rows.toSet = rows :=
  ofRows_eq_of_mem_iff fun row => by rw [Std.ExtTreeSet.mem_toList, mem_toSet]

theorem mem_names {rows : Rows} {key : String} : key ∈ rows.names ↔ key ∈ rows := by
  simp [names, Std.ExtTreeSet.mem_ofList]

theorem getElem?_keyed_names (names : NameSet) (key : String) :
    (NameSet.keyed names)[key]? = if key ∈ names then some none else none := by
  have keyed : NameSet.keyed names = ofRows (names.toList.map fun name => ⟨name, none⟩) := rfl
  rw [keyed, getElem?_ofRows]
  cases found : (names.toList.map fun name => (⟨name, none⟩ : Row)).reverse.find? fun row => decide (row.key = key) with
  | none =>
      have others : ∀ name ∈ names, name ≠ key := by simpa [Std.ExtTreeSet.mem_toList] using found
      rw [if_neg fun member => others key member rfl]
      rfl
  | some row =>
      have listed := List.mem_of_find?_eq_some found
      have named : row.key = key := by simpa using List.find?_some found
      obtain ⟨name, member, rfl⟩ : ∃ name ∈ names, ⟨name, none⟩ = row := by
        simpa [Std.ExtTreeSet.mem_toList] using listed
      subst named
      simp [member]

theorem mem_keyed_names {names : NameSet} {key : String} : key ∈ NameSet.keyed names ↔ key ∈ names := by
  rw [mem_iff_getElem?]
  simp [getElem?_keyed_names]

theorem names_keyed (names : NameSet) : Rows.names (NameSet.keyed names) = names :=
  Std.ExtTreeSet.ext_mem fun _ => by rw [mem_names, mem_keyed_names]

theorem keyed_names_of_lasting {rows : Rows}
    (lasting : ∀ (key : String) (expiry : Expiry), rows[key]? = some expiry → expiry = none) :
    NameSet.keyed rows.names = rows := by
  apply Std.ExtTreeMap.ext_getElem?
  intro key
  rw [getElem?_keyed_names]
  cases found : rows[key]? with
  | none => rw [if_neg (by simp [mem_names, mem_iff_getElem?, found])]
  | some expiry => rw [if_pos (by simp [mem_names, mem_iff_getElem?, found]), lasting key expiry found]

theorem eq_none_of_keyed {names : NameSet} {key : String} {expiry : Expiry}
    (found : (NameSet.keyed names)[key]? = some expiry) : expiry = none := by
  rw [getElem?_keyed_names] at found
  split at found
  · exact (Option.some.inj found).symm
  · contradiction

theorem getElem?_active_eq_some {rows : Rows} {now : Instant} {key : String} {expiry : Expiry} :
    (rows.active now)[key]? = some expiry ↔ rows[key]? = some expiry ∧ expiry.isActive now := by
  rw [getElem?_active]
  simp [Option.filter_eq_some_iff]

theorem mem_active {rows : Rows} {now : Instant} {key : String} :
    key ∈ rows.active now ↔ ∃ expiry, rows[key]? = some expiry ∧ expiry.isActive now := by
  simp [mem_iff_getElem?, getElem?_active_eq_some]

theorem active_empty (now : Instant) : (∅ : Rows).active now = ∅ := by
  apply Std.ExtTreeMap.ext_getElem?
  intro key
  rw [getElem?_active]
  rfl

theorem ofRows_filter_active (rows : Rows) (now : Instant) :
    ofRows ((rows.active now).list.filter (·.isActive now)) = rows.active now := by
  have unfiltered : (rows.active now).list.filter (·.isActive now) = (rows.active now).list := by
    rw [List.filter_eq_self]
    intro row listed
    exact (getElem?_active_eq_some.mp (mem_list.mp listed)).2
  rw [unfiltered, ofRows_list]

theorem foldl_written_counts (list : List Row) (written : Written) :
    written.inserted ≤ (list.foldl Written.put written).inserted ∧
      written.updated ≤ (list.foldl Written.put written).updated := by
  induction list generalizing written with
  | nil => exact ⟨Nat.le_refl _, Nat.le_refl _⟩
  | cons row rest ih =>
      have later := ih (written.put row)
      have first : written.inserted ≤ (written.put row).inserted ∧ written.updated ≤ (written.put row).updated := by
        unfold Written.put
        split
        · exact ⟨Nat.le_succ _, Nat.le_refl _⟩
        · refine ⟨Nat.le_refl _, ?_⟩
          dsimp only
          split <;> omega
      exact ⟨Nat.le_trans first.1 later.1, Nat.le_trans first.2 later.2⟩

theorem insert_eq_self {α : Type} {map : Std.ExtTreeMap String α} {key : String} {value : α}
    (stored : map[key]? = some value) : map.insert key value = map := by
  apply Std.ExtTreeMap.ext_getElem?
  intro other
  rw [Std.ExtTreeMap.getElem?_insert]
  split
  · next same =>
      obtain rfl : key = other := by simpa using same
      exact stored.symm
  · rfl

theorem put_eq_self {rows : Rows} {row : Row} (stored : rows[row.key]? = some row.expiry) : rows.put row = rows :=
  insert_eq_self stored

theorem written_put_eq_self {written : Written} {row : Row} (inserted : (written.put row).inserted = written.inserted)
    (updated : (written.put row).updated = written.updated) : written.put row = written := by
  unfold Written.put at inserted updated ⊢
  split
  · next absent =>
      rw [absent] at inserted
      exact absurd inserted (Nat.succ_ne_self _)
  · next expiry stored =>
      rw [stored] at updated
      by_cases same : expiry = row.expiry
      · rw [same] at stored
        simp [same, put_eq_self stored]
      · simp [same] at updated

theorem foldl_written_eq_self (list : List Row) (written : Written)
    (inserted : (list.foldl Written.put written).inserted = written.inserted)
    (updated : (list.foldl Written.put written).updated = written.updated) :
    list.foldl Written.put written = written := by
  induction list generalizing written with
  | nil => rfl
  | cons row rest ih =>
      have later := foldl_written_counts rest (written.put row)
      have first := foldl_written_counts [row] written
      simp only [List.foldl_cons, List.foldl_nil] at first inserted updated
      have unchanged : written.put row = written := written_put_eq_self (by omega) (by omega)
      rw [unchanged] at inserted updated
      rw [List.foldl_cons, unchanged]
      exact ih written inserted updated

theorem upsert_of_not_emits {rows : Rows} {list : List Row} (silent : (rows.upsert list).2.emits = false) :
    (rows.upsert list).1 = rows := by
  -- an outcome that is not announced has counted nothing
  have counts : (list.foldl Written.put ⟨rows, 0, 0⟩).inserted = 0 ∧
      (list.foldl Written.put ⟨rows, 0, 0⟩).updated = 0 := by
    simp only [upsert, Outcome.ofUpsert] at silent
    split at silent
    · simp [Outcome.emits] at silent
    · split at silent
      · simp [Outcome.emits] at silent
      · omega
  have unchanged := foldl_written_eq_self list ⟨rows, 0, 0⟩ counts.1 counts.2
  simp [upsert, unchanged]

theorem getElem?_foldl_erase (keys : List String) (rows : Rows) (key : String) :
    (keys.foldl (fun rows key => rows.erase key) rows)[key]? = if key ∈ keys then none else rows[key]? := by
  induction keys generalizing rows with
  | nil => simp
  | cons first rest ih =>
      rw [List.foldl_cons, ih, Std.ExtTreeMap.getElem?_erase]
      by_cases later : key ∈ rest
      · simp [later]
      · by_cases same : first = key
        · simp [same]
        · simp [later, same, Ne.symm same]

theorem getElem?_remove (rows : Rows) (keys : List String) (key : String) :
    (rows.remove keys).1[key]? = if key ∈ keys then none else rows[key]? :=
  getElem?_foldl_erase keys rows key

theorem remove_of_not_emits {rows : Rows} {keys : List String} (silent : (rows.remove keys).2.emits = false) :
    (rows.remove keys).1 = rows := by
  have absent : ∀ key ∈ keys, key ∉ rows := by
    simp only [remove, Outcome.ofDelete] at silent
    split at silent
    · simp [Outcome.emits] at silent
    · next none_counted =>
        intro key listed
        have counted : keys.countP (fun key => rows.contains key) = 0 := by omega
        simpa using List.countP_eq_zero.mp counted key listed
  apply Std.ExtTreeMap.ext_getElem?
  intro key
  rw [getElem?_remove]
  split
  · next listed => exact (Std.ExtTreeMap.getElem?_eq_none (absent key listed)).symm
  · rfl

end Rows

end PermissionFeed
