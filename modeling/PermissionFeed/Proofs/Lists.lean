namespace PermissionFeed

variable {ι φ β : Type}

theorem mapM_eq_some_iff {read? : ι → Option φ} {items : List ι} {fields : List φ} :
    items.mapM read? = some fields ↔ items.map read? = fields.map some := by
  induction items generalizing fields with
  | nil => cases fields <;> simp
  | cons item items ih =>
      rw [List.mapM_cons, List.map_cons]
      constructor
      · intro read
        obtain ⟨field, first, read⟩ := Option.bind_eq_some_iff.mp read
        obtain ⟨others, following, same⟩ := Option.bind_eq_some_iff.mp read
        rw [← Option.some.inj same, first, ih.mp following, List.map_cons]
      · intro same
        cases fields with
        | nil => contradiction
        | cons field fields =>
            obtain ⟨first, following⟩ := List.cons.inj same
            rw [first, ih.mpr following]
            rfl

theorem mapM_ne_none {read? : ι → Option φ} {items : List ι} :
    items.mapM read? ≠ none ↔ ∀ item ∈ items, read? item ≠ none := by
  induction items with
  | nil => simp
  | cons item items ih =>
      rw [List.mapM_cons, List.forall_mem_cons, ← ih]
      cases read? item <;> cases items.mapM read? <;> simp

theorem filterMap_of_mapM {read? : ι → Option φ} {items : List ι} {fields : List φ}
    (read : items.mapM read? = some fields) (select : φ → Option β) :
    fields.filterMap select = items.filterMap fun item => (read? item).bind select := by
  have same := congrArg (List.filterMap (Option.bind · select)) (mapM_eq_some_iff.mp read)
  rw [List.filterMap_map, List.filterMap_map] at same
  exact same.symm

theorem length_le_flatMap {parts : ι → List β} {items : List ι}
    (begun : ∀ index ∈ items, ∃ first others, parts index = first :: others) :
    items.length ≤ (items.flatMap parts).length := by
  induction items with
  | nil => exact Nat.le_refl _
  | cons index items ih =>
      rw [List.forall_mem_cons] at begun
      obtain ⟨first, others, same⟩ := begun.1
      have fewer := ih begun.2
      rw [List.flatMap_cons, same, List.length_append, List.length_cons, List.length_cons]
      omega

theorem length_le_of_mem_flatMap (parts : ι → List β) {items : List ι} {index : ι} (present : index ∈ items) :
    (parts index).length ≤ (items.flatMap parts).length := by
  rw [List.flatMap_def]
  exact (List.sublist_flatten_of_mem (List.mem_map.mpr ⟨index, present, rfl⟩)).length_le

end PermissionFeed
