import Mathlib.Data.List.Nodup
import PermissionFeed.Proofs.Histories

namespace PermissionFeed

theorem Row.last?_of_mem {rows : List Row} (distinct : (rows.map key).Nodup) {row : Row} (listed : row ∈ rows) :
    last? rows row.key = some row.expiry := by
  cases found : last? rows row.key with
  | none => exact absurd rfl (last?_eq_none_iff.mp found row listed)
  | some expiry =>
      have same : (⟨row.key, expiry⟩ : Row) = row :=
        List.inj_on_of_nodup_map distinct (mem_of_last? found) listed rfl
      rw [← same]

namespace Outcome

theorem ofUpsert_eq_created_iff {additions changes : Nat} : ofUpsert additions changes = created ↔ additions ≠ 0 := by
  grind [ofUpsert]

theorem ofUpsert_eq_noChange_iff {additions changes : Nat} :
    ofUpsert additions changes = noChange ↔ additions = 0 ∧ changes = 0 := by
  grind [ofUpsert]

theorem ofUpsert_eq_updated_iff {additions changes : Nat} :
    ofUpsert additions changes = updated ↔
      ofUpsert additions changes ≠ created ∧ ofUpsert additions changes ≠ noChange := by
  grind [ofUpsert]

theorem ofDelete_eq_deleted_iff {removals : Nat} : ofDelete removals = deleted ↔ 0 < removals := by
  grind [ofDelete]

theorem ofDelete_eq_noChange_iff {removals : Nat} : ofDelete removals = noChange ↔ ¬ 0 < removals := by
  grind [ofDelete]

end Outcome

namespace Rows

theorem mem_put {rows : Rows} {row : Row} {key : String} : key ∈ rows.put row ↔ row.key = key ∨ key ∈ rows := by
  rw [put, Std.ExtTreeMap.mem_insert]
  simp

theorem written_put_of_stored {written : Written} {row : Row} (stored : written.rows[row.key]? = some row.expiry) :
    written.put row = written := by
  unfold Written.put
  simp [stored, put_eq_self stored]

theorem inserted_foldl_iff (list : List Row) (written : Written) :
    (list.foldl Written.put written).inserted = written.inserted ↔ ∀ row ∈ list, row.key ∈ written.rows := by
  induction list generalizing written with
  | nil => simp
  | cons row rest ih =>
      rw [List.foldl_cons, List.forall_mem_cons]
      by_cases known : row.key ∈ written.rows
      · -- the row is not counted, and the keys stay the same
        have uncounted : (written.put row).inserted = written.inserted := by
          obtain ⟨expiry, stored⟩ := mem_iff_getElem?.mp known
          simp [Written.put, stored]
        have sameKeys (key : String) : key ∈ (written.put row).rows ↔ key ∈ written.rows := by
          rw [written_put_rows, mem_put, or_iff_right_of_imp]
          rintro rfl
          exact known
        rw [← uncounted, ih, and_iff_right known]
        simp only [sameKeys]
      · have counted : (written.put row).inserted = written.inserted + 1 := by
          simp [Written.put, Std.ExtTreeMap.getElem?_eq_none known]
        have later := (foldl_written_counts rest (written.put row)).1
        exact iff_of_false (by omega) fun all => known all.1

theorem counts_foldl_iff (list : List Row) (written : Written) :
    (list.foldl Written.put written).inserted = written.inserted ∧
        (list.foldl Written.put written).updated = written.updated ↔
      ∀ row ∈ list, written.rows[row.key]? = some row.expiry := by
  induction list generalizing written with
  | nil => simp
  | cons row rest ih =>
      rw [List.foldl_cons, List.forall_mem_cons]
      constructor
      · rintro ⟨inserted, updated⟩
        have later := foldl_written_counts rest (written.put row)
        have first := foldl_written_counts [row] written
        simp only [List.foldl_cons, List.foldl_nil] at first
        have unchanged : written.put row = written := written_put_eq_self (by omega) (by omega)
        have stored : written.rows[row.key]? = some row.expiry := by
          rw [← unchanged, written_put_rows, getElem?_put, if_pos rfl]
        rw [unchanged] at inserted updated
        exact ⟨stored, (ih written).mp ⟨inserted, updated⟩⟩
      · rintro ⟨stored, others⟩
        rw [written_put_of_stored stored]
        exact (ih written).mpr others

theorem upsert_eq_created_iff {rows : Rows} {list : List Row} :
    (rows.upsert list).2 = .created ↔ ∃ row ∈ list, row.key ∉ rows := by
  rw [upsert, Outcome.ofUpsert_eq_created_iff, ne_eq, inserted_foldl_iff list ⟨rows, 0, 0⟩]
  simp

theorem upsert_eq_noChange_iff {rows : Rows} {list : List Row} :
    (rows.upsert list).2 = .noChange ↔ ∀ row ∈ list, rows[row.key]? = some row.expiry := by
  rw [upsert, Outcome.ofUpsert_eq_noChange_iff]
  exact counts_foldl_iff list ⟨rows, 0, 0⟩

theorem getElem?_upsert (rows : Rows) (list : List Row) (key : String) :
    (rows.upsert list).1[key]? = (Row.last? list key).or rows[key]? := by
  rw [upsert_rows, getElem?_foldl_put_last]

theorem upsert_eq_self_iff {rows : Rows} {list : List Row} (distinct : (list.map Row.key).Nodup) :
    (rows.upsert list).1 = rows ↔ ∀ row ∈ list, rows[row.key]? = some row.expiry := by
  constructor
  · intro same row listed
    rw [← same, getElem?_upsert, Row.last?_of_mem distinct listed]
    rfl
  · intro stored
    have unchanged := upsert_eq_noChange_iff.mpr stored
    exact upsert_of_not_emits (by rw [unchanged]; rfl)

theorem remove_eq_deleted_iff {rows : Rows} {keys : List String} :
    (rows.remove keys).2 = .deleted ↔ ∃ key ∈ keys, key ∈ rows := by
  rw [remove, Outcome.ofDelete_eq_deleted_iff, List.countP_pos_iff]
  simp

theorem remove_eq_noChange_iff {rows : Rows} {keys : List String} :
    (rows.remove keys).2 = .noChange ↔ ∀ key ∈ keys, key ∉ rows := by
  rw [remove, Outcome.ofDelete_eq_noChange_iff, List.countP_pos_iff]
  simp

theorem remove_eq_self_iff {rows : Rows} {keys : List String} :
    (rows.remove keys).1 = rows ↔ ∀ key ∈ keys, key ∉ rows := by
  constructor
  · intro same key listed stored
    have missing := getElem?_remove rows keys key
    rw [same, if_pos listed] at missing
    obtain ⟨expiry, found⟩ := mem_iff_getElem?.mp stored
    simp [missing] at found
  · intro absent
    have unchanged := remove_eq_noChange_iff.mpr absent
    exact remove_of_not_emits (by rw [unchanged]; rfl)

end Rows

namespace Store

def add (store : Store) : Owner → List Row → Write
  | .grants player, rows => store.addGrants player rows
  | .memberships player, rows => store.addMemberships player rows
  | .group name, rows => store.addGroupGrants name rows

def remove (store : Store) : Owner → List String → Write
  | .grants player, names => store.removeGrants player names
  | .memberships player, names => store.removeMemberships player names
  | .group name, names => store.removeGroupGrants name names

def Admits (store : Store) (rows : List Row) : Owner → Prop
  | .grants _ => True
  | .memberships _ => ∀ row ∈ rows, row.key ∈ store.groups
  | .group name => name ∈ store.groups

structure Replaces (own : Owner) (rows : Rows) (before after : Store) : Prop where
  replaced : after.rowsOf own = rows
  others : ∀ other, other ≠ own → after.rowsOf other = before.rowsOf other
  groups : ∀ name, name ∈ after.groups ↔ name ∈ before.groups

theorem ext_rowsOf {left right : Store} (same : ∀ owner, left.rowsOf owner = right.rowsOf owner)
    (sameGroups : ∀ name, name ∈ left.groups ↔ name ∈ right.groups) : left = right := by
  obtain ⟨leftGroups, leftGrants, leftMemberships⟩ := left
  obtain ⟨rightGroups, rightGrants, rightMemberships⟩ := right
  congr
  · apply Std.ExtTreeMap.ext_getElem?
    intro name
    have listed := sameGroups name
    have rows := same (.group name)
    simp only [rowsOf, Std.ExtTreeMap.mem_iff_isSome_getElem?] at listed rows
    cases found : leftGroups[name]? <;> cases foundToo : rightGroups[name]? <;> simp_all
  · exact Table.ext_rows fun player => same (.grants player)
  · exact Table.ext_rows fun player => same (.memberships player)

theorem Replaces.of_rowsOf {own : Owner} {rows : Rows} {before after : Store}
    (changed : ∀ owner, after.rowsOf owner = if owner = own then rows else before.rowsOf owner)
    (groups : ∀ name, name ∈ after.groups ↔ name ∈ before.groups) : Replaces own rows before after where
  replaced := by rw [changed, if_pos rfl]
  others other different := by rw [changed, if_neg different]
  groups := groups

theorem Replaces.eq_iff {own : Owner} {rows : Rows} {before after : Store} (replaces : Replaces own rows before after) :
    after = before ↔ rows = before.rowsOf own := by
  constructor
  · rintro rfl
    exact replaces.replaced.symm
  · intro kept
    apply ext_rowsOf _ replaces.groups
    intro owner
    by_cases same : owner = own
    · rw [same, replaces.replaced, kept]
    · exact replaces.others owner same

theorem replaces_insertGroup {store : Store} {name : String} (known : name ∈ store.groups) (rows : Rows) :
    Replaces (.group name) rows store { store with groups := store.groups.insert name rows } := by
  refine .of_rowsOf (rowsOf_insertGroup store name rows) fun other => ?_
  simp only [Std.ExtTreeMap.mem_insert, Std.LawfulEqCmp.compare_eq_iff_eq]
  exact or_iff_right_of_imp fun same => same ▸ known

theorem add_replaces {store : Store} {own : Owner} {rows : List Row} (admitted : store.Admits rows own) :
    ∃ after, store.add own rows = (.ok ((store.rowsOf own).upsert rows).2, after) ∧
      Replaces own ((store.rowsOf own).upsert rows).1 store after := by
  cases own with
  | grants player => exact ⟨_, rfl, .of_rowsOf (rowsOf_setGrants store player _) fun _ => Iff.rfl⟩
  | memberships player =>
      have found : rows.find? (fun row => !store.groups.contains row.key) = none := by
        simpa [List.find?_eq_none, Admits] using admitted
      refine ⟨_, ?_, .of_rowsOf (rowsOf_setMemberships store player _) fun _ => Iff.rfl⟩
      rw [add, addMemberships, found]
      rfl
  | group name =>
      obtain ⟨kept, found⟩ := Option.isSome_iff_exists.mp (Std.ExtTreeMap.mem_iff_isSome_getElem?.mp admitted)
      refine ⟨_, ?_, replaces_insertGroup admitted _⟩
      rw [add, addGroupGrants, rowsOf_of_found found, found]

theorem add_refused {store : Store} {own : Owner} {rows : List Row} (refused : ¬ store.Admits rows own) :
    ∃ name, name ∉ store.groups ∧ store.add own rows = (.error (.groupNotFound name), store) := by
  cases own with
  | grants player => exact absurd trivial refused
  | memberships player =>
      cases found : rows.find? (fun row => !store.groups.contains row.key) with
      | none => exact absurd (by simpa [List.find?_eq_none, Admits] using found) refused
      | some missing =>
          have unknown : store.groups.contains missing.key = false := by simpa using List.find?_some found
          refine ⟨missing.key, fun known => ?_, ?_⟩
          · exact Bool.eq_false_iff.mp unknown (Std.ExtTreeMap.contains_iff_mem.mpr known)
          · rw [add, addMemberships, found]
  | group name =>
      refine ⟨name, refused, ?_⟩
      rw [add, addGroupGrants, Std.ExtTreeMap.getElem?_eq_none refused]

theorem remove_replaces (store : Store) (own : Owner) (names : List String) :
    ∃ after, store.remove own names = (.ok ((store.rowsOf own).remove names).2, after) ∧
      Replaces own ((store.rowsOf own).remove names).1 store after := by
  cases own with
  | grants player => exact ⟨_, rfl, .of_rowsOf (rowsOf_setGrants store player _) fun _ => Iff.rfl⟩
  | memberships player => exact ⟨_, rfl, .of_rowsOf (rowsOf_setMemberships store player _) fun _ => Iff.rfl⟩
  | group name =>
      cases found : store.groups[name]? with
      | none =>
          have bare : store.rowsOf (.group name) = ∅ := by rw [rowsOf, found]; rfl
          have absent : ∀ key ∈ names, key ∉ store.rowsOf (.group name) := by simp [bare]
          have kept : Replaces (.group name) (store.rowsOf (.group name)) store store :=
            ⟨rfl, fun _ _ => rfl, fun _ => Iff.rfl⟩
          refine ⟨store, ?_, ?_⟩
          · rw [remove, removeGroupGrants, found, Rows.remove_eq_noChange_iff.mpr absent]
          · rwa [Rows.remove_eq_self_iff.mpr absent]
      | some kept =>
          have known : name ∈ store.groups := Std.ExtTreeMap.mem_iff_isSome_getElem?.mpr (by rw [found]; rfl)
          refine ⟨_, ?_, replaces_insertGroup known _⟩
          rw [remove, removeGroupGrants, rowsOf_of_found found, found]

structure Overlays (own : Owner) (added : List Row) (before : Store) (outcome : Outcome) (after : Store) : Prop where
  rows : ∀ key, (after.rowsOf own)[key]? = (Row.last? added key).or (before.rowsOf own)[key]?
  others : ∀ other, other ≠ own → after.rowsOf other = before.rowsOf other
  groups : ∀ name, name ∈ after.groups ↔ name ∈ before.groups
  created : outcome = .created ↔ ∃ row ∈ added, row.key ∉ before.rowsOf own
  noChange : outcome = .noChange ↔ ∀ row ∈ added, (before.rowsOf own)[row.key]? = some row.expiry
  updated : outcome = .updated ↔ outcome ≠ .created ∧ outcome ≠ .noChange
  unchanged : (added.map Row.key).Nodup → (outcome = .noChange ↔ after = before)

structure Strikes (own : Owner) (names : List String) (before : Store) (outcome : Outcome) (after : Store) : Prop where
  rows : ∀ key, (after.rowsOf own)[key]? = if key ∈ names then none else (before.rowsOf own)[key]?
  others : ∀ other, other ≠ own → after.rowsOf other = before.rowsOf other
  groups : ∀ name, name ∈ after.groups ↔ name ∈ before.groups
  deleted : outcome = .deleted ↔ ∃ key ∈ names, key ∈ before.rowsOf own
  noChange : outcome = .noChange ↔ outcome ≠ .deleted
  unchanged : outcome = .noChange ↔ after = before

structure Founds (name : String) (before : Store) (outcome : Outcome) (after : Store) : Prop where
  rows : ∀ owner, after.rowsOf owner = before.rowsOf owner
  groups : ∀ other, other ∈ after.groups ↔ other ∈ before.groups ∨ other = name
  created : outcome = .created ↔ name ∉ before.groups
  noChange : outcome = .noChange ↔ outcome ≠ .created
  unchanged : outcome = .noChange ↔ after = before

structure Dissolves (name : String) (before : Store) (outcome : Outcome) (after : Store) : Prop where
  rows : ∀ owner row, after.Holds owner row ↔ before.Holds owner row ∧ ¬ owner.ConcernsGroup name row
  groups : ∀ other, other ∈ after.groups ↔ other ∈ before.groups ∧ other ≠ name
  deleted : outcome = .deleted ↔ name ∈ before.groups
  noChange : outcome = .noChange ↔ outcome ≠ .deleted
  unchanged : outcome = .noChange ↔ after = before

theorem add_overlays {store : Store} {own : Owner} {added : List Row} (admitted : store.Admits added own) :
    ∃ outcome after, store.add own added = (.ok outcome, after) ∧ Overlays own added store outcome after := by
  obtain ⟨after, written, replaces⟩ := add_replaces admitted
  refine ⟨_, after, written, ?_⟩
  exact
    { rows := fun key => by rw [replaces.replaced, Rows.getElem?_upsert]
      others := replaces.others
      groups := replaces.groups
      created := Rows.upsert_eq_created_iff
      noChange := Rows.upsert_eq_noChange_iff
      updated := Outcome.ofUpsert_eq_updated_iff
      unchanged := fun distinct => by
        rw [Rows.upsert_eq_noChange_iff, replaces.eq_iff, Rows.upsert_eq_self_iff distinct] }

theorem remove_strikes (store : Store) (own : Owner) (names : List String) :
    ∃ outcome after, store.remove own names = (.ok outcome, after) ∧ Strikes own names store outcome after := by
  obtain ⟨after, written, replaces⟩ := store.remove_replaces own names
  refine ⟨_, after, written, ?_⟩
  exact
    { rows := fun key => by rw [replaces.replaced, Rows.getElem?_remove]
      others := replaces.others
      groups := replaces.groups
      deleted := Rows.remove_eq_deleted_iff
      noChange := by
        rw [Rows.remove_eq_noChange_iff, ne_eq, Rows.remove_eq_deleted_iff]
        simp
      unchanged := by rw [Rows.remove_eq_noChange_iff, replaces.eq_iff, Rows.remove_eq_self_iff] }

theorem createGroup_of_known {store : Store} {name : String} (known : name ∈ store.groups) :
    store.createGroup name = (.ok .noChange, store) := by
  rw [createGroup, if_pos (Std.ExtTreeMap.contains_iff_mem.mpr known)]

theorem mem_groups_createGroup (store : Store) (name other : String) :
    other ∈ (store.createGroup name).2.groups ↔ other ∈ store.groups ∨ other = name := by
  by_cases known : name ∈ store.groups
  · rw [createGroup_of_known known]
    exact (or_iff_left_of_imp fun same => same ▸ known).symm
  · rw [createGroup, if_neg (mt Std.ExtTreeMap.contains_iff_mem.mp known), Std.ExtTreeMap.mem_insert,
      Std.LawfulEqCmp.compare_eq_iff_eq, or_comm, eq_comm]

theorem mem_groups_deleteGroup (store : Store) (name other : String) :
    other ∈ (store.deleteGroup name).2.groups ↔ other ∈ store.groups ∧ other ≠ name := by
  by_cases known : name ∈ store.groups
  · rw [deleteGroup, if_pos (Std.ExtTreeMap.contains_iff_mem.mpr known), Std.ExtTreeMap.mem_erase, ne_eq,
      Std.LawfulEqCmp.compare_eq_iff_eq, and_comm, ← ne_eq, ne_comm]
  · rw [deleteGroup_of_unknown known]
    exact (and_iff_left_of_imp fun listed => ne_of_mem_of_not_mem listed known).symm

theorem rowsOf_createGroup (store : Store) (name : String) (owner : Owner) :
    (store.createGroup name).2.rowsOf owner = store.rowsOf owner := by
  by_cases known : name ∈ store.groups
  · rw [createGroup_of_known known]
  · rw [createGroup, if_neg (mt Std.ExtTreeMap.contains_iff_mem.mp known), rowsOf_insertGroup]
    split
    · next same => rw [same, rowsOf, Std.ExtTreeMap.getElem?_eq_none known, Option.getD_none]
    · rfl

theorem createGroup_founds (store : Store) (name : String) :
    ∃ outcome after, store.createGroup name = (.ok outcome, after) ∧ Founds name store outcome after := by
  have rows := store.rowsOf_createGroup name
  have groups := store.mem_groups_createGroup name
  by_cases known : name ∈ store.groups
  · have found := createGroup_of_known known
    rw [found] at rows groups
    exact ⟨_, _, found,
      { rows, groups
        created := by simp [known]
        noChange := by simp
        unchanged := by simp }⟩
  · have found : store.createGroup name = (.ok .created, { store with groups := store.groups.insert name ∅ }) := by
      rw [createGroup, if_neg (mt Std.ExtTreeMap.contains_iff_mem.mp known)]
    rw [found] at rows groups
    refine ⟨_, _, found, { rows, groups, created := by simp [known], noChange := by simp, unchanged := ?_ }⟩
    refine iff_of_false (by simp) fun same => known ?_
    rw [← same]
    exact (groups name).mpr (Or.inr rfl)

theorem deleteGroup_dissolves {store : Store} (linked : store.Linked) (name : String) :
    ∃ outcome after, store.deleteGroup name = (.ok outcome, after) ∧ Dissolves name store outcome after := by
  have groups := store.mem_groups_deleteGroup name
  by_cases known : name ∈ store.groups
  · have reported : (store.deleteGroup name).1 = .ok .deleted := by
      rw [deleteGroup, if_pos (Std.ExtTreeMap.contains_iff_mem.mpr known)]
    refine ⟨_, _, Prod.ext reported rfl,
      { rows := fun _ _ => holds_deleteGroup_of_known known
        groups
        deleted := by simp [known]
        noChange := by simp
        unchanged := ?_ }⟩
    refine iff_of_false (by simp) fun same => ?_
    rw [← same] at known
    exact ((groups name).mp known).2 rfl
  · have found := deleteGroup_of_unknown known
    rw [found] at groups
    exact ⟨_, _, found,
      { rows := fun _ _ => (and_iff_left_of_imp fun held => linked.not_concerns known held).symm
        groups
        deleted := by simp [known]
        noChange := by simp
        unchanged := by simp }⟩

/-- In every state of a store, writes do to the stored rows what their arguments say and nothing else, and report
exactly what they did. Only rows for groups that do not exist are refused, and then nothing is written. -/
theorem writes_exactly (calls : List StoreCall) :
    let store := empty.afterAll calls
    (∀ own added, store.Admits added own →
      ∃ outcome after, store.add own added = (.ok outcome, after) ∧ Overlays own added store outcome after) ∧
    (∀ own added, ¬ store.Admits added own →
      ∃ name, name ∉ store.groups ∧ store.add own added = (.error (.groupNotFound name), store)) ∧
    (∀ own names,
      ∃ outcome after, store.remove own names = (.ok outcome, after) ∧ Strikes own names store outcome after) ∧
    (∀ name, ∃ outcome after, store.createGroup name = (.ok outcome, after) ∧ Founds name store outcome after) ∧
    ∀ name, ∃ outcome after, store.deleteGroup name = (.ok outcome, after) ∧ Dissolves name store outcome after := by
  intro store
  have linked : store.Linked := linked_empty.afterAll calls
  exact ⟨fun _ _ => add_overlays, fun _ _ => add_refused, store.remove_strikes, store.createGroup_founds,
    deleteGroup_dissolves linked⟩

theorem writes_exactly_restored :
    let player : PlayerId := ⟨.replicate 16 1⟩
    let store := empty.afterAll [.createGroup "staff", .addMemberships player [⟨"staff", some 5⟩]]
    let added : List Membership := [⟨"staff", some 9⟩, ⟨"staff", some 5⟩]
    store.Admits added (.memberships player) ∧
      ∃ after, store.add (.memberships player) added = (.ok .updated, after) ∧
        Overlays (.memberships player) added store .updated after ∧
        after.rowsOf (.memberships player) = store.rowsOf (.memberships player) := by
  intro player store added
  have admitted : ∀ row ∈ added, row.key ∈ store.groups := by decide +kernel
  obtain ⟨outcome, after, written, overlays⟩ := (writes_exactly _).1 (.memberships player) added admitted
  have reported : (store.add (.memberships player) added).1.toOption = some .updated := by decide +kernel
  have restored : (store.add (.memberships player) added).2.rowsOf (.memberships player) =
      store.rowsOf (.memberships player) := by
    decide +kernel
  rw [written] at reported restored
  obtain rfl : outcome = .updated := by simpa [Except.toOption] using reported
  exact ⟨admitted, after, written, overlays, restored⟩

end Store

end PermissionFeed
