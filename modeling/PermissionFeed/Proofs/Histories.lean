import PermissionFeed.Proofs.Shown

namespace PermissionFeed

namespace Rows

theorem written_put_rows (written : Written) (row : Row) : (written.put row).rows = written.rows.put row := by
  unfold Written.put
  split <;> rfl

theorem upsert_rows (rows : Rows) (list : List Row) : (rows.upsert list).1 = list.foldl put rows := by
  have written (written : Written) : (list.foldl Written.put written).rows = list.foldl put written.rows := by
    induction list generalizing written with
    | nil => rfl
    | cons row list ih => rw [List.foldl_cons, ih, written_put_rows, List.foldl_cons]
  exact written ⟨rows, 0, 0⟩

theorem nodup_keys_list (rows : Rows) : (rows.list.map Row.key).Nodup := by
  have keys : rows.list.map Row.key = rows.keys := by
    rw [← Std.ExtTreeMap.map_fst_toList_eq_keys, list, List.map_map]
    rfl
  rw [keys]
  exact Std.ExtTreeMap.nodup_keys

theorem mem_list_upsert {rows : Rows} {added : List Row} {row : Row} (stored : row ∈ (rows.upsert added).1.list) :
    row ∈ rows.list ∨ row ∈ added := by
  rw [mem_list, upsert_rows, getElem?_foldl_put] at stored
  cases found : added.reverse.find? fun other => decide (other.key = row.key) with
  | none =>
      rw [found] at stored
      exact Or.inl (mem_list.mpr stored)
  | some other =>
      rw [found] at stored
      have named : other.key = row.key := by simpa using List.find?_some found
      obtain rfl : other = row := by
        cases other
        cases row
        simp_all
      exact Or.inr (List.mem_reverse.mp (List.mem_of_find?_eq_some found))

theorem mem_list_remove {rows : Rows} {keys : List String} {row : Row} (stored : row ∈ (rows.remove keys).1.list) :
    row ∈ rows.list := by
  rw [mem_list, getElem?_remove] at stored
  split at stored
  · contradiction
  · exact mem_list.mpr stored

theorem mem_list_erase {rows : Rows} {key : String} {row : Row} :
    row ∈ Rows.list (rows.erase key) ↔ row ∈ rows.list ∧ row.key ≠ key := by
  rw [mem_list, mem_list, Std.ExtTreeMap.getElem?_erase]
  by_cases same : key = row.key
  · simp [same]
  · simp [same, Ne.symm same]

end Rows

inductive Owner where
  | grants (player : PlayerId)
  | memberships (player : PlayerId)
  | group (name : String)
  deriving DecidableEq

def Owner.ConcernsGroup (name : String) (row : Row) : Owner → Prop
  | grants _ => False
  | memberships _ => row.key = name
  | group other => other = name

def StoreCall.adds : StoreCall → Owner → List Row
  | addGrants player rows, .grants other => if player = other then rows else []
  | addMemberships player rows, .memberships other => if player = other then rows else []
  | addGroupGrants name rows, .group other => if name = other then rows else []
  | _, _ => []

namespace Store

def rowsOf (store : Store) : Owner → Rows
  | .grants player => store.grants.rows player
  | .memberships player => store.memberships.rows player
  | .group name => store.groups[name]?.getD ∅

def Holds (store : Store) (owner : Owner) (row : Row) : Prop :=
  row ∈ (store.rowsOf owner).list

def afterAll (store : Store) (calls : List StoreCall) : Store :=
  calls.foldl (fun store call => (call.run store).2) store

def Added (store : Store) (calls : List StoreCall) (owner : Owner) (row : Row) : Prop :=
  ∃ earlier call later, calls = earlier ++ call :: later ∧ (call.run (store.afterAll earlier)).1.isOk ∧
    row ∈ call.adds owner

def Linked (store : Store) : Prop :=
  ∀ player row, store.Holds (.memberships player) row → row.key ∈ store.groups

variable {store : Store} {owner : Owner} {row : Row}

theorem rowsOf_setGrants (store : Store) (player : PlayerId) (rows : Rows) (owner : Owner) :
    ({ store with grants := store.grants.set player rows } : Store).rowsOf owner =
      if owner = .grants player then rows else store.rowsOf owner := by
  cases owner with
  | grants other =>
      simp only [rowsOf, Table.rows_set, Owner.grants.injEq]
      by_cases same : player = other
      · simp [same]
      · simp [same, Ne.symm same]
  | memberships other => rfl
  | group name => rfl

theorem rowsOf_setMemberships (store : Store) (player : PlayerId) (rows : Rows) (owner : Owner) :
    ({ store with memberships := store.memberships.set player rows } : Store).rowsOf owner =
      if owner = .memberships player then rows else store.rowsOf owner := by
  cases owner with
  | grants other => rfl
  | memberships other =>
      simp only [rowsOf, Table.rows_set, Owner.memberships.injEq]
      by_cases same : player = other
      · simp [same]
      · simp [same, Ne.symm same]
  | group name => rfl

theorem rowsOf_insertGroup (store : Store) (name : String) (rows : Rows) (owner : Owner) :
    ({ store with groups := store.groups.insert name rows } : Store).rowsOf owner =
      if owner = .group name then rows else store.rowsOf owner := by
  cases owner with
  | grants other => rfl
  | memberships other => rfl
  | group other =>
      simp only [rowsOf, Std.ExtTreeMap.getElem?_insert, Std.LawfulEqCmp.compare_eq_iff_eq, Owner.group.injEq]
      by_cases same : name = other
      · simp [same]
      · simp [same, Ne.symm same]

theorem rowsOf_of_found {name : String} {kept : Rows} (found : store.groups[name]? = some kept) :
    store.rowsOf (.group name) = kept := by
  rw [rowsOf, found]
  rfl

theorem not_holds_of_unknown {name : String} (unknown : name ∉ store.groups) : ¬ store.Holds (.group name) row := by
  rw [Holds, rowsOf, Std.ExtTreeMap.getElem?_eq_none unknown, Rows.mem_list]
  simp

theorem deleteGroup_of_unknown {name : String} (unknown : name ∉ store.groups) :
    store.deleteGroup name = (.ok .noChange, store) := by
  rw [deleteGroup, if_neg (mt Std.ExtTreeMap.contains_iff_mem.mp unknown)]

theorem holds_deleteGroup_of_known {name : String} (known : name ∈ store.groups) :
    (store.deleteGroup name).2.Holds owner row ↔ store.Holds owner row ∧ ¬ owner.ConcernsGroup name row := by
  rw [deleteGroup, if_pos (Std.ExtTreeMap.contains_iff_mem.mpr known)]
  cases owner with
  | grants player => exact (and_iff_left not_false).symm
  | memberships player =>
      rw [Holds, rowsOf, Table.rows_eraseKey]
      exact Rows.mem_list_erase
  | group other =>
      simp only [Holds, rowsOf, Rows.mem_list, Std.ExtTreeMap.getElem?_erase, Owner.ConcernsGroup]
      by_cases same : name = other
      · simp [same]
      · simp [same, Ne.symm same]

theorem Linked.not_concerns (linked : store.Linked) {name : String} (unknown : name ∉ store.groups)
    (held : store.Holds owner row) : ¬ owner.ConcernsGroup name row := by
  intro concerns
  cases owner with
  | grants player => exact concerns
  | memberships player =>
      obtain rfl : row.key = name := concerns
      exact unknown (linked player row held)
  | group other =>
      obtain rfl : other = name := concerns
      exact not_holds_of_unknown unknown held

theorem Linked.not_holds_deleteGroup (linked : store.Linked) {name : String} (concerns : owner.ConcernsGroup name row) :
    ¬ (store.deleteGroup name).2.Holds owner row := by
  intro held
  by_cases known : name ∈ store.groups
  · exact ((holds_deleteGroup_of_known known).mp held).2 concerns
  · rw [deleteGroup_of_unknown known] at held
    exact linked.not_concerns known held concerns

theorem holds_of_rowsOf {after : Store} {own : Owner} {rows : Rows}
    (changed : after.rowsOf owner = if owner = own then rows else store.rowsOf owner) (held : after.Holds owner row) :
    store.Holds owner row ∨ owner = own ∧ row ∈ rows.list := by
  rw [Holds, changed] at held
  split at held
  · next same => exact Or.inr ⟨same, held⟩
  · exact Or.inl held

theorem holds_of_upsert {after : Store} {own : Owner} {rows : List Row}
    (changed : after.rowsOf owner = if owner = own then ((store.rowsOf own).upsert rows).1 else store.rowsOf owner)
    (held : after.Holds owner row) : store.Holds owner row ∨ owner = own ∧ row ∈ rows := by
  rcases holds_of_rowsOf changed held with before | ⟨rfl, listed⟩
  · exact Or.inl before
  · exact (Rows.mem_list_upsert listed).imp_right fun added => ⟨rfl, added⟩

theorem holds_of_remove {after : Store} {own : Owner} {names : List String}
    (changed : after.rowsOf owner = if owner = own then ((store.rowsOf own).remove names).1 else store.rowsOf owner)
    (held : after.Holds owner row) : store.Holds owner row := by
  rcases holds_of_rowsOf changed held with before | ⟨rfl, listed⟩
  · exact before
  · exact Rows.mem_list_remove listed

theorem holds_run {call : StoreCall} (held : (call.run store).2.Holds owner row) :
    store.Holds owner row ∨ (call.run store).1.isOk ∧ row ∈ call.adds owner := by
  cases call with
  | addGrants player rows =>
      rcases holds_of_upsert (rowsOf_setGrants store player _ owner) held with before | ⟨rfl, added⟩
      · exact Or.inl before
      · exact Or.inr ⟨rfl, by rwa [StoreCall.adds, if_pos rfl]⟩
  | removeGrants player names => exact Or.inl (holds_of_remove (rowsOf_setGrants store player _ owner) held)
  | addMemberships player rows =>
      simp only [StoreCall.run, addMemberships] at held ⊢
      split at held
      · exact Or.inl held
      · rcases holds_of_upsert (rowsOf_setMemberships store player _ owner) held with before | ⟨rfl, added⟩
        · exact Or.inl before
        · exact Or.inr ⟨rfl, by rwa [StoreCall.adds, if_pos rfl]⟩
  | removeMemberships player names => exact Or.inl (holds_of_remove (rowsOf_setMemberships store player _ owner) held)
  | addGroupGrants name rows =>
      simp only [StoreCall.run, addGroupGrants] at held ⊢
      split at held
      · exact Or.inl held
      · next kept found =>
          obtain rfl := rowsOf_of_found found
          rcases holds_of_upsert (rowsOf_insertGroup store name _ owner) held with before | ⟨rfl, added⟩
          · exact Or.inl before
          · exact Or.inr ⟨rfl, by rwa [StoreCall.adds, if_pos rfl]⟩
  | removeGroupGrants name names =>
      simp only [StoreCall.run, removeGroupGrants] at held
      split at held
      · exact Or.inl held
      · next kept found =>
          obtain rfl := rowsOf_of_found found
          exact Or.inl (holds_of_remove (rowsOf_insertGroup store name _ owner) held)
  | createGroup name =>
      simp only [StoreCall.run, createGroup] at held
      split at held
      · exact Or.inl held
      · rcases holds_of_rowsOf (rowsOf_insertGroup store name _ owner) held with before | ⟨rfl, listed⟩
        · exact Or.inl before
        · simp [Rows.mem_list] at listed
  | deleteGroup name =>
      by_cases known : name ∈ store.groups
      · exact Or.inl ((holds_deleteGroup_of_known known).mp held).1
      · rw [StoreCall.run, deleteGroup_of_unknown known] at held
        exact Or.inl held
  | _ => exact Or.inl held

theorem mem_groups_run {call : StoreCall} {name : String} (known : name ∈ store.groups)
    (kept : call ≠ .deleteGroup name) : name ∈ (call.run store).2.groups := by
  cases call with
  | addMemberships player rows =>
      simp only [StoreCall.run, addMemberships]
      split <;> exact known
  | addGroupGrants group rows =>
      simp only [StoreCall.run, addGroupGrants]
      split
      · exact known
      · exact Std.ExtTreeMap.mem_insert.mpr (Or.inr known)
  | removeGroupGrants group names =>
      simp only [StoreCall.run, removeGroupGrants]
      split
      · exact known
      · exact Std.ExtTreeMap.mem_insert.mpr (Or.inr known)
  | createGroup group =>
      simp only [StoreCall.run, createGroup]
      split
      · exact known
      · exact Std.ExtTreeMap.mem_insert.mpr (Or.inr known)
  | deleteGroup group =>
      have different : group ≠ name := fun same => kept (congrArg _ same)
      simp only [StoreCall.run, deleteGroup]
      split
      · exact Std.ExtTreeMap.mem_erase.mpr ⟨by simpa using different, known⟩
      · exact known
  | _ => exact known

theorem mem_groups_of_insert {group name : String} {kept rows : Rows} (found : store.groups[group]? = some kept)
    (known : name ∈ store.groups.insert group rows) : name ∈ store.groups := by
  rcases Std.ExtTreeMap.mem_insert.mp known with same | before
  · obtain rfl : group = name := by simpa using same
    exact Std.ExtTreeMap.mem_iff_isSome_getElem?.mpr (by rw [found]; rfl)
  · exact before

theorem mem_groups_of_run {call : StoreCall} {name : String} (known : name ∈ (call.run store).2.groups) :
    name ∈ store.groups ∨ call = .createGroup name := by
  cases call with
  | addMemberships player rows =>
      simp only [StoreCall.run, addMemberships] at known
      split at known <;> exact Or.inl known
  | addGroupGrants group rows =>
      simp only [StoreCall.run, addGroupGrants] at known
      split at known
      · exact Or.inl known
      · next found => exact Or.inl (mem_groups_of_insert found known)
  | removeGroupGrants group names =>
      simp only [StoreCall.run, removeGroupGrants] at known
      split at known
      · exact Or.inl known
      · next found => exact Or.inl (mem_groups_of_insert found known)
  | createGroup group =>
      simp only [StoreCall.run, createGroup] at known
      split at known
      · exact Or.inl known
      · rcases Std.ExtTreeMap.mem_insert.mp known with same | before
        · obtain rfl : group = name := by simpa using same
          exact Or.inr rfl
        · exact Or.inl before
  | deleteGroup group =>
      simp only [StoreCall.run, deleteGroup] at known
      split at known
      · exact Or.inl (Std.ExtTreeMap.mem_of_mem_erase known)
      · exact Or.inl known
  | _ => exact Or.inl known

theorem mem_groups_of_added {call : StoreCall} {player : PlayerId} (succeeded : (call.run store).1.isOk)
    (added : row ∈ call.adds (.memberships player)) : row.key ∈ store.groups := by
  cases call with
  | addMemberships other rows =>
      simp only [StoreCall.adds] at added
      split at added
      · simp only [StoreCall.run, addMemberships] at succeeded
        split at succeeded
        · contradiction
        · next missing => simpa using List.find?_eq_none.mp missing row added
      · simp at added
  | _ => simp [StoreCall.adds] at added

theorem Linked.run (linked : store.Linked) (call : StoreCall) : (call.run store).2.Linked := by
  intro player row held
  by_cases deletes : call = .deleteGroup row.key
  · subst deletes
    exact absurd held (linked.not_holds_deleteGroup rfl)
  · apply mem_groups_run _ deletes
    rcases holds_run held with before | ⟨succeeded, added⟩
    · exact linked player row before
    · exact mem_groups_of_added succeeded added

theorem afterAll_append (store : Store) (earlier later : List StoreCall) :
    store.afterAll (earlier ++ later) = (store.afterAll earlier).afterAll later :=
  List.foldl_append

theorem linked_empty : Linked empty := by
  intro player row held
  simp [Holds, rowsOf, empty, Table.rows, Table.empty, Rows.mem_list] at held

theorem Linked.afterAll (linked : store.Linked) (calls : List StoreCall) : (store.afterAll calls).Linked := by
  induction calls generalizing store with
  | nil => exact linked
  | cons call calls ih => exact ih (linked.run call)

theorem not_holds_empty : ¬ empty.Holds owner row := by
  cases owner <;> simp [Holds, rowsOf, empty, Table.rows, Table.empty, Rows.mem_list]

theorem Added.cons {call : StoreCall} {calls : List StoreCall} (added : (call.run store).2.Added calls owner row) :
    store.Added (call :: calls) owner row := by
  obtain ⟨earlier, other, later, rfl, succeeded, listed⟩ := added
  exact ⟨call :: earlier, other, later, rfl, succeeded, listed⟩

theorem holds_afterAll {calls : List StoreCall} (held : (store.afterAll calls).Holds owner row) :
    store.Holds owner row ∨ store.Added calls owner row := by
  induction calls generalizing store with
  | nil => exact Or.inl held
  | cons call calls ih =>
      rcases ih held with between | added
      · rcases holds_run between with before | ⟨succeeded, listed⟩
        · exact Or.inl before
        · exact Or.inr ⟨[], call, calls, rfl, succeeded, listed⟩
      · exact Or.inr added.cons

theorem created_of_mem_groups {calls : List StoreCall} {name : String} (known : name ∈ (store.afterAll calls).groups) :
    name ∈ store.groups ∨ .createGroup name ∈ calls := by
  induction calls generalizing store with
  | nil => exact Or.inl known
  | cons call calls ih =>
      rcases ih known with between | created
      · rcases mem_groups_of_run between with before | rfl
        · exact Or.inl before
        · exact Or.inr List.mem_cons_self
      · exact Or.inr (List.mem_cons_of_mem call created)

theorem Linked.added_since (linked : store.Linked) {name : String} {later : List StoreCall}
    (concerns : owner.ConcernsGroup name row) (held : (store.afterAll (.deleteGroup name :: later)).Holds owner row) :
    (store.deleteGroup name).2.Added later owner row := by
  have after : ((store.deleteGroup name).2.afterAll later).Holds owner row := held
  rcases holds_afterAll after with left | added
  · exact absurd left (linked.not_holds_deleteGroup concerns)
  · exact added

theorem shows_nothing {name : String} (bare : ∀ owner row, owner.ConcernsGroup name row → ¬ store.Holds owner row)
    (now : Instant) : (∀ found ∈ store.group name now, found.grants = []) ∧ store.activeMembers name now = ∅ := by
  constructor
  · intro found shown
    obtain ⟨rows, kept, rfl⟩ := Option.map_eq_some_iff.mp shown
    rw [List.eq_nil_iff_forall_not_mem]
    intro row listed
    have stored := (Rows.getElem?_active_eq_some.mp (Rows.mem_list.mp listed)).1
    apply bare (.group name) row rfl
    rwa [Holds, rowsOf, kept, Rows.mem_list]
  · apply Std.ExtTreeSet.ext_mem
    intro player
    rw [mem_activeMembers, Rows.mem_active]
    refine iff_of_false ?_ Std.ExtTreeSet.not_mem_empty
    rintro ⟨expiry, stored, _⟩
    exact bare (.memberships player) ⟨name, expiry⟩ rfl (Rows.mem_list.mpr stored)

end Store

end PermissionFeed
