import PermissionFeed.Proofs.Shown

namespace PermissionFeed

theorem Table.set_rows_self (table : Table) (player : PlayerId) : table.set player (table.rows player) = table := by
  apply Table.ext_rows
  intro other
  rw [Table.rows_set]
  split
  · next same => rw [same]
  · rfl

def Outcome.isEmitted {ε : Type} : Except ε Outcome → Bool
  | .ok outcome => outcome.emits
  | .error _ => false

namespace Store

def Reports (store : Store) (write : Write) : Prop :=
  Outcome.isEmitted write.1 = false → write.2 = store

structure OnlyPlayer (player : PlayerId) (before after : Store) : Prop where
  groups : after.groups = before.groups
  grants : ∀ other, other ≠ player → after.grants.rows other = before.grants.rows other
  memberships : ∀ other, other ≠ player → after.memberships.rows other = before.memberships.rows other

structure OnlyGroup (group : String) (before after : Store) : Prop where
  grants : after.grants = before.grants
  groups : ∀ other : String, other ≠ group → after.groups[other]? = before.groups[other]?
  memberships : after.memberships = before.memberships ∨ after.memberships = before.memberships.eraseKey group

structure Alike (player : PlayerId) (store view : Store) : Prop where
  groups : store.groups = view.groups
  grants : store.grants.rows player = view.grants.rows player
  memberships : store.memberships.rows player = view.memberships.rows player

theorem Alike.refl (player : PlayerId) (store : Store) : Alike player store store :=
  ⟨rfl, rfl, rfl⟩

theorem Alike.trans {player : PlayerId} {store middle view : Store} (first : Alike player store middle)
    (second : Alike player middle view) : Alike player store view :=
  ⟨first.groups.trans second.groups, first.grants.trans second.grants, first.memberships.trans second.memberships⟩

theorem Alike.snapshot {player : PlayerId} {store view : Store} (alike : Alike player store view) (now : Instant) :
    store.snapshot player now = view.snapshot player now :=
  snapshot_congr alike.groups alike.grants alike.memberships now

theorem OnlyPlayer.alike {player other : PlayerId} {before after : Store} (only : OnlyPlayer player before after)
    (different : other ≠ player) : Alike other after before :=
  ⟨only.groups, only.grants other different, only.memberships other different⟩

theorem OnlyPlayer.refl (player : PlayerId) (store : Store) : OnlyPlayer player store store :=
  ⟨rfl, fun _ _ => rfl, fun _ _ => rfl⟩

theorem OnlyPlayer.of_grants (store : Store) (player : PlayerId) (rows : Rows) :
    OnlyPlayer player store { store with grants := store.grants.set player rows } where
  groups := rfl
  grants other different := by rw [Table.rows_set, if_neg (Ne.symm different)]
  memberships _ _ := rfl

theorem OnlyPlayer.of_memberships (store : Store) (player : PlayerId) (rows : Rows) :
    OnlyPlayer player store { store with memberships := store.memberships.set player rows } where
  groups := rfl
  grants _ _ := rfl
  memberships other different := by rw [Table.rows_set, if_neg (Ne.symm different)]

theorem OnlyPlayer.shown {player other : PlayerId} {before after : Store} (only : OnlyPlayer player before after)
    (different : other ≠ player) (now : Instant) : after.shown other now = before.shown other now := by
  apply shown_congr
  · rw [only.grants other different]
  · rw [only.memberships other different]
  · intro group _
    rw [only.groups]

theorem addGrants_reports (store : Store) (player : PlayerId) (grants : List Grant) :
    store.Reports (store.addGrants player grants) := by
  intro silent
  have same := Rows.upsert_of_not_emits silent
  simp only [addGrants, same, Table.set_rows_self]

theorem addGrants_only (store : Store) (player : PlayerId) (grants : List Grant) :
    OnlyPlayer player store (store.addGrants player grants).2 :=
  .of_grants store player _

theorem removeGrants_reports (store : Store) (player : PlayerId) (permissions : List String) :
    store.Reports (store.removeGrants player permissions) := by
  intro silent
  have same := Rows.remove_of_not_emits silent
  simp only [removeGrants, same, Table.set_rows_self]

theorem removeGrants_only (store : Store) (player : PlayerId) (permissions : List String) :
    OnlyPlayer player store (store.removeGrants player permissions).2 :=
  .of_grants store player _

theorem addMemberships_reports (store : Store) (player : PlayerId) (memberships : List Membership) :
    store.Reports (store.addMemberships player memberships) := by
  intro silent
  unfold addMemberships at silent ⊢
  split at silent
  · rfl
  · have same := Rows.upsert_of_not_emits silent
    simp only [same, Table.set_rows_self]

theorem addMemberships_only (store : Store) (player : PlayerId) (memberships : List Membership) :
    OnlyPlayer player store (store.addMemberships player memberships).2 := by
  unfold addMemberships
  split
  · exact .refl player store
  · exact .of_memberships store player _

theorem removeMemberships_reports (store : Store) (player : PlayerId) (groups : List String) :
    store.Reports (store.removeMemberships player groups) := by
  intro silent
  have same := Rows.remove_of_not_emits silent
  simp only [removeMemberships, same, Table.set_rows_self]

theorem removeMemberships_only (store : Store) (player : PlayerId) (groups : List String) :
    OnlyPlayer player store (store.removeMemberships player groups).2 :=
  .of_memberships store player _

theorem OnlyGroup.refl (group : String) (store : Store) : OnlyGroup group store store :=
  ⟨rfl, fun _ _ => rfl, Or.inl rfl⟩

theorem OnlyGroup.of_insert (store : Store) (group : String) (rows : Rows) :
    OnlyGroup group store { store with groups := store.groups.insert group rows } where
  grants := rfl
  groups other different := by simp [Std.ExtTreeMap.getElem?_insert, Ne.symm different]
  memberships := Or.inl rfl

theorem OnlyGroup.active_memberships {group : String} {before after : Store} (only : OnlyGroup group before after)
    {player : PlayerId} {now : Instant} (outside : player ∉ before.activeMembers group now) :
    (after.memberships.rows player).active now = (before.memberships.rows player).active now := by
  rcases only.memberships with same | erased
  · rw [same]
  · rw [erased, Table.rows_eraseKey]
    rw [mem_activeMembers] at outside
    apply Std.ExtTreeMap.ext_getElem?
    intro key
    rw [Rows.getElem?_active, Std.ExtTreeMap.getElem?_erase]
    split
    · next same =>
        obtain rfl : group = key := by simpa using same
        exact (Std.ExtTreeMap.getElem?_eq_none outside).symm
    · rw [Rows.getElem?_active]

theorem OnlyGroup.shown {group : String} {before after : Store} (only : OnlyGroup group before after)
    {player : PlayerId} {now : Instant} (outside : player ∉ before.activeMembers group now) :
    after.shown player now = before.shown player now := by
  apply shown_congr
  · rw [only.grants]
  · exact only.active_memberships outside
  · intro other member
    have different : other ≠ group := by
      rintro rfl
      exact outside (mem_activeMembers.mpr member)
    rw [only.groups other different]

theorem addGroupGrants_reports (store : Store) (group : String) (grants : List Grant) :
    store.Reports (store.addGroupGrants group grants) := by
  intro silent
  unfold addGroupGrants at silent ⊢
  split at silent
  · rfl
  · next rows found =>
      have same := Rows.upsert_of_not_emits silent
      simp only [same, Rows.insert_eq_self found]

theorem addGroupGrants_only (store : Store) (group : String) (grants : List Grant) :
    OnlyGroup group store (store.addGroupGrants group grants).2 := by
  unfold addGroupGrants
  split
  · exact .refl group store
  · exact .of_insert store group _

theorem addGroupGrants_memberships (store : Store) (group : String) (grants : List Grant) :
    (store.addGroupGrants group grants).2.memberships = store.memberships := by
  unfold addGroupGrants
  split <;> rfl

theorem removeGroupGrants_reports (store : Store) (group : String) (permissions : List String) :
    store.Reports (store.removeGroupGrants group permissions) := by
  intro silent
  unfold removeGroupGrants at silent ⊢
  split at silent
  · rfl
  · next rows found =>
      have same := Rows.remove_of_not_emits silent
      simp only [same, Rows.insert_eq_self found]

theorem removeGroupGrants_only (store : Store) (group : String) (permissions : List String) :
    OnlyGroup group store (store.removeGroupGrants group permissions).2 := by
  unfold removeGroupGrants
  split
  · exact .refl group store
  · exact .of_insert store group _

theorem removeGroupGrants_memberships (store : Store) (group : String) (permissions : List String) :
    (store.removeGroupGrants group permissions).2.memberships = store.memberships := by
  unfold removeGroupGrants
  split <;> rfl

theorem deleteGroup_reports (store : Store) (name : String) : store.Reports (store.deleteGroup name) := by
  intro silent
  by_cases known : store.groups.contains name
  · simp [deleteGroup, known, Outcome.isEmitted, Outcome.emits] at silent
  · rw [deleteGroup, if_neg known]

theorem deleteGroup_only (store : Store) (name : String) : OnlyGroup name store (store.deleteGroup name).2 := by
  unfold deleteGroup
  split
  · exact
      { grants := rfl
        groups := fun other different => by simp [Std.ExtTreeMap.getElem?_erase, Ne.symm different]
        memberships := Or.inr rfl }
  · exact .refl name store

theorem createGroup_shown (store : Store) (name : String) (player : PlayerId) (now : Instant) :
    (store.createGroup name).2.shown player now = store.shown player now := by
  unfold createGroup
  split
  · rfl
  · next unknown =>
      apply shown_congr
      · rfl
      · rfl
      intro group _
      have absent : store.groups[name]? = none := by
        apply Std.ExtTreeMap.getElem?_eq_none
        simpa using unknown
      rw [Std.ExtTreeMap.getElem?_insert]
      split
      · next same =>
          obtain rfl : name = group := by simpa using same
          rw [absent]
          rfl
      · rfl

end Store

end PermissionFeed
