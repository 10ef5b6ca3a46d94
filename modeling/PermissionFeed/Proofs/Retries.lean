import PermissionFeed.Proofs.Edits

namespace PermissionFeed

namespace Store

variable {store : Store} {own : Owner} {outcome : Outcome}

theorem Replaces.admits {rows : Rows} {after : Store} {added : List Row} (replaces : Replaces own rows store after)
    (admitted : store.Admits added own) : after.Admits added own := by
  cases own with
  | grants player => trivial
  | memberships player => exact fun row listed => (replaces.groups row.key).mpr (admitted row listed)
  | group name => exact (replaces.groups name).mpr admitted

theorem add_of_stored {added : List Row} (distinct : (added.map Row.key).Nodup) (admitted : store.Admits added own)
    (stored : ∀ row ∈ added, (store.rowsOf own)[row.key]? = some row.expiry) :
    store.add own added = (.ok .noChange, store) := by
  obtain ⟨after, written, replaces⟩ := add_replaces admitted
  have same : after = store := replaces.eq_iff.mpr ((Rows.upsert_eq_self_iff distinct).mpr stored)
  rw [written, Rows.upsert_eq_noChange_iff.mpr stored, same]

theorem add_add {added : List Row} (distinct : (added.map Row.key).Nodup)
    (succeeds : (store.add own added).1 = .ok outcome) :
    (store.add own added).2.add own added = (.ok .noChange, (store.add own added).2) := by
  by_cases admitted : store.Admits added own
  · obtain ⟨after, written, replaces⟩ := add_replaces admitted
    rw [written]
    refine add_of_stored distinct (replaces.admits admitted) fun row listed => ?_
    rw [replaces.replaced, Rows.getElem?_upsert, Row.last?_of_mem distinct listed, Option.some_or]
  · obtain ⟨name, -, refused⟩ := add_refused admitted
    rw [refused] at succeeds
    contradiction

theorem remove_of_absent {names : List String} (absent : ∀ key ∈ names, key ∉ store.rowsOf own) :
    store.remove own names = (.ok .noChange, store) := by
  obtain ⟨after, written, replaces⟩ := store.remove_replaces own names
  have same : after = store := replaces.eq_iff.mpr (Rows.remove_eq_self_iff.mpr absent)
  rw [written, Rows.remove_eq_noChange_iff.mpr absent, same]

theorem remove_remove (store : Store) (own : Owner) (names : List String) :
    (store.remove own names).2.remove own names = (.ok .noChange, (store.remove own names).2) := by
  obtain ⟨after, written, replaces⟩ := store.remove_replaces own names
  rw [written]
  refine remove_of_absent fun key listed stored => ?_
  obtain ⟨expiry, found⟩ := Rows.mem_iff_getElem?.mp stored
  rw [replaces.replaced, Rows.getElem?_remove, if_pos listed] at found
  contradiction

end Store

theorem Edit.settles {edit : Edit} (clean : edit.IsClean) {store : Store} {outcome : Outcome}
    (succeeds : (edit.effect store).1 = .ok outcome) :
    edit.effect (edit.effect store).2 = (.ok .noChange, (edit.effect store).2) := by
  cases edit with
  | add own rows => exact Store.add_add clean succeeds
  | remove own names => exact store.remove_remove own names
  | create name => exact Store.createGroup_of_known ((store.mem_groups_createGroup name name).mpr (Or.inr rfl))
  | delete name =>
      exact Store.deleteGroup_of_unknown fun known => ((store.mem_groups_deleteGroup name name).mp known).2 rfl

namespace Service

/-- A retry may only drop dead entries from the registry of locks. -/
theorem retry_changes_nothing {config : Config} {service : Service} (reachable : Reachable config service)
    (mutation : Mutation) :
    ∃ ran, service.complete mutation.routine = some ran ∧ ran.service.clock = service.clock ∧
      ∀ outcome, ran.value = .ok outcome → ∃ locks,
        ran.service.complete mutation.routine = some ⟨.ok .noChange, [], { ran.service with locks }⟩ := by
  rcases (Engine.checks_edit mutation).settled service.clock with ⟨error, refused⟩ | ⟨routine, passes, same⟩
  · exact ⟨_, refused service rfl, rfl, fun _ succeeded => nomatch succeeded⟩
  · obtain ⟨edit, clean, -, makes⟩ := passes
    obtain ⟨news, ⟨locks, agree, completed⟩, -⟩ := makes.achieves service reachable.idle
    refine ⟨_, (same service rfl).trans completed, rfl, fun outcome succeeded => ?_⟩
    have succeeds : (edit.effect service.store).1 = .ok outcome := by
      cases written : (edit.effect service.store).1 <;> simp_all [Except.mapError]
    let after := service.settle (edit.effect service.store).2 locks news
    have settled : edit.effect after.store = (.ok .noChange, after.store) := edit.settles clean succeeds
    obtain ⟨more, ⟨laterLocks, -, again⟩, quiet⟩ := makes.achieves after (reachable.idle.of_agree agree)
    rw [settled] at again quiet
    rw [quiet rfl] at again
    exact ⟨laterLocks, (same after rfl).trans again⟩

theorem retry_changes_nothing_repeated :
    let mutation := Mutation.addPlayerPermissions chief [⟨" kick", some 5⟩, ⟨"ban", none⟩, ⟨"kick ", some 9⟩]
    ∃ ran, staffed.complete mutation.routine = some ran ∧ ran.value = .ok .created ∧ ran.events ≠ [] ∧
      ∃ locks, ran.service.complete mutation.routine = some ⟨.ok .noChange, [], { ran.service with locks }⟩ := by
  intro mutation
  have reported : (staffed.complete mutation.routine).map (fun ran => (ran.value, ran.events.length)) =
      some (.ok .created, 1) := by decide +kernel
  obtain ⟨ran, completed, -, again⟩ := retry_changes_nothing reachable_staffed mutation
  rw [completed, Option.map_some, Option.some.injEq, Prod.mk.injEq] at reported
  exact ⟨ran, completed, reported.1, List.ne_nil_of_length_pos (by omega), again _ reported.1⟩

end Service

end PermissionFeed
