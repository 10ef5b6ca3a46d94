import PermissionFeed.Proofs.Histories
import PermissionFeed.Proofs.Scans

namespace PermissionFeed

namespace Expiry

variable {expiry : Expiry} {since last : Instant}

theorem isActive_of_lapsesWithin (lapses : expiry.lapsesWithin since last) : expiry.isActive since := by
  obtain ⟨instant, rfl, begun, _⟩ := lapsesWithin_iff.mp lapses
  simpa [isActive] using begun

theorem not_isActive_of_lapsesWithin (lapses : expiry.lapsesWithin since last) : ¬ expiry.isActive last := by
  obtain ⟨instant, rfl, _, ended⟩ := lapsesWithin_iff.mp lapses
  simpa [isActive] using ended

end Expiry

namespace Rows

variable {rows others : Rows} {since last : Instant} {key : String}

theorem list_inj : rows.list = others.list ↔ rows = others := by
  refine ⟨fun same => ?_, congrArg list⟩
  rw [← ofRows_list rows, same, ofRows_list]

theorem mem_keys_list : key ∈ rows.list.map Row.key ↔ key ∈ rows :=
  mem_map_key fun _ => mem_list

theorem list_ne_nil_iff : rows.list ≠ [] ↔ !rows.isEmpty := by
  have bare : rows.list = (∅ : Rows).list ↔ rows = ∅ := list_inj
  change rows.list = [] ↔ rows = ∅ at bare
  rw [ne_eq, bare, ← Std.ExtTreeMap.isEmpty_iff]
  simp

theorem anyLapses_iff_active_ne (passes : since ≤ last) :
    rows.anyLapses since last ↔ rows.active since ≠ rows.active last := by
  constructor
  · intro lapses same
    obtain ⟨key, expiry, stored, lapses⟩ := anyLapses_iff.mp lapses
    have shown : (rows.active since)[key]? = some expiry :=
      getElem?_active_eq_some.mpr ⟨stored, Expiry.isActive_of_lapsesWithin lapses⟩
    rw [same] at shown
    exact Expiry.not_isActive_of_lapsesWithin lapses (getElem?_active_eq_some.mp shown).2
  · intro differs
    apply Classical.byContradiction
    intro lasting
    refine differs (Std.ExtTreeMap.ext_getElem? fun key => ?_)
    cases later : (rows.active last)[key]? with
    | some expiry => exact getElem?_active_of_later passes later
    | none =>
        apply Option.eq_none_iff_forall_not_mem.mpr
        intro expiry shown
        have listed : key ∈ rows.active since := mem_iff_getElem?.mpr ⟨expiry, shown⟩
        refine lasting (anyLapses_of_lapsed (Int64.le_refl since) listed fun still => ?_)
        obtain ⟨other, found⟩ := mem_iff_getElem?.mp still
        simp [later] at found

end Rows

namespace Store

variable {store : Store} {player : PlayerId} {group : String} {time since last : Instant}

theorem mem_activeMembers_iff_read :
    player ∈ store.activeMembers group time ↔ group ∈ (store.playerMemberships player time).map Row.key := by
  rw [mem_activeMembers, playerMemberships, Rows.mem_keys_list]

theorem mem_playersWithActiveRows_iff_read : player ∈ store.playersWithActiveRows time ↔
    store.directGrants player time ≠ [] ∨ store.playerMemberships player time ≠ [] := by
  rw [playersWithActiveRows, playersWith, Std.ExtTreeSet.mem_union_iff, directGrants, playerMemberships,
    Rows.list_ne_nil_iff, Rows.list_ne_nil_iff, Table.mem_players (by simp [Rows.active_empty]),
    Table.mem_players (by simp [Rows.active_empty])]

theorem mem_playersWithLapsedGrants_iff_read (passes : since ≤ last) :
    player ∈ store.playersWithLapsedGrants ⟨since, last⟩ ↔
      store.directGrants player since ≠ store.directGrants player last := by
  rw [playersWithLapsedGrants, Table.mem_players Rows.anyLapses_empty, Rows.anyLapses_iff_active_ne passes, directGrants,
    directGrants, ne_eq, ne_eq, Rows.list_inj]

theorem mem_playersWithLapsedMemberships_iff_read (passes : since ≤ last) :
    player ∈ store.playersWithLapsedMemberships ⟨since, last⟩ ↔
      store.playerMemberships player since ≠ store.playerMemberships player last := by
  rw [playersWithLapsedMemberships, Table.mem_players Rows.anyLapses_empty, Rows.anyLapses_iff_active_ne passes,
    playerMemberships, playerMemberships, ne_eq, ne_eq, Rows.list_inj]

theorem mem_groupsWithLapsedGrants_iff_read (passes : since ≤ last) :
    group ∈ store.groupsWithLapsedGrants ⟨since, last⟩ ↔ store.group group since ≠ store.group group last := by
  rw [mem_groupsWithLapsedGrants, Rows.anyLapses_iff_active_ne passes, Store.group, Store.group]
  cases store.groups[group]? with
  | none => simp [Rows.active_empty]
  | some rows => simp [Rows.list_inj]

theorem mem_inherited_iff_read {permission : String} : permission ∈ store.inherited player time ↔
    ∃ name ∈ (store.playerMemberships player time).map Row.key,
      ∃ found, store.group name time = some found ∧ permission ∈ found.grants.map Row.key := by
  simp only [mem_inherited, playerMemberships, Rows.mem_keys_list, Store.group, Option.map_eq_some_iff]
  refine exists_congr fun name => and_congr_right fun _ => ?_
  cases store.groups[name]? with
  | none => simp [Rows.mem_active]
  | some rows =>
      rw [Option.getD_some, ← Rows.mem_keys_list]
      simp

theorem mem_listGroups_iff_read {found : Group} :
    found ∈ store.listGroups time ↔ store.group found.name time = some found := by
  simp only [listGroups, Store.group, List.mem_map, Prod.exists, Std.ExtTreeMap.mem_toList_iff_getElem?_eq_some,
    Option.map_eq_some_iff]
  constructor
  · rintro ⟨name, rows, stored, rfl⟩
    exact ⟨rows, stored, rfl⟩
  · rintro ⟨rows, stored, same⟩
    exact ⟨found.name, rows, stored, same⟩

theorem listGroups_ascending :
    (store.listGroups time).Pairwise fun left right => compare left.name right.name = .lt := by
  rw [listGroups, List.pairwise_map]
  exact Std.ExtTreeMap.ordered_keys_toList

end Store

namespace Service

/-- What the enumerations of a store find is what the reads by owner show, at every instant and between any two. -/
theorem enumerations_agree (service : Service) (time : Instant) {since last : Instant} (passes : since ≤ last) :
    let store := service.store
    (∀ player group, player ∈ store.activeMembers group time ↔
      group ∈ (store.playerMemberships player time).map Row.key) ∧
    (∀ player, player ∈ store.playersWithActiveRows time ↔
      store.directGrants player time ≠ [] ∨ store.playerMemberships player time ≠ []) ∧
    (∃ lapsed, service.run (Scanner.playersWithLapsedRows ⟨since, last⟩) = (some (.ok lapsed), service) ∧
      ∀ player, player ∈ lapsed ↔ store.directGrants player since ≠ store.directGrants player last ∨
        store.playerMemberships player since ≠ store.playerMemberships player last) ∧
    (∀ group, group ∈ store.groupsWithLapsedGrants ⟨since, last⟩ ↔ store.group group since ≠ store.group group last) ∧
    (∀ player permission, permission ∈ store.inherited player time ↔
      ∃ name ∈ (store.playerMemberships player time).map Row.key,
        ∃ found, store.group name time = some found ∧ permission ∈ found.grants.map Row.key) ∧
    (∀ found, found ∈ store.listGroups time ↔ store.group found.name time = some found) ∧
    (store.listGroups time).Pairwise fun left right => compare left.name right.name = .lt := by
  refine ⟨fun _ _ => Store.mem_activeMembers_iff_read, fun _ => Store.mem_playersWithActiveRows_iff_read,
    ⟨_, rfl, fun player => ?_⟩, fun _ => Store.mem_groupsWithLapsedGrants_iff_read passes,
    fun _ _ => Store.mem_inherited_iff_read, fun _ => Store.mem_listGroups_iff_read, Store.listGroups_ascending⟩
  rw [Std.ExtTreeSet.mem_union_iff, Store.mem_playersWithLapsedGrants_iff_read passes,
    Store.mem_playersWithLapsedMemberships_iff_read passes]

theorem enumerations_agree_at_lapse :
    let calls : List StoreCall := [.createGroup "staff", .createGroup "guests",
      .addGroupGrants "staff" [⟨"kick", some 9⟩], .addMemberships chief [⟨"staff", some 9⟩],
      .addGrants newcomer [⟨"fly", some 8⟩], .removeGrants newcomer ["fly"]]
    let service := { staffed with store := Store.empty.afterAll calls }
    (8 : Instant) ≤ 9 ∧ chief ∉ service.store.activeMembers "staff" 9 ∧
      newcomer ∉ service.store.playersWithActiveRows 7 ∧ "staff" ∈ service.store.groupsWithLapsedGrants ⟨8, 9⟩ ∧
      "kick" ∉ service.store.inherited chief 9 ∧ Group.empty "guests" ∈ service.store.listGroups 9 ∧
      ∃ lapsed, service.run (Scanner.playersWithLapsedRows ⟨8, 9⟩) = (some (.ok lapsed), service) ∧
        chief ∈ lapsed ∧ newcomer ∉ lapsed := by
  intro calls service
  obtain ⟨members, _, ⟨lapsed, scanned, changed⟩, groups, inherited, listed, _⟩ :=
    enumerations_agree service 9 (by decide : (8 : Instant) ≤ 9)
  obtain ⟨_, active, _⟩ := enumerations_agree service 7 (by decide : (8 : Instant) ≤ 9)
  refine ⟨by decide, ?_, ?_, ?_, ?_, ?_, lapsed, scanned, ?_, ?_⟩
  · rw [members]
    decide +kernel
  · rw [active]
    decide +kernel
  · rw [groups]
    decide +kernel
  · rw [inherited]
    rintro ⟨name, joined, _⟩
    have nowhere : (service.store.playerMemberships chief 9).map Row.key = [] := by decide +kernel
    simp [nowhere] at joined
  · rw [listed]
    decide +kernel
  · rw [changed]
    decide +kernel
  · rw [changed]
    decide +kernel

end Service

end PermissionFeed
