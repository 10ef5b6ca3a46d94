import PermissionFeed.Inquiry
import PermissionFeed.Proofs.Delta

namespace PermissionFeed

theorem Table.mem_players {table : Table} {condition : Rows → Bool} {player : PlayerId}
    (empty : condition ∅ = false) : player ∈ table.players condition ↔ condition (table.rows player) := by
  simp only [players, rows, Std.ExtTreeSet.mem_ofList, List.contains_eq_mem, decide_eq_true_eq,
    Std.ExtTreeMap.mem_keys, Std.ExtTreeMap.mem_iff_isSome_getElem?, Std.ExtTreeMap.getElem?_filter]
  cases table.owners[player]? with
  | none => simp [empty]
  | some rows => simp

namespace Store

def snapshot (store : Store) (player : PlayerId) (now : Instant) : Snapshot :=
  .assemble player .full (store.directGrants player now) (store.playerMemberships player now)
    (store.inherited player now).toList now

def shown (store : Store) (player : PlayerId) (now : Instant) : CachedPlayer :=
  .ofSnapshot (store.snapshot player now)

theorem run_snapshot (store : Store) (player : PlayerId) (now : Instant) :
    (Inquiry.snapshot player .full now).run store = (.ok (store.snapshot player now), store) :=
  rfl

theorem snapshot_player (store : Store) (player : PlayerId) (now : Instant) :
    (store.snapshot player now).player = player :=
  rfl

theorem snapshot_congr {before after : Store} {player : PlayerId} (groups : after.groups = before.groups)
    (grants : after.grants.rows player = before.grants.rows player)
    (memberships : after.memberships.rows player = before.memberships.rows player) (now : Instant) :
    after.snapshot player now = before.snapshot player now := by
  simp only [snapshot, directGrants, playerMemberships, inherited, groups, grants, memberships]

theorem snapshot_direct (store : Store) (player : PlayerId) (now : Instant) :
    (store.snapshot player now).direct = ((store.grants.rows player).active now).toSet := by
  simp only [snapshot, Snapshot.assemble, Scope.full, directGrants, Rows.ofRows_filter_active, if_true]

theorem snapshot_memberships (store : Store) (player : PlayerId) (now : Instant) :
    (store.snapshot player now).memberships = ((store.memberships.rows player).active now).toSet := by
  simp only [snapshot, Snapshot.assemble, Scope.full, playerMemberships, Rows.ofRows_filter_active, if_true]

theorem shown_direct (store : Store) (player : PlayerId) (now : Instant) :
    (store.shown player now).direct = (store.grants.rows player).active now := by
  simp only [shown, CachedPlayer.ofSnapshot, snapshot_direct, Rows.keyed_toSet]

theorem shown_groups (store : Store) (player : PlayerId) (now : Instant) :
    (store.shown player now).groups = (store.memberships.rows player).active now := by
  simp only [shown, CachedPlayer.ofSnapshot, snapshot_memberships, Rows.keyed_toSet]

theorem mem_inherited {store : Store} {player : PlayerId} {now : Instant} {name : String} :
    name ∈ store.inherited player now ↔ ∃ group : String, group ∈ (store.memberships.rows player).active now ∧
      name ∈ (store.groups[group]?.getD ∅).active now := by
  simp only [inherited, Std.ExtTreeSet.mem_ofList, List.contains_eq_mem, List.mem_flatMap, List.mem_filterMap,
    Std.ExtTreeMap.mem_keys, decide_eq_true_eq]
  constructor
  · rintro ⟨rows, ⟨group, member, found⟩, granted⟩
    exact ⟨group, member, by rwa [found]⟩
  · rintro ⟨group, member, granted⟩
    cases found : store.groups[group]? with
    | none => simp [found, Rows.mem_active] at granted
    | some rows => exact ⟨rows, ⟨group, member, found⟩, by rwa [found] at granted⟩

theorem mem_shown_effective {store : Store} {player : PlayerId} {now : Instant} {name : String} :
    name ∈ (store.shown player now).effective ↔ name ∈ (store.grants.rows player).active now ∨
      ∃ group : String, group ∈ (store.memberships.rows player).active now ∧
        name ∈ (store.groups[group]?.getD ∅).active now := by
  have effective : (store.shown player now).effective =
      ((store.grants.rows player).active now).names.insertMany (store.inherited player now).toList := by
    simp only [shown, CachedPlayer.ofSnapshot, snapshot, Snapshot.assemble, Scope.full, directGrants,
      Rows.ofRows_filter_active, if_true]
  rw [effective, Std.ExtTreeSet.mem_insertMany_list, Rows.mem_names, ← mem_inherited]
  simp [Std.ExtTreeSet.mem_toList]

theorem shown_congr {before after : Store} {player : PlayerId} {now : Instant}
    (grants : (after.grants.rows player).active now = (before.grants.rows player).active now)
    (memberships : (after.memberships.rows player).active now = (before.memberships.rows player).active now)
    (groups : ∀ group : String, group ∈ (before.memberships.rows player).active now →
      (after.groups[group]?.getD ∅).active now = (before.groups[group]?.getD ∅).active now) :
    after.shown player now = before.shown player now := by
  have effective : (after.shown player now).effective = (before.shown player now).effective := by
    apply Std.ExtTreeSet.ext_mem
    intro name
    simp only [mem_shown_effective, grants, memberships]
    refine or_congr_right (exists_congr fun group => and_congr_right fun member => ?_)
    rw [groups group member]
  apply CachedPlayer.ext_entries
  intro facet key
  cases facet with
  | direct => simp only [CachedPlayer.entry, shown_direct, grants]
  | groups => simp only [CachedPlayer.entry, shown_groups, memberships]
  | effective => simp only [CachedPlayer.entry, effective]

theorem snapshot_eq_iff {before after : Store} {player : PlayerId} {time later : Instant} :
    before.snapshot player time = after.snapshot player later ↔ before.shown player time = after.shown player later := by
  refine ⟨congrArg CachedPlayer.ofSnapshot, fun same => ?_⟩
  have parts (store : Store) (now : Instant) : store.snapshot player now =
      ⟨player, (store.shown player now).groups.toSet, (store.shown player now).direct.toSet,
        (store.shown player now).effective⟩ := by
    rw [shown_groups, shown_direct, ← snapshot_memberships, ← snapshot_direct]
    rfl
  rw [parts before, parts after, same]

theorem isEmpty_between_iff {before after : Store} {player : PlayerId} {now : Instant} :
    (Delta.between (before.snapshot player now) (after.snapshot player now) .all).isEmpty ↔
      before.snapshot player now = after.snapshot player now := by
  rw [CachedPlayer.between_all, CachedPlayer.isEmpty_changesTo_iff]
  exact snapshot_eq_iff.symm

theorem mem_activeMembers {store : Store} {group : String} {now : Instant} {player : PlayerId} :
    player ∈ store.activeMembers group now ↔ group ∈ (store.memberships.rows player).active now := by
  rw [activeMembers, Table.mem_players (by simp), Rows.mem_active, Option.any_eq_true]

theorem shown_eq_empty_iff {store : Store} {player : PlayerId} {now : Instant} :
    store.shown player now = .empty ↔ player ∉ store.playersWithActiveRows now := by
  have inactive : player ∉ store.playersWithActiveRows now ↔
      (store.grants.rows player).active now = ∅ ∧ (store.memberships.rows player).active now = ∅ := by
    simp [playersWithActiveRows, playersWith, Std.ExtTreeSet.mem_union_iff, Table.mem_players, Rows.active_empty]
  rw [inactive, ← shown_direct, ← shown_groups]
  refine ⟨fun empty => by rw [empty]; exact ⟨rfl, rfl⟩, fun ⟨direct, groups⟩ => CachedPlayer.ext_entries ?_⟩
  intro facet key
  rw [CachedPlayer.entry_empty]
  cases facet with
  | direct => simp [CachedPlayer.entry, direct]
  | groups => simp [CachedPlayer.entry, groups]
  | effective =>
      have absent : key ∉ (store.shown player now).effective := by
        rw [mem_shown_effective, ← shown_direct, ← shown_groups, direct, groups]
        simp
      simp [CachedPlayer.entry, Rows.getElem?_keyed_names, absent]

end Store

end PermissionFeed
