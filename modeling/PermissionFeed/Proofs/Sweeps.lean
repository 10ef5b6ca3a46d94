import PermissionFeed.Proofs.Scans
import PermissionFeed.Proofs.Windows

namespace PermissionFeed

structure Snapshot.NamedIn (snapshot other : Snapshot) : Prop where
  direct : snapshot.directPermissions ⊆ other.directPermissions
  groups : snapshot.groupNames ⊆ other.groupNames
  effective : ∀ name ∈ snapshot.effective, name ∈ other.effective

inductive Store.Concerned (store : Store) (window : Window) (player : PlayerId) : Prop where
  | grant {key : String} {instant : Instant} (stored : (store.grants.rows player)[key]? = some (some instant))
      (lapses : instant ∈ window)
  | membership {key : String} {instant : Instant}
      (stored : (store.memberships.rows player)[key]? = some (some instant)) (lapses : instant ∈ window)
  | inherited {group key : String} {rows : Rows} {instant : Instant}
      (member : player ∈ store.activeMembers group window.last) (found : store.groups[group]? = some rows)
      (stored : rows[key]? = some (some instant)) (lapses : instant ∈ window)

theorem Rows.anyLapses_iff_exists_mem {rows : Rows} {window : Window} : rows.anyLapses window.since window.last ↔
    ∃ (key : String) (instant : Instant), rows[key]? = some (some instant) ∧ instant ∈ window := by
  simp only [anyLapses_iff, Expiry.lapsesWithin_iff, Window.mem_iff]
  constructor
  · rintro ⟨key, _, stored, instant, rfl, lapses⟩
    exact ⟨key, instant, stored, lapses⟩
  · rintro ⟨key, instant, stored, lapses⟩
    exact ⟨key, some instant, stored, instant, rfl, lapses⟩

theorem Rows.mem_keys_toSet {rows : Rows} {key : String} : key ∈ rows.toSet.toList.map Row.key ↔ key ∈ rows :=
  mem_map_key fun row => by rw [Std.ExtTreeSet.mem_toList, mem_toSet]

namespace Store

variable {store : Store} {player : PlayerId} {now since : Instant} {window : Window} {key : String}

theorem mem_directPermissions :
    key ∈ (store.snapshot player now).directPermissions ↔ key ∈ (store.grants.rows player).active now := by
  rw [Snapshot.directPermissions, snapshot_direct, Rows.mem_keys_toSet]

theorem mem_groupNames :
    key ∈ (store.snapshot player now).groupNames ↔ key ∈ (store.memberships.rows player).active now := by
  rw [Snapshot.groupNames, snapshot_memberships, Rows.mem_keys_toSet]

theorem namedIn_of_later (passes : since ≤ now) :
    (store.snapshot player now).NamedIn (store.snapshot player since) where
  direct key named := mem_directPermissions.mpr (Rows.mem_active_of_later passes (mem_directPermissions.mp named))
  groups key named := mem_groupNames.mpr (Rows.mem_active_of_later passes (mem_groupNames.mp named))
  effective name named := by
    have named : name ∈ (store.shown player now).effective := named
    show name ∈ (store.shown player since).effective
    rw [mem_shown_effective] at named ⊢
    rcases named with granted | ⟨group, joined, granted⟩
    · exact Or.inl (Rows.mem_active_of_later passes granted)
    · exact Or.inr ⟨group, Rows.mem_active_of_later passes joined, Rows.mem_active_of_later passes granted⟩

theorem mem_affected_iff_concerned : player ∈ store.affected window window.last ↔ store.Concerned window player := by
  rw [mem_affected]
  simp only [Rows.anyLapses_iff_exists_mem]
  constructor
  · rintro (⟨key, instant, stored, lapses⟩ | ⟨key, instant, stored, lapses⟩ | ⟨group, member, key, instant, stored, lapses⟩)
    · exact .grant stored lapses
    · exact .membership stored lapses
    · cases found : store.groups[group]? with
      | none => simp [found] at stored
      | some rows => exact .inherited (mem_activeMembers.mpr member) found (by rwa [found] at stored) lapses
  · rintro (⟨stored, lapses⟩ | ⟨stored, lapses⟩ | ⟨member, found, stored, lapses⟩)
    · exact Or.inl ⟨_, _, stored, lapses⟩
    · exact Or.inr (Or.inl ⟨_, _, stored, lapses⟩)
    · exact Or.inr (Or.inr ⟨_, mem_activeMembers.mp member, _, _, by rwa [found], lapses⟩)

theorem mem_affected_of_snapshot_ne (passes : since ≤ now)
    (changed : store.snapshot player since ≠ store.snapshot player now) : player ∈ store.affected ⟨since, now⟩ now := by
  rw [ne_eq, snapshot_eq_iff] at changed
  obtain ⟨facet, key, differs⟩ : ∃ (facet : Facet) (key : String),
      (store.shown player since).entry facet key ≠ (store.shown player now).entry facet key := by
    apply Classical.not_not.mp
    intro same
    exact changed (CachedPlayer.ext_entries fun facet key => Classical.not_not.mp fun other => same ⟨facet, key, other⟩)
  cases lost : (store.shown player now).entry facet key with
  | some expiry => exact absurd ((entry_of_later passes lost).trans lost.symm) differs
  | none => exact mem_affected_of_lapsed (Int64.le_refl since) (by rwa [lost] at differs) lost

end Store

namespace Service

theorem tick_finds_lapsed {service : Service} {scanner : Nat} {since : Instant}
    (placed : service.cursors[scanner]? = some ⟨since⟩) (begins : since < service.clock) :
    (∀ player, (service.store.snapshot player service.clock).NamedIn (service.store.snapshot player since)) ∧
    ∃ ran refreshed, service.complete (Scanner.tick scanner) = some ran ∧
      ran.value = .ok ⟨some ⟨since, service.clock⟩, refreshed⟩ ∧ ran.service.store = service.store ∧
      ran.service.feed = service.feed.publishAll ran.events ∧
      ran.events.map ChangeEvent.toAnnouncement =
        refreshed.toList.map (fun player => .refresh player Reason.expiry service.clock) ∧
      (refreshed.toList.Pairwise fun left right => compare left right = .lt) ∧
      (∀ player, service.store.snapshot player since ≠ service.store.snapshot player service.clock →
        player ∈ refreshed) ∧
      ∀ player, player ∈ refreshed ↔ service.store.Concerned ⟨since, service.clock⟩ player := by
  have passes := Int64.le_of_lt begins
  refine ⟨fun player => Store.namedIn_of_later passes, ?_⟩
  have claims : service.window? scanner = some ⟨since, service.clock⟩ :=
    window?_eq_some.mpr ⟨⟨since⟩, placed, begins, rfl⟩
  obtain ⟨ran, completed, ticked⟩ := ticked service scanner []
  rw [Routine.failing_nil] at completed
  cases ticked with
  | idle level => simp [level] at claims
  | failed claimed failed => simp [Routine.firstFailure?] at failed
  | @refreshed window locks claimed unhindered agree =>
      obtain rfl : window = ⟨since, service.clock⟩ := Option.some.inj (claimed.symm.trans claims)
      refine ⟨_, service.store.affected ⟨since, service.clock⟩ service.clock, completed, rfl, rfl, rfl, ?_,
        Std.ExtTreeSet.ordered_toList, fun player => Store.mem_affected_of_snapshot_ne passes,
        fun player => Store.mem_affected_iff_concerned⟩
      exact EventId.Supply.map_stamp _ _

def lapsing : Service :=
  let joined := (staffed.run (Mutation.addPlayerGroups newcomer [⟨"staff", some 10⟩]).routine).2
  let granted := (joined.run (Mutation.addGroupPermissions "staff" [⟨"ban", some 15⟩]).routine).2
  { granted.newScanner 0 with clock := 20 }

theorem lapses_refreshed : lapsing.cursors[0]? = some ⟨0⟩ ∧ 0 < lapsing.clock ∧
    ∃ ran refreshed, lapsing.complete (Scanner.tick 0) = some ran ∧
      ran.value = .ok ⟨some ⟨0, lapsing.clock⟩, refreshed⟩ ∧ chief ∈ refreshed ∧ newcomer ∈ refreshed ∧
      ran.events.map ChangeEvent.toAnnouncement =
        refreshed.toList.map (fun player => .refresh player Reason.expiry lapsing.clock) := by
  have placed : lapsing.cursors[0]? = some ⟨0⟩ := by decide +kernel
  have begins : 0 < lapsing.clock := by decide +kernel
  obtain ⟨_, ran, refreshed, completed, reported, _, _, published, _, found, _⟩ := tick_finds_lapsed placed begins
  have chiefChanged : lapsing.store.snapshot chief 0 ≠ lapsing.store.snapshot chief lapsing.clock := by decide +kernel
  have newcomerChanged : lapsing.store.snapshot newcomer 0 ≠ lapsing.store.snapshot newcomer lapsing.clock := by
    decide +kernel
  exact ⟨placed, begins, ran, refreshed, completed, reported, found chief chiefChanged, found newcomer newcomerChanged,
    published⟩

end Service

end PermissionFeed
