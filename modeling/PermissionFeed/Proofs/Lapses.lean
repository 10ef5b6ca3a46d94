import PermissionFeed.Proofs.Shown

namespace PermissionFeed

namespace Expiry

variable {expiry : Expiry} {since time later : Instant}

theorem isActive_of_later (passes : time ≤ later) (active : expiry.isActive later) : expiry.isActive time := by
  rw [isActive_iff] at active ⊢
  intro instant limited
  exact Int64.lt_of_le_of_lt passes (active instant limited)

theorem lapsesWithin_of_lapsed (begins : since ≤ time) (active : expiry.isActive time)
    (lapsed : ¬expiry.isActive later) : expiry.lapsesWithin since later := by
  rw [isActive_iff] at active
  cases expiry with
  | none => exact absurd rfl lapsed
  | some instant =>
      rw [lapsesWithin_iff]
      refine ⟨instant, rfl, Int64.lt_of_le_of_lt begins (active instant rfl), ?_⟩
      simpa [isActive] using lapsed

theorem lapsesWithin_of_longer (passes : time ≤ later) (lapses : expiry.lapsesWithin since time) :
    expiry.lapsesWithin since later := by
  rw [lapsesWithin_iff] at lapses ⊢
  obtain ⟨instant, limited, begun, ended⟩ := lapses
  exact ⟨instant, limited, begun, Int64.le_trans ended passes⟩

end Expiry

namespace Rows

variable {rows : Rows} {since time later : Instant} {key : String}

theorem getElem?_active_of_later {expiry : Expiry} (passes : time ≤ later)
    (active : (rows.active later)[key]? = some expiry) : (rows.active time)[key]? = some expiry := by
  rw [getElem?_active_eq_some] at active ⊢
  exact ⟨active.1, Expiry.isActive_of_later passes active.2⟩

theorem mem_active_of_later (passes : time ≤ later) (active : key ∈ rows.active later) : key ∈ rows.active time := by
  obtain ⟨expiry, stored⟩ := mem_iff_getElem?.mp active
  exact mem_iff_getElem?.mpr ⟨expiry, getElem?_active_of_later passes stored⟩

theorem anyLapses_iff : rows.anyLapses since later ↔
    ∃ (key : String) (expiry : Expiry), rows[key]? = some expiry ∧ expiry.lapsesWithin since later := by
  simp [anyLapses, List.any_eq_true, Std.ExtTreeMap.mem_toList_iff_getElem?_eq_some]

theorem anyLapses_empty : (∅ : Rows).anyLapses since later = false := by
  simp [anyLapses]

theorem anyLapses_of_lapsed (begins : since ≤ time) (active : key ∈ rows.active time)
    (lapsed : key ∉ rows.active later) : rows.anyLapses since later := by
  obtain ⟨expiry, stored, active⟩ := mem_active.mp active
  refine anyLapses_iff.mpr ⟨key, expiry, stored, Expiry.lapsesWithin_of_lapsed begins active fun still => ?_⟩
  exact lapsed (mem_active.mpr ⟨expiry, stored, still⟩)

theorem anyLapses_of_longer (passes : time ≤ later) (lapses : rows.anyLapses since time) :
    rows.anyLapses since later := by
  obtain ⟨key, expiry, stored, lapses⟩ := anyLapses_iff.mp lapses
  exact anyLapses_iff.mpr ⟨key, expiry, stored, Expiry.lapsesWithin_of_longer passes lapses⟩

end Rows

namespace Store

def affected (store : Store) (window : Window) (now : Instant) : PlayerSet :=
  (store.groupsWithLapsedGrants window).toList.foldl (fun found group => found ∪ store.activeMembers group now)
    (store.playersWithLapsedGrants window ∪ store.playersWithLapsedMemberships window)

/-- How many store calls it takes to scan a window: two for the players with lapsed rows, one for the groups with lapsed
grants and one for the members of each of these groups. -/
def scanCalls (store : Store) (window : Window) : Nat :=
  3 + (store.groupsWithLapsedGrants window).size

theorem mem_groupsWithLapsedGrants {store : Store} {window : Window} {group : String} :
    group ∈ store.groupsWithLapsedGrants window ↔
      (store.groups[group]?.getD ∅).anyLapses window.since window.last := by
  simp only [groupsWithLapsedGrants, Std.ExtTreeSet.mem_ofList, List.contains_eq_mem, decide_eq_true_eq,
    Std.ExtTreeMap.mem_keys, Std.ExtTreeMap.mem_iff_isSome_getElem?, Std.ExtTreeMap.getElem?_filter]
  cases store.groups[group]? with
  | none => simp [Rows.anyLapses_empty]
  | some rows => simp

theorem mem_foldl_activeMembers {store : Store} {now : Instant} {player : PlayerId} (groups : List String)
    (found : PlayerSet) :
    player ∈ groups.foldl (fun found group => found ∪ store.activeMembers group now) found ↔
      player ∈ found ∨ ∃ group ∈ groups, player ∈ store.activeMembers group now := by
  induction groups generalizing found with
  | nil => simp
  | cons group groups ih => simp [ih, Std.ExtTreeSet.mem_union_iff, or_assoc]

theorem mem_affected {store : Store} {window : Window} {now : Instant} {player : PlayerId} :
    player ∈ store.affected window now ↔
      (store.grants.rows player).anyLapses window.since window.last ∨
      (store.memberships.rows player).anyLapses window.since window.last ∨
      ∃ group : String, group ∈ (store.memberships.rows player).active now ∧
        (store.groups[group]?.getD ∅).anyLapses window.since window.last := by
  rw [affected, mem_foldl_activeMembers, Std.ExtTreeSet.mem_union_iff, playersWithLapsedGrants,
    playersWithLapsedMemberships, Table.mem_players Rows.anyLapses_empty, Table.mem_players Rows.anyLapses_empty, or_assoc]
  simp only [Std.ExtTreeSet.mem_toList, mem_groupsWithLapsedGrants, mem_activeMembers, and_comm]

variable {store : Store} {player : PlayerId} {since time later : Instant} {facet : Facet} {key : String}

theorem entry_of_later {expiry : Expiry} (passes : time ≤ later)
    (held : (store.shown player later).entry facet key = some expiry) :
    (store.shown player time).entry facet key = some expiry := by
  cases facet with
  | direct =>
      simp only [CachedPlayer.entry, shown_direct] at held ⊢
      exact Rows.getElem?_active_of_later passes held
  | groups =>
      simp only [CachedPlayer.entry, shown_groups] at held ⊢
      exact Rows.getElem?_active_of_later passes held
  | effective =>
      obtain rfl := Rows.eq_none_of_keyed held
      have effective : key ∈ (store.shown player later).effective := by
        simpa [CachedPlayer.entry, Rows.getElem?_keyed_names] using held
      have earlier : key ∈ (store.shown player time).effective := by
        rw [mem_shown_effective] at effective ⊢
        rcases effective with granted | ⟨group, joined, granted⟩
        · exact Or.inl (Rows.mem_active_of_later passes granted)
        · exact Or.inr ⟨group, Rows.mem_active_of_later passes joined, Rows.mem_active_of_later passes granted⟩
      simp [CachedPlayer.entry, Rows.getElem?_keyed_names, earlier]

theorem mem_affected_of_lapsed (begins : since ≤ time) (held : (store.shown player time).entry facet key ≠ none)
    (lost : (store.shown player later).entry facet key = none) :
    player ∈ store.affected ⟨since, later⟩ later := by
  rw [mem_affected]
  cases facet with
  | direct =>
      simp only [CachedPlayer.entry, shown_direct] at held lost
      have granted : key ∈ (store.grants.rows player).active time :=
        Rows.mem_iff_getElem?.mpr (Option.ne_none_iff_exists'.mp held)
      exact Or.inl (Rows.anyLapses_of_lapsed begins granted (by simpa using lost))
  | groups =>
      simp only [CachedPlayer.entry, shown_groups] at held lost
      have joined : key ∈ (store.memberships.rows player).active time :=
        Rows.mem_iff_getElem?.mpr (Option.ne_none_iff_exists'.mp held)
      exact Or.inr (Or.inl (Rows.anyLapses_of_lapsed begins joined (by simpa using lost)))
  | effective =>
      have effective : key ∈ (store.shown player time).effective := by
        simpa [CachedPlayer.entry, Rows.getElem?_keyed_names] using held
      have ineffective : key ∉ (store.shown player later).effective := by
        simpa [CachedPlayer.entry, Rows.getElem?_keyed_names] using lost
      rw [mem_shown_effective] at effective ineffective
      rcases effective with granted | ⟨group, joined, granted⟩
      · exact Or.inl (Rows.anyLapses_of_lapsed begins granted fun still => ineffective (Or.inl still))
      · by_cases stays : group ∈ (store.memberships.rows player).active later
        · refine Or.inr (Or.inr ⟨group, stays, Rows.anyLapses_of_lapsed begins granted fun still => ?_⟩)
          exact ineffective (Or.inr ⟨group, stays, still⟩)
        · exact Or.inr (Or.inl (Rows.anyLapses_of_lapsed begins joined stays))

theorem mem_affected_of_longer (begins : since ≤ time) (passes : time ≤ later)
    (found : player ∈ store.affected ⟨since, time⟩ time) : player ∈ store.affected ⟨since, later⟩ later := by
  rw [mem_affected] at found ⊢
  rcases found with direct | joined | ⟨group, member, lapses⟩
  · exact Or.inl (Rows.anyLapses_of_longer passes direct)
  · exact Or.inr (Or.inl (Rows.anyLapses_of_longer passes joined))
  -- a member who is no longer active has left by a membership that lapsed
  · by_cases stays : group ∈ (store.memberships.rows player).active later
    · exact Or.inr (Or.inr ⟨group, stays, Rows.anyLapses_of_longer passes lapses⟩)
    · exact Or.inr (Or.inl (Rows.anyLapses_of_lapsed begins member stays))

end Store

end PermissionFeed
