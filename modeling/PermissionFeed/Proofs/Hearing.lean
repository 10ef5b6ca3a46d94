import PermissionFeed.Proofs.Shown

namespace PermissionFeed

namespace Cache

def shown (cache : Cache) (player : PlayerId) : CachedPlayer :=
  cache.players[player]?.getD .empty

def hear (cache : Cache) (announcement : Announcement) : Cache :=
  cache.apply ⟨announcement, .zero⟩

def hearAll (cache : Cache) (news : List Announcement) : Cache :=
  news.foldl hear cache

theorem applyAll_eq_hearAll (cache : Cache) (events : List ChangeEvent) :
    cache.applyAll events = cache.hearAll (events.map ChangeEvent.toAnnouncement) := by
  rw [hearAll, List.foldl_map]
  rfl

theorem applyAll_append (cache : Cache) (first second : List ChangeEvent) :
    cache.applyAll (first ++ second) = (cache.applyAll first).applyAll second :=
  List.foldl_append

theorem hearAll_append (cache : Cache) (first second : List Announcement) :
    cache.hearAll (first ++ second) = (cache.hearAll first).hearAll second :=
  List.foldl_append

theorem shown_hear (cache : Cache) (announcement : Announcement) (player : PlayerId) :
    (cache.hear announcement).shown player =
      if announcement.requiresRefresh = false ∧ announcement.player = player then
        (cache.shown player).apply announcement.delta
      else cache.shown player := by
  unfold hear apply
  cases announcement.requiresRefresh with
  | true => rfl
  | false =>
      by_cases same : announcement.player = player
      · subst same
        simp [shown]
      · simp [shown, Std.ExtTreeMap.getElem?_insert, same]

theorem mem_stale_hear {cache : Cache} {announcement : Announcement} {player : PlayerId} :
    player ∈ (cache.hear announcement).stale ↔
      player ∈ cache.stale ∨ announcement.requiresRefresh ∧ announcement.player = player := by
  unfold hear apply
  cases announcement.requiresRefresh with
  | true => simp [Std.ExtTreeSet.mem_insert, or_comm]
  | false => simp

theorem mem_stale_hearAll {cache : Cache} {news : List Announcement} {player : PlayerId} :
    player ∈ (cache.hearAll news).stale ↔
      player ∈ cache.stale ∨ ∃ announcement ∈ news, announcement.requiresRefresh ∧ announcement.player = player := by
  induction news generalizing cache with
  | nil => simp [hearAll]
  | cons first news ih =>
      have stepped : cache.hearAll (first :: news) = (cache.hear first).hearAll news := rfl
      rw [stepped, ih, mem_stale_hear]
      simp [or_assoc]

theorem shown_hearAll_of_refreshes {news : List Announcement}
    (refreshes : ∀ announcement ∈ news, announcement.requiresRefresh) (cache : Cache) (player : PlayerId) :
    (cache.hearAll news).shown player = cache.shown player := by
  induction news generalizing cache with
  | nil => rfl
  | cons first news ih =>
      have stepped : cache.hearAll (first :: news) = (cache.hear first).hearAll news := rfl
      rw [stepped, ih (fun other listed => refreshes other (by simp [listed])), shown_hear]
      simp [refreshes first (by simp)]

theorem shown_hearAll_of_unconcerned {news : List Announcement} {player : PlayerId}
    (unconcerned : player ∉ news.map Announcement.player) (cache : Cache) :
    (cache.hearAll news).shown player = cache.shown player := by
  induction news generalizing cache with
  | nil => rfl
  | cons first news ih =>
      rw [List.map_cons, List.mem_cons, not_or] at unconcerned
      have stepped : cache.hearAll (first :: news) = (cache.hear first).hearAll news := rfl
      rw [stepped, ih unconcerned.2, shown_hear, if_neg fun concerned => unconcerned.1 concerned.2.symm]

theorem shown_hearAll_of_mem {news : List Announcement} (distinct : (news.map Announcement.player).Nodup)
    {announcement : Announcement} (listed : announcement ∈ news) (delta : announcement.requiresRefresh = false)
    (cache : Cache) :
    (cache.hearAll news).shown announcement.player = (cache.shown announcement.player).apply announcement.delta := by
  obtain ⟨first, rest, rfl⟩ := List.append_of_mem listed
  rw [List.map_append, List.map_cons, List.nodup_append, List.nodup_cons] at distinct
  obtain ⟨_, ⟨later, _⟩, earlier⟩ := distinct
  have sooner : announcement.player ∉ first.map Announcement.player :=
    fun listed => earlier _ listed _ List.mem_cons_self rfl
  have stepped : cache.hearAll (first ++ announcement :: rest) = ((cache.hearAll first).hear announcement).hearAll rest := by
    rw [hearAll_append]
    rfl
  rw [stepped, shown_hearAll_of_unconcerned later, shown_hear, if_pos ⟨delta, rfl⟩,
    shown_hearAll_of_unconcerned sooner]

theorem shown_load (cache : Cache) (snapshot : Snapshot) (player : PlayerId) :
    (cache.load snapshot).shown player =
      if snapshot.player = player then .ofSnapshot snapshot else cache.shown player := by
  simp only [shown, load, Std.ExtTreeMap.getElem?_insert, Std.LawfulEqCmp.compare_eq_iff_eq]
  split <;> rfl

/-- No player is stale, and every player is shown as the store shows the player. -/
structure InSync (cache : Cache) (store : Store) (now : Instant) : Prop where
  stale : ∀ player, player ∉ cache.stale
  shown : ∀ player, cache.shown player = store.shown player now

def loadedFrom (store : Store) (now : Instant) (players : List PlayerId) : Cache :=
  players.foldl (fun cache player => cache.load (store.snapshot player now)) .empty

theorem shown_foldl_load (store : Store) (now : Instant) (players : List PlayerId) (cache : Cache) (player : PlayerId) :
    (players.foldl (fun cache player => cache.load (store.snapshot player now)) cache).shown player =
      if player ∈ players then store.shown player now else cache.shown player := by
  induction players generalizing cache with
  | nil => simp
  | cons first players ih =>
      rw [List.foldl_cons, ih, shown_load, Store.snapshot_player]
      by_cases listed : player ∈ players
      · simp [listed]
      · by_cases same : first = player
        · subst same
          simp [Store.shown]
        · simp [listed, same, Ne.symm same]

theorem stale_loadedFrom (store : Store) (now : Instant) (players : List PlayerId) :
    (loadedFrom store now players).stale = ∅ := by
  suffices loads : ∀ cache : Cache, cache.stale = ∅ →
      (players.foldl (fun cache player => cache.load (store.snapshot player now)) cache).stale = ∅ from
    loads .empty rfl
  induction players with
  | nil => exact fun _ fresh => fresh
  | cons first players ih =>
      intro cache fresh
      apply ih
      simp [load, fresh]

end Cache

theorem Store.shown_of_unlisted {store : Store} {player : PlayerId} (unlisted : player ∉ store.playersWithAnyRows)
    (now : Instant) : store.shown player now = .empty := by
  have bare : store.grants.rows player = ∅ ∧ store.memberships.rows player = ∅ := by
    simpa [playersWithAnyRows, playersWith, Std.ExtTreeSet.mem_union_iff, Table.mem_players] using unlisted
  rw [shown_eq_empty_iff]
  simp [playersWithActiveRows, playersWith, Std.ExtTreeSet.mem_union_iff, Table.mem_players, Rows.active_empty, bare]

theorem Cache.inSync_loadedFrom {store : Store} {players : List PlayerId}
    (all : ∀ player ∈ store.playersWithAnyRows, player ∈ players) (now : Instant) :
    (loadedFrom store now players).InSync store now where
  stale player := by simp [stale_loadedFrom]
  shown player := by
    rw [loadedFrom, shown_foldl_load]
    split
    · rfl
    · next unlisted =>
        rw [Store.shown_of_unlisted fun listed => unlisted (all player listed)]
        rfl

end PermissionFeed
