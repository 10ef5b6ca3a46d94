import PermissionFeed.Engine
import PermissionFeed.Proofs.Completion
import PermissionFeed.Proofs.Hearing
import PermissionFeed.Proofs.Writes

namespace PermissionFeed

def Announcement.ofChange (player : PlayerId) (reason : String) (dimensions : Dimensions) (before after : Snapshot)
    (time : Instant) : List Announcement :=
  if (Delta.between before after dimensions).isEmpty then []
  else [.ofDelta player reason (.between before after dimensions) time]

namespace Cache

theorem shown_hearAll_ofChange (cache : Cache) (player other : PlayerId) (reason : String) (dimensions : Dimensions)
    (before after : Snapshot) (time : Instant) :
    (cache.hearAll (Announcement.ofChange player reason dimensions before after time)).shown other =
      if player = other then (cache.shown other).apply (.between before after dimensions) else cache.shown other := by
  unfold Announcement.ofChange
  split
  · next empty => simp [hearAll, CachedPlayer.apply_of_isEmpty _ empty]
  · simp [hearAll, shown_hear, Announcement.ofDelta]

theorem stale_hearAll_ofChange (cache : Cache) (player : PlayerId) (reason : String) (dimensions : Dimensions)
    (before after : Snapshot) (time : Instant) :
    (cache.hearAll (Announcement.ofChange player reason dimensions before after time)).stale = cache.stale := by
  unfold Announcement.ofChange
  split
  · rfl
  · rfl

theorem shown_hearAll_changes {players : List PlayerId} (distinct : players.Nodup) (cache : Cache) (other : PlayerId)
    (reason : String) (dimensions : Dimensions) (before after : PlayerId → Snapshot) (time : Instant) :
    (cache.hearAll (players.flatMap fun player =>
      Announcement.ofChange player reason dimensions (before player) (after player) time)).shown other =
      if other ∈ players then (cache.shown other).apply (.between (before other) (after other) dimensions)
      else cache.shown other := by
  induction players generalizing cache with
  | nil => rfl
  | cons player players ih =>
      obtain ⟨unlisted, distinct⟩ := List.nodup_cons.mp distinct
      rw [List.flatMap_cons, hearAll_append, ih distinct, shown_hearAll_ofChange]
      by_cases same : player = other
      · subst same
        simp [unlisted]
      · simp [same, Ne.symm same]

theorem stale_hearAll_changes (players : List PlayerId) (cache : Cache) (reason : String) (dimensions : Dimensions)
    (before after : PlayerId → Snapshot) (time : Instant) :
    (cache.hearAll (players.flatMap fun player =>
      Announcement.ofChange player reason dimensions (before player) (after player) time)).stale = cache.stale := by
  induction players generalizing cache with
  | nil => rfl
  | cons player players ih => rw [List.flatMap_cons, hearAll_append, ih, stale_hearAll_ofChange]

theorem shown_hearAll_refreshes (cache : Cache) (players : List PlayerId) (reason : String) (time : Instant)
    (other : PlayerId) :
    (cache.hearAll (players.map fun player => .refresh player reason time)).shown other = cache.shown other := by
  apply shown_hearAll_of_refreshes
  intro announcement listed
  obtain ⟨player, _, rfl⟩ := List.mem_map.mp listed
  rfl

theorem mem_stale_hearAll_refreshes {cache : Cache} {players : List PlayerId} {reason : String} {time : Instant}
    {other : PlayerId} :
    other ∈ (cache.hearAll (players.map fun player => .refresh player reason time)).stale ↔
      other ∈ cache.stale ∨ other ∈ players := by
  rw [mem_stale_hearAll]
  refine or_congr_right ⟨?_, fun listed => ⟨_, List.mem_map.mpr ⟨other, listed, rfl⟩, rfl, rfl⟩⟩
  rintro ⟨announcement, announced, _, rfl⟩
  obtain ⟨player, listed, rfl⟩ := List.mem_map.mp announced
  exact listed

end Cache

structure Store.Told (before after : Store) (time : Instant) (news : List Announcement) : Prop where
  stale : ∀ cache : Cache, (cache.hearAll news).stale = cache.stale
  follows : ∀ (cache : Cache) (player : PlayerId),
    (cache.shown player).Follows (before.shown player time) (after.shown player time)
      ((cache.hearAll news).shown player)

namespace Store

theorem Told.inSync {before after : Store} {time : Instant} {news : List Announcement}
    (told : Told before after time news) {cache : Cache} (synced : cache.InSync before time) :
    (cache.hearAll news).InSync after time where
  stale player := told.stale cache ▸ synced.stale player
  shown player := (told.follows cache player).eq_of_synced (synced.shown player)

/-- The news announce, in ascending order, every player whose snapshot differs, each with all that differs. -/
structure Announced (before after : Store) (time : Instant) (news : List Announcement) : Prop where
  ascending : (news.map Announcement.player).Pairwise fun left right => compare left right = .lt
  concerns : ∀ player, player ∈ news.map Announcement.player ↔
    before.snapshot player time ≠ after.snapshot player time
  exact : ∀ announcement ∈ news, announcement.requiresRefresh = false ∧ announcement.isWellFormed ∧
    announcement.delta =
      .between (before.snapshot announcement.player time) (after.snapshot announcement.player time) .all

namespace Announced

variable {before after : Store} {time : Instant} {news : List Announcement}

theorem told (announced : Announced before after time news) : Told before after time news where
  stale cache := by
    apply Std.ExtTreeSet.ext_mem
    intro player
    rw [Cache.mem_stale_hearAll, or_iff_left]
    rintro ⟨announcement, listed, refreshes, _⟩
    simp [(announced.exact announcement listed).1] at refreshes
  follows cache player := by
    by_cases concerned : player ∈ news.map Announcement.player
    · obtain ⟨announcement, listed, rfl⟩ := List.mem_map.mp concerned
      obtain ⟨delta, _, whole⟩ := announced.exact announcement listed
      rw [Cache.shown_hearAll_of_mem (PlayerId.nodup_of_ascending announced.ascending) listed delta, whole]
      exact CachedPlayer.apply_changesTo _ _ _
    · rw [Cache.shown_hearAll_of_unconcerned concerned,
        snapshot_eq_iff.mp (Classical.not_not.mp (mt (announced.concerns player).mpr concerned))]
      exact CachedPlayer.Follows.refl _ _

theorem of_snapshots (same : ∀ player, before.snapshot player time = after.snapshot player time) :
    Announced before after time [] where
  ascending := .nil
  concerns player := by simp [same player]
  exact _ listed := nomatch listed

theorem flatMap_ofChange (players : List PlayerId) (reason : String) {dimensions : Dimensions}
    (direct : dimensions.direct = false → ∀ player,
      (before.snapshot player time).direct = (after.snapshot player time).direct)
    (groups : dimensions.groups = false → ∀ player,
      (before.snapshot player time).memberships = (after.snapshot player time).memberships) :
    (players.flatMap fun player => Announcement.ofChange player reason dimensions (before.snapshot player time)
        (after.snapshot player time) time) =
      (players.filter fun player => before.snapshot player time ≠ after.snapshot player time).map fun player =>
        .ofDelta player reason (.between (before.snapshot player time) (after.snapshot player time) .all) time := by
  induction players with
  | nil => rfl
  | cons player players ih =>
      rw [List.flatMap_cons, ih, Announcement.ofChange, Delta.between_eq_all (direct · player) (groups · player)]
      by_cases same : before.snapshot player time = after.snapshot player time
      · rw [if_pos (isEmpty_between_iff.mpr same)]
        simp [same]
      · rw [if_neg (mt isEmpty_between_iff.mp same)]
        simp [same]

theorem of_changes {players : List PlayerId} (ascending : players.Pairwise fun left right => compare left right = .lt)
    (outside : ∀ player, player ∉ players → before.snapshot player time = after.snapshot player time) (reason : String)
    {dimensions : Dimensions}
    (direct : dimensions.direct = false → ∀ player,
      (before.snapshot player time).direct = (after.snapshot player time).direct)
    (groups : dimensions.groups = false → ∀ player,
      (before.snapshot player time).memberships = (after.snapshot player time).memberships) :
    Announced before after time (players.flatMap fun player => Announcement.ofChange player reason dimensions
      (before.snapshot player time) (after.snapshot player time) time) := by
  rw [flatMap_ofChange players reason direct groups]
  have concerned : ((players.filter fun player => before.snapshot player time ≠ after.snapshot player time).map
        fun player => Announcement.ofDelta player reason
          (.between (before.snapshot player time) (after.snapshot player time) .all) time).map Announcement.player =
      players.filter fun player => before.snapshot player time ≠ after.snapshot player time := by
    rw [List.map_map]
    exact List.map_id _
  refine ⟨?_, fun player => ?_, fun announcement listed => ?_⟩
  · rw [concerned]
    exact ascending.filter _
  · rw [concerned, List.mem_filter, decide_eq_true_iff]
    exact and_iff_right_of_imp fun differs => Classical.not_not.mp fun unlisted => differs (outside player unlisted)
  · obtain ⟨player, kept, rfl⟩ := List.mem_map.mp listed
    have differs : before.snapshot player time ≠ after.snapshot player time := by
      simpa using (List.mem_filter.mp kept).2
    have nonempty := mt isEmpty_between_iff.mp differs
    refine ⟨rfl, ?_, rfl⟩
    simpa [Announcement.isWellFormed, Announcement.hasNoDeltas, Announcement.ofDelta] using nonempty

theorem of_onlyPlayer {player : PlayerId} (only : OnlyPlayer player before after) (reason : String) (time : Instant) :
    Announced before after time
      (Announcement.ofChange player reason .all (before.snapshot player time) (after.snapshot player time) time) := by
  have alone : Announced before after time ([player].flatMap fun player => Announcement.ofChange player reason .all
      (before.snapshot player time) (after.snapshot player time) time) := by
    refine of_changes (List.pairwise_singleton _ _) (fun other outside => ?_) reason (by simp [Dimensions.all])
      (by simp [Dimensions.all])
    have different : other ≠ player := by simpa using outside
    exact (snapshot_eq_iff.mpr (only.shown different time)).symm
  rwa [List.flatMap_singleton] at alone

theorem of_onlyGroup {group : String} (only : OnlyGroup group before after) (reason : String)
    {dimensions : Dimensions} (time : Instant)
    (groups : dimensions.groups = false → after.memberships = before.memberships) :
    Announced before after time ((before.activeMembers group time).toList.flatMap fun player =>
      Announcement.ofChange player reason dimensions (before.snapshot player time) (after.snapshot player time) time) := by
  refine of_changes Std.ExtTreeSet.ordered_toList (fun player unlisted => ?_) reason (fun _ player => ?_)
    fun uncovered player => ?_
  · have outside : player ∉ before.activeMembers group time := by simpa [Std.ExtTreeSet.mem_toList] using unlisted
    exact (snapshot_eq_iff.mpr (only.shown outside)).symm
  · simp only [snapshot_direct, only.grants]
  · simp only [snapshot_memberships, groups uncovered]

end Announced

end Store

end PermissionFeed
