import Mathlib.Data.List.Pairwise
import PermissionFeed.Proofs.Applying
import PermissionFeed.Proofs.Reachable

namespace PermissionFeed

theorem CachedPlayer.apply_apply (cached : CachedPlayer) (delta : Delta) :
    (cached.apply delta).apply delta = cached.apply delta := by
  have direct := Rows.apply_apply cached.direct delta.direct
  have groups := Rows.apply_apply cached.groups delta.groups
  have effective : ((cached.apply delta).apply delta).effective = (cached.apply delta).effective := by
    apply Std.ExtTreeSet.ext_mem
    intro name
    simp only [apply, Rows.mem_names, Rows.mem_apply, Rows.mem_keyed_names]
    cases Entry.effect delta.effective name <;> rfl
  exact (mk.injEq ..).mpr ⟨direct, groups, effective⟩

structure CacheRecord where
  cached : Option CachedPlayer
  isStale : Bool

def CacheRecord.take (known : CacheRecord) (event : ChangeEvent) : CacheRecord :=
  if event.requiresRefresh then { known with isStale := true }
  else { known with cached := some ((known.cached.getD .empty).apply event.delta) }

namespace CacheRecord

theorem take_take (known : CacheRecord) (event : ChangeEvent) : (known.take event).take event = known.take event := by
  unfold take
  split
  · rfl
  · simp [CachedPlayer.apply_apply]

theorem foldl_take_of_same {events : List ChangeEvent} {event : ChangeEvent} (listed : event ∈ events)
    (same : ∀ other ∈ events, other = event) (known : CacheRecord) : events.foldl take known = known.take event := by
  induction events generalizing known with
  | nil => contradiction
  | cons first rest ih =>
      obtain rfl : first = event := same first List.mem_cons_self
      have sameRest : ∀ other ∈ rest, other = first := fun other later => same other (List.mem_cons_of_mem first later)
      cases rest with
      | nil => rfl
      | cons second rest =>
          have again : first ∈ second :: rest := sameRest second List.mem_cons_self ▸ List.mem_cons_self
          rw [List.foldl_cons, ih again sameRest, take_take]

end CacheRecord

namespace Cache

def record (cache : Cache) (player : PlayerId) : CacheRecord :=
  ⟨cache.players[player]?, cache.stale.contains player⟩

theorem ext_record {cache other : Cache} (same : ∀ player, cache.record player = other.record player) :
    cache = other := by
  obtain ⟨players, stale⟩ := cache
  obtain ⟨otherPlayers, otherStale⟩ := other
  congr
  · exact Std.ExtTreeMap.ext_getElem? fun player => congrArg CacheRecord.cached (same player)
  · exact Std.ExtTreeSet.ext_contains fun player => congrArg CacheRecord.isStale (same player)

theorem record_apply (cache : Cache) (event : ChangeEvent) (player : PlayerId) :
    (cache.apply event).record player =
      if event.player = player then (cache.record player).take event else cache.record player := by
  unfold apply CacheRecord.take
  by_cases refreshes : event.requiresRefresh
  · by_cases same : event.player = player <;>
      simp [refreshes, same, record, Std.ExtTreeSet.contains_insert]
  · by_cases same : event.player = player
    · subst same
      simp [refreshes, record]
    · simp [refreshes, same, record, Std.ExtTreeMap.getElem?_insert]

theorem apply_apply (cache : Cache) (event : ChangeEvent) : (cache.apply event).apply event = cache.apply event := by
  apply ext_record
  intro player
  rw [record_apply, record_apply]
  split
  · exact CacheRecord.take_take _ _
  · rfl

theorem record_applyAll (cache : Cache) (events : List ChangeEvent) (player : PlayerId) :
    (cache.applyAll events).record player =
      (events.filter (·.player = player)).foldl CacheRecord.take (cache.record player) := by
  induction events generalizing cache with
  | nil => rfl
  | cons event events ih =>
      have stepped : cache.applyAll (event :: events) = (cache.apply event).applyAll events := rfl
      rw [stepped, ih, record_apply]
      by_cases same : event.player = player <;> simp [same]

theorem record_applyAll_of_unconcerned (cache : Cache) {events : List ChangeEvent} {player : PlayerId}
    (unconcerned : ∀ event ∈ events, event.player ≠ player) :
    (cache.applyAll events).record player = cache.record player := by
  have none : events.filter (·.player = player) = [] := by simpa [List.filter_eq_nil_iff] using unconcerned
  rw [record_applyAll, none, List.foldl_nil]

theorem record_applyAll_of_single (cache : Cache) {events : List ChangeEvent} {event : ChangeEvent}
    (listed : event ∈ events) (single : ∀ other ∈ events, other.player = event.player → other = event) :
    (cache.applyAll events).record event.player = (cache.record event.player).take event := by
  rw [record_applyAll]
  apply CacheRecord.foldl_take_of_same
  · simpa using listed
  · intro other concerned
    obtain ⟨listedToo, same⟩ := List.mem_filter.mp concerned
    exact single other listedToo (by simpa using same)

theorem applyAll_congr (cache : Cache) {events deliveries : List ChangeEvent}
    (distinct : events.Pairwise fun left right => left.player ≠ right.player)
    (same : ∀ event, event ∈ deliveries ↔ event ∈ events) : cache.applyAll deliveries = cache.applyAll events := by
  have symmetric : Std.Symm fun left right : ChangeEvent => left.player ≠ right.player := ⟨fun _ _ => Ne.symm⟩
  have single : ∀ event ∈ events, ∀ other ∈ events, other.player = event.player → other = event := by
    intro event listed other listedToo named
    by_cases identical : other = event
    · exact identical
    · exact absurd named (distinct.forall listedToo listed identical)
  apply ext_record
  intro player
  by_cases concerned : ∃ event ∈ events, event.player = player
  · obtain ⟨event, listed, rfl⟩ := concerned
    rw [record_applyAll_of_single cache listed (single event listed),
      record_applyAll_of_single cache ((same event).mpr listed) fun other listedToo =>
        single event listed other ((same other).mp listedToo)]
  · rw [record_applyAll_of_unconcerned cache fun event listed named => concerned ⟨event, listed, named⟩,
      record_applyAll_of_unconcerned cache fun event listed named => concerned ⟨event, (same event).mp listed, named⟩]

/-- An event that is delivered twice leaves the cache as after the first time and concerns its own player alone. The
same holds for events of different players that are all delivered twice, in any order. -/
theorem redelivery_harmless (cache : Cache) (event : ChangeEvent) {events deliveries : List ChangeEvent}
    (distinct : events.Pairwise fun left right => left.player ≠ right.player)
    (twice : deliveries.Perm (events ++ events)) :
    (cache.apply event).apply event = cache.apply event ∧
      (∀ other, other ≠ event.player → (cache.apply event).record other = cache.record other) ∧
      cache.applyAll deliveries = cache.applyAll events ∧
      ∀ other, (∀ event ∈ events, event.player ≠ other) →
        (cache.applyAll deliveries).record other = cache.record other := by
  have same : ∀ event, event ∈ deliveries ↔ event ∈ events := fun event => by
    rw [twice.mem_iff, List.mem_append, or_self]
  refine ⟨cache.apply_apply event, fun other different => ?_, cache.applyAll_congr distinct same,
    fun other unconcerned => ?_⟩
  · rw [record_apply, if_neg different.symm]
  · exact cache.record_applyAll_of_unconcerned fun event listed => unconcerned event ((same event).mp listed)

def contradictory : ChangeEvent where
  toAnnouncement := .ofDelta Service.chief Reason.playerPermissionAdd
    { direct := [.add "fly" (some 9), .remove "fly", .add "fly" none], groups := [.remove "staff"],
      effective := [.remove "kick", .add "fly" (some 3)] } 1
  id := .zero

theorem redelivery_harmless_contradictory :
    let refresh : ChangeEvent := { Announcement.refresh Service.newcomer Reason.expiry 2 with id := .zero }
    let deliveries := [refresh, contradictory, contradictory, refresh]
    ([contradictory, refresh].Pairwise fun left right => left.player ≠ right.player) ∧
      deliveries.Perm ([contradictory, refresh] ++ [contradictory, refresh]) ∧
      Service.staffedCache.applyAll deliveries = Service.staffedCache.applyAll [contradictory, refresh] := by
  intro refresh deliveries
  have distinct : [contradictory, refresh].Pairwise fun left right => left.player ≠ right.player := by decide +kernel
  have twice : deliveries.Perm ([contradictory, refresh] ++ [contradictory, refresh]) := by decide +kernel
  exact ⟨distinct, twice, (redelivery_harmless Service.staffedCache contradictory distinct twice).2.2.1⟩

end Cache

end PermissionFeed
