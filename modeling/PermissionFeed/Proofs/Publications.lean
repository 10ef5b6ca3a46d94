import PermissionFeed.Proofs.Crowds

namespace PermissionFeed.Crowd

variable {cache : Cache} {store after : Store} {time : Instant} {players : Nat → PlayerId} {stages : Nat → Stage}
  {place : Nat}

structure Hears (cache : Cache) (store : Store) (time : Instant) (players : Nat → PlayerId) (stages : Nat → Stage) :
    Prop where
  fresh : ∀ player, player ∉ cache.stale
  pending : ∀ place before, (stages place).untold? = some before → cache.shown (players place) = .ofSnapshot before
  settled : ∀ player, (∀ place, players place = player → (stages place).untold? = none) →
    cache.shown player = store.shown player time

namespace Hears

theorem start (synced : cache.InSync store time) (players : Nat → PlayerId) (count : Nat) :
    Hears cache store time players (unbegun count) where
  fresh := synced.stale
  pending place before pending := by simp [untold_unbegun] at pending
  settled player _ := synced.shown player

theorem move (hears : Hears cache store time players stages) {stage : Stage}
    (same : stage.untold? = (stages place).untold?) : Hears cache store time players (assign stages place stage) := by
  have untold := untold_assign same
  refine ⟨hears.fresh, fun other before pending => ?_, fun player told => ?_⟩
  · exact hears.pending other before ((untold other).symm.trans pending)
  · exact hears.settled player fun other concerns => (untold other).symm.trans (told other concerns)

theorem write (hears : Hears cache store time players stages) (told : (stages place).untold? = none)
    (alone : Alone players stages place) (only : Store.OnlyPlayer (players place) store after) (claim : ClaimId) :
    Hears cache after time players (assign stages place (.telling claim (store.snapshot (players place) time))) := by
  refine ⟨hears.fresh, fun other before pending => ?_, fun player allTold => ?_⟩
  · by_cases same : other = place
    · subst same
      rw [assign_self] at pending
      obtain rfl := Option.some.inj pending
      refine hears.settled _ fun another concerns => ?_
      by_cases here : another = other
      · rw [here, told]
      · exact alone another here concerns
    · rw [assign_of_ne stages same] at pending
      exact hears.pending other before pending
  · have different : player ≠ players place := by
      rintro rfl
      have untold := allTold place rfl
      rw [assign_self] at untold
      contradiction
    rw [only.shown different]
    refine hears.settled player fun other concerns => ?_
    have apart : other ≠ place := by
      rintro rfl
      exact different concerns.symm
    rw [← allTold other concerns, assign_of_ne stages apart]

theorem tell (hears : Hears cache store time players stages) {heard : Cache} {stage : Stage}
    (alone : Alone players stages place) (told : stage.untold? = none) (fresh : ∀ player, player ∉ heard.stale)
    (knows : heard.shown (players place) = store.shown (players place) time)
    (others : ∀ player, player ≠ players place → heard.shown player = cache.shown player) :
    Hears heard store time players (assign stages place stage) := by
  refine ⟨fresh, fun other before pending => ?_, fun player allTold => ?_⟩
  · have apart : other ≠ place := by
      rintro rfl
      rw [assign_self, told] at pending
      contradiction
    rw [assign_of_ne stages apart] at pending
    have different : players other ≠ players place := by
      intro same
      rw [alone other apart same] at pending
      contradiction
    rw [others _ different]
    exact hears.pending other before pending
  · by_cases same : player = players place
    · rw [same, knows]
    · rw [others player same]
      refine hears.settled player fun other concerns => ?_
      have apart : other ≠ place := by
        rintro rfl
        exact same concerns.symm
      rw [← allTold other concerns, assign_of_ne stages apart]

theorem publish (hears : Hears cache store time players stages) {before : Snapshot} {stage : Stage}
    (untold : (stages place).untold? = some before) (alone : Alone players stages place)
    (told : stage.untold? = none) (reason : String) :
    Hears (cache.hear (.ofDelta (players place) reason
      (.between before (store.snapshot (players place) time) .all) time)) store time players
      (assign stages place stage) := by
  refine hears.tell alone told (fun player => ?_) ?_ fun player different => ?_
  · rw [Cache.mem_stale_hear]
    simpa [Announcement.ofDelta] using hears.fresh player
  · have knew := hears.pending place before untold
    rw [Cache.shown_hear, if_pos ⟨rfl, rfl⟩, Announcement.ofDelta, CachedPlayer.between_all]
    exact (CachedPlayer.apply_changesTo _ _ _).eq_of_synced knew
  · rw [Cache.shown_hear, if_neg fun concerned => different concerned.2.symm]

theorem drop (hears : Hears cache store time players stages) {before : Snapshot} {stage : Stage}
    (untold : (stages place).untold? = some before) (alone : Alone players stages place)
    (told : stage.untold? = none) (same : before = store.snapshot (players place) time) :
    Hears cache store time players (assign stages place stage) := by
  refine hears.tell alone told hears.fresh ?_ fun _ _ => rfl
  rw [hears.pending place before untold, same]
  rfl

end Hears

variable {beats : List Beat}

theorem writesAt_concat (beats : List Beat) (beat : Beat) (place : Nat) : writesAt (beats ++ [beat]) place =
    writesAt beats place ++ if beat.place = place ∧ beat.effect.writesPlayer then [beat] else [] := by
  by_cases here : beat.place = place <;> cases writes : beat.effect.writesPlayer <;>
    simp [writesAt, List.filter_append, here, writes]

structure Exact (beats : List Beat) (time : Instant) (place : Nat) (announcement : Announcement) : Prop where
  delta : announcement.requiresRefresh = false
  difference : ∃ write, writesAt beats place = [write] ∧
    announcement.delta = .between (write.before.store.snapshot announcement.player time)
      (write.after.store.snapshot announcement.player time) .all

theorem Exact.of_writes {place : Nat} {announcement : Announcement} {later : List Beat}
    (exact : Exact beats time place announcement) (same : writesAt later place = writesAt beats place) :
    Exact later time place announcement :=
  ⟨exact.delta, by rw [same]; exact exact.difference⟩

structure Records (store : Store) (time : Instant) (players : Nat → PlayerId) (stages : Nat → Stage)
    (beats : List Beat) : Prop where
  unwritten : ∀ place, (stages place).beforeWrite → writesAt beats place = []
  written : ∀ place before, (stages place).untold? = some before → ∃ write, writesAt beats place = [write] ∧
    write.before.store.snapshot (players place) time = before ∧
    write.after.store.snapshot (players place) time = store.snapshot (players place) time
  told : ∀ beat ∈ beats, ∀ announcement, beat.effect = .publish announcement →
    announcement.player = players beat.place ∧ Exact beats time beat.place announcement

namespace Records

theorem start (store : Store) (time : Instant) (players : Nat → PlayerId) (count : Nat) :
    Records store time players (unbegun count) [] where
  unwritten place _ := rfl
  written place before pending := by simp [untold_unbegun] at pending
  told _ listed := absurd listed List.not_mem_nil

theorem move (records : Records store time players stages beats) {stage : Stage}
    (untold : ∀ before, stage.untold? = some before → (stages place).untold? = some before)
    (early : stage.beforeWrite → (stages place).beforeWrite) :
    Records store time players (assign stages place stage) beats := by
  refine ⟨fun other before => ?_, fun other before pending => ?_, records.told⟩
  · by_cases same : other = place
    · subst same
      rw [assign_self] at before
      exact records.unwritten other (early before)
    · rw [assign_of_ne stages same] at before
      exact records.unwritten other before
  · by_cases same : other = place
    · subst same
      rw [assign_self] at pending
      exact records.written other before (untold before pending)
    · rw [assign_of_ne stages same] at pending
      exact records.written other before pending

theorem add (records : Records store time players stages beats) {beat : Beat}
    (keeps : beat.effect.writesPlayer = false)
    (told : ∀ announcement, beat.effect = .publish announcement →
      announcement.player = players beat.place ∧ Exact beats time beat.place announcement) :
    Records store time players stages (beats ++ [beat]) := by
  have same (place : Nat) : writesAt (beats ++ [beat]) place = writesAt beats place := by
    rw [writesAt_concat]
    simp [keeps]
  refine ⟨fun place early => ?_, fun place before pending => ?_, fun other listed announcement published => ?_⟩
  · rw [same]
    exact records.unwritten place early
  · rw [same]
    exact records.written place before pending
  · have exact : announcement.player = players other.place ∧ Exact beats time other.place announcement := by
      rcases List.mem_append.mp listed with earlier | last
      · exact records.told other earlier announcement published
      · obtain rfl : other = beat := by simpa using last
        exact told announcement published
    exact ⟨exact.1, exact.2.of_writes (same _)⟩

theorem write (beat : Beat) (records : Records beat.before.store time players stages beats) (here : beat.place = place)
    (early : (stages place).beforeWrite) (alone : Alone players stages place) (writes : beat.effect.writesPlayer)
    (only : Store.OnlyPlayer (players place) beat.before.store beat.after.store) (claim : ClaimId) :
    Records beat.after.store time players
      (assign stages place (.telling claim (beat.before.store.snapshot (players place) time))) (beats ++ [beat]) := by
  subst here
  have elsewhere {other : Nat} (apart : other ≠ beat.place) :
      writesAt (beats ++ [beat]) other = writesAt beats other := by
    rw [writesAt_concat, if_neg fun both => apart both.1.symm, List.append_nil]
  refine ⟨fun other before => ?_, fun other before pending => ?_, fun other listed announcement published => ?_⟩
  · have apart : other ≠ beat.place := by
      rintro rfl
      rw [assign_self] at before
      contradiction
    rw [assign_of_ne stages apart] at before
    rw [elsewhere apart]
    exact records.unwritten other before
  · by_cases same : other = beat.place
    · subst same
      rw [assign_self] at pending
      refine ⟨beat, ?_, Option.some.inj pending, rfl⟩
      rw [writesAt_concat, records.unwritten _ early, if_pos ⟨rfl, writes⟩, List.nil_append]
    · rw [assign_of_ne stages same] at pending
      have different : players other ≠ players beat.place := by
        intro shared
        rw [alone other same shared] at pending
        contradiction
      obtain ⟨first, once, was, is⟩ := records.written other before pending
      exact ⟨first, (elsewhere same).trans once, was, is.trans ((only.alike different).snapshot time).symm⟩
  · rcases List.mem_append.mp listed with earlier | last
    · obtain ⟨concerns, exact⟩ := records.told other earlier announcement published
      -- who has published has written before
      have apart : other.place ≠ beat.place := by
        intro same
        obtain ⟨write, found, _⟩ := exact.difference
        rw [same, records.unwritten _ early] at found
        contradiction
      exact ⟨concerns, exact.of_writes (elsewhere apart)⟩
    · obtain rfl : other = beat := by simpa using last
      rw [published] at writes
      contradiction

theorem exact (records : Records store time players stages beats) {before : Snapshot}
    (untold : (stages place).untold? = some before) (reason : String) :
    Exact beats time place (.ofDelta (players place) reason
      (.between before (store.snapshot (players place) time) .all) time) := by
  obtain ⟨write, once, was, is⟩ := records.written place before untold
  refine ⟨rfl, write, once, ?_⟩
  rw [Announcement.ofDelta, was, is]

end Records

end PermissionFeed.Crowd
