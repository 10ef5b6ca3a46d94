import PermissionFeed.Proofs.Engine

namespace PermissionFeed

namespace Announcement

def ofCaptures (player : PlayerId) (reason : String) (dimensions : Dimensions) (time : Instant) :
    Option Snapshot → Option Snapshot → List Announcement
  | some before, some after => ofChange player reason dimensions before after time
  | _, _ => [refresh player reason time]

variable {player : PlayerId} {reason : String} {dimensions : Dimensions} {time : Instant}
  {before after : Option Snapshot} {announcement : Announcement}

theorem isWellFormed_of_ofCaptures (listed : announcement ∈ ofCaptures player reason dimensions time before after) :
    announcement.isWellFormed := by
  unfold ofCaptures ofChange at listed
  split at listed
  · split at listed
    · exact nomatch listed
    · next nonempty =>
        obtain rfl := List.mem_singleton.mp listed
        simpa [isWellFormed, hasNoDeltas, ofDelta] using nonempty
  · obtain rfl := List.mem_singleton.mp listed
    rfl

theorem ofCaptures_of_missing (missing : before = none ∨ after = none) :
    ofCaptures player reason dimensions time before after = [refresh player reason time] := by
  cases before with
  | none => rfl
  | some before =>
      cases after with
      | none => rfl
      | some after => simp at missing

end Announcement

theorem Service.complete_emitDelta (service : Service) (player : PlayerId) (reason : String)
    (before after : Option Snapshot) (dimensions : Dimensions) :
    ∃ ran, service.complete (Engine.emitDelta player reason before after dimensions) = some ran ∧
      ran.service.feed = service.feed.publishAll ran.events ∧
      ran.events.map ChangeEvent.toAnnouncement =
        Announcement.ofCaptures player reason dimensions service.clock before after := by
  unfold Engine.emitDelta Announcement.ofCaptures
  cases before with
  | none => exact ⟨_, rfl, rfl, rfl⟩
  | some before =>
      cases after with
      | none => exact ⟨_, rfl, rfl, rfl⟩
      | some after =>
          have difference : Delta.between? (some before) (some after) dimensions = some (.between before after dimensions) :=
            rfl
          rw [difference]
          simp only [Announcement.ofChange]
          split
          · exact ⟨_, rfl, rfl, rfl⟩
          · exact ⟨_, rfl, rfl, rfl⟩

namespace Cache

theorem mem_players_hear {cache : Cache} {player : PlayerId} (loaded : player ∈ cache.players)
    (announcement : Announcement) : player ∈ (cache.hear announcement).players := by
  unfold hear apply
  cases announcement.requiresRefresh with
  | true => exact loaded
  | false => exact Std.ExtTreeMap.mem_insert.mpr (Or.inr loaded)

theorem mem_players_hearAll {cache : Cache} {player : PlayerId} (loaded : player ∈ cache.players)
    (news : List Announcement) : player ∈ (cache.hearAll news).players := by
  induction news generalizing cache with
  | nil => exact loaded
  | cons first news ih => exact ih (mem_players_hear loaded first)

structure Tracks (cache : Cache) (player : PlayerId) (snapshot : Snapshot) : Prop where
  loaded : player ∈ cache.players
  level : player ∉ cache.stale → cache.shown player = .ofSnapshot snapshot

namespace Tracks

variable {cache : Cache} {player : PlayerId} {snapshot : Snapshot}

theorem load (cache : Cache) (named : snapshot.player = player) : (cache.load snapshot).Tracks player snapshot where
  loaded := named ▸ Std.ExtTreeMap.mem_insert_self
  level _ := by rw [shown_load, if_pos named]

theorem stale_or_cached (tracks : cache.Tracks player snapshot) :
    player ∈ cache.stale ∨ cache.players[player]? = some (.ofSnapshot snapshot) := by
  by_cases stale : player ∈ cache.stale
  · exact Or.inl stale
  · obtain ⟨cached, found⟩ := Option.isSome_iff_exists.mp (Std.ExtTreeMap.mem_iff_isSome_getElem?.mp tracks.loaded)
    have shown : cached = .ofSnapshot snapshot := by simpa [shown, found] using tracks.level stale
    exact Or.inr (shown ▸ found)

end Tracks

theorem mem_stale_hearAll_ofCaptures {cache : Cache} {player : PlayerId} {reason : String} {dimensions : Dimensions}
    {time : Instant} {before after : Option Snapshot} :
    player ∈ (cache.hearAll (Announcement.ofCaptures player reason dimensions time before after)).stale ↔
      player ∈ cache.stale ∨ before = none ∨ after = none := by
  cases before with
  | none => simp [Announcement.ofCaptures_of_missing, mem_stale_hearAll, Announcement.refresh]
  | some before =>
      cases after with
      | none => simp [Announcement.ofCaptures_of_missing, mem_stale_hearAll, Announcement.refresh]
      | some after => simp [Announcement.ofCaptures, stale_hearAll_ofChange]

theorem Tracks.hear {cache : Cache} {player : PlayerId} {state later : Snapshot} (tracks : cache.Tracks player state)
    (reason : String) (time : Instant) {before after : Option Snapshot} (starts : ∀ read ∈ before, read = state)
    (ends : ∀ read ∈ after, read = later) :
    (cache.hearAll (Announcement.ofCaptures player reason .all time before after)).Tracks player later where
  loaded := mem_players_hearAll tracks.loaded _
  level fresh := by
    rw [mem_stale_hearAll_ofCaptures, not_or, not_or] at fresh
    obtain ⟨fresh, hasBefore, hasAfter⟩ := fresh
    obtain ⟨earlier, rfl⟩ := Option.ne_none_iff_exists'.mp hasBefore
    obtain ⟨last, rfl⟩ := Option.ne_none_iff_exists'.mp hasAfter
    obtain rfl := starts earlier rfl
    obtain rfl := ends last rfl
    rw [Announcement.ofCaptures, shown_hearAll_ofChange, if_pos rfl, CachedPlayer.between_all]
    exact (CachedPlayer.apply_changesTo _ _ _).eq_of_synced (tracks.level fresh)

end Cache

def PlayerState (player : PlayerId) : Type :=
  { snapshot : Snapshot // snapshot.player = player }

structure PlayerChange (player : PlayerId) where
  reason : String
  time : Instant
  readBefore : Bool
  readAfter : Bool
  next : PlayerState player

namespace PlayerChange

variable {player : PlayerId}

def before? (change : PlayerChange player) (state : PlayerState player) : Option Snapshot :=
  if change.readBefore then some state.val else none

def after? (change : PlayerChange player) : Option Snapshot :=
  if change.readAfter then some change.next.val else none

def MissesCapture (change : PlayerChange player) : Prop :=
  change.readBefore = false ∨ change.readAfter = false

variable (change : PlayerChange player)

theorem before?_eq_none_iff {state : PlayerState player} : change.before? state = none ↔ change.readBefore = false := by
  simp [before?]

theorem after?_eq_none_iff : change.after? = none ↔ change.readAfter = false := by
  simp [after?]

theorem eq_of_before? {state : PlayerState player} {read : Snapshot} (given : read ∈ change.before? state) :
    read = state.val := by
  obtain ⟨_, same⟩ : change.readBefore = true ∧ state.val = read := by simpa [before?] using given
  exact same.symm

theorem eq_of_after? {read : Snapshot} (given : read ∈ change.after?) : read = change.next.val := by
  obtain ⟨_, same⟩ : change.readAfter = true ∧ change.next.val = read := by simpa [after?] using given
  exact same.symm

end PlayerChange

inductive FollowerStep (player : PlayerId) where
  | change (change : PlayerChange player)
  | load

structure ChangeReport (player : PlayerId) where
  state : PlayerState player
  change : PlayerChange player
  events : List ChangeEvent

structure Follower (player : PlayerId) where
  service : Service
  cache : Cache
  state : PlayerState player
  reports : List (ChangeReport player)

namespace Follower

variable {player : PlayerId}

def change (follower : Follower player) (change : PlayerChange player) : Option (Follower player) := do
  let announcing : Routine Emission :=
    Engine.emitDelta player change.reason (change.before? follower.state) change.after? .all
  let ran ← { follower.service with clock := change.time }.complete announcing
  return {
    service := ran.service
    cache := follower.cache.applyAll ran.events
    state := change.next
    reports := follower.reports ++ [⟨follower.state, change, ran.events⟩] }

def take (follower : Follower player) : FollowerStep player → Option (Follower player)
  | .change change => follower.change change
  | .load => some { follower with cache := follower.cache.load follower.state.val }

def takeAll (follower : Follower player) (steps : List (FollowerStep player)) : Option (Follower player) :=
  steps.foldlM take follower

def start (service : Service) (cache : Cache) (state : PlayerState player) : Follower player :=
  ⟨service, cache.load state.val, state, []⟩

end Follower

def FollowerStep.change? {player : PlayerId} : FollowerStep player → Option (PlayerChange player)
  | .change made => some made
  | .load => none

/-- Some change missed a capture, and no load came after it. -/
def Degraded {player : PlayerId} (steps : List (FollowerStep player)) : Prop :=
  ∃ earlier change later, steps = earlier ++ .change change :: later ∧ change.MissesCapture ∧ .load ∉ later

theorem not_degraded_nil {player : PlayerId} : ¬ Degraded ([] : List (FollowerStep player)) := by
  rintro ⟨earlier, change, later, split, _⟩
  simp at split

theorem degraded_load_cons_iff {player : PlayerId} {steps : List (FollowerStep player)} :
    Degraded (.load :: steps) ↔ Degraded steps := by
  constructor
  · rintro ⟨_ | ⟨first, earlier⟩, change, later, split, misses, unloaded⟩
    · simp at split
    · exact ⟨earlier, change, later, (List.cons.inj split).2, misses, unloaded⟩
  · rintro ⟨earlier, change, later, rfl, misses, unloaded⟩
    exact ⟨.load :: earlier, change, later, rfl, misses, unloaded⟩

theorem degraded_change_cons_iff {player : PlayerId} {change : PlayerChange player}
    {steps : List (FollowerStep player)} :
    Degraded (.change change :: steps) ↔ Degraded steps ∨ change.MissesCapture ∧ .load ∉ steps := by
  constructor
  · rintro ⟨_ | ⟨first, earlier⟩, other, later, split, misses, unloaded⟩
    · obtain ⟨same, rfl⟩ := List.cons.inj split
      obtain rfl := FollowerStep.change.inj same
      exact Or.inr ⟨misses, unloaded⟩
    · exact Or.inl ⟨earlier, other, later, (List.cons.inj split).2, misses, unloaded⟩
  · rintro (⟨earlier, other, later, rfl, misses, unloaded⟩ | ⟨misses, unloaded⟩)
    · exact ⟨.change change :: earlier, other, later, rfl, misses, unloaded⟩
    · exact ⟨[], change, steps, rfl, misses, unloaded⟩

namespace ChangeReport

variable {player : PlayerId}

def IsExact (report : ChangeReport player) : Prop :=
  report.events.map ChangeEvent.toAnnouncement =
    Announcement.ofCaptures player report.change.reason .all report.change.time (report.change.before? report.state)
      report.change.after?

theorem IsExact.isWellFormed {report : ChangeReport player} (exact : report.IsExact) {event : ChangeEvent}
    (listed : event ∈ report.events) : event.isWellFormed := by
  have announced : event.toAnnouncement ∈ report.events.map ChangeEvent.toAnnouncement := List.mem_map_of_mem listed
  rw [exact] at announced
  exact Announcement.isWellFormed_of_ofCaptures announced

theorem IsExact.eq_nil {report : ChangeReport player} (exact : report.IsExact)
    (whole : ¬ report.change.MissesCapture)
    (unchanged : (Delta.between report.state.val report.change.next.val .all).isEmpty) : report.events = [] := by
  simp only [PlayerChange.MissesCapture, not_or, Bool.not_eq_false] at whole
  apply List.map_eq_nil_iff.mp
  rw [exact, PlayerChange.before?, PlayerChange.after?, if_pos whole.1, if_pos whole.2]
  exact if_pos unchanged

end ChangeReport

namespace Follower

variable {player : PlayerId}

structure Consistent (follower : Follower player) : Prop where
  tracks : follower.cache.Tracks player follower.state.val
  exact : ∀ report ∈ follower.reports, report.IsExact

theorem consistent_start (service : Service) (cache : Cache) (state : PlayerState player) :
    (start service cache state).Consistent where
  tracks := .load cache state.property
  exact _ listed := nomatch listed

theorem exists_change (follower : Follower player) (change : PlayerChange player) :
    ∃ service events, ChangeReport.IsExact ⟨follower.state, change, events⟩ ∧
      service.feed = follower.service.feed.publishAll events ∧
      follower.change change = some ⟨service, follower.cache.applyAll events, change.next,
        follower.reports ++ [⟨follower.state, change, events⟩]⟩ := by
  obtain ⟨ran, completed, published, announced⟩ := Service.complete_emitDelta
    { follower.service with clock := change.time } player change.reason (change.before? follower.state) change.after?
    .all
  refine ⟨ran.service, ran.events, announced, published, ?_⟩
  unfold Follower.change
  simp only [completed]
  rfl

theorem Consistent.load {follower : Follower player} (consistent : follower.Consistent) :
    ({ follower with cache := follower.cache.load follower.state.val } : Follower player).Consistent where
  tracks := .load _ follower.state.property
  exact := consistent.exact

theorem Consistent.change {follower : Follower player} (consistent : follower.Consistent)
    (change : PlayerChange player) :
    ∃ after events, follower.change change = some after ∧ after.Consistent ∧
      (player ∈ after.cache.stale ↔ player ∈ follower.cache.stale ∨ change.MissesCapture) ∧
      after.reports = follower.reports ++ [⟨follower.state, change, events⟩] ∧
      after.service.feed = follower.service.feed.publishAll events := by
  obtain ⟨service, events, exact, published, changed⟩ := follower.exists_change change
  have heard : follower.cache.applyAll events = follower.cache.hearAll
      (Announcement.ofCaptures player change.reason .all change.time (change.before? follower.state) change.after?) := by
    rw [Cache.applyAll_eq_hearAll]
    exact congrArg follower.cache.hearAll exact
  refine ⟨_, events, changed, ⟨?_, ?_⟩, ?_, rfl, published⟩
  · rw [heard]
    refine consistent.tracks.hear _ _ (fun read given => ?_) fun read given => ?_
    · exact change.eq_of_before? given
    · exact change.eq_of_after? given
  · intro report listed
    rcases List.mem_append.mp listed with earlier | last
    · exact consistent.exact report earlier
    · exact List.mem_singleton.mp last ▸ exact
  · rw [heard, Cache.mem_stale_hearAll_ofCaptures, change.before?_eq_none_iff, change.after?_eq_none_iff]
    rfl

theorem Consistent.takeAll {follower : Follower player} (consistent : follower.Consistent)
    (steps : List (FollowerStep player)) :
    ∃ last reports, follower.takeAll steps = some last ∧ last.Consistent ∧
      (player ∈ last.cache.stale ↔ Degraded steps ∨ player ∈ follower.cache.stale ∧ .load ∉ steps) ∧
      last.reports = follower.reports ++ reports ∧
      reports.map ChangeReport.change = steps.filterMap FollowerStep.change? ∧
      last.service.feed = follower.service.feed.publishAll (reports.flatMap ChangeReport.events) := by
  induction steps generalizing follower with
  | nil => exact ⟨follower, [], rfl, consistent, by simp [not_degraded_nil], by simp, rfl, rfl⟩
  | cons step steps ih =>
      cases step with
      | load =>
          obtain ⟨last, reports, taken, sound, stale, reported, listed, published⟩ := ih consistent.load
          refine ⟨last, reports, taken, sound, ?_, reported, listed, published⟩
          have fresh : player ∉ (follower.cache.load follower.state.val).stale := by
            simp [Cache.load, follower.state.property]
          simp [stale, fresh, degraded_load_cons_iff]
      | change change =>
          obtain ⟨after, events, changed, between, staleAfter, first, announced⟩ := consistent.change change
          obtain ⟨last, reports, taken, sound, stale, reported, listed, published⟩ := ih between
          refine ⟨last, ⟨follower.state, change, events⟩ :: reports, ?_, sound, ?_, ?_, ?_, ?_⟩
          · rw [Follower.takeAll, List.foldlM_cons, take, changed]
            exact taken
          · rw [stale, staleAfter, degraded_change_cons_iff]
            simp only [List.mem_cons, reduceCtorEq, false_or]
            rw [or_and_right, or_assoc]
            exact or_congr_right or_comm
          · rw [reported, first, List.append_assoc]
            rfl
          · rw [List.map_cons, listed]
            rfl
          · rw [published, announced, List.flatMap_cons, Feed.publishAll_append]

/-- A player whose captures failed is stale until the next load, and one that is not stale is cached as it is. -/
theorem degrades_safely (service : Service) (cache : Cache) (first : PlayerState player)
    (steps : List (FollowerStep player)) :
    ∃ last, (start service cache first).takeAll steps = some last ∧
      (player ∈ last.cache.stale ∨ last.cache.players[player]? = some (.ofSnapshot last.state.val)) ∧
      (player ∈ last.cache.stale ↔ Degraded steps) ∧
      last.reports.map ChangeReport.change = steps.filterMap FollowerStep.change? ∧
      last.service.feed = service.feed.publishAll (last.reports.flatMap ChangeReport.events) ∧
      ∀ report ∈ last.reports, (∀ event ∈ report.events, event.isWellFormed) ∧
        (¬ report.change.MissesCapture →
          (Delta.between report.state.val report.change.next.val .all).isEmpty → report.events = []) := by
  obtain ⟨last, reports, taken, sound, stale, reported, listed, published⟩ :=
    (consistent_start service cache first).takeAll steps
  obtain rfl : last.reports = reports := reported
  refine ⟨last, taken, sound.tracks.stale_or_cached, ?_, listed, published, fun report among => ?_⟩
  · have fresh : player ∉ (cache.load first.val).stale := by simp [Cache.load, first.property]
    simpa [start, fresh] using stale
  · have exact := sound.exact report among
    exact ⟨fun event among => exact.isWellFormed among, exact.eq_nil⟩

end Follower

end PermissionFeed
