import PermissionFeed.Proofs.LateJoiners

/-!
# Players who leave while a group write is announced

Others may also run between a group write and the second reading of the members. A player who joined before the write
and leaves before that reading is neither told of the write by a delta nor asked to load again. Whatever the write
changed for this player stays unknown unless some own event of the player happens to mention it
(`Service.leavers_missed`).
-/

namespace PermissionFeed

def Mentioned (log : List ChangeEvent) (player : PlayerId) (facet : Facet) (key : String) : Prop :=
  ∃ event ∈ log, event.player = player ∧ event.delta.Mentions facet key

theorem mentioned_append {first second : List ChangeEvent} {player : PlayerId} {facet : Facet} {key : String} :
    Mentioned (first ++ second) player facet key ↔
      Mentioned first player facet key ∨ Mentioned second player facet key := by
  simp [Mentioned, or_and_right, exists_or]

theorem mentioned_singleton {event : ChangeEvent} {player : PlayerId} {facet : Facet} {key : String} :
    Mentioned [event] player facet key ↔ event.player = player ∧ event.delta.Mentions facet key := by
  simp [Mentioned]

theorem Store.Announced.mentioned_iff {before after : Store} {time : Instant} {events : List ChangeEvent}
    (announced : Announced before after time (events.map ChangeEvent.toAnnouncement)) {player : PlayerId}
    {facet : Facet} {key : String} : Mentioned events player facet key ↔
      (before.shown player time).entry facet key ≠ (after.shown player time).entry facet key := by
  constructor
  · rintro ⟨event, listed, rfl, mentions⟩
    rw [(announced.exact _ (List.mem_map_of_mem listed)).2.2, CachedPlayer.between_all] at mentions
    exact CachedPlayer.mentions_changesTo_iff.mp mentions
  · intro differs
    have concerned := (announced.concerns player).mpr fun same => differs (by rw [snapshot_eq_iff.mp same])
    obtain ⟨announcement, announces, rfl⟩ := List.mem_map.mp concerned
    obtain ⟨event, listed, rfl⟩ := List.mem_map.mp announces
    refine ⟨event, listed, rfl, ?_⟩
    rw [(announced.exact _ announces).2.2, CachedPlayer.between_all]
    exact CachedPlayer.mentions_changesTo_iff.mpr differs

namespace Service

open Engine

/-! ## After the write -/

/-- What a consumer has since a group was written: each entry is as it is stored if it was mentioned since, else it is
as before the write and nobody else has changed it. The members who do not wait any more were told of the write. -/
structure Trails (before : Store) (base : Service) (members : PlayerSet) (held : Option LockTable) (cache : Cache)
    (waiting : List PlayerId) (service : Service) (log : List ChangeEvent) : Prop extends
    Kept base members held service where
  fresh : ∀ player, player ∉ (cache.applyAll log).stale
  mentioned : ∀ player facet key, Mentioned log player facet key →
    ((cache.applyAll log).shown player).entry facet key = (service.store.shown player base.clock).entry facet key
  unmentioned : ∀ player facet key, ¬Mentioned log player facet key →
    ((cache.applyAll log).shown player).entry facet key = (before.shown player base.clock).entry facet key ∧
      (service.store.shown player base.clock).entry facet key = (base.store.shown player base.clock).entry facet key
  told : ∀ player ∈ members, player ∉ waiting → ∀ facet key,
    (before.shown player base.clock).entry facet key ≠ (base.store.shown player base.clock).entry facet key →
      Mentioned log player facet key

variable {before : Store} {base service : Service} {members : PlayerSet} {held : Option LockTable} {cache : Cache}
  {waiting : List PlayerId} {log : List ChangeEvent}

namespace Trails

theorem withLocks (trails : Trails before base members held cache waiting service log) {locks now : Option LockTable}
    (agree : LocksAgree locks now) : Trails before base members now cache waiting { service with locks } log :=
  { trails with toKept := trails.toKept.withLocks agree }

theorem start (synced : cache.InSync before base.clock)
    (told : ∀ player ∈ members, player ∉ waiting → before.shown player base.clock = base.store.shown player base.clock)
    (agree : LocksAgree base.locks held) : Trails before base members held cache waiting base [] where
  toKept := ⟨rfl, rfl, fun _ _ => rfl, fun _ _ => rfl, agree⟩
  fresh := synced.stale
  mentioned player facet key mentioned := by simp [Mentioned] at mentioned
  unmentioned player facet key _ := ⟨congrArg (·.entry facet key) (synced.shown player), rfl⟩
  told player inside settled facet key differs := absurd (by rw [told player inside settled]) differs

theorem hear (trails : Trails before base members held cache waiting service log) {events : List ChangeEvent}
    {after : Service} (kept : Kept base members held after)
    (fresh : (cache.applyAll (log ++ events)).stale = (cache.applyAll log).stale)
    (heard : ∀ player facet key, Mentioned events player facet key →
      ((cache.applyAll (log ++ events)).shown player).entry facet key =
        (after.store.shown player base.clock).entry facet key)
    (unheard : ∀ player facet key, ¬Mentioned events player facet key →
      ((cache.applyAll (log ++ events)).shown player).entry facet key =
          ((cache.applyAll log).shown player).entry facet key ∧
        (after.store.shown player base.clock).entry facet key =
          (service.store.shown player base.clock).entry facet key) :
    Trails before base members held cache waiting after (log ++ events) where
  toKept := kept
  fresh player := fresh ▸ trails.fresh player
  mentioned player facet key mentioned := by
    by_cases later : Mentioned events player facet key
    · exact heard player facet key later
    · obtain ⟨cached, stored⟩ := unheard player facet key later
      rw [cached, stored]
      exact trails.mentioned player facet key ((mentioned_append.mp mentioned).resolve_right later)
  unmentioned player facet key unmentioned := by
    rw [mentioned_append, not_or] at unmentioned
    obtain ⟨cached, stored⟩ := unheard player facet key unmentioned.2
    rw [cached, stored]
    exact trails.unmentioned player facet key unmentioned.1
  told player inside settled facet key differs :=
    mentioned_append.mpr (Or.inl (trails.told player inside settled facet key differs))

theorem stable (free : OthersFree members held) (before : Store) (base : Service) (cache : Cache)
    (waiting : List PlayerId) :
    Stable (Mutation.Outside members) (Trails before base members held cache waiting) := by
  intro service log mutation outside trails
  obtain ⟨ran, completed, kept, announced⟩ := trails.toKept.other free outside
  rw [trails.clock] at announced
  have extended : cache.applyAll (log ++ ran.events) =
      (cache.applyAll log).hearAll (ran.events.map ChangeEvent.toAnnouncement) := by
    rw [Cache.applyAll_append, Cache.applyAll_eq_hearAll _ ran.events]
  have follows (player : PlayerId) := announced.told.follows (cache.applyAll log) player
  refine ⟨ran, completed, trails.hear kept ?_ (fun player facet key mentioned => ?_) fun player facet key unmentioned => ?_⟩
  · rw [extended, announced.told.stale]
  · rw [extended, follows player facet key, if_neg (announced.mentioned_iff.mp mentioned)]
  · have same := Classical.not_not.mp (mt announced.mentioned_iff.mpr unmentioned)
    rw [extended, follows player facet key, if_pos same]
    exact ⟨rfl, same.symm⟩

/-! ### Telling the members -/

theorem settle {player : PlayerId} (trails : Trails before base members held cache (player :: waiting) service log)
    (told : ∀ facet key, (before.shown player base.clock).entry facet key ≠
      (base.store.shown player base.clock).entry facet key → Mentioned log player facet key) :
    Trails before base members held cache waiting service log :=
  { trails with
    told := fun other inside settled facet key differs => by
      by_cases same : other = player
      · subst same
        exact told facet key differs
      · exact trails.told other inside (by simp [same, settled]) facet key differs }

theorem tell {player : PlayerId} (trails : Trails before base members held cache (player :: waiting) service log)
    (inside : player ∈ members) {event : ChangeEvent} (concerns : event.player = player)
    (delta : event.requiresRefresh = false)
    (whole : event.delta = (before.shown player base.clock).changesTo (base.store.shown player base.clock))
    {after : Service} (kept : Kept base members held after) (store : after.store = service.store) :
    Trails before base members held cache waiting after (log ++ [event]) := by
  have heard : cache.applyAll (log ++ [event]) = (cache.applyAll log).hear event.toAnnouncement := by
    rw [Cache.applyAll_append]
    rfl
  -- the rows of members are as they were when the group was written
  have stored : after.store.shown player base.clock = base.store.shown player base.clock := by
    have same := kept.snapshot inside
    rw [kept.clock] at same
    exact congrArg CachedPlayer.ofSnapshot same
  have mentions {other : PlayerId} {facet : Facet} {key : String} : Mentioned [event] other facet key ↔
      player = other ∧ (before.shown player base.clock).entry facet key ≠
        (base.store.shown player base.clock).entry facet key := by
    rw [mentioned_singleton, whole, CachedPlayer.mentions_changesTo_iff, concerns]
  have follows (other : PlayerId) : (cache.applyAll (log ++ [event])).shown other =
      if player = other then ((cache.applyAll log).shown other).apply event.delta
      else (cache.applyAll log).shown other := by
    rw [heard, Cache.shown_hear]
    simp only [delta, true_and, concerns]
  have still : Trails before base members held cache (player :: waiting) after (log ++ [event]) := by
    refine trails.hear kept ?_ (fun other facet key mentioned => ?_) fun other facet key unmentioned => ?_
    · apply Std.ExtTreeSet.ext_mem
      intro other
      rw [heard, Cache.mem_stale_hear]
      simp [delta]
    · obtain ⟨rfl, differs⟩ := mentions.mp mentioned
      rw [follows, if_pos rfl, whole, CachedPlayer.apply_changesTo, if_neg differs, stored]
    · refine ⟨?_, by rw [store]⟩
      rw [follows]
      split
      · next same =>
          subst same
          have unchanged := Classical.not_not.mp fun differs => unmentioned (mentions.mpr ⟨rfl, differs⟩)
          rw [whole, CachedPlayer.apply_changesTo, if_pos unchanged]
      · rfl
  exact still.settle fun facet key differs => mentioned_append.mpr (Or.inr (mentions.mpr ⟨rfl, differs⟩))

end Trails

theorem emitDeltas_cons (reason : String) (dimensions : Dimensions) (player : PlayerId) (players : List PlayerId)
    (before after : Snapshot) (befores afters : List (Option Snapshot)) :
    emitDeltas reason dimensions (player :: players) (some before :: befores) (some after :: afters) =
      if (Delta.between before after dimensions).isEmpty then emitDeltas reason dimensions players befores afters
      else .step .readClock fun time =>
        .step (.publish (.ofDelta player reason (.between before after dimensions) time)) fun _ =>
          emitDeltas reason dimensions players befores afters := by
  have difference : Delta.between? (some before) (some after) dimensions = some (.between before after dimensions) := rfl
  rw [emitDeltas, emitDelta, difference]
  simp only
  split <;> rfl

variable {α : Type} {arrives : Routine α → Service → List ChangeEvent → Prop}

theorem meets_emitDeltas (free : OthersFree members held) {dimensions : Dimensions}
    (whole : ∀ player, Delta.between (before.snapshot player base.clock) (base.store.snapshot player base.clock) dimensions =
      (before.shown player base.clock).changesTo (base.store.shown player base.clock))
    (reason : String) (order : List Nat) {players : List PlayerId} (inside : ∀ player ∈ players, player ∈ members)
    {rest : Unit → Routine α} (goesOn : Meets Effect.readsMembers (Mutation.Outside members)
      (Trails before base members held cache []) ((rest ()).spread order) arrives) :
    Meets Effect.readsMembers (Mutation.Outside members) (Trails before base members held cache players)
      (Routine.spread order (emitDeltas reason dimensions players
        (players.map fun player => some (before.snapshot player base.clock))
        (players.map fun player => some (base.store.snapshot player base.clock)) >>= rest)) arrives := by
  induction players with
  | nil => exact goesOn
  | cons player players ih =>
      have ih := ih fun other listed => inside other (by simp [listed])
      have stable := Trails.stable free before base cache (player :: players)
      rw [List.map_cons, List.map_cons, emitDeltas_cons]
      split
      · next empty =>
          rw [whole, CachedPlayer.isEmpty_changesTo_iff] at empty
          intro service log gaps allowed trails
          exact ih service log gaps allowed (trails.settle fun facet key differs => absurd (by rw [empty]) differs)
      · refine .silent .readClock stable rfl fun service log trails =>
          ⟨service.clock, service, rfl, rfl, Trails before base members held cache (player :: players), trails, ?_⟩
        refine .step (.publish _) stable rfl fun service log trails =>
          ⟨_, _, rfl, Trails before base members held cache players, ?_, ih⟩
        exact trails.tell (inside player (by simp)) rfl rfl (whole player) { trails.toKept with } rfl

def AtReading (before : Store) (base : Service) (members : PlayerSet) (cache : Cache) (group reason : String)
    (emitted : Bool) (left : Routine α) (service : Service) (log : List ChangeEvent) : Prop :=
  (∃ held, Trails before base members held cache [] service log) ∧
    ∃ ran, service.complete left = some ran ∧ ran.service.store = service.store ∧
      ran.service.clock = service.clock ∧ ran.events.map ChangeEvent.toAnnouncement =
        if emitted then (service.store.activeMembers group service.clock \ members).toList.map fun player =>
          .refresh player reason service.clock
        else []

theorem meets_reading (free : OthersFree members held) (before : Store) (base : Service) (cache : Cache)
    (group reason : String) (result : Except EngineError Outcome)
    {ending : Except EngineError Outcome → Routine (Except EngineError Outcome)} (unlocks : Unlocks ending)
    (order : List Nat) :
    Meets Effect.readsMembers (Mutation.Outside members) (Trails before base members held cache [])
      (Routine.spread order ((refreshLateJoiners group reason members >>= fun _ => return result) >>= ending))
      (AtReading before base members cache group reason true) := by
  have stable := Trails.stable free before base cache []
  refine .silent .readClock stable rfl fun service log trails =>
    ⟨service.clock, service, rfl, rfl, Trails before base members held cache [], trails, ?_⟩
  rw [trails.clock]
  refine .stop (.call (.activeMembers group base.clock)) stable rfl fun service log trails => ⟨⟨held, trails⟩, ?_⟩
  obtain ⟨ran, completed, _, store, clock, news⟩ :=
    unlocks.complete ((achieves_refreshLateJoiners service group reason members).andReturn result)
  -- reading the clock first makes no difference, and neither does it that what is left is still spread
  rw [← complete_spread service order] at completed
  rw [← trails.clock]
  exact ⟨ran, (Ran.map_after_nil _).symm.trans completed, store, clock, news⟩

theorem meets_conclusion (free : OthersFree members held) {dimensions : Dimensions}
    (whole : ∀ player, Delta.between (before.snapshot player base.clock) (base.store.snapshot player base.clock) dimensions =
      (before.shown player base.clock).changesTo (base.store.shown player base.clock))
    (cache : Cache) (group reason : String) {result : Except StoreError Outcome}
    {ending : Except EngineError Outcome → Routine (Except EngineError Outcome)} (unlocks : Unlocks ending)
    (order : List Nat) (emitted : Outcome.isEmitted result) :
    Meets Effect.readsMembers (Mutation.Outside members) (Trails before base members held cache members.toList)
      (Routine.spread order (concludeGroup group reason dimensions members
        (members.toList.map fun player => some (before.snapshot player base.clock)) result >>= ending))
      (AtReading before base members cache group reason true) := by
  cases result with
  | error error => contradiction
  | ok outcome =>
      have emits : outcome.emits := emitted
      have stable := Trails.stable free before base cache members.toList
      simp only [concludeGroup, emits, if_true]
      refine .silent .readClock stable rfl fun service log trails =>
        ⟨service.clock, service, rfl, rfl, Trails before base members held cache members.toList, trails, ?_⟩
      rw [trails.clock]
      refine .of_asks stable (Effect.not_of_asks (fun _ _ => rfl) (fun _ _ => rfl) fun _ _ => rfl)
        (Kept.asks base members order) (fun service log trails player inside => trails.toKept.alike inside) ?_
      rw [List.map_map]
      change Meets _ _ _ (Routine.spread order (((emitDeltas reason dimensions members.toList _ _) >>= fun _ =>
        refreshLateJoiners group reason members >>= fun _ => return .ok outcome) >>= ending)) _
      rw [Routine.bind_assoc]
      refine meets_emitDeltas free whole reason order (fun player listed => ?_) ?_
      · simpa [Std.ExtTreeSet.mem_toList] using listed
      · exact meets_reading free before base cache group reason (.ok outcome) unlocks order

theorem meets_silence (free : OthersFree members held) (before : Store) (base : Service) (cache : Cache)
    (group reason : String) (dimensions : Dimensions) (befores : List (Option Snapshot))
    {result : Except StoreError Outcome}
    {ending : Except EngineError Outcome → Routine (Except EngineError Outcome)} (unlocks : Unlocks ending)
    (order : List Nat) (silent : Outcome.isEmitted result = false) :
    Meets Effect.readsMembers (Mutation.Outside members) (Trails before base members held cache [])
      (Routine.spread order (concludeGroup group reason dimensions members befores result >>= ending))
      (AtReading before base members cache group reason false) := by
  have concluded : concludeGroup group reason dimensions members befores result = pure (result.mapError .store) := by
    cases result with
    | error error => rfl
    | ok outcome =>
        have quiet : outcome.emits = false := silent
        simp only [concludeGroup, quiet]
        rfl
  rw [concluded]
  cases unlocks with
  | nothing => exact .done _ fun service log trails => ⟨⟨held, trails⟩, _, rfl, rfl, rfl, rfl⟩
  | claim claim =>
      refine .silent (.release claim) (Trails.stable free before base cache []) rfl fun service log trails => ?_
      refine ⟨(), _, rfl, rfl, Trails before base members (service.locks.map (·.release claim)) cache [],
        trails.withLocks (.refl _), ?_⟩
      exact .done _ fun service log trails => ⟨⟨_, trails⟩, _, rfl, rfl, rfl, rfl⟩

/-! ## The whole write -/

def progress (service : Service) : Routine α → Option (Ran (Routine α))
  | .done value => some ⟨.done value, [], service⟩
  | .step effect next =>
      match service.perform effect with
      | (some answer, after) => some ⟨next answer, service.announced effect, after⟩
      | (none, _) => none

structure Stages (α : Type) where
  met : Ran (Routine α)
  written : Ran (Routine α)
  left : Ran (Routine α)
  ran : Ran α

def stages (service : Service) (gaps later : List (List Mutation)) (order : List Nat) (routine : Routine α) :
    Option (Stages α) := do
  let met ← service.interrupt gaps (routine.spread order)
  let written ← met.service.progress met.value
  let left ← written.service.meetWhere Effect.readsMembers later written.value
  let ran ← left.service.complete left.value
  return ⟨met, written, left, ran⟩

namespace Stages

def heard (stages : Stages α) (cache : Cache) : Cache :=
  cache.applyAll (stages.met.events ++ stages.written.events ++ stages.left.events ++ stages.ran.events)

def Knows (stages : Stages α) (cache : Cache) (player : PlayerId) : Prop :=
  player ∈ (stages.heard cache).stale ∨
    (stages.heard cache).shown player = stages.ran.service.store.shown player stages.ran.service.clock

instance (stages : Stages α) (cache : Cache) (player : PlayerId) : Decidable (stages.Knows cache player) :=
  inferInstanceAs (Decidable (_ ∨ _))

/-- The player was not a member when the members were read, but was one when the group was written and was none any more
when they were read again; and the write changed a permission of the player that no event since tells of. -/
structure Misses (stages : Stages α) (members : PlayerSet) (group : String) (player : PlayerId) : Prop where
  unread : player ∉ members
  joined : player ∈ stages.met.service.store.activeMembers group stages.met.service.clock
  left : player ∉ stages.left.service.store.activeMembers group stages.left.service.clock
  changed : ∃ name, ¬(name ∈ (stages.met.service.store.shown player stages.met.service.clock).effective ↔
      name ∈ (stages.written.service.store.shown player stages.written.service.clock).effective) ∧
    ¬Mentioned stages.left.events player .effective name

end Stages

theorem Trails.shown_eq_iff (trails : Trails before base members held cache waiting service log) {player : PlayerId} :
    (cache.applyAll log).shown player = service.store.shown player service.clock ↔ ∀ facet key,
      ¬Mentioned log player facet key →
        (before.shown player base.clock).entry facet key = (base.store.shown player base.clock).entry facet key := by
  rw [trails.clock]
  constructor
  · intro same facet key unmentioned
    obtain ⟨cached, stored⟩ := trails.unmentioned player facet key unmentioned
    rw [← cached, ← stored, same]
  · intro unchanged
    apply CachedPlayer.ext_entries
    intro facet key
    by_cases mentioned : Mentioned log player facet key
    · exact trails.mentioned player facet key mentioned
    · obtain ⟨cached, stored⟩ := trails.unmentioned player facet key mentioned
      rw [cached, stored, unchanged facet key mentioned]

theorem meets_rest (free : OthersFree members held) {write : Routine (Except StoreError Outcome)} {group : String}
    {effect : Store → Store.Write} (groupWrite : GroupWrite group .effectiveOnly write effect)
    {met : Service} (synced : cache.InSync met.store met.clock) (agree : LocksAgree met.locks held) (reason : String)
    {ending : Except EngineError Outcome → Routine (Except EngineError Outcome)} (unlocks : Unlocks ending)
    (order : List Nat) {later : List (List Mutation)} (outside : ∀ other ∈ later.flatten, other.Outside members) :
    let written := { met with store := (effect met.store).2 }
    ∃ left, written.meetWhere Effect.readsMembers later
        (Routine.spread order (concludeGroup group reason .effectiveOnly members
          (members.toList.map fun player => some (met.store.snapshot player met.clock)) (effect met.store).1 >>= ending)) =
          some left ∧
      AtReading met.store written members cache group reason (Outcome.isEmitted (effect met.store).1) left.value
        left.service left.events := by
  intro written
  have only := groupWrite.only met.store
  have memberships := groupWrite.memberships rfl met.store
  have whole (player : PlayerId) : Delta.between (met.store.snapshot player written.clock)
      (written.store.snapshot player written.clock) .effectiveOnly =
        (met.store.shown player written.clock).changesTo (written.store.shown player written.clock) := by
    rw [Delta.between_eq_all (fun _ => ?_) fun _ => ?_]
    · exact CachedPlayer.between_all _ _
    · simp only [Store.snapshot_direct, written, only.grants]
    · simp only [Store.snapshot_memberships, written, memberships]
  cases emitted : Outcome.isEmitted (effect met.store).1 with
  | true =>
      have waiting : Trails met.store written members held cache members.toList written [] :=
        .start synced (fun player inside settled => absurd (Std.ExtTreeSet.mem_toList.mpr inside) settled) agree
      obtain ⟨left, reached, reading⟩ :=
        meets_conclusion free whole cache group reason unlocks order emitted written [] later outside waiting
      exact ⟨left, reached, reading⟩
  | false =>
      have unchanged : written.store = met.store := groupWrite.reports met.store emitted
      have told : Trails met.store written members held cache [] written [] :=
        .start synced (fun player _ _ => by rw [unchanged]) agree
      obtain ⟨left, reached, reading⟩ :=
        meets_silence free met.store written cache group reason .effectiveOnly _ unlocks order emitted written [] later
          outside told
      exact ⟨left, reached, reading⟩

theorem entry_effective_eq_iff {left right : CachedPlayer} {name : String} :
    left.entry .effective name = right.entry .effective name ↔ (name ∈ left.effective ↔ name ∈ right.effective) := by
  simp only [CachedPlayer.entry, Rows.getElem?_keyed_names]
  by_cases first : name ∈ left.effective <;> by_cases second : name ∈ right.effective <;> simp [first, second]

structure Concluded (cache : Cache) (members : PlayerSet) (group : String) (emitted : Bool) (stages : Stages α) :
    Prop where
  clock : stages.written.service.clock = stages.met.service.clock
  only : Store.OnlyGroup group stages.met.service.store stages.written.service.store
  memberships : stages.written.service.store.memberships = stages.met.service.store.memberships
  silent : emitted = false → stages.written.service.store = stages.met.service.store
  trails : ∃ held, Trails stages.met.service.store stages.written.service members held
    (cache.applyAll stages.met.events) [] stages.left.service stages.left.events
  store : stages.ran.service.store = stages.left.service.store
  time : stages.ran.service.clock = stages.left.service.clock
  stale : ∀ player, player ∈ (stages.heard cache).stale ↔ emitted ∧
    player ∈ stages.left.service.store.activeMembers group stages.left.service.clock ∧ player ∉ members
  shown : ∀ player, (stages.heard cache).shown player =
    ((cache.applyAll stages.met.events).applyAll stages.left.events).shown player

theorem Concluded.knows_iff {group : String} {emitted : Bool} {stages : Stages α}
    (concluded : Concluded cache members group emitted stages) (player : PlayerId) :
    stages.Knows cache player ↔ ¬stages.Misses members group player := by
  obtain ⟨held, trails⟩ := concluded.trails
  rw [Stages.Knows, concluded.stale, concluded.shown, concluded.store, concluded.time, trails.shown_eq_iff]
  constructor
  · rintro known missed
    obtain ⟨name, differs, unmentioned⟩ := missed.changed
    rcases known with ⟨_, member, _⟩ | same
    · exact missed.left member
    · rw [← concluded.clock] at differs
      exact differs (entry_effective_eq_iff.mp (same .effective name unmentioned))
  · intro known
    refine Classical.byContradiction fun unknown => known ?_
    obtain ⟨unasked, outdated⟩ := not_or.mp unknown
    simp only [Classical.not_forall] at outdated
    obtain ⟨facet, key, unmentioned, differs⟩ := outdated
    have changed : stages.written.service.store.shown player stages.written.service.clock ≠
        stages.met.service.store.shown player stages.written.service.clock :=
      fun same => differs (by rw [same])
    have unread : player ∉ members := fun inside =>
      unmentioned (trails.told player inside (List.not_mem_nil) facet key differs)
    refine ⟨unread, ?_, fun member => unasked ⟨?_, member, unread⟩, ?_⟩
    · rw [← concluded.clock]
      exact Classical.byContradiction fun outside => changed (concluded.only.shown outside)
    · cases emits : emitted with
      | true => rfl
      | false => exact absurd (by rw [concluded.silent emits]) changed
    · -- a write of grants shows in nothing but permissions
      rw [← concluded.clock]
      cases facet with
      | direct => exact absurd (by simp only [CachedPlayer.entry, Store.shown_direct, concluded.only.grants]) differs
      | groups => exact absurd (by simp only [CachedPlayer.entry, Store.shown_groups, concluded.memberships]) differs
      | effective => exact ⟨key, mt entry_effective_eq_iff.mpr differs, unmentioned⟩

theorem concluded_changeGroup (idle : Idle base.locks) (synced : cache.InSync base.store base.clock) {group : String}
    {routine : Routine (Except EngineError Outcome)} (changes : ChangesGroup group .effectiveOnly routine)
    (order : List Nat) {gaps later : List (List Mutation)}
    (outside : ∀ other ∈ gaps.flatten ++ later.flatten,
      other.Outside (base.store.activeMembers group base.clock)) :
    ∃ stages emitted, base.stages gaps later order routine = some stages ∧
      Concluded cache (base.store.activeMembers group base.clock) group emitted stages := by
  obtain ⟨reason, write, effect, groupWrite, rfl⟩ := changes
  obtain ⟨call, next, rfl, writesGroup, atOnce⟩ := groupWrite.atOnce
  obtain ⟨met, interrupted, held, ending, undisturbed, free, unlocks, rest⟩ :=
    interrupt_changeGroup idle synced ⟨call, next, rfl, writesGroup⟩ group reason .effectiveOnly order
      fun other listed => outside other (List.mem_append_left _ listed)
  obtain ⟨left, reached, ⟨lastHeld, trails⟩, ran, completed, store, clock, news⟩ :=
    meets_rest free groupWrite undisturbed.synced undisturbed.locks reason unlocks order
      fun other listed => outside other (List.mem_append_right _ listed)
  let after : Service := { met.service with store := (effect met.service.store).2 }
  obtain ⟨value, written, reached⟩ : ∃ value, met.service.progress met.value = some ⟨value, [], after⟩ ∧
      after.meetWhere Effect.readsMembers later value = some left := by
    refine ⟨_, ?_, reached⟩
    rw [rest]
    change progress _ (.step (.call call) _) = _
    rw [progress, perform_write (atOnce met.service.store).1]
    simp only [(atOnce met.service.store).2]
    rfl
  let stages : Stages (Except EngineError Outcome) := ⟨met, ⟨value, [], after⟩, left, ran⟩
  have heard : stages.heard cache = ((cache.applyAll met.events).applyAll left.events).hearAll
      (ran.events.map ChangeEvent.toAnnouncement) := by
    rw [← Cache.applyAll_eq_hearAll, ← Cache.applyAll_append, ← Cache.applyAll_append]
    simp [Stages.heard, stages]
  refine ⟨stages, Outcome.isEmitted (effect met.service.store).1, ?_, ?_⟩
  · simp only [Service.stages, interrupted, Option.bind_eq_bind, Option.bind_some, written, reached, completed]
    rfl
  exact
    { clock := rfl
      only := groupWrite.only met.service.store
      memberships := groupWrite.memberships rfl met.service.store
      silent := groupWrite.reports met.service.store
      trails := ⟨lastHeld, trails⟩
      store := store
      time := clock
      stale := fun player => by
        rw [heard, news]
        split
        · next emitted =>
            rw [Cache.mem_stale_hearAll_refreshes, or_iff_right (trails.fresh player), Std.ExtTreeSet.mem_toList,
              Std.ExtTreeSet.mem_diff_iff]
            simp [emitted, stages]
        · next silent => simp [silent, Cache.hearAll, trails.fresh player]
      shown := fun player => by
        rw [heard, news]
        split
        · exact Cache.shown_hearAll_refreshes _ _ _ _ _
        · rfl }

/-- A consumer who was in sync before grants of a group are written, and who hears everything, is wrong about exactly
those players who had joined by the time of the write, but not when the members were read, who have left again by the
time they are read once more, and for whom the write changed a permission that none of their own events tells of. -/
theorem leavers_missed {config : Config} (reachable : Reachable config service)
    (synced : cache.InSync service.store service.clock) {mutation : Mutation} {group : String}
    (grants : mutation.grantedGroup? = some group) (order : List Nat) {gaps later : List (List Mutation)}
    (outside : ∀ other ∈ gaps.flatten ++ later.flatten,
      other.Outside (service.store.activeMembers (Text.trim group) service.clock)) :
    ∃ stages, service.stages gaps later order mutation.routine = some stages ∧ ∀ player, stages.Knows cache player ↔
      ¬stages.Misses (service.store.activeMembers (Text.trim group) service.clock) (Text.trim group) player := by
  have checks := checks_grants grants
  generalize mutation.routine = routine at checks
  induction checks with
  | refused error =>
      refine ⟨_, rfl, fun player => iff_of_true (Or.inr (synced.shown player)) fun missed => ?_⟩
      obtain ⟨name, differs, _⟩ := missed.changed
      exact differs Iff.rfl
  | passed changes =>
      obtain ⟨stages, emitted, passed, concluded⟩ := concluded_changeGroup reachable.idle synced changes order outside
      exact ⟨stages, passed, concluded.knows_iff⟩
  | reads rest ih =>
      obtain ⟨stages, passed, known⟩ := ih service.clock
      refine ⟨stages, ?_, known⟩
      rw [← passed]
      exact congrArg (Option.bind · _) (interrupt_now service gaps order _)

def newcomerLeaves : List (List Mutation) :=
  [[], [.removePlayerGroups newcomer ["staff"]]]

theorem outside_newcomerLeaves : ∀ other ∈ newcomerJoins.flatten ++ newcomerLeaves.flatten,
    other.Outside (staffed.store.activeMembers (Text.trim "staff") staffed.clock) := by
  have stranger : newcomer ∉ staffed.store.activeMembers (Text.trim "staff") staffed.clock := by decide +kernel
  intro other listed
  rcases List.mem_append.mp listed with joins | leaves
  · exact outside_newcomerJoins other joins
  · obtain rfl : other = .removePlayerGroups newcomer ["staff"] := by simpa [newcomerLeaves] using leaves
    exact ⟨newcomer, rfl, stranger⟩

theorem newcomer_unasked : ∃ stages,
    staffed.stages newcomerJoins newcomerLeaves [] (Mutation.removeGroupPermissions "staff" ["kick"]).routine =
      some stages ∧ ¬stages.Knows staffedCache newcomer := by
  have grants : (Mutation.removeGroupPermissions "staff" ["kick"]).grantedGroup? = some "staff" := rfl
  obtain ⟨stages, passed, known⟩ :=
    leavers_missed reachable_staffed inSync_staffedCache grants [] outside_newcomerLeaves
  have met : (staffed.stages newcomerJoins newcomerLeaves []
      (Mutation.removeGroupPermissions "staff" ["kick"]).routine).map (fun stages => decide (
        newcomer ∉ staffed.store.activeMembers (Text.trim "staff") staffed.clock ∧
        newcomer ∈ stages.met.service.store.activeMembers (Text.trim "staff") stages.met.service.clock ∧
        newcomer ∉ stages.left.service.store.activeMembers (Text.trim "staff") stages.left.service.clock ∧
        "kick" ∈ (stages.met.service.store.shown newcomer stages.met.service.clock).effective ∧
        "kick" ∉ (stages.written.service.store.shown newcomer stages.written.service.clock).effective ∧
        ∀ event ∈ stages.left.events, event.player = newcomer → ∀ entry ∈ event.delta.effective, entry.key ≠ "kick")) =
      some true := by
    decide +kernel
  simp only [passed, Option.map_some, Option.some.injEq, decide_eq_true_eq] at met
  obtain ⟨unread, joined, left, granted, taken, untold⟩ := met
  refine ⟨stages, passed, mt (known newcomer).mp (not_not_intro ⟨unread, joined, left, "kick", ?_, ?_⟩)⟩
  · simp [granted, taken]
  · rintro ⟨event, listed, concerns, entry, told, named⟩
    exact untold event listed concerns entry told named

theorem leave_unnoticed : ¬∀ {config : Config} {service : Service}, config.serialize → Reachable config service →
    ∀ {cache : Cache}, cache.InSync service.store service.clock →
    ∀ {mutation : Mutation} {group : String}, mutation.grantedGroup? = some group →
    ∀ (order : List Nat) {gaps later : List (List Mutation)},
    (∀ other ∈ gaps.flatten ++ later.flatten,
      other.Outside (service.store.activeMembers (Text.trim group) service.clock)) →
    ∃ stages, service.stages gaps later order mutation.routine = some stages ∧
      ∀ player, stages.Knows cache player := by
  intro noticed
  have grants : (Mutation.removeGroupPermissions "staff" ["kick"]).grantedGroup? = some "staff" := rfl
  obtain ⟨stages, passed, known⟩ :=
    noticed rfl reachable_staffed inSync_staffedCache grants [] outside_newcomerLeaves
  have unknown : (staffed.stages newcomerJoins newcomerLeaves []
      (Mutation.removeGroupPermissions "staff" ["kick"]).routine).map
        (fun stages => decide (stages.Knows staffedCache newcomer)) = some false := by
    decide +kernel
  simp only [passed, Option.map_some, Option.some.injEq, decide_eq_false_iff_not] at unknown
  exact unknown (known newcomer)

end Service

end PermissionFeed
