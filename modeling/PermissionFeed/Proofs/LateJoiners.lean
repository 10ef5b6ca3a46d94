import PermissionFeed.Proofs.GroupWrites
import PermissionFeed.Proofs.Reachable

/-!
# Players who join while their group is written

Whoever joins a group after its members were read, and before the group is written, is not told of the write by a delta.
If grants are written, such players are asked to load again, so no consumer is wrong about anybody
(`Service.joiners_noticed`). If the group is deleted, they have already lost the group when the members are read again,
so nobody asks them: exactly they are wrong (`Service.missed_iff_joined`).
-/

namespace PermissionFeed

theorem Outcome.isEmitted_mapError {ε δ : Type} (result : Except ε Outcome) (wrap : ε → δ) :
    isEmitted (result.mapError wrap) = isEmitted result := by
  cases result <;> rfl

namespace Cache

variable {group reason : String} {dimensions : Dimensions} {members : PlayerSet} {before : PlayerId → Snapshot}
  {after : Store} {time : Instant}

theorem shown_hearAll_groupNews (cache : Cache) (player : PlayerId) :
    (cache.hearAll (Service.groupNews group reason dimensions members before after time)).shown player =
      if player ∈ members then
        (cache.shown player).apply (.between (before player) (after.snapshot player time) dimensions)
      else cache.shown player := by
  rw [Service.groupNews, hearAll_append, shown_hearAll_refreshes,
    shown_hearAll_changes (PlayerSet.nodup_toList members)]
  simp only [Std.ExtTreeSet.mem_toList]

theorem mem_stale_hearAll_groupNews {cache : Cache} {player : PlayerId} :
    player ∈ (cache.hearAll (Service.groupNews group reason dimensions members before after time)).stale ↔
      player ∈ cache.stale ∨ player ∈ after.activeMembers group time ∧ player ∉ members := by
  rw [Service.groupNews, hearAll_append, mem_stale_hearAll_refreshes, stale_hearAll_changes,
    Std.ExtTreeSet.mem_toList, Std.ExtTreeSet.mem_diff_iff]

end Cache

namespace Service

open Engine

/-! ## Where a request is refused -/

variable {α : Type} {service : Service} {gaps : List (List Mutation)} {order : List Nat}

def Overtakes (service : Service) (gaps : List (List Mutation)) (order : List Nat) (routine : Routine α)
    (ends : Ran (Routine α) → Ran α → Prop) : Prop :=
  ∃ met ran, service.interrupt gaps (routine.spread order) = some met ∧ met.service.complete met.value = some ran ∧
    ends met ran

variable {ends : Ran (Routine (Except EngineError α)) → Ran (Except EngineError α) → Prop}

theorem Overtakes.of_cleaned {β : Type} {request : Except RequestError β} {next : β → Routine (Except EngineError α)}
    (refused : ∀ error, ends ⟨pure (.error error), [], service⟩ ⟨.error error, [], service⟩)
    (goesOn : ∀ value, request = .ok value → Overtakes service gaps order (next value) ends) :
    Overtakes service gaps order (cleaned request next) ends := by
  cases request with
  | error error => exact ⟨_, _, rfl, rfl, refused _⟩
  | ok value => exact goesOn value rfl

theorem Overtakes.of_lasting {rows : Except RequestError (List Row)} {next : List Row → Routine (Except EngineError α)}
    (refused : ∀ error, ends ⟨pure (.error error), [], service⟩ ⟨.error error, [], service⟩)
    (goesOn : ∀ rows, Overtakes service gaps order (next rows) ends) :
    Overtakes service gaps order (lasting rows next) ends := by
  refine .of_cleaned refused fun rows _ => ?_
  have checked : Overtakes service gaps order (cleaned (Request.rejectPast rows service.clock) fun _ => next rows) ends :=
    .of_cleaned refused fun _ _ => goesOn rows
  obtain ⟨met, ran, interrupted, completed, ended⟩ := checked
  exact ⟨met, ran, (interrupt_now service gaps order _).trans interrupted, completed, ended⟩

/-! ## What consumers know in the end -/

variable {base : Service} {cache : Cache} {members : PlayerSet} {group reason : String} {dimensions : Dimensions}
  {effect : Store → Store.Write} {met : Ran (Routine (Except EngineError Outcome))} {ran : Ran (Except EngineError Outcome)}

def heard (cache : Cache) {β γ : Type} (met : Ran β) (ran : Ran γ) : Cache :=
  cache.applyAll (met.events ++ ran.events)

theorem Overtaken.heard_eq (overtaken : Overtaken base cache members group reason dimensions effect met ran) :
    heard cache met ran = (cache.applyAll met.events).hearAll
      (if Outcome.isEmitted ran.value then
        groupNews group reason dimensions members (met.service.store.snapshot · met.service.clock) ran.service.store
          met.service.clock
      else []) := by
  rw [heard, Cache.applyAll_append, Cache.applyAll_eq_hearAll _ ran.events, overtaken.news, overtaken.value,
    Outcome.isEmitted_mapError, overtaken.store]

theorem Overtaken.inSync_of_silent (overtaken : Overtaken base cache members group reason dimensions effect met ran)
    (reports : met.service.store.Reports (effect met.service.store)) (silent : Outcome.isEmitted ran.value = false) :
    (heard cache met ran).InSync ran.service.store ran.service.clock := by
  have unchanged : ran.service.store = met.service.store := by
    rw [overtaken.store]
    apply reports
    rwa [overtaken.value, Outcome.isEmitted_mapError] at silent
  rw [overtaken.heard_eq, silent, unchanged, overtaken.clock]
  exact overtaken.synced

theorem Overtaken.of_emitted (overtaken : Overtaken base cache members group reason dimensions effect met ran)
    (only : Store.OnlyGroup group met.service.store ran.service.store)
    (groups : dimensions.groups = false → ran.service.store.memberships = met.service.store.memberships)
    (emitted : Outcome.isEmitted ran.value) (player : PlayerId) :
    (player ∈ (heard cache met ran).stale ↔
      player ∈ ran.service.store.activeMembers group ran.service.clock ∧ player ∉ members) ∧
    (heard cache met ran).shown player =
      if player ∈ members then ran.service.store.shown player ran.service.clock
      else met.service.store.shown player met.service.clock := by
  rw [overtaken.heard_eq, if_pos emitted, Cache.mem_stale_hearAll_groupNews, Cache.shown_hearAll_groupNews,
    overtaken.clock, overtaken.synced.shown]
  refine ⟨or_iff_right (overtaken.synced.stale player), ?_⟩
  split
  · have direct : dimensions.direct = false → (met.service.store.snapshot player met.service.clock).direct =
        (ran.service.store.snapshot player met.service.clock).direct :=
      fun _ => by simp only [Store.snapshot_direct, only.grants]
    have memberships : dimensions.groups = false → (met.service.store.snapshot player met.service.clock).memberships =
        (ran.service.store.snapshot player met.service.clock).memberships :=
      fun uncovered => by simp only [Store.snapshot_memberships, groups uncovered]
    exact (CachedPlayer.apply_between _ direct memberships).eq_of_synced rfl
  · rfl

/-! ## Grants that are written -/

/-- What holds once grants of a group are written: consumers are wrong about nobody whom they need not load again, and
those are all who joined before a write that changed something, and none of the members. -/
structure JoinersNoticed (cache : Cache) (members : PlayerSet) (group : String)
    (met : Ran (Routine (Except EngineError Outcome))) (ran : Ran (Except EngineError Outcome)) : Prop where
  known : ∀ player, player ∈ (heard cache met ran).stale ∨
    (heard cache met ran).shown player = ran.service.store.shown player ran.service.clock
  joined : Outcome.isEmitted ran.value → ∀ player, player ∉ members →
    player ∈ ran.service.store.activeMembers group ran.service.clock → player ∈ (heard cache met ran).stale
  members : ∀ player ∈ members, player ∉ (heard cache met ran).stale

theorem JoinersNoticed.of_inSync {group : String} (synced : (heard cache met ran).InSync ran.service.store ran.service.clock)
    (silent : Outcome.isEmitted ran.value = false) : JoinersNoticed cache members group met ran where
  known player := Or.inr (synced.shown player)
  joined emitted := absurd emitted (by simp [silent])
  members player _ := synced.stale player

theorem Overtaken.joinersNoticed (overtaken : Overtaken base cache members group reason .effectiveOnly effect met ran)
    (reports : met.service.store.Reports (effect met.service.store))
    (only : Store.OnlyGroup group met.service.store (effect met.service.store).2)
    (memberships : (effect met.service.store).2.memberships = met.service.store.memberships) :
    JoinersNoticed cache members group met ran := by
  rw [← overtaken.store] at only memberships
  cases emitted : Outcome.isEmitted ran.value with
  | false => exact .of_inSync (overtaken.inSync_of_silent reports emitted) emitted
  | true =>
      have known := overtaken.of_emitted only (fun _ => memberships) emitted
      refine ⟨fun player => ?_, fun _ player outside joined => (known player).1.mpr ⟨joined, outside⟩,
        fun player inside stale => ((known player).1.mp stale).2 inside⟩
      by_cases inside : player ∈ members
      · right
        rw [(known player).2, if_pos inside]
      -- grants make no members, so whoever is one now was one when the write came
      · by_cases joined : player ∈ ran.service.store.activeMembers group ran.service.clock
        · exact Or.inl ((known player).1.mpr ⟨joined, inside⟩)
        · right
          have unjoined : player ∉ met.service.store.activeMembers group ran.service.clock := by
            rwa [Store.mem_activeMembers, ← memberships, ← Store.mem_activeMembers]
          rw [(known player).2, if_neg inside, ← overtaken.clock, only.shown unjoined]

/-- A consumer who was in sync before grants of a group are written, and who hears everything, knows every player
afterwards or is asked to load the player, whatever mutations of players outside of the group run before the write. -/
theorem joiners_noticed {config : Config} {service : Service} (reachable : Reachable config service) {cache : Cache}
    (synced : cache.InSync service.store service.clock) {mutation : Mutation} {group : String}
    (writes : mutation.grantedGroup? = some group) (order : List Nat) {gaps : List (List Mutation)}
    (outside : ∀ other ∈ gaps.flatten,
      other.Outside (service.store.activeMembers (Text.trim group) service.clock)) :
    Overtakes service gaps order mutation.routine
      (JoinersNoticed cache (service.store.activeMembers (Text.trim group) service.clock) (Text.trim group)) := by
  have refused (error : EngineError) : JoinersNoticed cache
      (service.store.activeMembers (Text.trim group) service.clock) (Text.trim group)
      ⟨pure (.error error), [], service⟩ ⟨.error error, [], service⟩ := .of_inSync synced rfl
  cases mutation <;> simp only [Mutation.grantedGroup?, Option.some.injEq, reduceCtorEq] at writes <;> subst writes
  case addGroupPermissions raw grants =>
    refine .of_cleaned refused fun name cleaned => .of_lasting refused fun rows => ?_
    obtain rfl := groupName_eq cleaned
    obtain ⟨met, ran, interrupted, completed, overtaken⟩ :=
      overtaken_changeGroup reachable.idle synced (Routine.call (.addGroupGrants (Text.trim raw) rows))
        (·.addGroupGrants (Text.trim raw) rows) ⟨_, _, rfl, rfl⟩ (fun _ => rfl) (Text.trim raw)
        Reason.groupPermissionAdd .effectiveOnly order outside
    exact ⟨met, ran, interrupted, completed, overtaken.joinersNoticed (Store.addGroupGrants_reports _ _ _)
      (Store.addGroupGrants_only _ _ _) (Store.addGroupGrants_memberships _ _ _)⟩
  case removeGroupPermissions raw permissions =>
    refine .of_cleaned refused fun name cleaned => .of_cleaned refused fun names _ => ?_
    obtain rfl := groupName_eq cleaned
    obtain ⟨met, ran, interrupted, completed, overtaken⟩ :=
      overtaken_changeGroup reachable.idle synced (Routine.call (.removeGroupGrants (Text.trim raw) names))
        (·.removeGroupGrants (Text.trim raw) names) ⟨_, _, rfl, rfl⟩ (fun _ => rfl) (Text.trim raw)
        Reason.groupPermissionRemove .effectiveOnly order outside
    exact ⟨met, ran, interrupted, completed, overtaken.joinersNoticed (Store.removeGroupGrants_reports _ _ _)
      (Store.removeGroupGrants_only _ _ _) (Store.removeGroupGrants_memberships _ _ _)⟩

def newcomerJoins : List (List Mutation) :=
  [[], [.addPlayerGroups newcomer [⟨"staff", none⟩]]]

theorem outside_newcomerJoins : ∀ other ∈ newcomerJoins.flatten,
    other.Outside (staffed.store.activeMembers (Text.trim "staff") staffed.clock) := by
  have stranger : newcomer ∉ staffed.store.activeMembers (Text.trim "staff") staffed.clock := by decide +kernel
  intro other listed
  obtain rfl : other = .addPlayerGroups newcomer [⟨"staff", none⟩] := by simpa [newcomerJoins] using listed
  exact ⟨newcomer, rfl, stranger⟩

theorem newcomer_noticed : ∃ met ran,
    staffed.interrupt newcomerJoins
      ((Mutation.addGroupPermissions "staff" [⟨"mute", none⟩]).routine.spread []) = some met ∧
    met.service.complete met.value = some ran ∧ newcomer ∈ (heard staffedCache met ran).stale := by
  have writes : (Mutation.addGroupPermissions "staff" [⟨"mute", none⟩]).grantedGroup? = some "staff" := rfl
  obtain ⟨met, ran, interrupted, completed, noticed⟩ :=
    joiners_noticed reachable_staffed inSync_staffedCache writes [] outside_newcomerJoins
  have joined : ((staffed.interrupt newcomerJoins
      ((Mutation.addGroupPermissions "staff" [⟨"mute", none⟩]).routine.spread [])).bind fun met =>
        (met.service.complete met.value).map fun ran =>
          decide (Outcome.isEmitted ran.value ∧
            newcomer ∉ staffed.store.activeMembers (Text.trim "staff") staffed.clock ∧
            newcomer ∈ ran.service.store.activeMembers (Text.trim "staff") ran.service.clock)) = some true := by
    decide +kernel
  rw [interrupted] at joined
  simp only [Option.bind_some, completed, Option.map_some, Option.some.injEq, decide_eq_true_eq] at joined
  exact ⟨met, ran, interrupted, completed, noticed.joined joined.1 newcomer joined.2.1 joined.2.2⟩

/-! ## Deletions -/

def JoinersMissed (cache : Cache) (members : PlayerSet) (group : String)
    (met : Ran (Routine (Except EngineError Outcome))) (ran : Ran (Except EngineError Outcome)) : Prop :=
  ∀ player, (player ∈ (heard cache met ran).stale ∨
      (heard cache met ran).shown player = ran.service.store.shown player ran.service.clock) ↔
    ¬(ran.value = .ok .deleted ∧ player ∉ members ∧
      player ∈ met.service.store.activeMembers group met.service.clock)

theorem JoinersMissed.of_inSync {group : String}
    (synced : (heard cache met ran).InSync ran.service.store ran.service.clock) (kept : ran.value ≠ .ok .deleted) :
    JoinersMissed cache members group met ran := by
  intro player
  simp [synced.shown player, kept]

theorem deleteGroup_value (store : Store) (name : String) :
    (store.deleteGroup name).1 = .ok .deleted ∨ Outcome.isEmitted (store.deleteGroup name).1 = false := by
  unfold Store.deleteGroup
  split
  · exact Or.inl rfl
  · exact Or.inr rfl

theorem activeMembers_deleteGroup {store : Store} {name : String} (deleted : (store.deleteGroup name).1 = .ok .deleted)
    (player : PlayerId) (now : Instant) : player ∉ (store.deleteGroup name).2.activeMembers name now := by
  unfold Store.deleteGroup at deleted ⊢
  split at deleted
  · next known =>
      rw [if_pos known, Store.mem_activeMembers, Rows.mem_active]
      simp [Table.rows_eraseKey]
  · simp at deleted

theorem Overtaken.joinersMissed
    (overtaken : Overtaken base cache members group reason .all (·.deleteGroup group) met ran) :
    JoinersMissed cache members group met ran := by
  have only : Store.OnlyGroup group met.service.store ran.service.store := by
    rw [overtaken.store]
    exact Store.deleteGroup_only _ _
  rcases deleteGroup_value met.service.store group with deleted | silent
  · have value : ran.value = .ok .deleted := by
      rw [overtaken.value, deleted]
      rfl
    have known := overtaken.of_emitted only (fun uncovered => absurd uncovered (by decide)) (by rw [value]; rfl)
    -- the second reading finds no member, so nobody is asked to load again
    have nobody (player : PlayerId) : player ∉ ran.service.store.activeMembers group ran.service.clock := by
      rw [overtaken.store]
      exact activeMembers_deleteGroup deleted player _
    intro player
    have fresh : player ∉ (heard cache met ran).stale := fun stale => nobody player ((known player).1.mp stale).1
    rw [or_iff_right fresh, (known player).2]
    by_cases inside : player ∈ members
    · simp [inside]
    · by_cases joined : player ∈ met.service.store.activeMembers group met.service.clock
      · have different : met.service.store.shown player met.service.clock ≠
            ran.service.store.shown player ran.service.clock := by
          intro same
          have groups := congrArg CachedPlayer.groups same
          rw [Store.shown_groups, Store.shown_groups] at groups
          rw [Store.mem_activeMembers, groups, ← Store.mem_activeMembers] at joined
          exact nobody player joined
        simp [inside, joined, value, different]
      · simp [inside, joined, overtaken.clock, only.shown joined]
  · have kept : Outcome.isEmitted ran.value = false := by rwa [overtaken.value, Outcome.isEmitted_mapError]
    refine .of_inSync (overtaken.inSync_of_silent (Store.deleteGroup_reports _ _) kept) fun value => ?_
    rw [value] at kept
    contradiction

/-- A consumer who was in sync before a group is deleted, and who hears everything, is wrong about exactly those players
who had joined the group by the time it was deleted, but not by the time its members were read. -/
theorem missed_iff_joined {config : Config} {service : Service} (reachable : Reachable config service) {cache : Cache}
    (synced : cache.InSync service.store service.clock) (name : String) (order : List Nat) {gaps : List (List Mutation)}
    (outside : ∀ other ∈ gaps.flatten,
      other.Outside (service.store.activeMembers (Text.trim name) service.clock)) :
    Overtakes service gaps order (Mutation.deleteGroup name).routine
      (JoinersMissed cache (service.store.activeMembers (Text.trim name) service.clock) (Text.trim name)) := by
  have refused (error : EngineError) : JoinersMissed cache
      (service.store.activeMembers (Text.trim name) service.clock) (Text.trim name)
      ⟨pure (.error error), [], service⟩ ⟨.error error, [], service⟩ := .of_inSync synced (by simp)
  refine .of_cleaned refused fun trimmed cleaned => ?_
  obtain rfl := groupName_eq cleaned
  obtain ⟨met, ran, interrupted, completed, overtaken⟩ :=
    overtaken_changeGroup reachable.idle synced (Routine.call (.deleteGroup (Text.trim name)))
      (·.deleteGroup (Text.trim name)) ⟨_, _, rfl, rfl⟩ (fun _ => rfl) (Text.trim name) Reason.groupDelete .all order outside
  exact ⟨met, ran, interrupted, completed, overtaken.joinersMissed⟩

theorem newcomer_missed : ∃ met ran,
    staffed.interrupt newcomerJoins ((Mutation.deleteGroup "staff").routine.spread []) = some met ∧
    met.service.complete met.value = some ran ∧ newcomer ∉ (heard staffedCache met ran).stale ∧
    (heard staffedCache met ran).shown newcomer ≠ ran.service.store.shown newcomer ran.service.clock := by
  obtain ⟨met, ran, interrupted, completed, missed⟩ :=
    missed_iff_joined reachable_staffed inSync_staffedCache "staff" [] outside_newcomerJoins
  have joined : ((staffed.interrupt newcomerJoins ((Mutation.deleteGroup "staff").routine.spread [])).bind fun met =>
        (met.service.complete met.value).map fun ran =>
          decide (ran.value.toOption = some .deleted ∧
            newcomer ∉ staffed.store.activeMembers (Text.trim "staff") staffed.clock ∧
            newcomer ∈ met.service.store.activeMembers (Text.trim "staff") met.service.clock)) = some true := by
    decide +kernel
  rw [interrupted] at joined
  simp only [Option.bind_some, completed, Option.map_some, Option.some.injEq, decide_eq_true_eq] at joined
  have deleted : ran.value = .ok .deleted := by
    cases value : ran.value with
    | error error => simp [value, Except.toOption] at joined
    | ok outcome => simpa [value, Except.toOption] using joined.1
  have unknown := mt (missed newcomer).mp (not_not_intro ⟨deleted, joined.2⟩)
  exact ⟨met, ran, interrupted, completed, not_or.mp unknown⟩

theorem deletion_unnoticed : ¬∀ {config : Config} {service : Service}, config.serialize → Reachable config service →
    ∀ {cache : Cache}, cache.InSync service.store service.clock →
    ∀ (name : String) (order : List Nat) {gaps : List (List Mutation)},
    (∀ other ∈ gaps.flatten, other.Outside (service.store.activeMembers (Text.trim name) service.clock)) →
    Overtakes service gaps order (Mutation.deleteGroup name).routine fun met ran => ∀ player,
      player ∈ (heard cache met ran).stale ∨
        (heard cache met ran).shown player = ran.service.store.shown player ran.service.clock := by
  intro noticed
  obtain ⟨met, ran, interrupted, completed, known⟩ :=
    noticed rfl reachable_staffed inSync_staffedCache "staff" [] outside_newcomerJoins
  have unknown : ((staffed.interrupt newcomerJoins ((Mutation.deleteGroup "staff").routine.spread [])).bind fun met =>
        (met.service.complete met.value).map fun ran =>
          decide (newcomer ∈ (heard staffedCache met ran).stale ∨
            (heard staffedCache met ran).shown newcomer = ran.service.store.shown newcomer ran.service.clock)) =
      some false := by
    decide +kernel
  rw [interrupted] at unknown
  simp only [Option.bind_some, completed, Option.map_some, Option.some.injEq, decide_eq_false_iff_not] at unknown
  exact unknown (known newcomer)

end Service

end PermissionFeed
