import PermissionFeed.Mutation
import PermissionFeed.Proofs.Engine

namespace PermissionFeed

def Effect.writesPlayer : Effect → Bool
  | .call (.addGrants ..) | .call (.removeGrants ..) | .call (.addMemberships ..) | .call (.removeMemberships ..) => true
  | _ => false

def Effect.writesGroup : Effect → Bool
  | .call (.addGroupGrants ..) | .call (.removeGroupGrants ..) | .call (.deleteGroup _) => true
  | _ => false

def Mutation.grantedGroup? : Mutation → Option String
  | .addGroupPermissions group _ | .removeGroupPermissions group _ => some group
  | _ => none

theorem Service.groupName_eq {raw name : String} (cleaned : Request.groupName raw = .ok name) : name = Text.trim raw := by
  unfold Request.groupName Request.required at cleaned
  simp only at cleaned
  split at cleaned
  · nomatch cleaned
  · exact (Except.ok.inj cleaned).symm

namespace Engine

inductive Checks {α : Type} (goesOn : Routine (Except EngineError α) → Prop) :
    Routine (Except EngineError α) → Prop where
  | refused (error : EngineError) : Checks goesOn (.done (.error error))
  | passed {routine : Routine (Except EngineError α)} (passes : goesOn routine) : Checks goesOn routine
  | reads {next : Instant → Routine (Except EngineError α)} (rest : ∀ time, Checks goesOn (next time)) :
      Checks goesOn (.step .readClock next)

namespace Checks

variable {α β : Type} {goesOn later : Routine (Except EngineError β) → Prop}

theorem of_cleaned {request : Except RequestError α} {next : α → Routine (Except EngineError β)}
    (passes : ∀ value, request = .ok value → Checks goesOn (next value)) : Checks goesOn (cleaned request next) := by
  cases request with
  | error error => exact .refused _
  | ok value => exact passes value rfl

theorem of_lasting {rows : Except RequestError (List Row)} {next : List Row → Routine (Except EngineError β)}
    (passes : ∀ value, rows = .ok value → Checks goesOn (next value)) : Checks goesOn (lasting rows next) :=
  of_cleaned fun value cleaned => .reads fun _ => of_cleaned fun _ _ => passes value cleaned

theorem imp (weaken : ∀ routine, goesOn routine → later routine) {routine : Routine (Except EngineError β)}
    (checks : Checks goesOn routine) : Checks later routine := by
  induction checks with
  | refused error => exact .refused error
  | passed passes => exact .passed (weaken _ passes)
  | reads rest ih => exact .reads ih

end Checks

structure PlayerWrite (player : PlayerId) (write : Routine (Except StoreError Outcome)) (effect : Store → Store.Write) :
    Prop where
  atOnce : Service.WritesAtOnce Effect.writesPlayer write effect
  reports : ∀ store : Store, store.Reports (effect store)
  only : ∀ store, Store.OnlyPlayer player store (effect store).2

structure GroupWrite (group : String) (dimensions : Dimensions) (write : Routine (Except StoreError Outcome))
    (effect : Store → Store.Write) : Prop where
  atOnce : Service.WritesAtOnce Effect.writesGroup write effect
  reports : ∀ store : Store, store.Reports (effect store)
  only : ∀ store, Store.OnlyGroup group store (effect store).2
  memberships : dimensions.groups = false → ∀ store, (effect store).2.memberships = store.memberships

def ChangesPlayer (player : PlayerId) (routine : Routine (Except EngineError Outcome)) : Prop :=
  ∃ reason write effect, PlayerWrite player write effect ∧ routine = changePlayer player reason write

def ChangesGroup (group : String) (dimensions : Dimensions) (routine : Routine (Except EngineError Outcome)) : Prop :=
  ∃ reason write effect, GroupWrite group dimensions write effect ∧
    routine = changeGroup group reason dimensions write

inductive Writes : Routine (Except EngineError Outcome) → Prop where
  | player {player : PlayerId} {routine : Routine (Except EngineError Outcome)} (changes : ChangesPlayer player routine) :
      Writes routine
  | group {group : String} {dimensions : Dimensions} {routine : Routine (Except EngineError Outcome)}
      (changes : ChangesGroup group dimensions routine) : Writes routine
  | creation (name : String) :
      Writes (do return (← Routine.call (.createGroup name)).mapError .store)

theorem checks_playerMutation {mutation : Mutation} {player : PlayerId} (concerns : mutation.player? = some player) :
    Checks (ChangesPlayer player) mutation.routine := by
  cases mutation <;> simp only [Mutation.player?, Option.some.injEq, reduceCtorEq] at concerns <;> subst concerns <;>
    rw [Mutation.routine]
  case addPlayerPermissions player grants =>
    refine .of_lasting fun rows _ => .passed ⟨_, _, (·.addGrants player rows), ?_, rfl⟩
    exact ⟨⟨_, _, rfl, rfl, fun _ => ⟨rfl, rfl⟩⟩, fun _ => Store.addGrants_reports _ _ _, fun _ => Store.addGrants_only _ _ _⟩
  case removePlayerPermissions player permissions =>
    refine .of_cleaned fun names _ => .passed ⟨_, _, (·.removeGrants player names), ?_, rfl⟩
    exact ⟨⟨_, _, rfl, rfl, fun _ => ⟨rfl, rfl⟩⟩, fun _ => Store.removeGrants_reports _ _ _,
      fun _ => Store.removeGrants_only _ _ _⟩
  case addPlayerGroups player memberships =>
    refine .of_lasting fun rows _ => .passed ⟨_, _, (·.addMemberships player rows), ?_, rfl⟩
    exact ⟨⟨_, _, rfl, rfl, fun _ => ⟨rfl, rfl⟩⟩, fun _ => Store.addMemberships_reports _ _ _,
      fun _ => Store.addMemberships_only _ _ _⟩
  case removePlayerGroups player groups =>
    refine .of_cleaned fun names _ => .passed ⟨_, _, (·.removeMemberships player names), ?_, rfl⟩
    exact ⟨⟨_, _, rfl, rfl, fun _ => ⟨rfl, rfl⟩⟩, fun _ => Store.removeMemberships_reports _ _ _,
      fun _ => Store.removeMemberships_only _ _ _⟩

theorem checks_grants {mutation : Mutation} {group : String} (grants : mutation.grantedGroup? = some group) :
    Checks (ChangesGroup (Text.trim group) .effectiveOnly) mutation.routine := by
  cases mutation <;> simp only [Mutation.grantedGroup?, Option.some.injEq, reduceCtorEq] at grants <;> subst grants <;>
    rw [Mutation.routine]
  case addGroupPermissions raw grants =>
    refine .of_cleaned fun name cleaned => .of_lasting fun rows _ => .passed ?_
    obtain rfl := Service.groupName_eq cleaned
    refine ⟨_, _, (·.addGroupGrants (Text.trim raw) rows), ?_, rfl⟩
    exact ⟨⟨_, _, rfl, rfl, fun _ => ⟨rfl, rfl⟩⟩, fun _ => Store.addGroupGrants_reports _ _ _,
      fun _ => Store.addGroupGrants_only _ _ _, fun _ _ => Store.addGroupGrants_memberships _ _ _⟩
  case removeGroupPermissions raw permissions =>
    refine .of_cleaned fun name cleaned => .of_cleaned fun names _ => .passed ?_
    obtain rfl := Service.groupName_eq cleaned
    refine ⟨_, _, (·.removeGroupGrants (Text.trim raw) names), ?_, rfl⟩
    exact ⟨⟨_, _, rfl, rfl, fun _ => ⟨rfl, rfl⟩⟩, fun _ => Store.removeGroupGrants_reports _ _ _,
      fun _ => Store.removeGroupGrants_only _ _ _, fun _ _ => Store.removeGroupGrants_memberships _ _ _⟩

theorem checks_mutation (mutation : Mutation) : Checks Writes mutation.routine := by
  cases concerns : mutation.player? with
  | some player => exact (checks_playerMutation concerns).imp fun _ => .player
  | none =>
      cases grants : mutation.grantedGroup? with
      | some group => exact (checks_grants grants).imp fun _ => .group
      | none =>
          cases mutation <;> simp only [Mutation.player?, Mutation.grantedGroup?, reduceCtorEq] at concerns grants <;>
            rw [Mutation.routine]
          case createGroup name => exact .of_cleaned fun name _ => .passed (.creation name)
          case deleteGroup name =>
            refine .of_cleaned fun name _ => .passed (.group ⟨_, _, (·.deleteGroup name), ?_, rfl⟩)
            exact ⟨⟨_, _, rfl, rfl, fun _ => ⟨rfl, rfl⟩⟩, fun _ => Store.deleteGroup_reports _ _,
              fun _ => Store.deleteGroup_only _ _, fun uncovered => absurd uncovered (by decide)⟩

end Engine

namespace Store

variable {store : Store} {write : Write}

theorem Announced.of_changePlayer {player : PlayerId} (reports : store.Reports write)
    (only : OnlyPlayer player store write.2) (reason : String) (time : Instant) :
    Announced store write.2 time
      (if Outcome.isEmitted write.1 then
        Announcement.ofChange player reason .all (store.snapshot player time) (write.2.snapshot player time) time
      else []) := by
  split
  · exact .of_onlyPlayer only reason time
  · next silent => exact .of_snapshots fun other => by rw [reports (by simpa using silent)]

theorem groupNews_of_onlyGroup {group : String} {after : Store} (only : OnlyGroup group store after) (reason : String)
    (dimensions : Dimensions) (before : PlayerId → Snapshot) (time : Instant) :
    Service.groupNews group reason dimensions (store.activeMembers group time) before after time =
      (store.activeMembers group time).toList.flatMap fun player =>
        Announcement.ofChange player reason dimensions (before player) (after.snapshot player time) time := by
  -- the members after the write are members before it
  have nobody : after.activeMembers group time \ store.activeMembers group time = ∅ := by
    apply Std.ExtTreeSet.ext_mem
    intro player
    simp only [Std.ExtTreeSet.mem_diff_iff, Std.ExtTreeSet.not_mem_empty, iff_false]
    rintro ⟨member, outside⟩
    rw [mem_activeMembers, only.active_memberships outside, ← mem_activeMembers] at member
    exact outside member
  simp [Service.groupNews, nobody]

theorem Announced.of_changeGroup {group : String} (reports : store.Reports write)
    (only : OnlyGroup group store write.2) (reason : String) {dimensions : Dimensions} (time : Instant)
    (groups : dimensions.groups = false → write.2.memberships = store.memberships) :
    Announced store write.2 time
      (if Outcome.isEmitted write.1 then
        Service.groupNews group reason dimensions (store.activeMembers group time) (store.snapshot · time) write.2 time
      else []) := by
  split
  · rw [groupNews_of_onlyGroup only]
    exact .of_onlyGroup only reason time groups
  · next silent => exact .of_snapshots fun other => by rw [reports (by simpa using silent)]

end Store

namespace Service

open Engine

variable {service : Service} {leaves : Store → Prop}

/-- The routine returns and announces exactly what it did, and it leaves a store behind as it should be. -/
def Announces {α : Type} (service : Service) (routine : Routine α) (leaves : Store → Prop) : Prop :=
  ∃ value store news, service.Achieves routine value store news ∧
    Store.Announced service.store store service.clock news ∧ leaves store

def Tells {α : Type} (service : Service) (routine : Routine α) (leaves : Store → Prop) : Prop :=
  ∃ value store news, service.Achieves routine value store news ∧
    Store.Told service.store store service.clock news ∧ leaves store

theorem Announces.tells {α : Type} {routine : Routine α} (announces : service.Announces routine leaves) :
    service.Tells routine leaves := by
  obtain ⟨value, store, news, achieves, announced, left⟩ := announces
  exact ⟨value, store, news, achieves, announced.told, left⟩

theorem Announces.of_checks {α : Type} {goesOn : Routine (Except EngineError α) → Prop}
    {routine : Routine (Except EngineError α)} (checks : Checks goesOn routine) (unchanged : leaves service.store)
    (passes : ∀ routine, goesOn routine → service.Announces routine leaves) : service.Announces routine leaves := by
  induction checks with
  | refused error =>
      exact ⟨.error error, service.store, [], .pure service _, .of_snapshots fun _ => rfl, unchanged⟩
  | passed goesOn => exact passes _ goesOn
  | reads rest ih =>
      obtain ⟨value, store, news, achieves, announced, left⟩ := ih service.clock
      exact ⟨value, store, news, .bind_of_silent (complete_now service) achieves, announced, left⟩

theorem Announces.of_changesPlayer {player : PlayerId} {routine : Routine (Except EngineError Outcome)}
    (free : AllFree service.locks [player]) (changes : ChangesPlayer player routine) :
    service.Announces routine (Store.OnlyPlayer player service.store) := by
  obtain ⟨reason, write, effect, playerWrite, rfl⟩ := changes
  have only := playerWrite.only service.store
  exact ⟨_, _, _, achieves_changePlayer playerWrite.atOnce.writes free,
    .of_changePlayer (playerWrite.reports _) only reason service.clock, only⟩

theorem announces_playerMutation {mutation : Mutation} {player : PlayerId} (concerns : mutation.player? = some player)
    (free : AllFree service.locks [player]) :
    service.Announces mutation.routine (Store.OnlyPlayer player service.store) :=
  .of_checks (checks_playerMutation concerns) (.refl player service.store) fun _ => .of_changesPlayer free

def Idle (locks : Option LockTable) : Prop :=
  ∀ players, AllFree locks players

theorem Idle.of_agree {locks base : Option LockTable} (idle : Idle base) (agree : LocksAgree locks base) : Idle locks :=
  fun players => (idle players).of_agree agree

theorem announces_mutation (idle : Idle service.locks) (mutation : Mutation) :
    service.Announces mutation.routine fun _ => True := by
  refine .of_checks (checks_mutation mutation) trivial fun routine writes => ?_
  cases writes with
  | player changes =>
      obtain ⟨value, store, news, achieves, announced, _⟩ := Announces.of_changesPlayer (idle _) changes
      exact ⟨value, store, news, achieves, announced, trivial⟩
  | group changes =>
      obtain ⟨reason, write, effect, groupWrite, rfl⟩ := changes
      exact ⟨_, _, _, achieves_changeGroup groupWrite.atOnce.writes (idle _), .of_changeGroup (groupWrite.reports _)
        (groupWrite.only _) reason service.clock fun uncovered => groupWrite.memberships uncovered _, trivial⟩
  | creation name =>
      have achieves := achieves_call service (.createGroup name)
      refine ⟨_, _, _, achieves.andReturn _, .of_snapshots fun player => ?_, trivial⟩
      exact (Store.snapshot_eq_iff.mpr (Store.createGroup_shown _ _ _ _)).symm

theorem tells_mutation (idle : Idle service.locks) (mutation : Mutation) :
    service.Tells mutation.routine fun _ => True :=
  (announces_mutation idle mutation).tells

end Service

end PermissionFeed
