import PermissionFeed.Proofs.Cleaning
import PermissionFeed.Proofs.Outcomes

namespace PermissionFeed

inductive Edit where
  | add (own : Owner) (rows : List Row)
  | remove (own : Owner) (names : List String)
  | create (name : String)
  | delete (name : String)

namespace Edit

def effect : Edit → Store → Store.Write
  | add own rows => (·.add own rows)
  | remove own names => (·.remove own names)
  | create name => (·.createGroup name)
  | delete name => (·.deleteGroup name)

def IsClean : Edit → Prop
  | add _ rows => (rows.map Row.key).Nodup
  | _ => True

def player? : Edit → Option PlayerId
  | add (.grants player) _ | add (.memberships player) _ | remove (.grants player) _ | remove (.memberships player) _ =>
      some player
  | _ => none

theorem only {edit : Edit} {player : PlayerId} (concerns : edit.player? = some player) (store : Store) :
    Store.OnlyPlayer player store (edit.effect store).2 := by
  match edit, concerns with
  | add (.grants player) rows, rfl => exact store.addGrants_only player rows
  | add (.memberships player) rows, rfl => exact store.addMemberships_only player rows
  | remove (.grants player) names, rfl => exact store.removeGrants_only player names
  | remove (.memberships player) names, rfl => exact store.removeMemberships_only player names

inductive Makes (edit : Edit) : Routine (Except EngineError Outcome) → Prop
  | player {player : PlayerId} {reason : String} {write : Routine (Except StoreError Outcome)}
      (concerns : edit.player? = some player) (writes : Service.Writes write edit.effect) :
      Makes edit (Engine.changePlayer player reason write)
  | group {group reason : String} {dimensions : Dimensions} {write : Routine (Except StoreError Outcome)}
      (concerns : edit.player? = none) (writes : Service.Writes write edit.effect) :
      Makes edit (Engine.changeGroup group reason dimensions write)
  | unannounced {write : Routine (Except StoreError Outcome)} (concerns : edit.player? = none)
      (writes : Service.Writes write edit.effect) : Makes edit (do return (← write).mapError .store)

theorem Makes.achieves {edit : Edit} {routine : Routine (Except EngineError Outcome)} (makes : edit.Makes routine)
    (service : Service) (idle : Service.Idle service.locks) :
    ∃ news, service.Achieves routine ((edit.effect service.store).1.mapError .store) (edit.effect service.store).2 news ∧
      (Outcome.isEmitted (edit.effect service.store).1 = false → news = []) := by
  cases makes with
  | player _ writes =>
      exact ⟨_, Service.achieves_changePlayer writes (idle _), fun silent => if_neg (by simp [silent])⟩
  | group _ writes =>
      exact ⟨_, Service.achieves_changeGroup writes (idle _), fun silent => if_neg (by simp [silent])⟩
  | unannounced _ writes => exact ⟨[], .bind_of_quiet (writes.achieves service) fun _ _ => .pure _ _, fun _ => rfl⟩

end Edit

namespace Engine

theorem Checks.settled {α : Type} {goesOn : Routine (Except EngineError α) → Prop}
    {routine : Routine (Except EngineError α)} (checks : Checks goesOn routine) (time : Instant) :
    (∃ error, ∀ service : Service, service.clock = time → service.complete routine = some ⟨.error error, [], service⟩) ∨
      ∃ next, goesOn next ∧
        ∀ service : Service, service.clock = time → service.complete routine = service.complete next := by
  induction checks with
  | refused error => exact Or.inl ⟨error, fun _ _ => rfl⟩
  | @passed routine passes => exact Or.inr ⟨routine, passes, fun _ _ => rfl⟩
  | @reads next rest ih =>
      have read (service : Service) (now : service.clock = time) :
          service.complete (.step .readClock next) = service.complete (next time) := by
        have performed : service.perform .readClock = (some time, service) := by rw [← now]; rfl
        exact (Service.complete_step performed next).trans (Ran.map_after_nil _)
      rcases ih time with ⟨error, refused⟩ | ⟨later, passes, same⟩
      · exact Or.inl ⟨error, fun service now => (read service now).trans (refused service now)⟩
      · exact Or.inr ⟨later, passes, fun service now => (read service now).trans (same service now)⟩

theorem checks_edit (mutation : Mutation) :
    Checks (fun routine => ∃ edit : Edit, edit.IsClean ∧ edit.player? = mutation.player? ∧ edit.Makes routine)
      mutation.routine := by
  have distinct {raw rows : List Row} {field : String} (cleaned : Request.rows raw field = .ok rows) :
      (rows.map Row.key).Nodup := (((Request.cleans_rows field).accepts raw rows).mp cleaned).2.1.nodup_map
  cases mutation <;> rw [Mutation.routine]
  case addPlayerPermissions player grants =>
    refine .of_lasting fun rows cleaned => .passed ⟨.add (.grants player) rows, distinct cleaned, rfl, ?_⟩
    exact .player rfl fun _ => rfl
  case removePlayerPermissions player permissions =>
    refine .of_cleaned fun names _ => .passed ⟨.remove (.grants player) names, trivial, rfl, ?_⟩
    exact .player rfl fun _ => rfl
  case addPlayerGroups player memberships =>
    refine .of_lasting fun rows cleaned => .passed ⟨.add (.memberships player) rows, distinct cleaned, rfl, ?_⟩
    exact .player rfl fun _ => rfl
  case removePlayerGroups player groups =>
    refine .of_cleaned fun names _ => .passed ⟨.remove (.memberships player) names, trivial, rfl, ?_⟩
    exact .player rfl fun _ => rfl
  case addGroupPermissions group grants =>
    refine .of_cleaned fun name _ => .of_lasting fun rows cleaned => .passed ?_
    exact ⟨.add (.group name) rows, distinct cleaned, rfl, .group rfl fun _ => rfl⟩
  case removeGroupPermissions group permissions =>
    refine .of_cleaned fun name _ => .of_cleaned fun names _ => .passed ?_
    exact ⟨.remove (.group name) names, trivial, rfl, .group rfl fun _ => rfl⟩
  case createGroup name =>
    exact .of_cleaned fun name _ => .passed ⟨.create name, trivial, rfl, .unannounced rfl fun _ => rfl⟩
  case deleteGroup name =>
    exact .of_cleaned fun name _ => .passed ⟨.delete name, trivial, rfl, .group rfl fun _ => rfl⟩

end Engine

end PermissionFeed
