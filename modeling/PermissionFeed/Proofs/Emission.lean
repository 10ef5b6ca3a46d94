import PermissionFeed.Proofs.Reachable

namespace PermissionFeed.Service

/-- What a mutation publishes is what its feed takes up, and it is exactly the changes of the full snapshots. -/
theorem publishes_exactly {config : Config} {service : Service} (reachable : Reachable config service)
    (mutation : Mutation) :
    ∃ ran, service.complete mutation.routine = some ran ∧ ran.service.clock = service.clock ∧
      ran.service.feed = service.feed.publishAll ran.events ∧
      service.store.Announced ran.service.store service.clock (ran.events.map ChangeEvent.toAnnouncement) := by
  obtain ⟨value, store, news, ⟨locks, _, completed⟩, announced, _⟩ := announces_mutation reachable.idle mutation
  refine ⟨_, completed, rfl, rfl, ?_⟩
  rwa [EventId.Supply.map_stamp]

def overlapping : Service :=
  let joined := (staffed.run (Mutation.addPlayerGroups newcomer [⟨"staff", none⟩]).routine).2
  (joined.run (Mutation.addPlayerPermissions newcomer [⟨"kick", none⟩]).routine).2

theorem publishes_to_chief_alone : ∃ ran,
    overlapping.complete (Mutation.removeGroupPermissions "staff" ["kick"]).routine = some ran ∧
    ran.events.map (·.player) = [chief] ∧
    overlapping.store.Announced ran.service.store overlapping.clock (ran.events.map ChangeEvent.toAnnouncement) := by
  have reachable : Reachable {} overlapping := .mutate _ (.mutate _ reachable_staffed)
  obtain ⟨ran, completed, _, _, announced⟩ :=
    publishes_exactly reachable (.removeGroupPermissions "staff" ["kick"])
  have players : (overlapping.complete (Mutation.removeGroupPermissions "staff" ["kick"]).routine).map
      (fun ran => ran.events.map (·.player)) = some [chief] := by
    decide +kernel
  rw [completed] at players
  exact ⟨ran, completed, Option.some.inj players, announced⟩

end PermissionFeed.Service
