import PermissionFeed.Proofs.Convergence
import PermissionFeed.Proofs.Interruption

namespace PermissionFeed

namespace Service

open Engine

theorem complete_subscribe {lastEvent : String} (named : (Text.trim lastEvent).isEmpty = false) (service : Service)
    (server : String) :
    let attached := { service with feed := (service.feed.subscribe (Text.trim server)).2 }
    let news := (service.store.playersWithActiveRows service.clock).toList.map fun player =>
      Announcement.refresh player Reason.subscriptionResume service.clock
    ∃ locks, service.complete (subscribe server (some lastEvent)) =
      some ⟨.ok service.feed.nextId, service.ids.stamp news, attached.settle service.store locks news⟩ := by
  intro attached news
  have here : ((some lastEvent).map Text.trim).filter (!·.isEmpty) = some (Text.trim lastEvent) := by
    simp [Option.filter, named]
  have refreshes := achieves_emitRefreshes attached (service.store.playersWithActiveRows service.clock).toList
    Reason.subscriptionResume
  obtain ⟨locks, _, completed⟩ := refreshes.andReturn (.ok service.feed.nextId : Except EngineError Nat)
  -- a known consumer is attached, and then the players are looked up at the current time
  have goesOn : service.complete (subscribe server (some lastEvent)) =
      (((attached.complete (emitRefreshes (service.store.playersWithActiveRows service.clock).toList
        Reason.subscriptionResume >>= fun _ => return .ok service.feed.nextId)).map (·.after [])).map
          (·.after [])).map (·.after []) := by
    simp only [subscribe, here]
    rfl
  refine ⟨locks, ?_⟩
  rw [goesOn, completed]
  rfl

end Service

namespace Audience

/-- What a consumer who comes back is asked to load is what has active rows now. Once all of that is received, it is
right about these players and about those without active rows now and when it left, and about nobody else. -/
theorem resumed_knows_iff {config : Config} {service : Service} (reachable : Service.Reachable config service)
    {earlier : Store} {time : Instant} {cache : Cache} (left : cache.InSync earlier time) (server : String)
    {lastEvent : String} (named : (Text.trim lastEvent).isEmpty = false) :
    ∃ id resumed, service.run (Engine.subscribe server (some lastEvent)) = (some (.ok id), resumed) ∧
      resumed.store = service.store ∧ resumed.clock = service.clock ∧
      ((drain id ⟨resumed, cache⟩).service.feed.dropped id = 0 → ∀ player,
        (player ∈ (drain id ⟨resumed, cache⟩).cache.stale ↔
          player ∈ service.store.playersWithActiveRows service.clock) ∧
        (player ∈ (drain id ⟨resumed, cache⟩).cache.stale ∨
            (drain id ⟨resumed, cache⟩).cache.shown player = service.store.shown player service.clock ↔
          player ∈ service.store.playersWithActiveRows service.clock ∨ player ∉ earlier.playersWithActiveRows time)) := by
  obtain ⟨history, holds⟩ := reachable.holds
  obtain ⟨locks, completed⟩ := Service.complete_subscribe named service server
  refine ⟨_, _, Service.run_of_complete completed, rfl, rfl, fun unlost player => ?_⟩
  -- what is received is what was published since the subscription was attached
  have received := Feed.drain_subscribe holds (Text.trim server) _ unlost
  simp only [drain, Service.settle, received, Cache.applyAll_eq_hearAll, EventId.Supply.map_stamp,
    Cache.mem_stale_hearAll_refreshes, Cache.shown_hearAll_refreshes, Std.ExtTreeSet.mem_toList]
  have fresh := left.stale player
  refine ⟨or_iff_right fresh, ?_⟩
  rw [or_iff_right fresh, left.shown player]
  by_cases active : player ∈ service.store.playersWithActiveRows service.clock
  · simp [active]
  · rw [or_iff_right active, or_iff_right active, Store.shown_eq_empty_iff.mpr active, Store.shown_eq_empty_iff]

def relieved : Service :=
  let joined := (Service.staffed.run (Mutation.addPlayerGroups Service.newcomer [⟨"staff", none⟩]).routine).2
  (joined.run (Mutation.removePlayerGroups Service.chief ["staff"]).routine).2

open Service in
theorem chief_outdated : ∃ id resumed,
    relieved.run (Engine.subscribe "lobby" (some "abc")) = (some (.ok id), resumed) ∧
    newcomer ∈ (drain id ⟨resumed, staffedCache⟩).cache.stale ∧
    chief ∉ (drain id ⟨resumed, staffedCache⟩).cache.stale ∧
    (drain id ⟨resumed, staffedCache⟩).cache.shown chief ≠ relieved.store.shown chief relieved.clock := by
  have reachable : Reachable {} relieved := .mutate _ (.mutate _ reachable_staffed)
  have named : (Text.trim "abc").isEmpty = false := by decide +kernel
  obtain ⟨id, resumed, subscribed, _, _, knows⟩ := resumed_knows_iff reachable inSync_staffedCache "lobby" named
  have first : (relieved.run (Engine.subscribe "lobby" (some "abc"))).1.bind Except.toOption = some 0 := by
    decide +kernel
  have unlost : (drain 0 ⟨(relieved.run (Engine.subscribe "lobby" (some "abc"))).2, staffedCache⟩).service.feed.dropped
      0 = 0 := by
    decide +kernel
  rw [subscribed] at first unlost
  obtain rfl : id = 0 := by simpa [Except.toOption] using first
  have present : newcomer ∈ relieved.store.playersWithActiveRows relieved.clock := by decide +kernel
  have absent : chief ∉ relieved.store.playersWithActiveRows relieved.clock := by decide +kernel
  have before : chief ∈ staffed.store.playersWithActiveRows staffed.clock := by decide +kernel
  have unknown := mt (knows unlost chief).2.mp (by simp [absent, before])
  exact ⟨0, resumed, subscribed, (knows unlost newcomer).1.mpr present, not_or.mp unknown⟩

theorem resumption_incomplete : ¬∀ {config : Config} {service : Service}, Service.Reachable config service →
    ∀ {cache : Cache}, cache.InSync service.store service.clock →
    ∀ (meanwhile : List Mutation) (server : String) {lastEvent : String}, (Text.trim lastEvent).isEmpty = false →
    ∃ away id resumed, service.completeEach meanwhile = some away ∧
      away.service.run (Engine.subscribe server (some lastEvent)) = (some (.ok id), resumed) ∧
      ((drain id ⟨resumed, cache⟩).service.feed.dropped id = 0 → ∀ player,
        player ∈ (drain id ⟨resumed, cache⟩).cache.stale ∨
          (drain id ⟨resumed, cache⟩).cache.shown player = resumed.store.shown player resumed.clock) := by
  intro complete
  have named : (Text.trim "abc").isEmpty = false := by decide +kernel
  obtain ⟨away, id, resumed, left, subscribed, known⟩ := complete Service.reachable_staffed Service.inSync_staffedCache
    [.removePlayerGroups Service.chief ["staff"]] "lobby" named
  have ended : ((Service.staffed.completeEach [.removePlayerGroups Service.chief ["staff"]]).map fun away =>
      (away.service.run (Engine.subscribe "lobby" (some "abc"))).1.bind Except.toOption) = some (some 0) := by
    decide +kernel
  have unknown : ((Service.staffed.completeEach [.removePlayerGroups Service.chief ["staff"]]).map fun away =>
      let resumed := (away.service.run (Engine.subscribe "lobby" (some "abc"))).2
      let last := drain 0 ⟨resumed, Service.staffedCache⟩
      decide (last.service.feed.dropped 0 = 0 ∧ ¬(Service.chief ∈ last.cache.stale ∨
        last.cache.shown Service.chief = resumed.store.shown Service.chief resumed.clock))) = some true := by
    decide +kernel
  simp only [left, Option.map_some, subscribed, Option.some.injEq] at ended unknown
  obtain rfl : id = 0 := by simpa [Except.toOption] using ended
  obtain ⟨unlost, outdated⟩ := of_decide_eq_true unknown
  exact outdated (known unlost Service.chief)

end Audience

end PermissionFeed
