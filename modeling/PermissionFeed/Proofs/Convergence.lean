import PermissionFeed.Proofs.Reachable

namespace PermissionFeed

inductive Turn where
  | mutate (mutation : Mutation)
  | receive
  deriving DecidableEq

structure Audience where
  service : Service
  cache : Cache

def Cache.takeIn (cache : Cache) : Received ChangeEvent → Cache
  | .event event => cache.apply event
  | _ => cache

namespace Audience

def take (id : Nat) (audience : Audience) : Turn → Option Audience
  | .mutate mutation =>
      match audience.service.run mutation.routine with
      | (some _, service) => some { audience with service }
      | (none, _) => none
  | .receive =>
      let (received, feed) := audience.service.feed.receive id
      some ⟨{ audience.service with feed }, audience.cache.takeIn received⟩

def takeAll (id : Nat) (audience : Audience) (turns : List Turn) : Option Audience :=
  turns.foldlM (take id) audience

def drain (id : Nat) (audience : Audience) : Audience :=
  let (events, feed) := audience.service.feed.drain id
  ⟨{ audience.service with feed }, audience.cache.applyAll events⟩

/-- The consumer would be in sync after all that was published since the start, and has taken in the first part of it
unless the subscription has lost something. -/
structure Attends (id : Nat) (start : Cache) (history log : List ChangeEvent) (audience : Audience) : Prop where
  idle : Service.Idle audience.service.locks
  holds : audience.service.feed.Holds (history ++ log)
  synced : (start.applyAll log).InSync audience.service.store audience.service.clock
  listens : ∃ subscription, audience.service.feed.subscriptions[id]? = some subscription ∧
    (subscription.dropped = 0 → ∃ taken rest, log = taken ++ rest ∧
      subscription.position = (history ++ taken).length ∧ audience.cache = start.applyAll taken)

namespace Attends

variable {id : Nat} {start : Cache} {history log : List ChangeEvent} {audience : Audience}

theorem mutate (attends : Attends id start history log audience) (mutation : Mutation) :
    ∃ after later, audience.take id (.mutate mutation) = some after ∧ Attends id start history (log ++ later) after := by
  obtain ⟨value, store, news, achieves, told, _⟩ := Service.tells_mutation attends.idle mutation
  obtain ⟨locks, agree, ran⟩ := achieves.run
  obtain ⟨subscription, found, follows⟩ := attends.listens
  have heard : audience.service.feed.subscriptions.isEmpty = false := by
    rw [Std.ExtTreeMap.isEmpty_eq_false_iff]
    intro none
    simp [none] at found
  refine ⟨_, audience.service.ids.stamp news, by rw [take, ran], ?_⟩
  exact
    { idle := attends.idle.of_agree agree
      holds := by
        rw [← List.append_assoc]
        exact attends.holds.publishAll heard _
      synced := by
        rw [Cache.applyAll_append, Cache.applyAll_eq_hearAll _ (audience.service.ids.stamp news),
          EventId.Supply.map_stamp]
        exact told.inSync attends.synced
      listens := by
        refine ⟨subscription, ?_, fun kept => ?_⟩
        · simp only [Service.settle, Feed.subscriptions_publishAll]
          exact found
        · obtain ⟨taken, rest, rfl, position, cached⟩ := follows kept
          exact ⟨taken, rest ++ _, List.append_assoc _ _ _, position, cached⟩ }

theorem receive (attends : Attends id start history log audience) :
    ∃ after, audience.take id .receive = some after ∧ Attends id start history log after := by
  obtain ⟨subscription, found, follows⟩ := attends.listens
  have received := Feed.receive_of_found found
  refine ⟨_, by rw [take, received], ?_⟩
  refine ⟨attends.idle, attends.holds.of_subscriptions _, attends.synced,
    (audience.service.feed.receiveFor subscription).2, Std.ExtTreeMap.getElem?_insert_self, fun unlost => ?_⟩
  have kept : (audience.service.feed.receive id).2.dropped id = 0 := by
    rw [received, Feed.dropped_of_found Std.ExtTreeMap.getElem?_insert_self, unlost]
  have earlier : subscription.dropped = 0 :=
    Nat.eq_zero_of_le_zero (unlost ▸ Feed.dropped_receiveFor audience.service.feed subscription)
  obtain ⟨taken, rest, rfl, position, cached⟩ := follows earlier
  cases rest with
  | nil =>
      -- everything was taken in, so nothing arrives
      have level : (history ++ (taken ++ [])).length ≤ subscription.position := by simp [position]
      obtain ⟨nothing, same⟩ := Feed.receiveFor_of_level attends.holds level
      refine ⟨taken, [], rfl, by rw [same, position], ?_⟩
      rw [← cached]
      cases got : (audience.service.feed.receiveFor subscription).1 with
      | event event => exact absurd got (nothing event)
      | _ => rfl
  | cons event rest =>
      -- the first event that was not taken in arrives
      have next : (history ++ (taken ++ event :: rest))[subscription.position]? = some event := by
        rw [position, ← List.append_assoc, List.getElem?_append_right (Nat.le_refl _), Nat.sub_self]
        rfl
      have got := Feed.receiveFor_of_behind attends.holds (Feed.reached_of_kept attends.holds found kept) next
      refine ⟨taken ++ [event], rest, by simp, by simp [got, position, Nat.add_assoc], ?_⟩
      rw [Cache.applyAll_append, ← cached]
      simp only [got]
      rfl

theorem takeAll (attends : Attends id start history log audience) (turns : List Turn) :
    ∃ last later, audience.takeAll id turns = some last ∧ Attends id start history (log ++ later) last := by
  induction turns generalizing audience log with
  | nil => exact ⟨audience, [], rfl, by rwa [List.append_nil]⟩
  | cons turn turns ih =>
      obtain ⟨after, first, taken, stillAttends⟩ : ∃ after first, audience.take id turn = some after ∧
          Attends id start history (log ++ first) after := by
        cases turn with
        | mutate mutation => exact attends.mutate mutation
        | receive =>
            obtain ⟨after, taken, stillAttends⟩ := attends.receive
            exact ⟨after, [], taken, by rwa [List.append_nil]⟩
      obtain ⟨last, later, allTaken, attendsLast⟩ := ih stillAttends
      refine ⟨last, first ++ later, ?_, by rwa [← List.append_assoc]⟩
      rw [Audience.takeAll, List.foldlM_cons, taken]
      exact allTaken

theorem drain (attends : Attends id start history log audience)
    (unlost : (audience.drain id).service.feed.dropped id = 0) :
    (audience.drain id).cache.InSync audience.service.store audience.service.clock := by
  obtain ⟨subscription, found, follows⟩ := attends.listens
  have rest := Feed.drain_eq attends.holds found unlost
  have earlier : subscription.dropped = 0 := by
    have first := Feed.dropped_receive audience.service.feed id
    have all := Feed.dropped_receiveMany audience.service.feed id audience.service.feed.kept.length
    have none : (audience.service.feed.drain id).2.dropped id = 0 := unlost
    rw [Feed.drain] at none
    rw [Feed.dropped_of_found found] at first
    omega
  obtain ⟨taken, remaining, rfl, position, cached⟩ := follows earlier
  have drained : (audience.drain id).cache = start.applyAll (taken ++ remaining) := by
    rw [position, ← List.append_assoc, List.drop_left] at rest
    simp only [Audience.drain, rest, Cache.applyAll_append, cached]
  rw [drained]
  exact attends.synced

end Attends

/-- Whoever is in sync when a subscription is attached is in sync again once everything is received, whatever mutations
were asked for meanwhile, as long as the subscription loses nothing. -/
theorem converges {config : Config} {service : Service} (reachable : Service.Reachable config service) (server : String)
    {cache : Cache} (loaded : cache.InSync service.store service.clock) (turns : List Turn) :
    ∃ id attached last, service.run (Engine.subscribe server none) = (some (.ok id), attached) ∧
      takeAll id ⟨attached, cache⟩ turns = some last ∧
      ((last.drain id).service.feed.dropped id = 0 →
        (last.drain id).cache.InSync (last.drain id).service.store (last.drain id).service.clock) := by
  obtain ⟨history, holds⟩ := reachable.holds
  let attached : Service := { service with feed := (service.feed.subscribe (Text.trim server)).2 }
  have attends : Attends service.feed.nextId cache history [] ⟨attached, cache⟩ :=
    { idle := reachable.idle
      holds := by
        rw [List.append_nil]
        exact ⟨holds.position, holds.kept⟩
      synced := loaded
      listens := ⟨_, Std.ExtTreeMap.getElem?_insert_self, fun _ => ⟨[], [], rfl, by simp [holds.position], rfl⟩⟩ }
  obtain ⟨last, log, taken, attendsLast⟩ := attends.takeAll turns
  exact ⟨service.feed.nextId, attached, last, rfl, taken, attendsLast.drain⟩

open Service in
theorem converges_staffed : ∃ id attached last,
    staffed.run (Engine.subscribe "lobby" none) = (some (.ok id), attached) ∧
    takeAll id ⟨attached, staffedCache⟩ [.mutate (.addPlayerGroups newcomer [⟨"staff", some 5⟩]), .receive,
      .mutate (.removeGroupPermissions "staff" ["kick"]), .mutate (.deleteGroup "staff")] = some last ∧
    (last.drain id).service.feed.dropped id = 0 ∧
    (last.drain id).cache.InSync (last.drain id).service.store (last.drain id).service.clock := by
  let turns : List Turn := [.mutate (.addPlayerGroups newcomer [⟨"staff", some 5⟩]), .receive,
    .mutate (.removeGroupPermissions "staff" ["kick"]), .mutate (.deleteGroup "staff")]
  obtain ⟨id, attached, last, subscribed, taken, synced⟩ := converges reachable_staffed "lobby" inSync_staffedCache turns
  have first : (staffed.run (Engine.subscribe "lobby" none)).1.bind Except.toOption = some 0 := by decide +kernel
  have unlost : (takeAll 0 ⟨(staffed.run (Engine.subscribe "lobby" none)).2, staffedCache⟩ turns).map
      (fun last => (last.drain 0).service.feed.dropped 0) = some 0 := by
    decide +kernel
  rw [subscribed] at first unlost
  obtain rfl : id = 0 := by simpa [Except.toOption] using first
  simp only [taken, Option.map_some, Option.some.injEq] at unlost
  exact ⟨0, attached, last, subscribed, taken, unlost, synced unlost⟩

end Audience

end PermissionFeed
