import PermissionFeed.Feed

namespace PermissionFeed.Feed

variable {Event : Type}

def publishAll (feed : Feed Event) (events : List Event) : Feed Event :=
  events.foldl (fun feed event => (feed.publish event).2) feed

theorem publishAll_append (feed : Feed Event) (first second : List Event) :
    feed.publishAll (first ++ second) = (feed.publishAll first).publishAll second :=
  List.foldl_append

structure Holds (feed : Feed Event) (history : List Event) : Prop where
  position : feed.position = history.length
  kept : feed.kept = history.drop (history.length - feed.capacity)

theorem holds_ofCapacity (capacity : Nat) : (ofCapacity capacity : Feed Event).Holds [] :=
  ⟨rfl, List.drop_nil.symm⟩

theorem publish_of_unheard {feed : Feed Event} (unheard : feed.subscriptions.isEmpty) (event : Event) :
    (feed.publish event).2 = feed := by
  rw [publish, if_pos unheard]

theorem drop_concat {history : List Event} {capacity : Nat} (event : Event) :
    let kept := history.drop (history.length - capacity) ++ [event]
    kept.drop (kept.length - capacity) = (history ++ [event]).drop ((history ++ [event]).length - capacity) := by
  intro kept
  have appended : kept = (history ++ [event]).drop (history.length - capacity) := by
    rw [List.drop_append_of_le_length (Nat.sub_le _ _)]
  rw [appended, List.drop_drop, List.length_drop, List.length_append, List.length_singleton]
  congr 1
  omega

theorem Holds.publish {feed : Feed Event} {history : List Event} (holds : feed.Holds history)
    (heard : feed.subscriptions.isEmpty = false) (event : Event) :
    (feed.publish event).2.Holds (history ++ [event]) := by
  rw [Feed.publish, if_neg (by simp [heard])]
  refine ⟨?_, ?_⟩
  · simp [holds.position]
  · simp only [holds.kept]
    exact drop_concat event

theorem subscriptions_publish (feed : Feed Event) (event : Event) :
    (feed.publish event).2.subscriptions = feed.subscriptions := by
  unfold publish
  split <;> rfl

theorem Holds.publishAll {feed : Feed Event} {history : List Event} (holds : feed.Holds history)
    (heard : feed.subscriptions.isEmpty = false) (events : List Event) :
    (feed.publishAll events).Holds (history ++ events) := by
  induction events generalizing feed history with
  | nil => simpa [Feed.publishAll] using holds
  | cons event events ih =>
      have stepped := ih (holds.publish heard event) (by rw [subscriptions_publish, heard])
      rwa [List.append_assoc] at stepped

theorem subscriptions_publishAll (feed : Feed Event) (events : List Event) :
    (feed.publishAll events).subscriptions = feed.subscriptions := by
  induction events generalizing feed with
  | nil => rfl
  | cons event events ih => exact (ih _).trans (subscriptions_publish feed event)

theorem Holds.of_subscriptions {feed : Feed Event} {history : List Event} (holds : feed.Holds history)
    (subscriptions : Std.ExtTreeMap Nat Subscription) : Holds { feed with subscriptions } history :=
  ⟨holds.position, holds.kept⟩

theorem receive_of_found {feed : Feed Event} {id : Nat} {subscription : Subscription}
    (found : feed.subscriptions[id]? = some subscription) :
    feed.receive id = ((feed.receiveFor subscription).1,
      { feed with subscriptions := feed.subscriptions.insert id (feed.receiveFor subscription).2 }) := by
  rw [receive, found]

theorem dropped_of_found {feed : Feed Event} {id : Nat} {subscription : Subscription}
    (found : feed.subscriptions[id]? = some subscription) : feed.dropped id = subscription.dropped := by
  rw [dropped, found]
  rfl

theorem dropped_receiveFor (feed : Feed Event) (subscription : Subscription) :
    subscription.dropped ≤ (feed.receiveFor subscription).2.dropped := by
  have caught : subscription.dropped ≤ (feed.catchUp subscription).dropped := by
    unfold catchUp
    simp only
    split
    · exact Nat.le_add_right _ _
    · exact Nat.le_refl _
  unfold receiveFor
  simp only
  split
  · split <;> exact caught
  · exact caught

theorem dropped_receiveFor_of_lost {feed : Feed Event} {subscription : Subscription}
    (lost : subscription.position < feed.position - feed.capacity) :
    0 < (feed.receiveFor subscription).2.dropped := by
  have caught : 0 < (feed.catchUp subscription).dropped := by
    rw [catchUp, if_pos lost]
    exact Nat.lt_of_lt_of_le (Nat.sub_pos_of_lt lost) (Nat.le_add_left _ _)
  unfold receiveFor
  simp only
  split
  · split <;> exact caught
  · exact caught

theorem eventAt?_of_kept {feed : Feed Event} {history : List Event} (holds : feed.Holds history) {position : Nat}
    (reached : history.length - feed.capacity ≤ position) (behind : position < history.length) :
    feed.eventAt? position = history[position]? := by
  have length : feed.kept.length = history.length - (history.length - feed.capacity) := by
    rw [holds.kept, List.length_drop]
  rw [eventAt?, length, holds.position, holds.kept, List.getElem?_drop]
  congr 1
  omega

theorem receiveFor_of_behind {feed : Feed Event} {history : List Event} (holds : feed.Holds history)
    {subscription : Subscription} (reached : history.length - feed.capacity ≤ subscription.position) {event : Event}
    (next : history[subscription.position]? = some event) :
    feed.receiveFor subscription = (.event event, { subscription with position := subscription.position + 1 }) := by
  have behind : subscription.position < history.length := (List.getElem?_eq_some_iff.mp next).1
  have level : feed.catchUp subscription = subscription := by
    rw [catchUp, if_neg (by rw [holds.position]; exact Nat.not_lt.mpr reached)]
  simp only [receiveFor, level, holds.position, behind, if_true, eventAt?_of_kept holds reached behind, next]

theorem receiveFor_of_level {feed : Feed Event} {history : List Event} (holds : feed.Holds history)
    {subscription : Subscription} (level : history.length ≤ subscription.position) :
    (∀ event, (feed.receiveFor subscription).1 ≠ .event event) ∧
      (feed.receiveFor subscription).2 = subscription := by
  have same : feed.catchUp subscription = subscription := by
    rw [catchUp, if_neg (by rw [holds.position]; omega)]
  simp only [receiveFor, same, holds.position, Nat.not_lt.mpr level, if_false, and_true]
  intro event
  split <;> simp

theorem reached_of_kept {feed : Feed Event} {history : List Event} (holds : feed.Holds history) {id : Nat}
    {subscription : Subscription} (found : feed.subscriptions[id]? = some subscription)
    (kept : (feed.receive id).2.dropped id = 0) : history.length - feed.capacity ≤ subscription.position := by
  apply Nat.le_of_not_lt
  intro lost
  have missing : 0 < (feed.receiveFor subscription).2.dropped :=
    dropped_receiveFor_of_lost (by rw [holds.position]; exact lost)
  rw [receive_of_found found, dropped_of_found Std.ExtTreeMap.getElem?_insert_self] at kept
  exact absurd kept (Nat.ne_of_gt missing)

theorem receive_of_kept {feed : Feed Event} {history : List Event} (holds : feed.Holds history) {id : Nat}
    {subscription : Subscription} (found : feed.subscriptions[id]? = some subscription)
    (kept : (feed.receive id).2.dropped id = 0) :
    (∃ event, history[subscription.position]? = some event ∧ feed.receive id = (.event event,
      { feed with subscriptions :=
          feed.subscriptions.insert id { subscription with position := subscription.position + 1 } })) ∨
    (history.length ≤ subscription.position ∧ (∀ event, (feed.receive id).1 ≠ .event event) ∧
      (feed.receive id).2 = { feed with subscriptions := feed.subscriptions.insert id subscription }) := by
  cases next : history[subscription.position]? with
  | some event =>
      left
      refine ⟨event, rfl, ?_⟩
      rw [receive_of_found found, receiveFor_of_behind holds (reached_of_kept holds found kept) next]
  | none =>
      right
      have level := List.getElem?_eq_none_iff.mp next
      obtain ⟨nothing, same⟩ := receiveFor_of_level holds level
      rw [receive_of_found found, same]
      exact ⟨level, nothing, rfl⟩

theorem dropped_receive (feed : Feed Event) (id : Nat) : feed.dropped id ≤ (feed.receive id).2.dropped id := by
  cases found : feed.subscriptions[id]? with
  | none =>
      have unchanged : (feed.receive id).2 = feed := by rw [receive, found]
      exact Nat.le_of_eq (by rw [unchanged])
  | some subscription =>
      rw [receive_of_found found, dropped_of_found found, dropped_of_found Std.ExtTreeMap.getElem?_insert_self]
      exact dropped_receiveFor feed subscription

theorem receiveMany_of_event {feed after : Feed Event} {id : Nat} {event : Event}
    (received : feed.receive id = (.event event, after)) (count : Nat) :
    feed.receiveMany id (count + 1) = (event :: (after.receiveMany id count).1, (after.receiveMany id count).2) := by
  rw [receiveMany, received]

theorem receiveMany_of_nothing {feed : Feed Event} {id : Nat} (nothing : ∀ event, (feed.receive id).1 ≠ .event event)
    (count : Nat) : feed.receiveMany id (count + 1) = ([], (feed.receive id).2) := by
  rw [receiveMany]
  rcases received : feed.receive id with ⟨event | _ | _, after⟩
  · exact absurd (by rw [received]) (nothing event)
  · rfl
  · rfl

theorem dropped_receiveMany (feed : Feed Event) (id count : Nat) :
    (feed.receive id).2.dropped id ≤ (feed.receiveMany id (count + 1)).2.dropped id := by
  induction count generalizing feed with
  | zero =>
      rcases received : feed.receive id with ⟨event | _ | _, after⟩
      · exact Nat.le_of_eq (congrArg (fun result => result.2.dropped id) (receiveMany_of_event received 0)).symm
      · exact Nat.le_of_eq (by rw [receiveMany_of_nothing (by simp [received]), received])
      · exact Nat.le_of_eq (by rw [receiveMany_of_nothing (by simp [received]), received])
  | succ count ih =>
      rcases received : feed.receive id with ⟨event | _ | _, after⟩
      · rw [receiveMany_of_event received]
        exact Nat.le_trans (dropped_receive after id) (ih after)
      · exact Nat.le_of_eq (by rw [receiveMany_of_nothing (by simp [received]), received])
      · exact Nat.le_of_eq (by rw [receiveMany_of_nothing (by simp [received]), received])

theorem receiveMany_of_kept {feed : Feed Event} {history : List Event} (holds : feed.Holds history) {id : Nat}
    {subscription : Subscription} (found : feed.subscriptions[id]? = some subscription) {count : Nat}
    (enough : history.length - subscription.position < count)
    (kept : (feed.receiveMany id count).2.dropped id = 0) :
    (feed.receiveMany id count).1 = history.drop subscription.position := by
  induction count generalizing feed subscription with
  | zero => omega
  | succ count ih =>
      have firstKept := Nat.eq_zero_of_le_zero (kept ▸ dropped_receiveMany feed id count)
      rcases receive_of_kept holds found firstKept with ⟨event, next, received⟩ | ⟨level, nothing, _⟩
      · rw [receiveMany_of_event received] at kept ⊢
        obtain ⟨behind, rfl⟩ := List.getElem?_eq_some_iff.mp next
        rw [List.drop_eq_getElem_cons behind]
        have rest := ih (holds.of_subscriptions _) Std.ExtTreeMap.getElem?_insert_self (by simp only; omega) kept
        exact congrArg (List.cons _) rest
      · rw [receiveMany_of_nothing nothing, List.drop_eq_nil_of_le level]

theorem drain_eq {feed : Feed Event} {history : List Event} (holds : feed.Holds history) {id : Nat}
    {subscription : Subscription} (found : feed.subscriptions[id]? = some subscription)
    (kept : (feed.drain id).2.dropped id = 0) : (feed.drain id).1 = history.drop subscription.position := by
  have firstKept : (feed.receive id).2.dropped id = 0 := Nat.eq_zero_of_le_zero (kept ▸ dropped_receiveMany feed id _)
  have reached := reached_of_kept holds found firstKept
  apply receiveMany_of_kept holds found _ kept
  rw [holds.kept, List.length_drop]
  omega

theorem drain_subscribe {feed : Feed Event} {history : List Event} (holds : feed.Holds history) (server : String)
    (events : List Event)
    (kept : (((feed.subscribe server).2.publishAll events).drain feed.nextId).2.dropped feed.nextId = 0) :
    (((feed.subscribe server).2.publishAll events).drain feed.nextId).1 = events := by
  have attached : (feed.subscribe server).2.Holds history := ⟨holds.position, holds.kept⟩
  have heard : (feed.subscribe server).2.subscriptions.isEmpty = false := by simp [subscribe]
  have found : ((feed.subscribe server).2.publishAll events).subscriptions[feed.nextId]? =
      some (feed.subscribe server).1 := by
    rw [subscriptions_publishAll]
    exact Std.ExtTreeMap.getElem?_insert_self
  rw [drain_eq (attached.publishAll heard events) found kept]
  simp [subscribe, holds.position]

end PermissionFeed.Feed
