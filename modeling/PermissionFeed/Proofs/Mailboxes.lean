import PermissionFeed.Proofs.Feeds

/-!
# Subscriptions as mailboxes

All subscriptions of a feed share what it keeps. Still, each of them receives what a mailbox of its own would hand out
that has room for `capacity` events and throws away its oldest one when it is full (`Feed.receives_as_mailbox`). The
feed and the mailbox are compared move by move (`Feed.Mirrors.move`).
-/

namespace PermissionFeed

variable {Event : Type}

structure Mailbox (Event : Type) where
  size : Nat
  queued : List Event
  discarded : Nat

inductive MailboxMove (Event : Type) where
  | offer (event : Event)
  | take
  | takeAll

inductive FeedMove (Event : Type) where
  | cloneHandle
  | dropHandle
  | subscribe (server : String)
  | unsubscribe (id : Nat)
  | publish (event : Event)
  | receive (id : Nat)
  | drain (id : Nat)

namespace Mailbox

variable {mailbox : Mailbox Event}

def empty (size : Nat) : Mailbox Event :=
  ⟨size, [], 0⟩

def offer (mailbox : Mailbox Event) (event : Event) : Mailbox Event :=
  let queued := mailbox.queued ++ [event]
  if queued.length ≤ mailbox.size then { mailbox with queued }
  else { mailbox with queued := queued.tail, discarded := mailbox.discarded + 1 }

def move (mailbox : Mailbox Event) : MailboxMove Event → List Event × Mailbox Event
  | .offer event => ([], mailbox.offer event)
  | .take => (mailbox.queued.take 1, { mailbox with queued := mailbox.queued.drop 1 })
  | .takeAll => (mailbox.queued, { mailbox with queued := [] })

def play (mailbox : Mailbox Event) : List (MailboxMove Event) → List Event × Mailbox Event
  | [] => ([], mailbox)
  | move :: moves =>
      let (taken, mailbox) := mailbox.move move
      let (rest, mailbox) := mailbox.play moves
      (taken ++ rest, mailbox)

def offered? : MailboxMove Event → Option Event
  | .offer event => some event
  | .take | .takeAll => none

theorem offer_eq (bounded : mailbox.queued.length ≤ mailbox.size) (event : Event) :
    mailbox.offer event = ⟨mailbox.size,
      (mailbox.queued ++ [event]).drop (mailbox.queued.length + 1 - mailbox.size),
      mailbox.discarded + (mailbox.queued.length + 1 - mailbox.size)⟩ := by
  simp only [offer, List.length_append, List.length_singleton]
  split
  · next room => rw [Nat.sub_eq_zero_of_le room, List.drop_zero, Nat.add_zero]
  · next full =>
      have one : mailbox.queued.length + 1 - mailbox.size = 1 := by omega
      rw [one, List.drop_one]

theorem play_append (mailbox : Mailbox Event) (first second : List (MailboxMove Event)) :
    mailbox.play (first ++ second) = ((mailbox.play first).1 ++ ((mailbox.play first).2.play second).1,
      ((mailbox.play first).2.play second).2) := by
  induction first generalizing mailbox with
  | nil => rfl
  | cons move first ih => simp [play, ih]

theorem play_singleton (mailbox : Mailbox Event) (move : MailboxMove Event) :
    mailbox.play [move] = mailbox.move move := by
  simp [play]

theorem queued_offer (mailbox : Mailbox Event) (event : Event) :
    (mailbox.offer event).queued.Sublist (mailbox.queued ++ [event]) := by
  simp only [offer]
  split
  · exact List.Sublist.refl _
  · exact List.tail_sublist _

theorem length_offer (mailbox : Mailbox Event) (event : Event) :
    (mailbox.offer event).discarded + (mailbox.offer event).queued.length =
      mailbox.discarded + mailbox.queued.length + 1 := by
  simp only [offer]
  split
  · simp [Nat.add_assoc]
  · simp only [List.length_tail, List.length_append, List.length_singleton]
    omega

theorem play_sublist (mailbox : Mailbox Event) (moves : List (MailboxMove Event)) :
    ((mailbox.play moves).1 ++ (mailbox.play moves).2.queued).Sublist
      (mailbox.queued ++ moves.filterMap offered?) := by
  induction moves generalizing mailbox with
  | nil => simp [play]
  | cons move moves ih =>
      cases move with
      | offer event =>
          have stored := (mailbox.queued_offer event).append_right (moves.filterMap offered?)
          rw [List.append_assoc] at stored
          exact (ih (mailbox.offer event)).trans stored
      | take =>
          have rest := (ih { mailbox with queued := mailbox.queued.drop 1 }).append_left (mailbox.queued.take 1)
          rw [← List.append_assoc, ← List.append_assoc, List.take_append_drop] at rest
          exact rest
      | takeAll =>
          have rest := (ih { mailbox with queued := [] }).append_left mailbox.queued
          rw [← List.append_assoc] at rest
          exact rest

theorem play_accounts (mailbox : Mailbox Event) (moves : List (MailboxMove Event)) :
    (mailbox.play moves).1.length + (mailbox.play moves).2.discarded + (mailbox.play moves).2.queued.length =
      mailbox.discarded + mailbox.queued.length + (moves.filterMap offered?).length := by
  induction moves generalizing mailbox with
  | nil => simp [play]
  | cons move moves ih =>
      cases move with
      | offer event =>
          have stored := mailbox.length_offer event
          have rest := ih (mailbox.offer event)
          simp only [play, move, List.nil_append, offered?, List.filterMap_cons, List.length_cons]
          omega
      | take =>
          have rest := ih { mailbox with queued := mailbox.queued.drop 1 }
          simp only [play, move, offered?, List.filterMap_cons, List.length_append, List.length_take,
            List.length_drop] at rest ⊢
          omega
      | takeAll =>
          have rest := ih { mailbox with queued := [] }
          simp only [play, move, offered?, List.filterMap_cons, List.length_append, List.length_nil] at rest ⊢
          omega

end Mailbox

namespace Received

variable {received : Received Event}

def events : Received Event → List Event
  | .event handed => [handed]
  | .pending | .ended => []

theorem events_eq_nil : received.events = [] ↔ ∀ event, received ≠ .event event := by
  cases received <;> simp [events]

theorem events_eq_singleton {handed : Event} : received.events = [handed] ↔ received = .event handed := by
  cases received <;> simp [events]

end Received

namespace FeedMove

def reader? : FeedMove Event → Option Nat
  | .receive id | .drain id => some id
  | .cloneHandle | .dropHandle | .subscribe _ | .unsubscribe _ | .publish _ => none

def published? : FeedMove Event → Option Event
  | .publish event => some event
  | .cloneHandle | .dropHandle | .subscribe _ | .unsubscribe _ | .receive _ | .drain _ => none

def mail? (id : Nat) : FeedMove Event → Option (MailboxMove Event)
  | .publish event => some (.offer event)
  | .receive reader => if reader = id then some .take else none
  | .drain reader => if reader = id then some .takeAll else none
  | .cloneHandle | .dropHandle | .subscribe _ | .unsubscribe _ => none

theorem mail_cons (id : Nat) (move : FeedMove Event) (moves : List (FeedMove Event)) :
    (move :: moves).filterMap (mail? id) = (move.mail? id).toList ++ moves.filterMap (mail? id) := by
  rw [List.filterMap_cons]
  cases move.mail? id <;> rfl

theorem offered_mail (id : Nat) (moves : List (FeedMove Event)) :
    (moves.filterMap (mail? id)).filterMap Mailbox.offered? = moves.filterMap published? := by
  rw [List.filterMap_filterMap]
  congr 1
  funext move
  cases move with
  | receive reader | drain reader => by_cases same : reader = id <;> simp [mail?, same, Mailbox.offered?, published?]
  | cloneHandle | dropHandle | subscribe | unsubscribe | publish => rfl

end FeedMove

namespace Feed

variable {feed after : Feed Event} {id reader : Nat} {history : List Event} {subscription : Subscription}
  {mailbox : Mailbox Event}

def move (feed : Feed Event) : FeedMove Event → List Event × Feed Event
  | .cloneHandle => ([], feed.cloneHandle)
  | .dropHandle => ([], feed.dropHandle)
  | .subscribe server => ([], (feed.subscribe server).2)
  | .unsubscribe id => ([], feed.unsubscribe id)
  | .publish event => ([], (feed.publish event).2)
  | .receive id => ((feed.receive id).1.events, (feed.receive id).2)
  | .drain id => feed.drain id

def play (feed : Feed Event) (moves : List (FeedMove Event)) : Feed Event :=
  moves.foldl (fun feed move => (feed.move move).2) feed

def receivedBy (feed : Feed Event) (id : Nat) : List (FeedMove Event) → List Event
  | [] => []
  | move :: moves =>
      (if move.reader? = some id then (feed.move move).1 else []) ++ (feed.move move).2.receivedBy id moves

structure Mirrors (feed : Feed Event) (id : Nat) (history : List Event) (subscription : Subscription)
    (mailbox : Mailbox Event) : Prop where
  holds : feed.Holds history
  positive : 0 < feed.capacity
  issued : id < feed.nextId
  found : feed.subscriptions[id]? = some subscription
  reached : subscription.position ≤ history.length
  size : mailbox.size = feed.capacity
  queued : mailbox.queued = history.drop (max subscription.position (history.length - feed.capacity))
  discarded : mailbox.discarded = subscription.dropped + (history.length - feed.capacity - subscription.position)

/-! ## Moves of others -/

theorem receive_frame (feed : Feed Event) (reader : Nat) :
    ∃ subscriptions, (feed.receive reader).2 = { feed with subscriptions } ∧
      ∀ id, reader ≠ id → subscriptions[id]? = feed.subscriptions[id]? := by
  cases found : feed.subscriptions[reader]? with
  | none => exact ⟨feed.subscriptions, by rw [receive, found], fun _ _ => rfl⟩
  | some subscription =>
      rw [receive_of_found found]
      exact ⟨_, rfl, fun id different => by simp [Std.ExtTreeMap.getElem?_insert, different]⟩

theorem receiveMany_frame (feed : Feed Event) (reader count : Nat) :
    ∃ subscriptions, (feed.receiveMany reader count).2 = { feed with subscriptions } ∧
      ∀ id, reader ≠ id → subscriptions[id]? = feed.subscriptions[id]? := by
  induction count generalizing feed with
  | zero => exact ⟨feed.subscriptions, rfl, fun _ _ => rfl⟩
  | succ count ih =>
      obtain ⟨subscriptions, same, others⟩ := feed.receive_frame reader
      rcases received : feed.receive reader with ⟨event | _ | _, after⟩
      · obtain rfl : after = { feed with subscriptions } := by rw [← same, received]
        obtain ⟨later, sameLater, othersLater⟩ := ih { feed with subscriptions }
        rw [receiveMany_of_event received]
        exact ⟨later, sameLater, fun id different => (othersLater id different).trans (others id different)⟩
      · rw [receiveMany_of_nothing (by simp [received])]
        exact ⟨subscriptions, same, others⟩
      · rw [receiveMany_of_nothing (by simp [received])]
        exact ⟨subscriptions, same, others⟩

theorem Mirrors.of_same (mirrors : feed.Mirrors id history subscription mailbox) (holds : after.Holds history)
    (capacity : after.capacity = feed.capacity) (issued : id < after.nextId)
    (found : after.subscriptions[id]? = some subscription) : after.Mirrors id history subscription mailbox where
  holds := holds
  positive := capacity ▸ mirrors.positive
  issued := issued
  found := found
  reached := mirrors.reached
  size := capacity ▸ mirrors.size
  queued := capacity ▸ mirrors.queued
  discarded := capacity ▸ mirrors.discarded

theorem Mirrors.of_subscriptions (mirrors : feed.Mirrors id history subscription mailbox)
    {subscriptions : Std.ExtTreeMap Nat Subscription} (same : subscriptions[id]? = feed.subscriptions[id]?) :
    Mirrors { feed with subscriptions } id history subscription mailbox :=
  mirrors.of_same (mirrors.holds.of_subscriptions _) rfl mirrors.issued (same.trans mirrors.found)

/-! ## Publishing -/

theorem isEmpty_of_found (found : feed.subscriptions[id]? = some subscription) :
    feed.subscriptions.isEmpty = false := by
  apply Bool.eq_false_iff.mpr
  intro empty
  rw [Std.ExtTreeMap.isEmpty_iff.mp empty] at found
  simp at found

theorem Mirrors.publish (mirrors : feed.Mirrors id history subscription mailbox) (event : Event) :
    (feed.publish event).2.Mirrors id (history ++ [event]) subscription (mailbox.offer event) := by
  have heard := isEmpty_of_found mirrors.found
  have holds := mirrors.holds.publish heard event
  have capacity : (feed.publish event).2.capacity = feed.capacity := by rw [Feed.publish, if_neg (by simp [heard])]
  have issued : (feed.publish event).2.nextId = feed.nextId := by rw [Feed.publish, if_neg (by simp [heard])]
  have found : (feed.publish event).2.subscriptions[id]? = some subscription := by
    rw [subscriptions_publish, mirrors.found]
  have reached := mirrors.reached
  have positive := mirrors.positive
  have discarded := mirrors.discarded
  have size := mirrors.size
  have length : mailbox.queued.length =
      history.length - max subscription.position (history.length - feed.capacity) := by
    rw [mirrors.queued, List.length_drop]
  have appended : mailbox.queued ++ [event] =
      (history ++ [event]).drop (max subscription.position (history.length - feed.capacity)) := by
    rw [mirrors.queued, List.drop_append_of_le_length (by omega)]
  have longer : (history ++ [event]).length = history.length + 1 := by simp
  rw [Mailbox.offer_eq (by omega)]
  refine ⟨holds, capacity ▸ positive, issued ▸ mirrors.issued, found, by omega, size.trans capacity.symm, ?_, ?_⟩
  · refine (congrArg (List.drop _) appended).trans ?_
    rw [List.drop_drop, capacity, longer]
    congr 1
    omega
  · rw [capacity, longer]
    simp only
    omega

/-! ## Receiving -/

theorem catchUp_catchUp (feed : Feed Event) (subscription : Subscription) :
    feed.catchUp (feed.catchUp subscription) = feed.catchUp subscription := by
  simp only [catchUp]
  split <;> simp

theorem receiveFor_catchUp (feed : Feed Event) (subscription : Subscription) :
    feed.receiveFor (feed.catchUp subscription) = feed.receiveFor subscription := by
  simp only [receiveFor, catchUp_catchUp]

theorem Mirrors.catchUp (mirrors : feed.Mirrors id history subscription mailbox) :
    (feed.catchUp subscription).position = max subscription.position (history.length - feed.capacity) ∧
      (feed.catchUp subscription).dropped = mailbox.discarded := by
  rw [mirrors.discarded, Feed.catchUp, mirrors.holds.position]
  split
  · next lost => exact ⟨(Nat.max_eq_right (Nat.le_of_lt lost)).symm, rfl⟩
  · next level =>
      have reached := Nat.le_of_not_lt level
      rw [Nat.sub_eq_zero_of_le reached]
      exact ⟨(Nat.max_eq_left reached).symm, rfl⟩

theorem Mirrors.store (mirrors : feed.Mirrors id history subscription mailbox) {later : Subscription}
    (level : history.length - feed.capacity ≤ later.position) (reached : later.position ≤ history.length)
    (counted : later.dropped = mailbox.discarded) :
    Mirrors { feed with subscriptions := feed.subscriptions.insert id later } id history later
      { mailbox with queued := history.drop later.position } where
  holds := mirrors.holds.of_subscriptions _
  positive := mirrors.positive
  issued := mirrors.issued
  found := Std.ExtTreeMap.getElem?_insert_self
  reached := reached
  size := mirrors.size
  queued := by rw [Nat.max_eq_left level]
  discarded := by rw [Nat.sub_eq_zero_of_le level, counted]; rfl

theorem Mirrors.receive (mirrors : feed.Mirrors id history subscription mailbox) :
    (feed.receive id).1.events = mailbox.queued.take 1 ∧ ∃ later, later.dropped = mailbox.discarded ∧
      (feed.receive id).2.Mirrors id history later { mailbox with queued := mailbox.queued.drop 1 } := by
  obtain ⟨position, counted⟩ := mirrors.catchUp
  have reached : history.length - feed.capacity ≤ (feed.catchUp subscription).position :=
    position ▸ Nat.le_max_right _ _
  have queued : mailbox.queued = history.drop (feed.catchUp subscription).position := position ▸ mirrors.queued
  rw [receive_of_found mirrors.found, ← receiveFor_catchUp]
  cases next : history[(feed.catchUp subscription).position]? with
  | some event =>
      obtain ⟨behind, rfl⟩ := List.getElem?_eq_some_iff.mp next
      rw [receiveFor_of_behind mirrors.holds reached next]
      refine ⟨?_, { feed.catchUp subscription with position := (feed.catchUp subscription).position + 1 }, counted, ?_⟩
      · rw [queued, List.drop_eq_getElem_cons behind]
        rfl
      · rw [queued, List.drop_drop]
        exact mirrors.store (Nat.le_succ_of_le reached) behind counted
  | none =>
      have level := List.getElem?_eq_none_iff.mp next
      obtain ⟨nothing, same⟩ := receiveFor_of_level mirrors.holds level
      have bounded : (feed.catchUp subscription).position ≤ history.length :=
        position ▸ Nat.max_le.mpr ⟨mirrors.reached, Nat.sub_le _ _⟩
      rw [same, queued, List.drop_drop, List.drop_eq_nil_of_le level, List.drop_eq_nil_of_le (Nat.le_succ_of_le level)]
      refine ⟨Received.events_eq_nil.mpr nothing, feed.catchUp subscription, counted, ?_⟩
      have stored := mirrors.store reached bounded counted
      rwa [List.drop_eq_nil_of_le level] at stored

theorem Mirrors.receiveMany (mirrors : feed.Mirrors id history subscription mailbox) {count : Nat}
    (enough : mailbox.queued.length < count) :
    (feed.receiveMany id count).1 = mailbox.queued ∧ ∃ later, later.dropped = mailbox.discarded ∧
      (feed.receiveMany id count).2.Mirrors id history later { mailbox with queued := [] } := by
  -- each receive takes one event, and the last one finds nothing
  induction count generalizing feed subscription mailbox with
  | zero => contradiction
  | succ count ih =>
      obtain ⟨handed, later, counted, still⟩ := mirrors.receive
      cases queued : mailbox.queued with
      | nil =>
          rw [queued] at handed still
          rw [receiveMany_of_nothing (Received.events_eq_nil.mp handed)]
          exact ⟨rfl, later, counted, still⟩
      | cons event rest =>
          rw [queued] at handed still enough
          have received : feed.receive id = (.event event, (feed.receive id).2) :=
            Prod.ext (Received.events_eq_singleton.mp handed) rfl
          obtain ⟨others, last, countedLast, stillLast⟩ := ih still (Nat.lt_of_succ_lt_succ enough)
          rw [receiveMany_of_event received]
          exact ⟨congrArg (List.cons event) others, last, countedLast, stillLast⟩

theorem Mirrors.drain (mirrors : feed.Mirrors id history subscription mailbox) :
    (feed.drain id).1 = mailbox.queued ∧ ∃ later, later.dropped = mailbox.discarded ∧
      (feed.drain id).2.Mirrors id history later { mailbox with queued := [] } := by
  apply mirrors.receiveMany
  rw [mirrors.queued, mirrors.holds.kept, List.length_drop, List.length_drop]
  omega

/-! ## Runs -/

theorem Mirrors.move (mirrors : feed.Mirrors id history subscription mailbox) {move : FeedMove Event}
    (stays : move ≠ .unsubscribe id) :
    (if move.reader? = some id then (feed.move move).1 else []) = (mailbox.play (move.mail? id).toList).1 ∧
      ∃ history later, (feed.move move).2.Mirrors id history later (mailbox.play (move.mail? id).toList).2 ∧
        (move.reader? = some id → later.dropped = (mailbox.play (move.mail? id).toList).2.discarded) := by
  cases move with
  | cloneHandle | dropHandle =>
      exact ⟨rfl, history, subscription,
        mirrors.of_same ⟨mirrors.holds.position, mirrors.holds.kept⟩ rfl mirrors.issued mirrors.found, nofun⟩
  | subscribe server =>
      have fresh : feed.nextId ≠ id := Nat.ne_of_gt mirrors.issued
      refine ⟨rfl, history, subscription, mirrors.of_same ⟨mirrors.holds.position, mirrors.holds.kept⟩ rfl
        (Nat.lt_succ_of_lt mirrors.issued) ?_, nofun⟩
      exact (Std.ExtTreeMap.getElem?_insert (a := id)).trans (by simp [fresh, mirrors.found])
  | unsubscribe other =>
      have different : other ≠ id := fun same => stays (same ▸ rfl)
      refine ⟨rfl, history, subscription, mirrors.of_subscriptions ?_, nofun⟩
      exact Std.ExtTreeMap.getElem?_erase.trans (by simp [different])
  | publish event => exact ⟨rfl, history ++ [event], subscription, mirrors.publish event, nofun⟩
  | receive reader =>
      by_cases own : reader = id
      · subst own
        obtain ⟨handed, later, counted, still⟩ := mirrors.receive
        simp only [FeedMove.mail?, FeedMove.reader?, Feed.move, if_true, Option.toList_some, mailbox.play_singleton]
        exact ⟨handed, history, later, still, fun _ => counted⟩
      · obtain ⟨subscriptions, same, others⟩ := feed.receive_frame reader
        simp only [FeedMove.mail?, FeedMove.reader?, Feed.move, own, if_false, Option.some_inj, same]
        exact ⟨rfl, history, subscription, mirrors.of_subscriptions (others id own), False.elim⟩
  | drain reader =>
      by_cases own : reader = id
      · subst own
        obtain ⟨handed, later, counted, still⟩ := mirrors.drain
        simp only [FeedMove.mail?, FeedMove.reader?, Feed.move, if_true, Option.toList_some, mailbox.play_singleton]
        exact ⟨handed, history, later, still, fun _ => counted⟩
      · obtain ⟨subscriptions, same, others⟩ := feed.receiveMany_frame reader (feed.kept.length + 1)
        simp only [FeedMove.mail?, FeedMove.reader?, Feed.move, own, if_false, Option.some_inj, Feed.drain, same]
        exact ⟨rfl, history, subscription, mirrors.of_subscriptions (others id own), False.elim⟩

theorem Mirrors.play (mirrors : feed.Mirrors id history subscription mailbox) {moves : List (FeedMove Event)}
    (stays : .unsubscribe id ∉ moves) :
    feed.receivedBy id moves = (mailbox.play (moves.filterMap (FeedMove.mail? id))).1 ∧
      ∃ history later, (feed.play moves).Mirrors id history later
        (mailbox.play (moves.filterMap (FeedMove.mail? id))).2 := by
  induction moves generalizing feed history subscription mailbox with
  | nil => exact ⟨rfl, history, subscription, mirrors⟩
  | cons move moves ih =>
      rw [List.mem_cons, not_or] at stays
      obtain ⟨handed, grown, later, still, _⟩ := mirrors.move (Ne.symm stays.1)
      obtain ⟨rest, last⟩ := ih still stays.2
      rw [FeedMove.mail_cons, Mailbox.play_append]
      exact ⟨congr (congrArg HAppend.hAppend handed) rest, last⟩

theorem Mirrors.dropped_play (mirrors : feed.Mirrors id history subscription mailbox)
    {moves : List (FeedMove Event)} (stays : .unsubscribe id ∉ moves) {move : FeedMove Event}
    (ends : moves.getLast? = some move) (own : move.reader? = some id) :
    (feed.play moves).dropped id = (mailbox.play (moves.filterMap (FeedMove.mail? id))).2.discarded := by
  obtain ⟨earlier, rfl⟩ := List.getLast?_eq_some_iff.mp ends
  rw [List.mem_append, not_or, List.mem_singleton] at stays
  obtain ⟨_, grown, later, still⟩ := mirrors.play stays.1
  obtain ⟨_, _, last, stillLast, counted⟩ := still.move (Ne.symm stays.2)
  have played : feed.play (earlier ++ [move]) = ((feed.play earlier).move move).2 := by
    simp [Feed.play]
  rw [played, dropped_of_found stillLast.found, counted own, List.filterMap_append, Mailbox.play_append,
    FeedMove.mail_cons, List.filterMap_nil, List.append_nil]

/-! ## From the start -/

theorem Holds.move (holds : feed.Holds history) (move : FeedMove Event) :
    (∃ later, (feed.move move).2.Holds later) ∧ (feed.move move).2.capacity = feed.capacity := by
  cases move with
  | cloneHandle | dropHandle | subscribe | unsubscribe => exact ⟨⟨history, holds.position, holds.kept⟩, rfl⟩
  | publish event =>
      cases heard : feed.subscriptions.isEmpty with
      | true =>
          rw [Feed.move, publish_of_unheard heard]
          exact ⟨⟨history, holds⟩, rfl⟩
      | false => exact ⟨⟨_, holds.publish heard event⟩, by simp [Feed.move, Feed.publish, heard]⟩
  | receive reader =>
      obtain ⟨subscriptions, same, _⟩ := feed.receive_frame reader
      simp only [Feed.move, same]
      exact ⟨⟨history, holds.of_subscriptions _⟩, trivial⟩
  | drain reader =>
      obtain ⟨subscriptions, same, _⟩ := feed.receiveMany_frame reader (feed.kept.length + 1)
      simp only [Feed.move, Feed.drain, same]
      exact ⟨⟨history, holds.of_subscriptions _⟩, trivial⟩

theorem Holds.play (holds : feed.Holds history) (moves : List (FeedMove Event)) :
    (∃ later, (feed.play moves).Holds later) ∧ (feed.play moves).capacity = feed.capacity := by
  induction moves generalizing feed history with
  | nil => exact ⟨⟨history, holds⟩, rfl⟩
  | cons move moves ih =>
      obtain ⟨⟨later, stillHolds⟩, capacity⟩ := holds.move move
      obtain ⟨last, capacityLast⟩ := ih stillHolds
      exact ⟨last, capacityLast.trans capacity⟩

theorem Holds.mirrors_subscribe (holds : feed.Holds history) (positive : 0 < feed.capacity) (server : String) :
    (feed.subscribe server).2.Mirrors feed.nextId history (feed.subscribe server).1 (.empty feed.capacity) where
  holds := ⟨holds.position, holds.kept⟩
  positive := positive
  issued := Nat.lt_succ_self feed.nextId
  found := Std.ExtTreeMap.getElem?_insert_self
  reached := Nat.le_of_eq holds.position
  size := rfl
  queued := by
    have level : history.length ≤ max (feed.subscribe server).1.position (history.length - feed.capacity) :=
      Nat.le_trans (Nat.le_of_eq holds.position.symm) (Nat.le_max_left _ _)
    exact (List.drop_eq_nil_of_le level).symm
  discarded := by
    have level : history.length - feed.capacity ≤ (feed.subscribe server).1.position :=
      Nat.le_trans (Nat.sub_le _ _) (Nat.le_of_eq holds.position.symm)
    exact (congrArg (0 + ·) (Nat.sub_eq_zero_of_le level)).symm

/-- A subscription receives what a mailbox of its own would hand out to which only the publications since it was
attached and its own receives matter. It has counted all losses whenever it has received. -/
theorem receives_as_mailbox (capacity : Nat) (before : List (FeedMove Event)) (server : String)
    (moves : List (FeedMove Event)) (stays : .unsubscribe ((ofCapacity capacity).play before).nextId ∉ moves) :
    let feed := (ofCapacity capacity).play before
    let id := feed.nextId
    let attached := (feed.subscribe server).2
    let received := attached.receivedBy id moves
    let after := attached.play moves
    let mail := moves.filterMap (FeedMove.mail? id)
    let published := moves.filterMap FeedMove.published?
    let mailbox := Mailbox.empty (max capacity 1).nextPowerOfTwo
    received = (mailbox.play mail).1 ∧ (after.drain id).1 = (mailbox.play mail).2.queued ∧
      (received ++ (after.drain id).1).Sublist published ∧
      (∀ move, moves.getLast? = some move → move.reader? = some id →
        after.dropped id = (mailbox.play mail).2.discarded ∧
          received.length + after.dropped id + (after.drain id).1.length = published.length) ∧
      ∀ others, .unsubscribe id ∉ others → others.filterMap (FeedMove.mail? id) = mail →
        attached.receivedBy id others = received ∧
          ((attached.play others).drain id).1 = (after.drain id).1 := by
  intro feed id attached received after mail published mailbox
  obtain ⟨⟨history, holds⟩, size⟩ := (holds_ofCapacity capacity).play before
  have positive : 0 < feed.capacity := size ▸ Nat.pos_of_isPowerOfTwo (Nat.isPowerOfTwo_nextPowerOfTwo _)
  have mirrors : attached.Mirrors id history (feed.subscribe server).1 mailbox := by
    have fresh := holds.mirrors_subscribe positive server
    rwa [size] at fresh
  have same : received = (mailbox.play mail).1 := (mirrors.play stays).1
  obtain ⟨_, grown, later, still⟩ := mirrors.play stays
  have left : (after.drain id).1 = (mailbox.play mail).2.queued := still.drain.1
  have offered : mail.filterMap Mailbox.offered? = published := FeedMove.offered_mail id moves
  have sublist : (received ++ (after.drain id).1).Sublist published := by
    rw [same, left, ← offered]
    exact mailbox.play_sublist mail
  refine ⟨same, left, sublist, fun move ends own => ?_, fun others staysToo alike => ?_⟩
  · have counted : after.dropped id = (mailbox.play mail).2.discarded := mirrors.dropped_play stays ends own
    have accounts := mailbox.play_accounts mail
    rw [same, left, counted, accounts, offered]
    exact ⟨rfl, Nat.zero_add _⟩
  · obtain ⟨sameToo, _, _, stillToo⟩ := mirrors.play staysToo
    rw [alike] at sameToo stillToo
    exact ⟨sameToo.trans same.symm, stillToo.drain.1.trans left.symm⟩

theorem receives_as_mailbox_lagging :
    let attached : Feed Nat := (((ofCapacity 2).play [.subscribe "hall"]).subscribe "lobby").2
    let moves : List (FeedMove Nat) :=
      [.publish 1, .publish 2, .receive 0, .publish 3, .receive 1, .publish 4, .drain 1]
    .unsubscribe 1 ∉ moves ∧ attached.receivedBy 1 moves = [2, 3, 4] ∧ (attached.play moves).dropped 1 = 1 := by
  intro attached moves
  have stays : .unsubscribe 1 ∉ moves := by simp [moves]
  obtain ⟨same, _, _, counted, _⟩ := receives_as_mailbox 2 [.subscribe "hall"] "lobby" moves stays
  exact ⟨stays, same.trans (by decide +kernel), (counted (.drain 1) rfl rfl).1.trans (by decide +kernel)⟩

end Feed

end PermissionFeed
