import Std.Data.ExtTreeMap

/-!
# Feeds

A feed hands every published event to every subscription that is attached at that moment. It keeps the last `capacity`
events; a subscription that is further behind loses its oldest ones and learns how many when it next receives. The feed
ends for a subscription when no handle is left and nothing is queued for it.
-/

namespace PermissionFeed

structure Subscription where
  id : Nat
  server : String
  position : Nat
  dropped : Nat
  deriving DecidableEq

structure Feed (Event : Type) where
  capacity : Nat
  handles : Nat
  position : Nat
  kept : List Event
  nextId : Nat
  subscriptions : Std.ExtTreeMap Nat Subscription

inductive Received (Event : Type) where
  | event (event : Event)
  | pending
  | ended
  deriving DecidableEq

namespace Feed

variable {Event : Type}

/-- A feed with one handle; its capacity is at least 1 and rounded up to a power of two. -/
def ofCapacity (capacity : Nat) : Feed Event where
  capacity := (max capacity 1).nextPowerOfTwo
  handles := 1
  position := 0
  kept := []
  nextId := 0
  subscriptions := ∅

def subscriberCount (feed : Feed Event) : Nat :=
  feed.subscriptions.size

def cloneHandle (feed : Feed Event) : Feed Event :=
  { feed with handles := feed.handles + 1 }

def dropHandle (feed : Feed Event) : Feed Event :=
  { feed with handles := feed.handles - 1 }

def subscribe (feed : Feed Event) (server : String) : Subscription × Feed Event :=
  let subscription := ⟨feed.nextId, server, feed.position, 0⟩
  (subscription, { feed with nextId := feed.nextId + 1
                             subscriptions := feed.subscriptions.insert feed.nextId subscription })

def unsubscribe (feed : Feed Event) (id : Nat) : Feed Event :=
  { feed with subscriptions := feed.subscriptions.erase id }

def publish (feed : Feed Event) (event : Event) : Nat × Feed Event :=
  if feed.subscriptions.isEmpty then (0, feed)
  else
    let kept := feed.kept ++ [event]
    (feed.subscriberCount, { feed with position := feed.position + 1
                                       kept := kept.drop (kept.length - feed.capacity) })

def catchUp (feed : Feed Event) (subscription : Subscription) : Subscription :=
  let oldest := feed.position - feed.capacity
  if subscription.position < oldest then
    { subscription with position := oldest, dropped := subscription.dropped + (oldest - subscription.position) }
  else subscription

def eventAt? (feed : Feed Event) (position : Nat) : Option Event :=
  feed.kept[feed.kept.length - (feed.position - position)]?

def receiveFor (feed : Feed Event) (subscription : Subscription) : Received Event × Subscription :=
  let subscription := feed.catchUp subscription
  if subscription.position < feed.position then
    match feed.eventAt? subscription.position with
    | some event => (.event event, { subscription with position := subscription.position + 1 })
    | none => (.pending, subscription)
  else (if feed.handles = 0 then .ended else .pending, subscription)

def receive (feed : Feed Event) (id : Nat) : Received Event × Feed Event :=
  match feed.subscriptions[id]? with
  | none => (.ended, feed)
  | some subscription =>
      let (received, subscription) := feed.receiveFor subscription
      (received, { feed with subscriptions := feed.subscriptions.insert id subscription })

def receiveMany (feed : Feed Event) (id : Nat) : Nat → List Event × Feed Event
  | 0 => ([], feed)
  | count + 1 =>
      match feed.receive id with
      | (.event event, feed) =>
          let (events, feed) := feed.receiveMany id count
          (event :: events, feed)
      | (_, feed) => ([], feed)

def drain (feed : Feed Event) (id : Nat) : List Event × Feed Event :=
  feed.receiveMany id (feed.kept.length + 1)

def dropped (feed : Feed Event) (id : Nat) : Nat :=
  (feed.subscriptions[id]?.map Subscription.dropped).getD 0

end Feed

end PermissionFeed
