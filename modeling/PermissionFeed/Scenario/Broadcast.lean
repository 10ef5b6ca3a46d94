import PermissionFeed.Expiry
import PermissionFeed.Feed

namespace PermissionFeed.Scenario

inductive BroadcastStep where
  | clone
  | drop (handle : Nat)
  | subscribe (server : String)
  | unsubscribe (subscription : Nat)
  | count
  | publish (times : List Instant)
  | receive (subscription : Nat) (waits : Bool)
  | drain (subscription : Nat)
  | dropped (subscription : Nat)

inductive BroadcastAnswer where
  | flag (value : Bool)
  | count (value : Nat)
  | counts (values : List Nat)
  | subscribed (subscription : Nat) (id : Nat) (server : String)
  | received (received : Received Instant) (waits : Bool) (dropped : Nat)
  | drained (times : List Instant) (dropped : Nat)
  | dropped (count : Nat)

structure BroadcastBench where
  feed : Feed Instant
  handles : List Bool
  subscriptions : List Nat

namespace BroadcastBench

def start (capacity : Nat) : BroadcastBench :=
  ⟨.ofCapacity capacity, [true], []⟩

def idAt (bench : BroadcastBench) (subscription : Nat) : Nat :=
  bench.subscriptions[subscription]?.getD bench.feed.nextId

def take (bench : BroadcastBench) : BroadcastStep → BroadcastAnswer × BroadcastBench
  | .clone =>
      (.count bench.handles.length,
        { bench with feed := bench.feed.cloneHandle, handles := bench.handles ++ [true] })
  | .drop handle =>
      if bench.handles[handle]? = some true then
        (.flag true, { bench with feed := bench.feed.dropHandle, handles := bench.handles.set handle false })
      else (.flag false, bench)
  | .subscribe server =>
      let (subscription, feed) := bench.feed.subscribe server
      (.subscribed bench.subscriptions.length subscription.id subscription.server,
        { bench with feed, subscriptions := bench.subscriptions ++ [subscription.id] })
  | .unsubscribe subscription =>
      let id := bench.idAt subscription
      (.flag (bench.feed.subscriptions.contains id), { bench with feed := bench.feed.unsubscribe id })
  | .count => (.count bench.feed.subscriberCount, bench)
  | .publish times =>
      let (counts, feed) := publishAll bench.feed times
      (.counts counts, { bench with feed })
  | .receive subscription waits =>
      let id := bench.idAt subscription
      let (received, feed) := bench.feed.receive id
      (.received received waits (feed.dropped id), { bench with feed })
  | .drain subscription =>
      let id := bench.idAt subscription
      let (times, feed) := bench.feed.drain id
      (.drained times (feed.dropped id), { bench with feed })
  | .dropped subscription => (.dropped (bench.feed.dropped (bench.idAt subscription)), bench)
where
  publishAll (feed : Feed Instant) : List Instant → List Nat × Feed Instant
    | [] => ([], feed)
    | time :: rest =>
        let (count, feed) := feed.publish time
        let (counts, feed) := publishAll feed rest
        (count :: counts, feed)

def takeAll (bench : BroadcastBench) : List BroadcastStep → List BroadcastAnswer
  | [] => []
  | step :: rest =>
      let (answer, bench) := bench.take step
      answer :: bench.takeAll rest

end BroadcastBench

end PermissionFeed.Scenario
