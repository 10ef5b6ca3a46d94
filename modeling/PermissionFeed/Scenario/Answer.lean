import PermissionFeed.Cache
import PermissionFeed.Engine
import PermissionFeed.Feed
import PermissionFeed.Scanner

namespace PermissionFeed.Scenario

inductive Answer where
  | nothing
  | flag (value : Bool)
  | count (value : Nat)
  | instant (time : Instant)
  | outcome (outcome : Outcome)
  | group (group : Option Group)
  | groups (groups : List Group)
  | snapshot (snapshot : Snapshot)
  | rows (rows : List Row)
  | names (names : NameSet)
  | players (players : PlayerSet)
  | subscribed (subscription : Nat) (id : Nat) (server : String)
  | drained (events : List ChangeEvent) (dropped : Nat)
  | received (received : Received ChangeEvent) (waits : Bool) (dropped : Nat)
  | emission (emission : Emission)
  | window (window : Option Window)
  | scan (report : ScanReport) (position : Instant)
  | cached (cached : Option CachedPlayer)
  | stale (players : PlayerSet)
  | applied (count : Nat) (stale : PlayerSet)
  | loop (running : Bool) (now : Instant)

inductive Failure where
  | request (error : RequestError)
  | engine (error : EngineError)
  | store (error : StoreError)
  | scan (error : StoreError) (position : Instant)
  | stuck

abbrev Result := Except Failure Answer

inductive Place where
  | inside
  | beside (number : Nat)
  deriving DecidableEq

namespace Place

def inner {α : Type} (entries : List (Place × α)) : List α :=
  entries.filterMap fun (place, value) => if place = .inside then some value else none

def outer {α : Type} (count : Nat) (entries : List (Place × α)) : List α :=
  (List.range count).filterMap fun number => (entries.find? fun (place, _) => place = .beside number).map Prod.snd

end Place

structure Report where
  hooked : List (Place × Result)
  result : Result
  events : List ChangeEvent
  states : List (Except Failure Snapshot)

end PermissionFeed.Scenario
