import PermissionFeed.Engine

namespace PermissionFeed

structure ScanReport where
  window : Option Window
  refreshed : PlayerSet
  deriving DecidableEq

namespace Scanner

open Routine Engine

def membersOf (time : Instant) : List String → PlayerSet → Routine (Except StoreError PlayerSet)
  | [], found => return .ok found
  | group :: groups, found => do
      match ← call (.activeMembers group time) with
      | .error error => return .error error
      | .ok (members : PlayerSet) => membersOf time groups (found ∪ members)

def playersWithLapsedRows (window : Window) : Routine (Except StoreError PlayerSet) := do
  match ← call (.playersWithLapsedGrants window) with
  | .error error => return .error error
  | .ok (direct : PlayerSet) =>
      match ← call (.playersWithLapsedMemberships window) with
      | .error error => return .error error
      | .ok (joined : PlayerSet) => return .ok (direct ∪ joined)

/-- The players that a window concerns: those with a lapsed row and the active members of groups with a lapsed grant. -/
def affected (window : Window) : Routine (Except StoreError PlayerSet) := do
  match ← playersWithLapsedRows window with
  | .error error => return .error error
  | .ok players =>
      match ← call (.groupsWithLapsedGrants window) with
      | .error error => return .error error
      | .ok (groups : NameSet) => membersOf (← now) groups.toList players

def tick (scanner : Nat) : Routine (Except StoreError ScanReport) := do
  match ← perform (.advance scanner (← now)) with
  | none => return .ok ⟨none, ∅⟩
  | some window =>
      match ← affected window with
      | .error error =>
          discard (perform (.rewind scanner window))
          return .error error
      | .ok players =>
          emitRefreshes players.toList Reason.expiry
          return .ok ⟨some window, players⟩

def startupRefresh : Routine (Except StoreError Nat) := do
  match ← call .playersWithAnyRows with
  | .error error => return .error error
  | .ok (players : PlayerSet) =>
      emitRefreshes players.toList Reason.startup
      return .ok players.size

end Scanner

structure ScanTimer where
  interval : Nat
  due : Nat
  deriving DecidableEq

namespace ScanTimer

def start (interval now : Nat) : ScanTimer :=
  ⟨interval, now⟩

def isDue (timer : ScanTimer) (now : Nat) : Bool :=
  timer.due ≤ now

/-- How many milliseconds late a timer may fire and keep its rhythm. -/
def grace : Nat :=
  5

def fired (timer : ScanTimer) (now : Nat) : ScanTimer :=
  { timer with due := (if timer.due + grace < now then now else timer.due) + timer.interval }

def fireWithin (scan : Routine Unit) (now : Nat) : (times : Nat) → ScanTimer → Routine ScanTimer
  | 0, timer => return timer
  | times + 1, timer =>
      if timer.isDue now then do
        scan
        fireWithin scan now times (timer.fired now)
      else return timer

/-- Fires until the timer is no longer due. A timer that is in its rhythm makes up for what it missed within the grace,
and each time brings it nearer by an interval of at least one millisecond. -/
def fire (timer : ScanTimer) (scan : Routine Unit) (now : Nat) : Routine ScanTimer :=
  fireWithin scan now (grace + 1) timer

end ScanTimer

end PermissionFeed
