import Std.Data.ExtTreeMap
import PermissionFeed.PlayerId

/-!
# Player locks

A claim asks for several players and takes their locks one after another in ascending order, keeping what it has while
it waits. A lock serves its claims first come, first served: the first in its queue holds it, also before it has looked.
A lock lives while some claim queues for it; the registry remembers which lock belongs to a player and forgets dead ones
whenever it has to make a new one.
-/

namespace PermissionFeed

abbrev ClaimId := Nat

abbrev LockId := Nat

structure Claim where
  held : List (PlayerId × LockId)
  wanted : List PlayerId
  waitingFor : Option LockId
  deriving DecidableEq

def Claim.isGranted (claim : Claim) : Bool :=
  claim.wanted.isEmpty

structure LockTable where
  /-- The lock last made for a player; it may be dead. -/
  registry : Std.ExtTreeMap PlayerId LockId
  /-- The queues of the live locks; the first claim holds the lock. -/
  queues : Std.ExtTreeMap LockId (List ClaimId)
  claims : Std.ExtTreeMap ClaimId Claim
  nextLock : LockId
  nextClaim : ClaimId
  /-- Claims to which a lock was handed over and that have not looked since, in the order of the hand-overs. -/
  handedOver : List ClaimId

namespace LockTable

def empty : LockTable where
  registry := ∅
  queues := ∅
  claims := ∅
  nextLock := 0
  nextClaim := 0
  handedOver := []

def lockOf (table : LockTable) (player : PlayerId) : LockId × LockTable :=
  match table.registry[player]?.filter (table.queues.contains ·) with
  | some lock => (lock, table)
  | none =>
      let live := table.registry.filter fun _ lock => table.queues.contains lock
      (table.nextLock, { table with registry := live.insert player table.nextLock
                                    nextLock := table.nextLock + 1 })

def holds (table : LockTable) (claim : ClaimId) (lock : LockId) : Bool :=
  (table.queues[lock]?.bind List.head?) == some claim

def enqueue (table : LockTable) (claim : ClaimId) (lock : LockId) : LockTable :=
  { table with queues := table.queues.insert lock ((table.queues[lock]?.getD []) ++ [claim]) }

def take (table : LockTable) (id : ClaimId) (held : List (PlayerId × LockId)) (waitingFor : Option LockId) :
    List PlayerId → Claim × LockTable
  | [] => (⟨held, [], none⟩, table)
  | player :: wanted =>
      let (lock, table) :=
        match waitingFor with
        | some lock => (lock, table)
        | none =>
            let (lock, table) := table.lockOf player
            (lock, table.enqueue id lock)
      if table.holds id lock then table.take id (held ++ [(player, lock)]) none wanted
      else (⟨held, player :: wanted, some lock⟩, table)

def poll (table : LockTable) (id : ClaimId) : Bool × LockTable :=
  match table.claims[id]? with
  | none => (false, table)
  | some claim =>
      let (claim, table) := table.take id claim.held claim.waitingFor claim.wanted
      (claim.isGranted, { table with claims := table.claims.insert id claim
                                     handedOver := table.handedOver.filter (· ≠ id) })

def request (table : LockTable) (players : List PlayerId) : ClaimId × LockTable :=
  let wanted : PlayerSet := Std.ExtTreeSet.ofList players
  let id := table.nextClaim
  let table := { table with claims := table.claims.insert id ⟨[], wanted.toList, none⟩, nextClaim := id + 1 }
  (id, (table.poll id).2)

def leave (table : LockTable) (id : ClaimId) (lock : LockId) : LockTable :=
  match table.queues[lock]? with
  | none => table
  | some queue =>
      let rest := queue.erase id
      if rest.isEmpty then { table with queues := table.queues.erase lock }
      else
        let next := if queue.head? = some id then rest.head?.toList else []
        { table with queues := table.queues.insert lock rest, handedOver := table.handedOver ++ next }

def release (table : LockTable) (id : ClaimId) : LockTable :=
  match table.claims[id]? with
  | none => table
  | some claim =>
      let table := { table with claims := table.claims.erase id, handedOver := table.handedOver.filter (· ≠ id) }
      (claim.held.map Prod.snd ++ claim.waitingFor.toList).foldl (fun table lock => table.leave id lock) table

def tracked (table : LockTable) : Nat :=
  (table.registry.filter fun _ lock => table.queues.contains lock).size

def waiting (table : LockTable) : List ClaimId :=
  (table.claims.toList.filter fun (_, claim) => !claim.isGranted).map Prod.fst

def pollAll (table : LockTable) : List ClaimId → List ClaimId × LockTable
  | [] => ([], table)
  | id :: rest =>
      let (granted, table) := table.poll id
      let (others, table) := table.pollAll rest
      (if granted then id :: others else others, table)

def settleWithin (table : LockTable) : Nat → List ClaimId × LockTable
  | 0 => ([], table)
  | rounds + 1 =>
      let (granted, table) := table.pollAll table.waiting
      let (later, table) := table.settleWithin rounds
      (granted ++ later, table)

def outstanding (table : LockTable) : Nat :=
  table.claims.toList.foldl (fun count (_, claim) => count + claim.wanted.length) 0

/-- Polls all waiting claims until nobody gets anything; every round that changes something takes a lock. -/
def settle (table : LockTable) : List ClaimId × LockTable :=
  table.settleWithin (table.outstanding + 1)

end LockTable

end PermissionFeed
