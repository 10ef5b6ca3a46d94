import PermissionFeed.LockTable

namespace PermissionFeed.Scenario

inductive LockStep where
  | lock (players : List PlayerId)
  | release (claim : ClaimId)

inductive ClaimState where
  | waiting
  | granted (guards : Nat)
  | gone
  deriving DecidableEq

structure LockReport where
  acquired : List ClaimId
  claims : List ClaimState
  tracked : Nat

namespace LockReport

def state (table : LockTable) (claim : ClaimId) : ClaimState :=
  match table.claims[claim]? with
  | none => .gone
  | some claim => if claim.isGranted then .granted claim.held.length else .waiting

def ofTable (acquired : List ClaimId) (table : LockTable) : LockReport where
  acquired
  claims := (List.range table.nextClaim).map (state table)
  tracked := table.tracked

end LockReport

def takeLockStep (table : LockTable) : LockStep → LockReport × LockTable
  | .lock players =>
      let (claim, table) := table.request players
      let atOnce := if (table.claims[claim]?.map Claim.isGranted).getD false then [claim] else []
      let (later, table) := table.settle
      (.ofTable (atOnce ++ later) table, table)
  | .release claim =>
      let (acquired, table) := (table.release claim).settle
      (.ofTable acquired table, table)

def takeLockSteps (table : LockTable) : List LockStep → List LockReport
  | [] => []
  | step :: rest =>
      let (report, table) := takeLockStep table step
      report :: takeLockSteps table rest

end PermissionFeed.Scenario
