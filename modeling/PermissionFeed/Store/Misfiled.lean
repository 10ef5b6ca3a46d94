import PermissionFeed.Store.Call

/-!
# Misfiled rows

A stored file may hold rows whose owner is not written in the one spelling that the store uses. Such a row is never
found by its owner, but enumerations of players meet it: they read the owner's text, and the first text that names no
player makes the enumeration fail.
-/

namespace PermissionFeed

inductive RowTable where
  | grants
  | memberships
  deriving DecidableEq

/-- A row under an owner's text that is not the spelling of a player. -/
structure MisfiledRow where
  table : RowTable
  owner : String
  row : Row
  deriving DecidableEq

namespace MisfiledRow

def sharesPlace (left right : MisfiledRow) : Bool :=
  left.table = right.table && left.owner = right.owner && left.row.key = right.row.key

def byOwner (rows : List MisfiledRow) : List MisfiledRow :=
  rows.mergeSort fun left right => (compare left.owner right.owner).isLE

def byExpiry (rows : List MisfiledRow) : List MisfiledRow :=
  rows.mergeSort fun left right => (compare left.row.expiry right.row.expiry).isLE

def players : List MisfiledRow → Except StoreError PlayerSet
  | [] => .ok ∅
  | row :: rest =>
      match PlayerId.parse? row.owner with
      | none => .error (.invalidData s!"player_id is not a UUID: {row.owner}")
      | some player => (players rest).map fun players => players.insert player

end MisfiledRow

structure StoreFile where
  store : Store
  misfiled : List MisfiledRow

namespace StoreFile

def insert (file : StoreFile) (row : MisfiledRow) : StoreFile :=
  match (PlayerId.parse? row.owner).filter fun player => toString player = row.owner with
  | none => { file with misfiled := file.misfiled.filter (!·.sharesPlace row) ++ [row] }
  | some player =>
      match row.table with
      | .grants =>
          let grants := file.store.grants.set player ((file.store.grants.rows player).put row.row)
          { file with store := { file.store with grants } }
      | .memberships =>
          let memberships := file.store.memberships.set player ((file.store.memberships.rows player).put row.row)
          { file with store := { file.store with memberships } }

def met (file : StoreFile) : StoreCall → List MisfiledRow
  | .playersWithAnyRows => MisfiledRow.byOwner file.misfiled
  | .playersWithActiveRows now => MisfiledRow.byOwner (file.misfiled.filter (·.row.isActive now))
  | .playersWithLapsedGrants window =>
      MisfiledRow.byExpiry (file.misfiled.filter fun misfiled =>
        misfiled.table = .grants && misfiled.row.lapsesWithin window.since window.last)
  | .playersWithLapsedMemberships window =>
      MisfiledRow.byExpiry (file.misfiled.filter fun misfiled =>
        misfiled.table = .memberships && misfiled.row.lapsesWithin window.since window.last)
  | .activeMembers group now =>
      file.misfiled.filter fun misfiled =>
        misfiled.table = .memberships && misfiled.row.key = group && misfiled.row.isActive now
  | _ => []

def left (file : StoreFile) : StoreCall → List MisfiledRow
  | .deleteGroup name =>
      if file.store.groups.contains name then
        file.misfiled.filter fun misfiled => misfiled.table ≠ .memberships || misfiled.row.key ≠ name
      else file.misfiled
  | _ => file.misfiled

def join (left right : PlayerSet) : PlayerSet :=
  left ∪ right

def extend : (call : StoreCall) → PlayerSet → call.Answer → call.Answer
  | .playersWithAnyRows, players, answer => join players answer
  | .playersWithActiveRows _, players, answer => join players answer
  | .playersWithLapsedGrants _, players, answer => join players answer
  | .playersWithLapsedMemberships _, players, answer => join players answer
  | .activeMembers .., players, answer => join players answer
  | _, _, answer => answer

def run (file : StoreFile) (call : StoreCall) : Except StoreError call.Answer × StoreFile :=
  match MisfiledRow.players (file.met call) with
  | .error error => (.error error, file)
  | .ok players =>
      let (answer, store) := call.run file.store
      (answer.map (extend call players), { store, misfiled := file.left call })

end StoreFile

end PermissionFeed
