import PermissionFeed.Store.Table

namespace PermissionFeed

inductive StoreError where
  | invalidData (detail : String)
  | groupNotFound (name : String)
  | lockPoisoned (detail : String)
  | taskFailed (detail : String)
  | migration (detail : String)
  deriving DecidableEq

def StoreError.message : StoreError → String
  | .invalidData detail => s!"invalid data: {detail}"
  | .groupNotFound name => s!"group not found: {name}"
  | .lockPoisoned detail => s!"store lock poisoned: {detail}"
  | .taskFailed detail => s!"blocking task failed: {detail}"
  | .migration detail => s!"migration error: {detail}"

structure Store where
  groups : Std.ExtTreeMap String Rows
  grants : Table
  memberships : Table

namespace Store

def empty : Store where
  groups := ∅
  grants := .empty
  memberships := .empty

abbrev Write := Except StoreError Outcome × Store

def addGrants (store : Store) (player : PlayerId) (grants : List Grant) : Write :=
  let (rows, outcome) := (store.grants.rows player).upsert grants
  (.ok outcome, { store with grants := store.grants.set player rows })

def removeGrants (store : Store) (player : PlayerId) (permissions : List String) : Write :=
  let (rows, outcome) := (store.grants.rows player).remove permissions
  (.ok outcome, { store with grants := store.grants.set player rows })

def addMemberships (store : Store) (player : PlayerId) (memberships : List Membership) : Write :=
  match memberships.find? fun membership => !store.groups.contains membership.key with
  | some missing => (.error (.groupNotFound missing.key), store)
  | none =>
      let (rows, outcome) := (store.memberships.rows player).upsert memberships
      (.ok outcome, { store with memberships := store.memberships.set player rows })

def removeMemberships (store : Store) (player : PlayerId) (groups : List String) : Write :=
  let (rows, outcome) := (store.memberships.rows player).remove groups
  (.ok outcome, { store with memberships := store.memberships.set player rows })

def addGroupGrants (store : Store) (group : String) (grants : List Grant) : Write :=
  match store.groups[group]? with
  | none => (.error (.groupNotFound group), store)
  | some rows =>
      let (rows, outcome) := rows.upsert grants
      (.ok outcome, { store with groups := store.groups.insert group rows })

def removeGroupGrants (store : Store) (group : String) (permissions : List String) : Write :=
  match store.groups[group]? with
  | none => (.ok .noChange, store)
  | some rows =>
      let (rows, outcome) := rows.remove permissions
      (.ok outcome, { store with groups := store.groups.insert group rows })

def createGroup (store : Store) (name : String) : Write :=
  if store.groups.contains name then (.ok .noChange, store)
  else (.ok .created, { store with groups := store.groups.insert name ∅ })

def deleteGroup (store : Store) (name : String) : Write :=
  if store.groups.contains name then
    (.ok .deleted, { store with groups := store.groups.erase name
                                memberships := store.memberships.eraseKey name })
  else (.ok .noChange, store)

end Store

end PermissionFeed
