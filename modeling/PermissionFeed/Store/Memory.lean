import PermissionFeed.Store.Call

namespace PermissionFeed

abbrev Owners := Std.ExtTreeMap PlayerId Rows

namespace Owners

def upsert (owners : Owners) (player : PlayerId) (list : List Row) : Owners × Outcome :=
  let (rows, outcome) := (owners[player]?.getD ∅).upsert list
  (owners.insert player rows, outcome)

def remove (owners : Owners) (player : PlayerId) (keys : List String) : Owners × Outcome :=
  match owners[player]? with
  | none => (owners, .noChange)
  | some rows =>
      let (rows, outcome) := rows.remove keys
      (if rows.isEmpty then owners.erase player else owners.insert player rows, outcome)

def eraseKey (owners : Owners) (key : String) : Owners :=
  owners.filterMap fun _ rows => Table.stored? (rows.erase key)

def active (owners : Owners) (player : PlayerId) (now : Instant) : List Row :=
  match owners[player]? with
  | none => []
  | some rows => (rows.active now).list

def players (owners : Owners) (condition : Rows → Bool) : PlayerSet :=
  Std.ExtTreeSet.ofList (owners.filter fun _ rows => condition rows).keys

def tidy (owners : Owners) : Table where
  owners := owners.filter fun _ rows => !rows.isEmpty
  nonempty player rows found := by
    rw [Std.ExtTreeMap.getElem?_filter'] at found
    simpa using (Option.filter_eq_some_iff.mp found).2

end Owners

def Rows.anyExpiry (rows : Rows) (condition : Expiry → Bool) : Bool :=
  rows.toList.any fun (_, expiry) => condition expiry

/-- What a store in memory holds. A player for whom an empty list of rows was written stays in it. -/
structure Memory where
  groups : Std.ExtTreeMap String Rows
  grants : Owners
  memberships : Owners

namespace Memory

def empty : Memory :=
  ⟨∅, ∅, ∅⟩

def tidy (memory : Memory) : Store :=
  ⟨memory.groups, memory.grants.tidy, memory.memberships.tidy⟩

def bareGroups (memory : Memory) : Store :=
  ⟨memory.groups, .empty, .empty⟩

def inherited (memory : Memory) (player : PlayerId) (now : Instant) : NameSet :=
  match memory.memberships[player]? with
  | none => ∅
  | some rows =>
      let joined := (rows.active now).keys.filterMap fun group => memory.groups[group]?
      Std.ExtTreeSet.ofList (joined.flatMap fun rows => (rows.active now).keys)

def playersMatching (memory : Memory) (condition : Expiry → Bool) : PlayerSet :=
  memory.grants.players (·.anyExpiry condition) ∪ memory.memberships.players (·.anyExpiry condition)

abbrev Write := Except StoreError Outcome × Memory

def writeGroups (memory : Memory) (write : Store → Store.Write) : Write :=
  let (answer, store) := write memory.bareGroups
  (answer, { memory with groups := store.groups })

def addMemberships (memory : Memory) (player : PlayerId) (list : List Membership) : Write :=
  match list.find? fun membership => !memory.groups.contains membership.key with
  | some missing => (.error (.groupNotFound missing.key), memory)
  | none =>
      let (memberships, outcome) := memory.memberships.upsert player list
      (.ok outcome, { memory with memberships })

def deleteGroup (memory : Memory) (name : String) : Write :=
  if memory.groups.contains name then
    (.ok .deleted, { memory with groups := memory.groups.erase name
                                 memberships := memory.memberships.eraseKey name })
  else (.ok .noChange, memory)

def run (memory : Memory) : (call : StoreCall) → Except StoreError call.Answer × Memory
  | .directGrants player now => (.ok (memory.grants.active player now), memory)
  | .memberships player now => (.ok (memory.memberships.active player now), memory)
  | .inherited player now => (.ok (memory.inherited player now), memory)
  | .group name now => (.ok (memory.bareGroups.group name now), memory)
  | .listGroups now => (.ok (memory.bareGroups.listGroups now), memory)
  | .activeMembers group now =>
      (.ok (memory.memberships.players fun rows => rows[group]?.any (·.isActive now)), memory)
  | .playersWithAnyRows => (.ok (memory.playersMatching fun _ => true), memory)
  | .playersWithActiveRows now => (.ok (memory.playersMatching (·.isActive now)), memory)
  | .playersWithLapsedGrants window =>
      (.ok (memory.grants.players (·.anyExpiry (·.lapsesWithin window.since window.last))), memory)
  | .playersWithLapsedMemberships window =>
      (.ok (memory.memberships.players (·.anyExpiry (·.lapsesWithin window.since window.last))), memory)
  | .groupsWithLapsedGrants window => (.ok (memory.bareGroups.groupsWithLapsedGrants window), memory)
  | .addGrants player list =>
      let (grants, outcome) := memory.grants.upsert player list
      (.ok outcome, { memory with grants })
  | .removeGrants player permissions =>
      let (grants, outcome) := memory.grants.remove player permissions
      (.ok outcome, { memory with grants })
  | .addMemberships player list => memory.addMemberships player list
  | .removeMemberships player groups =>
      let (memberships, outcome) := memory.memberships.remove player groups
      (.ok outcome, { memory with memberships })
  | .addGroupGrants name grants => memory.writeGroups (·.addGroupGrants name grants)
  | .removeGroupGrants name permissions => memory.writeGroups (·.removeGroupGrants name permissions)
  | .createGroup name => memory.writeGroups (·.createGroup name)
  | .deleteGroup name => memory.deleteGroup name

end Memory

end PermissionFeed
