import PermissionFeed.Store.Query

namespace PermissionFeed

inductive StoreCall where
  | directGrants (player : PlayerId) (now : Instant)
  | memberships (player : PlayerId) (now : Instant)
  | inherited (player : PlayerId) (now : Instant)
  | group (name : String) (now : Instant)
  | listGroups (now : Instant)
  | activeMembers (group : String) (now : Instant)
  | playersWithAnyRows
  | playersWithActiveRows (now : Instant)
  | playersWithLapsedGrants (window : Window)
  | playersWithLapsedMemberships (window : Window)
  | groupsWithLapsedGrants (window : Window)
  | addGrants (player : PlayerId) (grants : List Grant)
  | removeGrants (player : PlayerId) (permissions : List String)
  | addMemberships (player : PlayerId) (memberships : List Membership)
  | removeMemberships (player : PlayerId) (groups : List String)
  | addGroupGrants (group : String) (grants : List Grant)
  | removeGroupGrants (group : String) (permissions : List String)
  | createGroup (name : String)
  | deleteGroup (name : String)

namespace StoreCall

def Answer : StoreCall → Type
  | directGrants .. | memberships .. => List Row
  | inherited .. | groupsWithLapsedGrants .. => NameSet
  | group .. => Option Group
  | listGroups .. => List Group
  | activeMembers .. | playersWithAnyRows | playersWithActiveRows .. | playersWithLapsedGrants ..
  | playersWithLapsedMemberships .. => PlayerSet
  | addGrants .. | removeGrants .. | addMemberships .. | removeMemberships .. | addGroupGrants ..
  | removeGroupGrants .. | createGroup .. | deleteGroup .. => Outcome

def run : (call : StoreCall) → Store → Except StoreError call.Answer × Store
  | directGrants player now, store => (.ok (store.directGrants player now), store)
  | memberships player now, store => (.ok (store.playerMemberships player now), store)
  | inherited player now, store => (.ok (store.inherited player now), store)
  | group name now, store => (.ok (store.group name now), store)
  | listGroups now, store => (.ok (store.listGroups now), store)
  | activeMembers name now, store => (.ok (store.activeMembers name now), store)
  | playersWithAnyRows, store => (.ok store.playersWithAnyRows, store)
  | playersWithActiveRows now, store => (.ok (store.playersWithActiveRows now), store)
  | playersWithLapsedGrants window, store => (.ok (store.playersWithLapsedGrants window), store)
  | playersWithLapsedMemberships window, store => (.ok (store.playersWithLapsedMemberships window), store)
  | groupsWithLapsedGrants window, store => (.ok (store.groupsWithLapsedGrants window), store)
  | addGrants player grants, store => store.addGrants player grants
  | removeGrants player permissions, store => store.removeGrants player permissions
  | addMemberships player rows, store => store.addMemberships player rows
  | removeMemberships player groups, store => store.removeMemberships player groups
  | addGroupGrants name grants, store => store.addGroupGrants name grants
  | removeGroupGrants name permissions, store => store.removeGroupGrants name permissions
  | createGroup name, store => store.createGroup name
  | deleteGroup name, store => store.deleteGroup name

inductive Kind where
  | directGrants
  | memberships
  | inherited
  | group
  | listGroups
  | activeMembers
  | playersWithAnyRows
  | playersWithActiveRows
  | playersWithLapsedGrants
  | playersWithLapsedMemberships
  | groupsWithLapsedGrants
  | addGrants
  | removeGrants
  | addMemberships
  | removeMemberships
  | addGroupGrants
  | removeGroupGrants
  | createGroup
  | deleteGroup
  deriving DecidableEq

def kind : StoreCall → Kind
  | directGrants .. => .directGrants
  | memberships .. => .memberships
  | inherited .. => .inherited
  | group .. => .group
  | listGroups .. => .listGroups
  | activeMembers .. => .activeMembers
  | playersWithAnyRows => .playersWithAnyRows
  | playersWithActiveRows .. => .playersWithActiveRows
  | playersWithLapsedGrants .. => .playersWithLapsedGrants
  | playersWithLapsedMemberships .. => .playersWithLapsedMemberships
  | groupsWithLapsedGrants .. => .groupsWithLapsedGrants
  | addGrants .. => .addGrants
  | removeGrants .. => .removeGrants
  | addMemberships .. => .addMemberships
  | removeMemberships .. => .removeMemberships
  | addGroupGrants .. => .addGroupGrants
  | removeGroupGrants .. => .removeGroupGrants
  | createGroup .. => .createGroup
  | deleteGroup .. => .deleteGroup

def player? : StoreCall → Option PlayerId
  | directGrants player _ | memberships player _ | inherited player _ | addGrants player _ | removeGrants player _
  | addMemberships player _ | removeMemberships player _ => some player
  | _ => none

end StoreCall

end PermissionFeed
