import PermissionFeed.Cursor
import PermissionFeed.Group
import PermissionFeed.Store.Basic

namespace PermissionFeed.Store

def directGrants (store : Store) (player : PlayerId) (now : Instant) : List Grant :=
  ((store.grants.rows player).active now).list

def playerMemberships (store : Store) (player : PlayerId) (now : Instant) : List Membership :=
  ((store.memberships.rows player).active now).list

def inherited (store : Store) (player : PlayerId) (now : Instant) : NameSet :=
  let joined := ((store.memberships.rows player).active now).keys.filterMap fun group => store.groups[group]?
  Std.ExtTreeSet.ofList (joined.flatMap fun rows => (rows.active now).keys)

def group (store : Store) (name : String) (now : Instant) : Option Group :=
  store.groups[name]?.map fun rows => ⟨name, (rows.active now).list⟩

def listGroups (store : Store) (now : Instant) : List Group :=
  store.groups.toList.map fun (name, rows) => ⟨name, (rows.active now).list⟩

def activeMembers (store : Store) (group : String) (now : Instant) : PlayerSet :=
  store.memberships.players fun rows => rows[group]?.any (·.isActive now)

def playersWith (store : Store) (condition : Rows → Bool) : PlayerSet :=
  store.grants.players condition ∪ store.memberships.players condition

def playersWithAnyRows (store : Store) : PlayerSet :=
  store.playersWith fun rows => !rows.isEmpty

def playersWithActiveRows (store : Store) (now : Instant) : PlayerSet :=
  store.playersWith fun rows => !(rows.active now).isEmpty

def playersWithLapsedGrants (store : Store) (window : Window) : PlayerSet :=
  store.grants.players fun rows => rows.anyLapses window.since window.last

def playersWithLapsedMemberships (store : Store) (window : Window) : PlayerSet :=
  store.memberships.players fun rows => rows.anyLapses window.since window.last

def groupsWithLapsedGrants (store : Store) (window : Window) : NameSet :=
  Std.ExtTreeSet.ofList (store.groups.filter fun _ rows => rows.anyLapses window.since window.last).keys

end PermissionFeed.Store
