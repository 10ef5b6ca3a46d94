import PermissionFeed.Row

namespace PermissionFeed

structure Group where
  name : String
  grants : List Grant
  deriving DecidableEq

namespace Group

def empty (name : String) : Group :=
  ⟨name, []⟩

def activeGrants (group : Group) (now : Instant) : List Grant :=
  group.grants.filter (·.isActive now)

end Group

abbrev Groups := Std.ExtTreeMap String Group

namespace Groups

def inherited (groups : Groups) (memberships : List Membership) (now : Instant) : NameSet :=
  let joined := (memberships.filter (·.isActive now)).filterMap fun membership => groups[membership.key]?
  Std.ExtTreeSet.ofList (joined.flatMap fun group => (group.activeGrants now).map Row.key)

end Groups

end PermissionFeed
