import PermissionFeed.Group
import PermissionFeed.PlayerId

namespace PermissionFeed

structure Scope where
  effective : Bool
  direct : Bool
  groups : Bool
  deriving DecidableEq

namespace Scope

def full : Scope :=
  ⟨true, true, true⟩

def effectiveOnly : Scope :=
  ⟨true, false, false⟩

def loadsDirect (scope : Scope) : Bool :=
  scope.direct || scope.effective

end Scope

structure Snapshot where
  player : PlayerId
  memberships : RowSet
  direct : RowSet
  effective : NameSet
  deriving DecidableEq

namespace Snapshot

def empty (player : PlayerId) : Snapshot :=
  ⟨player, ∅, ∅, ∅⟩

def assemble (player : PlayerId) (scope : Scope) (direct : List Grant) (memberships : List Membership)
    (inherited : List String) (now : Instant) : Snapshot :=
  let direct := Rows.ofRows (direct.filter (·.isActive now))
  let memberships := Rows.ofRows (memberships.filter (·.isActive now))
  { player
    memberships := if scope.groups then memberships.toSet else ∅
    direct := if scope.direct then direct.toSet else ∅
    effective := if scope.effective then direct.names.insertMany inherited else ∅ }

def evaluate (player : PlayerId) (scope : Scope) (direct : List Grant) (memberships : List Membership)
    (groups : Groups) (now : Instant) : Snapshot :=
  assemble player scope direct memberships (groups.inherited memberships now).toList now

def isEmpty (snapshot : Snapshot) : Bool :=
  snapshot.memberships.isEmpty && snapshot.direct.isEmpty && snapshot.effective.isEmpty

def hasPermission (snapshot : Snapshot) (permission : String) : Bool :=
  snapshot.effective.contains permission

def directPermissions (snapshot : Snapshot) : List String :=
  snapshot.direct.toList.map Row.key

def groupNames (snapshot : Snapshot) : List String :=
  snapshot.memberships.toList.map Row.key

end Snapshot

end PermissionFeed
