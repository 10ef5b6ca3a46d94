import PermissionFeed.Engine

namespace PermissionFeed

inductive Mutation where
  | addPlayerPermissions (player : PlayerId) (grants : List Grant)
  | removePlayerPermissions (player : PlayerId) (permissions : List String)
  | addPlayerGroups (player : PlayerId) (memberships : List Membership)
  | removePlayerGroups (player : PlayerId) (groups : List String)
  | addGroupPermissions (group : String) (grants : List Grant)
  | removeGroupPermissions (group : String) (permissions : List String)
  | createGroup (name : String)
  | deleteGroup (name : String)
  deriving DecidableEq

namespace Mutation

def routine : Mutation → Routine (Except EngineError Outcome)
  | addPlayerPermissions player grants => Engine.addPlayerPermissions player grants
  | removePlayerPermissions player permissions => Engine.removePlayerPermissions player permissions
  | addPlayerGroups player memberships => Engine.addPlayerGroups player memberships
  | removePlayerGroups player groups => Engine.removePlayerGroups player groups
  | addGroupPermissions group grants => Engine.addGroupPermissions group grants
  | removeGroupPermissions group permissions => Engine.removeGroupPermissions group permissions
  | createGroup name => Engine.createGroup name
  | deleteGroup name => Engine.deleteGroup name

def player? : Mutation → Option PlayerId
  | addPlayerPermissions player _ | removePlayerPermissions player _ | addPlayerGroups player _
  | removePlayerGroups player _ => some player
  | _ => none

end Mutation

end PermissionFeed
