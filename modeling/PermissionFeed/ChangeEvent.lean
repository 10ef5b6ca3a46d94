import PermissionFeed.Delta
import PermissionFeed.EventId

namespace PermissionFeed

namespace Reason

def playerPermissionAdd : String := "player_permission_add"

def playerPermissionRemove : String := "player_permission_remove"

def playerGroupAdd : String := "player_group_add"

def playerGroupRemove : String := "player_group_remove"

def groupPermissionAdd : String := "group_permission_add"

def groupPermissionRemove : String := "group_permission_remove"

def groupDelete : String := "group_delete"

def expiry : String := "expiry"

def startup : String := "startup"

def subscriptionResume : String := "subscription_resume"

def all : List String :=
  [playerPermissionAdd, playerPermissionRemove, playerGroupAdd, playerGroupRemove, groupPermissionAdd,
    groupPermissionRemove, groupDelete, expiry, startup, subscriptionResume]

end Reason

structure Announcement where
  player : PlayerId
  occurredAt : Instant
  reason : String
  requiresRefresh : Bool
  delta : Delta
  deriving DecidableEq

namespace Announcement

def ofDelta (player : PlayerId) (reason : String) (delta : Delta) (time : Instant) : Announcement :=
  ⟨player, time, reason, false, delta⟩

def refresh (player : PlayerId) (reason : String) (time : Instant) : Announcement :=
  ⟨player, time, reason, true, .empty⟩

def hasNoDeltas (announcement : Announcement) : Bool :=
  announcement.delta.isEmpty

def isWellFormed (announcement : Announcement) : Bool :=
  announcement.requiresRefresh == announcement.hasNoDeltas

end Announcement

structure ChangeEvent extends Announcement where
  id : EventId
  deriving DecidableEq

end PermissionFeed
