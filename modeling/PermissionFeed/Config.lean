namespace PermissionFeed

/-- The settings of a service; spans of time are in milliseconds. -/
structure Config where
  capacity : Nat := 1024
  interval : Nat := 10000
  bootstrap : Nat := 60000
  serialize : Bool := true
  deriving DecidableEq

def schemaVersion : Nat := 1

end PermissionFeed
