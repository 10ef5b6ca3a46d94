import PermissionFeed.Expiry

namespace PermissionFeed

/-- The instants after `since` up to and with `last`. -/
structure Window where
  since : Instant
  last : Instant
  deriving DecidableEq

structure Cursor where
  position : Instant
  deriving DecidableEq

namespace Cursor

def advance (cursor : Cursor) (last : Instant) : Option Window × Cursor :=
  if cursor.position < last then (some ⟨cursor.position, last⟩, ⟨last⟩) else (none, cursor)

def rewind (cursor : Cursor) (window : Window) : Bool × Cursor :=
  if cursor.position = window.last then (true, ⟨window.since⟩) else (false, cursor)

def reachingBack (now : Instant) (reach : Nat) : Cursor :=
  ⟨Int64.ofInt (max Int64.minValue.toInt (now.toInt - min (reach : Int) Int64.maxValue.toInt))⟩

end Cursor

end PermissionFeed
