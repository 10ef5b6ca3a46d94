namespace PermissionFeed

abbrev Instant := Int64

/-- When a row lapses; `none` is never. -/
abbrev Expiry := Option Instant

namespace Expiry

def isActive (expiry : Expiry) (now : Instant) : Bool :=
  match expiry with
  | some instant => decide (now < instant)
  | none => true

def lapsesWithin (expiry : Expiry) (since last : Instant) : Bool :=
  match expiry with
  | some instant => decide (since < instant) && decide (instant ≤ last)
  | none => false

theorem isActive_iff {expiry : Expiry} {now : Instant} :
    expiry.isActive now ↔ ∀ instant, expiry = some instant → now < instant := by
  cases expiry <;> simp [isActive]

theorem lapsesWithin_iff {expiry : Expiry} {since last : Instant} :
    expiry.lapsesWithin since last ↔ ∃ instant, expiry = some instant ∧ since < instant ∧ instant ≤ last := by
  cases expiry <;> simp [lapsesWithin]

end Expiry

end PermissionFeed
