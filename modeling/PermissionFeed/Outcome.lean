namespace PermissionFeed

inductive Outcome where
  | noChange
  | created
  | updated
  | deleted
  | failed
  deriving DecidableEq

namespace Outcome

def emits : Outcome → Bool
  | created | updated | deleted => true
  | noChange | failed => false

def ofUpsert (additions changes : Nat) : Outcome :=
  if 0 < additions then created else if 0 < changes then updated else noChange

def ofDelete (removals : Nat) : Outcome :=
  if 0 < removals then deleted else noChange

def label : Outcome → String
  | noChange => "NO_CHANGE"
  | created => "CREATED"
  | updated => "UPDATED"
  | deleted => "DELETED"
  | failed => "ERROR"

def ofLabel? : String → Option Outcome
  | "NO_CHANGE" => some noChange
  | "CREATED" => some created
  | "UPDATED" => some updated
  | "DELETED" => some deleted
  | "ERROR" => some failed
  | _ => none

theorem ofLabel?_label (outcome : Outcome) : ofLabel? outcome.label = some outcome := by
  cases outcome <;> rfl

end Outcome

end PermissionFeed
