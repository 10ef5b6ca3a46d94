import PermissionFeed.Snapshot

namespace PermissionFeed

inductive Action where
  | add
  | remove
  deriving DecidableEq

namespace Action

def label : Action → String
  | add => "ADD"
  | remove => "REMOVE"

def ofLabel? : String → Option Action
  | "ADD" => some add
  | "REMOVE" => some remove
  | _ => none

theorem ofLabel?_label (action : Action) : ofLabel? action.label = some action := by
  cases action <;> rfl

end Action

structure Entry where
  action : Action
  key : String
  expiry : Expiry
  deriving DecidableEq

namespace Entry

def add (key : String) (expiry : Expiry) : Entry :=
  ⟨.add, key, expiry⟩

def remove (key : String) : Entry :=
  ⟨.remove, key, none⟩

end Entry

namespace Rows

/-- The entries that lead from one keyed list of rows to another: first the old keys, then the new ones, ascending. -/
def changesTo (before after : Rows) : List Entry :=
  (before.toList.flatMap fun (key, expiry) =>
    match after[key]? with
    | none => [.remove key]
    | some later => if later = expiry then [] else [.remove key, .add key later]) ++
  after.toList.filterMap fun (key, expiry) =>
    if before.contains key then none else some (.add key expiry)

def apply (rows : Rows) (entries : List Entry) : Rows :=
  let kept := (entries.filter (·.action = .remove)).foldl (fun rows entry => rows.erase entry.key) rows
  (entries.filter (·.action = .add)).foldl (fun rows entry => rows.put ⟨entry.key, entry.expiry⟩) kept

end Rows

def RowSet.keyed (rows : RowSet) : Rows :=
  Rows.ofRows rows.toList

def NameSet.keyed (names : NameSet) : Rows :=
  Rows.ofRows (names.toList.map fun name => ⟨name, none⟩)

structure Dimensions where
  direct : Bool
  groups : Bool
  deriving DecidableEq

namespace Dimensions

def all : Dimensions :=
  ⟨true, true⟩

def effectiveOnly : Dimensions :=
  ⟨false, false⟩

end Dimensions

structure Delta where
  direct : List Entry
  groups : List Entry
  effective : List Entry
  deriving DecidableEq

namespace Delta

def empty : Delta :=
  ⟨[], [], []⟩

def isEmpty (delta : Delta) : Bool :=
  delta.direct.isEmpty && delta.groups.isEmpty && delta.effective.isEmpty

def between (before after : Snapshot) (dimensions : Dimensions) : Delta where
  direct := if dimensions.direct then (RowSet.keyed before.direct).changesTo (RowSet.keyed after.direct) else []
  groups :=
    if dimensions.groups then (RowSet.keyed before.memberships).changesTo (RowSet.keyed after.memberships) else []
  effective := (NameSet.keyed before.effective).changesTo (NameSet.keyed after.effective)

def between? (before after : Option Snapshot) (dimensions : Dimensions) : Option Delta := do
  return between (← before) (← after) dimensions

end Delta

end PermissionFeed
