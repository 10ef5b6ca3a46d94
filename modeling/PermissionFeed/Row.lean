import Std.Data.ExtTreeMap
import Std.Data.ExtTreeSet
import PermissionFeed.Expiry
import PermissionFeed.Outcome

namespace PermissionFeed

structure Row where
  key : String
  expiry : Expiry
  deriving DecidableEq

abbrev Grant := Row

abbrev Membership := Row

namespace Row

instance : Ord Row :=
  ⟨compareLex (compareOn key) (compareOn expiry)⟩

instance : Std.TransOrd Row :=
  inferInstanceAs (Std.TransCmp (compareLex (compareOn key) (compareOn expiry)))

instance : Std.LawfulEqOrd Row where
  eq_of_compare {left right} same := by
    have parts : (compare left.key right.key).then (compare left.expiry right.expiry) = .eq := same
    rw [Ordering.then_eq_eq] at parts
    cases left
    cases right
    simpa using And.intro (Std.LawfulEqCmp.eq_of_compare parts.1) (Std.LawfulEqCmp.eq_of_compare parts.2)

def isActive (row : Row) (now : Instant) : Bool :=
  row.expiry.isActive now

/-- The row lapses in the window that excludes `since` and includes `last`. -/
def lapsesWithin (row : Row) (since last : Instant) : Bool :=
  row.expiry.lapsesWithin since last

end Row

abbrev RowSet := Std.ExtTreeSet Row

abbrev NameSet := Std.ExtTreeSet String

abbrev Rows := Std.ExtTreeMap String Expiry

namespace Rows

def put (rows : Rows) (row : Row) : Rows :=
  rows.insert row.key row.expiry

def ofRows (list : List Row) : Rows :=
  list.foldl put ∅

def list (rows : Rows) : List Row :=
  rows.toList.map fun (key, expiry) => ⟨key, expiry⟩

def active (rows : Rows) (now : Instant) : Rows :=
  rows.filter fun _ expiry => expiry.isActive now

def anyLapses (rows : Rows) (since last : Instant) : Bool :=
  rows.toList.any fun (_, expiry) => expiry.lapsesWithin since last

def names (rows : Rows) : NameSet :=
  Std.ExtTreeSet.ofList rows.keys

def toSet (rows : Rows) : RowSet :=
  Std.ExtTreeSet.ofList rows.list

structure Written where
  rows : Rows
  inserted : Nat
  updated : Nat

def Written.put (written : Written) (row : Row) : Written :=
  match written.rows[row.key]? with
  | none => { written with rows := written.rows.put row, inserted := written.inserted + 1 }
  | some expiry =>
      { written with rows := written.rows.put row
                     updated := if expiry = row.expiry then written.updated else written.updated + 1 }

def upsert (rows : Rows) (list : List Row) : Rows × Outcome :=
  let written := list.foldl Written.put ⟨rows, 0, 0⟩
  (written.rows, .ofUpsert written.inserted written.updated)

def remove (rows : Rows) (keys : List String) : Rows × Outcome :=
  (keys.foldl (fun rows key => rows.erase key) rows, .ofDelete (keys.countP fun key => rows.contains key))

theorem getElem?_put (rows : Rows) (row : Row) (key : String) :
    (rows.put row)[key]? = if row.key = key then some row.expiry else rows[key]? := by
  simp [put, Std.ExtTreeMap.getElem?_insert]

theorem getElem?_foldl_put (list : List Row) (rows : Rows) (key : String) :
    (list.foldl put rows)[key]? =
      match list.reverse.find? (fun row => decide (row.key = key)) with
      | some row => some row.expiry
      | none => rows[key]? := by
  induction list generalizing rows with
  | nil => rfl
  | cons row rest ih =>
      rw [List.foldl_cons, ih, List.reverse_cons, List.find?_append]
      cases found : rest.reverse.find? fun row => decide (row.key = key) with
      | some other => simp
      | none =>
          rw [getElem?_put]
          by_cases same : row.key = key <;> simp [same]

theorem getElem?_ofRows (list : List Row) (key : String) :
    (ofRows list)[key]? = (list.reverse.find? fun row => decide (row.key = key)).map Row.expiry := by
  rw [ofRows, getElem?_foldl_put]
  cases list.reverse.find? fun row => decide (row.key = key) <;> simp

theorem getElem?_active (rows : Rows) (now : Instant) (key : String) :
    (rows.active now)[key]? = rows[key]?.filter (·.isActive now) := by
  rw [active, Std.ExtTreeMap.getElem?_filter]
  cases rows[key]? <;> simp

end Rows

end PermissionFeed
