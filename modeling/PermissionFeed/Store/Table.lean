import Std.Data.ExtTreeMap
import PermissionFeed.PlayerId
import PermissionFeed.Row

namespace PermissionFeed

structure Table where
  owners : Std.ExtTreeMap PlayerId Rows
  nonempty : ∀ (player : PlayerId) (rows : Rows), owners[player]? = some rows → rows.isEmpty = false := by simp

namespace Table

def empty : Table :=
  { owners := ∅ }

def rows (table : Table) (player : PlayerId) : Rows :=
  table.owners[player]?.getD ∅

def stored? (rows : Rows) : Option Rows :=
  if rows.isEmpty then none else some rows

theorem isEmpty_of_stored? {rows kept : Rows} (found : stored? rows = some kept) : kept.isEmpty = false := by
  unfold stored? at found
  split at found
  · exact absurd found (by simp)
  · next occupied =>
      rw [← Option.some.inj found]
      exact Bool.eq_false_iff.mpr occupied

def set (table : Table) (player : PlayerId) (rows : Rows) : Table where
  owners := table.owners.alter player fun _ => stored? rows
  nonempty other kept found := by
    rw [Std.ExtTreeMap.getElem?_alter] at found
    split at found
    · exact isEmpty_of_stored? found
    · exact table.nonempty other kept found

def eraseKey (table : Table) (key : String) : Table where
  owners := table.owners.filterMap fun _ rows => stored? (rows.erase key)
  nonempty other kept found := by
    rw [Std.ExtTreeMap.getElem?_filterMap'] at found
    obtain ⟨rows, _, stored⟩ := Option.bind_eq_some_iff.mp found
    exact isEmpty_of_stored? stored

def players (table : Table) (condition : Rows → Bool) : PlayerSet :=
  Std.ExtTreeSet.ofList (table.owners.filter fun _ rows => condition rows).keys

theorem stored?_getD (rows : Rows) : (stored? rows).getD ∅ = rows := by
  unfold stored?
  split
  · next empty => simpa using (Std.ExtTreeMap.isEmpty_iff.mp empty).symm
  · rfl

theorem rows_set (table : Table) (player other : PlayerId) (rows : Rows) :
    (table.set player rows).rows other = if player = other then rows else table.rows other := by
  simp only [Table.rows, set, Std.ExtTreeMap.getElem?_alter, Std.LawfulEqCmp.compare_eq_iff_eq]
  split
  · exact stored?_getD rows
  · rfl

theorem rows_eraseKey (table : Table) (player : PlayerId) (key : String) :
    (table.eraseKey key).rows player = (table.rows player).erase key := by
  simp only [Table.rows, eraseKey, Std.ExtTreeMap.getElem?_filterMap']
  cases table.owners[player]? with
  | none => simp
  | some rows => exact stored?_getD _

theorem ext_rows {left right : Table} (same : ∀ player, left.rows player = right.rows player) : left = right := by
  obtain ⟨leftOwners, leftNonempty⟩ := left
  obtain ⟨rightOwners, rightNonempty⟩ := right
  congr
  apply Std.ExtTreeMap.ext_getElem?
  intro player
  have equal := same player
  simp only [Table.rows] at equal
  cases found : leftOwners[player]? <;> cases found' : rightOwners[player]? <;>
    simp only [found, found', Option.getD_none, Option.getD_some] at equal
  · rfl
  · have := rightNonempty _ _ found'
    simp [← equal] at this
  · have := leftNonempty _ _ found
    simp [equal] at this
  · rw [equal]

end Table

end PermissionFeed
