import Mathlib.Tactic.SplitIfs
import PermissionFeed.Row
import PermissionFeed.Text.Utf8

namespace PermissionFeed.Text

inductive Precedes : List UInt8 → List UInt8 → Prop
  | here {low high : UInt8} (smaller : low.toNat < high.toNat) (lower higher : List UInt8) :
      Precedes (low :: lower) (high :: higher)
  | later {left right : List UInt8} (byte : UInt8) (precedes : Precedes left right) :
      Precedes (byte :: left) (byte :: right)

theorem compare_cons_self (byte : UInt8) (left right : List UInt8) :
    compare (byte :: left) (byte :: right) = compare left right := by
  have same : compare byte byte = .eq := Std.ReflOrd.compare_self
  exact List.compareLex_cons_cons.trans (by rw [same]; rfl)

theorem compare_append (shared left right : List UInt8) :
    compare (shared ++ left) (shared ++ right) = compare left right := by
  induction shared with
  | nil => rfl
  | cons byte shared ih => rw [List.cons_append, List.cons_append, compare_cons_self, ih]

theorem Precedes.compare_append {left right : List UInt8} (precedes : Precedes left right) (after others : List UInt8) :
    compare (left ++ after) (right ++ others) = .lt := by
  induction precedes with
  | @here low high smaller lower higher =>
      have first : compare low high = .lt := Std.compare_eq_lt.mpr (UInt8.lt_iff_toNat_lt.mpr smaller)
      exact List.compareLex_cons_cons.trans (by rw [first]; rfl)
  | later byte _ ih => rw [List.cons_append, List.cons_append, compare_cons_self, ih]

theorem precedes_cons {low high : Nat} {lower higher : List UInt8} (le : low ≤ high) (byte : high < 256)
    (next : low = high → Precedes lower higher) : Precedes (UInt8.ofNat low :: lower) (UInt8.ofNat high :: higher) := by
  rcases Nat.lt_or_eq_of_le le with smaller | same
  · refine .here ?_ lower higher
    rw [UInt8.toNat_ofNat', UInt8.toNat_ofNat', Nat.mod_eq_of_lt byte, Nat.mod_eq_of_lt (Nat.lt_trans smaller byte)]
    exact smaller
  · rw [same]
    exact .later _ (next same)

theorem precedes_encode {left right : Char} (smaller : left.toNat < right.toNat) :
    Precedes (String.utf8EncodeChar left) (String.utf8EncodeChar right) := by
  have bound : right.toNat < 0x110000 := by
    rcases right.valid with small | ⟨_, large⟩
    · exact Nat.lt_trans small (by decide)
    · exact large
  change left.val.toNat < right.val.toNat at smaller
  change right.val.toNat < 0x110000 at bound
  simp only [String.utf8EncodeChar]
  -- no byte is greater on the left, and if all were the same, the characters would be
  split_ifs <;> repeat' refine precedes_cons (by omega) (by omega) fun _ => ?_
  all_goals omega

theorem compare_encode {left right : List Char}
    (before : List.Lex (fun low high => low.toNat < high.toNat) left right) :
    compare (left.flatMap String.utf8EncodeChar) (right.flatMap String.utf8EncodeChar) = .lt := by
  induction before with
  | @nil char rest =>
      have occupied : 0 < (String.utf8EncodeChar char).length := String.length_utf8EncodeChar char ▸ char.utf8Size_pos
      obtain ⟨first, later, written⟩ := List.exists_cons_of_length_pos occupied
      rw [List.flatMap_cons, written]
      rfl
  | @cons char left right _ ih =>
      rw [List.flatMap_cons, List.flatMap_cons, compare_append, ih]
  | rel smaller =>
      rw [List.flatMap_cons, List.flatMap_cons]
      exact (precedes_encode smaller).compare_append _ _

theorem utf8_eq (text : String) : utf8 text = text.toList.flatMap String.utf8EncodeChar := by
  rw [utf8, ← String.utf8Encode_toList, List.utf8Encode, List.toList_data_toByteArray]

theorem lex_of_compare {left right : String} (before : compare left right = .lt) :
    List.Lex (fun low high => low.toNat < high.toNat) left.toList right.toList := by
  refine Classical.byContradiction fun after => ?_
  have skipped : compare left right = if left = right then .eq else .gt := if_neg after
  rw [skipped] at before
  split at before <;> contradiction

theorem compare_utf8 (left right : String) : compare (utf8 left) (utf8 right) = compare left right := by
  cases order : compare left right with
  | lt =>
      rw [utf8_eq, utf8_eq]
      exact compare_encode (lex_of_compare order)
  | eq =>
      rw [Std.LawfulEqOrd.eq_of_compare order]
      exact Std.ReflOrd.compare_self
  | gt =>
      rw [Std.OrientedCmp.gt_iff_lt] at order ⊢
      rw [utf8_eq, utf8_eq]
      exact compare_encode (lex_of_compare order)

end PermissionFeed.Text
