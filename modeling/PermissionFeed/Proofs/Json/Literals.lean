import Mathlib.Data.List.Forall2
import PermissionFeed.Json.Form

namespace PermissionFeed.Json

def Closes (rest : List Char) : Prop :=
  ∀ char ∈ rest.head?, char.isDigit = false ∧ char ≠ '.' ∧ char ≠ 'e' ∧ char ≠ 'E'

theorem isDigit_toDigits {value : Nat} {char : Char} (written : char ∈ Nat.toDigits 10 value) : char.isDigit :=
  Nat.isDigit_of_mem_toDigits (by decide) (by decide) written

theorem ofDigits_toDigits (value : Nat) : Form.ofDigits (Nat.toDigits 10 value) = value :=
  Nat.ofDigitChars_toDigits (by decide) (by decide)

theorem exists_toDigits (value : Nat) :
    ∃ first later, Nat.toDigits 10 value = first :: later ∧ first.isDigit ∧ (value ≠ 0 → first ≠ '0') := by
  induction value using Nat.strongRecOn with
  | ind value ih =>
      by_cases small : value < 10
      · have single : ∀ digit < 10, digit.digitChar.isDigit ∧ (digit ≠ 0 → digit.digitChar ≠ '0') := by decide
        exact ⟨_, [], Nat.toDigits_of_lt_base small, single value small⟩
      · -- the first digit is that of the number without its last digit
        obtain ⟨first, later, shape, digit, leading⟩ := ih (value / 10) (by omega)
        refine ⟨first, later ++ [(value % 10).digitChar], ?_, digit, fun _ => leading (by omega)⟩
        rw [Nat.toDigits_of_base_le (by decide) (Nat.not_lt.mp small), shape, List.cons_append]

theorem digits_append {written rest : List Char} (numeric : ∀ char ∈ written, char.isDigit) (closes : Closes rest) :
    digits (written ++ rest) = (written, rest) := by
  rw [digits, List.takeWhile_append_of_pos numeric, List.dropWhile_append_of_pos numeric]
  cases rest with
  | nil => simp
  | cons char rest =>
      have other := (closes char rfl).1
      simp [other]

theorem whole?_toDigits (value : Nat) {rest : List Char} (closes : Closes rest) :
    whole? (Nat.toDigits 10 value ++ rest) = some (Nat.toDigits 10 value, rest) := by
  by_cases zero : value = 0
  · subst zero
    rfl
  · obtain ⟨first, later, shape, _, leading⟩ := exists_toDigits value
    have counted : digits? (Nat.toDigits 10 value ++ rest) = some (Nat.toDigits 10 value, rest) := by
      rw [digits?, digits_append (fun _ => isDigit_toDigits) closes]
      simp [Nat.toDigits_ne_nil]
    rw [← counted, shape, List.cons_append, whole?]
    rintro _ ⟨⟩
    exact leading zero rfl

theorem fraction?_of_closes {rest : List Char} (closes : Closes rest) : fraction? rest = some ([], rest) := by
  unfold fraction?
  split
  · exact absurd rfl (closes '.' rfl).2.1
  · rfl

theorem exponent?_of_closes {rest : List Char} (closes : Closes rest) : exponent? rest = some ([], rest) := by
  unfold exponent?
  split
  · exact absurd rfl (closes 'e' rfl).2.2.1
  · exact absurd rfl (closes 'E' rfl).2.2.2
  · rfl

theorem exists_literalOf (value : Int) : ∃ sign, (sign = ['-'] ∧ value < 0 ∨ sign = [] ∧ 0 ≤ value) ∧
    Form.literalOf value = sign ++ Nat.toDigits 10 value.natAbs := by
  unfold Form.literalOf
  split
  · next negative => exact ⟨['-'], Or.inl ⟨rfl, negative⟩, rfl⟩
  · next positive => exact ⟨[], Or.inr ⟨rfl, Int.not_lt.mp positive⟩, rfl⟩

theorem number?_literalOf (value : Int) {rest : List Char} (closes : Closes rest) :
    number? (Form.literalOf value ++ rest) = some (Form.literalOf value, rest) := by
  have whole := whole?_toDigits value.natAbs closes
  obtain ⟨sign, ⟨rfl, _⟩ | ⟨rfl, _⟩, shape⟩ := exists_literalOf value
  · simp [number?, shape, whole, fraction?_of_closes closes, exponent?_of_closes closes]
  · obtain ⟨first, later, digits, digit, _⟩ := exists_toDigits value.natAbs
    have unsigned : first ≠ '-' := by
      rintro rfl
      contradiction
    rw [List.nil_append] at shape
    rw [digits, List.cons_append] at whole
    simp [number?, shape, digits, unsigned, whole, fraction?_of_closes closes, exponent?_of_closes closes]

theorem wholeNumber?_literalOf (value : Int) : Form.wholeNumber? (Form.literalOf value) = some value := by
  have numeric : (Nat.toDigits 10 value.natAbs).all Char.isDigit := List.all_eq_true.mpr fun _ => isDigit_toDigits
  obtain ⟨sign, ⟨rfl, negative⟩ | ⟨rfl, positive⟩, shape⟩ := exists_literalOf value
  · have nonzero : value.natAbs ≠ 0 := by omega
    have same : -(value.natAbs : Int) = value := by omega
    rw [shape, List.singleton_append, Form.wholeNumber?, ofDigits_toDigits, if_pos ⟨numeric, nonzero⟩, same]
  · have same : (value.natAbs : Int) = value := by omega
    obtain ⟨first, later, digits, digit, _⟩ := exists_toDigits value.natAbs
    have unsigned : first ≠ '-' := by
      rintro rfl
      contradiction
    have counted : (Form.ofDigits (first :: later) : Int) = value := by rw [← digits, ofDigits_toDigits, same]
    rw [List.nil_append] at shape
    rw [digits] at numeric
    rw [Form.wholeNumber?, shape, digits, if_pos numeric, counted]
    intro later same
    rw [shape, digits] at same
    exact unsigned (List.cons.inj same).1

inductive Piece.Makes : Piece → Char → Prop where
  | char (char : Char) : Makes (.char char) char
  | control {char : Char} (small : char.toNat < 0x20) : Makes (.unit char.toNat) char

theorem textOf?_unit {code : Nat} (whole : code < 0xD800) (rest : List Piece) :
    textOf? (.unit code :: rest) = (textOf? rest).map (Char.ofNat code :: ·) := by
  have high : isHighHalf code = false := by
    simp only [isHighHalf, Bool.and_eq_false_imp, decide_eq_true_eq]
    omega
  have low : isLowHalf code = false := by
    simp only [isLowHalf, Bool.and_eq_false_imp, decide_eq_true_eq]
    omega
  cases rest with
  | nil => simp [textOf?, high, low]
  | cons piece rest => cases piece <;> simp [textOf?, high, low]

theorem textOf?_of_makes {pieces : List Piece} {chars : List Char} (make : List.Forall₂ Piece.Makes pieces chars) :
    textOf? pieces = some chars := by
  induction make with
  | nil => rfl
  | cons makes rest ih =>
      cases makes with
      | char char => rw [textOf?, ih, Option.map_some]
      | control small =>
          rw [textOf?_unit (by omega), ih, Option.map_some, Char.ofNat_toNat]

def pushed (piece : Piece) (read : List Piece × List Char) : List Piece × List Char :=
  (piece :: read.1, read.2)

theorem pieces?_plain {char : Char} (unquoted : char ≠ '"') (bare : char ≠ '\\') (shown : ¬ char < ' ')
    (rest : List Char) : pieces? (char :: rest) = (pieces? rest).map (pushed (.char char)) := by
  rw [pieces?]
  · simp [bare, shown, Option.map_eq_bind, pushed, Function.comp_def]
  all_goals grind

theorem pieces?_named {letter char : Char} (named : escaped? letter = some char) (rest : List Char) :
    pieces? ('\\' :: letter :: rest) = (pieces? rest).map (pushed (.char char)) := by
  rw [pieces?]
  · simp [named, Option.map_eq_bind, pushed, Function.comp_def]
  · rintro _ _ _ _ _ ⟨⟩
    contradiction

theorem pieces?_coded {first second third fourth : Char} {code : Nat}
    (coded : unit? first second third fourth = some code) (rest : List Char) :
    pieces? ('\\' :: 'u' :: first :: second :: third :: fourth :: rest) = (pieces? rest).map (pushed (.unit code)) := by
  rw [pieces?]
  simp [coded, Option.map_eq_bind, pushed, Function.comp_def]

theorem unit?_digitsOfByte {byte : UInt8} {code : Nat} (stands : byte.toNat = code) :
    unit? '0' '0' (Text.Hex.digit (byte.toNat / 16)) (Text.Hex.digit (byte.toNat % 16)) = some code := by
  have bound := byte.toNat_lt
  have zero : Text.Hex.value? '0' = some 0 := rfl
  simp only [unit?, zero, Text.Hex.value?_digit (show byte.toNat / 16 < 16 by omega),
    Text.Hex.value?_digit (show byte.toNat % 16 < 16 by omega), Option.pure_def, Option.bind_eq_bind, Option.bind_some,
    Option.some.injEq]
  omega

theorem pieces?_escape (char : Char) : ∃ piece : Piece, piece.Makes char ∧
    ∀ rest, pieces? (escape char ++ rest) = (pieces? rest).map (pushed piece) := by
  have named {letter : Char} (named : escaped? letter = some char) : ∃ piece : Piece, piece.Makes char ∧
      ∀ rest, pieces? (['\\', letter] ++ rest) = (pieces? rest).map (pushed piece) :=
    ⟨_, .char char, pieces?_named named⟩
  unfold escape
  -- the seven characters that have a letter of their own
  iterate 7
    split
    · next same => exact named (by rw [same]; rfl)
  split
  · next control =>
      have small : char.toNat < 0x20 := control
      have stands : (UInt8.ofNat char.toNat).toNat = char.toNat := by
        rw [UInt8.toNat_ofNat']
        omega
      exact ⟨_, .control small, pieces?_coded (unit?_digitsOfByte stands)⟩
  · next unquoted bare _ _ _ _ _ shown => exact ⟨_, .char char, pieces?_plain unquoted bare shown⟩

theorem pieces?_flatMap_escape (chars rest : List Char) : ∃ pieces, List.Forall₂ Piece.Makes pieces chars ∧
    pieces? (chars.flatMap escape ++ '"' :: rest) = some (pieces, rest) := by
  induction chars with
  | nil => exact ⟨[], .nil, by simp [pieces?]⟩
  | cons char chars ih =>
      obtain ⟨pieces, make, read⟩ := ih
      obtain ⟨piece, makes, escaped⟩ := pieces?_escape char
      refine ⟨piece :: pieces, .cons makes make, ?_⟩
      rw [List.flatMap_cons, List.append_assoc, escaped, read]
      rfl

end PermissionFeed.Json
