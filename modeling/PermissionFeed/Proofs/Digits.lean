import PermissionFeed.Text.Hex

namespace PermissionFeed.Text.Hex

def IsDigit (char : Char) : Prop :=
  '0' ≤ char ∧ char ≤ '9' ∨ 'a' ≤ char ∧ char ≤ 'f' ∨ 'A' ≤ char ∧ char ≤ 'F'

variable {char : Char} {value : Nat} {chars : List Char} {bytes : List UInt8}

theorem toList_toLower (text : String) : text.toLower.toList = text.toList.map Char.toLower :=
  String.toList_map

theorem toNat_ofNat {code : Nat} (small : code < 0xD800) : (Char.ofNat code).toNat = code := by
  rw [Char.ofNat, dif_pos (Or.inl small)]
  rfl

theorem toNat_toLower (char : Char) :
    char.toLower.toNat = if 0x41 ≤ char.toNat ∧ char.toNat ≤ 0x5A then char.toNat + 0x20 else char.toNat := by
  have upper_iff : char.val ≥ 'A'.val ∧ char.val ≤ 'Z'.val ↔ 0x41 ≤ char.toNat ∧ char.toNat ≤ 0x5A := by
    simp only [ge_iff_le, UInt32.le_iff_toNat_le]
    rfl
  unfold Char.toLower
  split
  · next upper =>
      obtain ⟨_, bound⟩ := upper_iff.mp upper
      rw [if_pos (upper_iff.mp upper)]
      exact (UInt32.toNat_add char.val _).trans (Nat.mod_eq_of_lt (show char.toNat + 0x20 < 2 ^ 32 by omega))
  · next other => rw [if_neg (mt upper_iff.mpr other)]

theorem toNat_digit (small : value < 16) :
    (digit value).toNat = if value < 10 then 0x30 + value else 0x57 + value := by
  unfold digit
  split <;> exact toNat_ofNat (by omega)

theorem value?_eq_some_iff : value? char = some value ↔ value < 16 ∧ char.toLower = digit value := by
  have same_iff : char.toLower = digit value ↔ char.toLower.toNat = (digit value).toNat := Char.toNat_inj.symm
  rw [same_iff, toNat_toLower, value?]
  simp only [Bool.and_eq_true, decide_eq_true_eq]
  constructor
  · intro found
    have small : value < 16 := by grind
    rw [toNat_digit small]
    grind
  · rintro ⟨small, same⟩
    rw [toNat_digit small] at same
    grind

theorem isDigit_iff : IsDigit char ↔ 0x30 ≤ char.toNat ∧ char.toNat ≤ 0x39 ∨ 0x61 ≤ char.toNat ∧ char.toNat ≤ 0x66 ∨
    0x41 ≤ char.toNat ∧ char.toNat ≤ 0x46 := by
  simp only [IsDigit, Char.le_def, UInt32.le_iff_toNat_le]
  rfl

theorem value?_eq_none_iff : value? char = none ↔ ¬ IsDigit char := by
  rw [isDigit_iff, value?]
  grind

theorem IsDigit.exists_value (digit : IsDigit char) : ∃ value, value? char = some value :=
  Option.ne_none_iff_exists'.mp fun none => value?_eq_none_iff.mp none digit

theorem isDigit_of_value? (found : value? char = some value) : IsDigit char := by
  refine Classical.byContradiction fun other => ?_
  rw [value?_eq_none_iff.mpr other] at found
  contradiction

theorem bytes?_cons_cons (high low : Char) (rest : List Char) (bytes : List UInt8) :
    bytes? (high :: low :: rest) = some bytes ↔ ∃ highValue lowValue others, value? high = some highValue ∧
      value? low = some lowValue ∧ bytes? rest = some others ∧
      UInt8.ofNat (16 * highValue + lowValue) :: others = bytes := by
  simp only [bytes?, Option.bind_eq_bind, Option.bind_eq_some_iff, Option.pure_def, Option.some_inj]
  grind

theorem digitsOfByte_ofNat {high low : Nat} (highSmall : high < 16) (lowSmall : low < 16) :
    digitsOfByte (UInt8.ofNat (16 * high + low)) = [digit high, digit low] := by
  have number : (UInt8.ofNat (16 * high + low)).toNat = 16 * high + low := UInt8.toNat_ofNat_of_lt' (by
    change 16 * high + low < 256
    omega)
  rw [digitsOfByte, number]
  congr 3 <;> omega

theorem bytes?_eq_some_iff : bytes? chars = some bytes ↔ chars.map Char.toLower = digits bytes := by
  induction chars using bytes?.induct generalizing bytes with
  | case1 => cases bytes <;> simp [bytes?, digits, digitsOfByte]
  | case2 char => cases bytes <;> simp [bytes?, digits, digitsOfByte]
  | case3 high low rest ih =>
      rw [bytes?_cons_cons]
      constructor
      · rintro ⟨highValue, lowValue, others, highFound, lowFound, read, rfl⟩
        obtain ⟨highSmall, highSame⟩ := value?_eq_some_iff.mp highFound
        obtain ⟨lowSmall, lowSame⟩ := value?_eq_some_iff.mp lowFound
        rw [List.map_cons, List.map_cons, highSame, lowSame, ih.mp read, digits, digits, List.flatMap_cons,
          digitsOfByte_ofNat highSmall lowSmall]
        rfl
      · intro same
        cases bytes with
        | nil => contradiction
        | cons byte bytes =>
            have bound := byte.toNat_lt
            simp only [List.map_cons, digits, List.flatMap_cons, digitsOfByte, List.cons_append, List.nil_append,
              List.cons.injEq] at same
            refine ⟨byte.toNat / 16, byte.toNat % 16, bytes, value?_eq_some_iff.mpr ⟨by omega, same.1⟩,
              value?_eq_some_iff.mpr ⟨by omega, same.2.1⟩, ih.mpr same.2.2, ?_⟩
            rw [Nat.div_add_mod, UInt8.ofNat_toNat]

theorem isDigit_of_bytes? (read : bytes? chars = some bytes) : ∀ char ∈ chars, IsDigit char := by
  induction chars using bytes?.induct generalizing bytes with
  | case1 => simp
  | case2 char => contradiction
  | case3 high low rest ih =>
      obtain ⟨highValue, lowValue, others, highFound, lowFound, readRest, rfl⟩ := (bytes?_cons_cons ..).mp read
      simpa using ⟨isDigit_of_value? highFound, isDigit_of_value? lowFound, ih readRest⟩

theorem exists_bytes {count : Nat} (length : chars.length = 2 * count) (allDigits : ∀ char ∈ chars, IsDigit char) :
    ∃ bytes, bytes? chars = some bytes ∧ bytes.length = count := by
  induction chars using bytes?.induct generalizing count with
  | case1 => exact ⟨[], rfl, by rw [List.length_nil] at length ⊢; omega⟩
  | case2 char =>
      rw [List.length_singleton] at length
      omega
  | case3 high low rest ih =>
      rw [List.forall_mem_cons, List.forall_mem_cons] at allDigits
      obtain ⟨highDigit, lowDigit, others⟩ := allDigits
      obtain ⟨highValue, highFound⟩ := highDigit.exists_value
      obtain ⟨lowValue, lowFound⟩ := lowDigit.exists_value
      obtain ⟨count, rfl⟩ : ∃ fewer, count = fewer + 1 := ⟨count - 1, by simp at length; omega⟩
      have shorter : rest.length = 2 * count := by simp at length; omega
      obtain ⟨bytes, read, size⟩ := ih shorter others
      exact ⟨_, (bytes?_cons_cons ..).mpr ⟨highValue, lowValue, bytes, highFound, lowFound, read, rfl⟩, by simp [size]⟩

end PermissionFeed.Text.Hex
