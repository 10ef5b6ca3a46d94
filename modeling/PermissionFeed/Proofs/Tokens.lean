import Mathlib.Algebra.Group.Nat.Defs
import PermissionFeed.Cbor.Token

namespace PermissionFeed.Cbor

/-! ## Numbers -/

theorem foldl_bigEndian (start : Nat) (bytes : List UInt8) :
    bytes.foldl (fun value byte => 256 * value + byte.toNat) start = start * 256 ^ bytes.length + bigEndian bytes := by
  unfold bigEndian
  induction bytes generalizing start with
  | nil => simp
  | cons byte bytes ih =>
      rw [List.foldl_cons, List.foldl_cons, ih, ih (256 * 0 + byte.toNat), List.length_cons, Nat.pow_succ]
      grind

theorem bigEndian_cons (byte : UInt8) (bytes : List UInt8) :
    bigEndian (byte :: bytes) = byte.toNat * 256 ^ bytes.length + bigEndian bytes := by
  simpa [bigEndian] using foldl_bigEndian byte.toNat bytes

theorem length_bytesOf (count : Nat) (value : UInt64) : (bytesOf count value).length = count := by
  induction count with
  | zero => rfl
  | succ count ih => rw [bytesOf, List.length_cons, ih]

theorem bigEndian_bytesOf {count : Nat} (enough : count ≤ 8) (value : UInt64) :
    bigEndian (bytesOf count value) = value.toNat % 256 ^ count := by
  induction count with
  | zero => simp [bytesOf, bigEndian, Nat.mod_one]
  | succ count ih =>
      have place : (8 * UInt64.ofNat count).toNat % 64 = 8 * count := by
        simp
        omega
      have byte : (value >>> (8 * UInt64.ofNat count)).toUInt8.toNat = value.toNat / 256 ^ count % 256 := by
        rw [UInt64.toNat_toUInt8, UInt64.toNat_shiftRight, place, Nat.shiftRight_eq_div_pow, Nat.pow_mul]
      rw [bytesOf, bigEndian_cons, byte, length_bytesOf, ih (Nat.le_of_succ_le enough), Nat.pow_succ, Nat.mod_mul]
      grind

theorem ofNat_bigEndian_bytesOf {count : Nat} (enough : count ≤ 8) {value : UInt64}
    (small : value.toNat < 256 ^ count) : UInt64.ofNat (bigEndian (bytesOf count value)) = value := by
  rw [bigEndian_bytesOf enough, Nat.mod_eq_of_lt small, UInt64.ofNat_toNat]

/-! ## Heads -/

theorem cut?_append {count : Nat} {bytes : List UInt8} (length : bytes.length = count) (rest : List UInt8) :
    cut? count (bytes ++ rest) = some (bytes, rest) := by
  subst length
  rw [cut?, if_neg (by simp), List.splitAt_eq, List.take_left, List.drop_left]

theorem initial_parts {major low : UInt8} (majorSmall : major < 8) (lowSmall : low < 32) :
    (major <<< 5 ||| low) >>> 5 = major ∧ (major <<< 5 ||| low) &&& 0x1f = low := by
  have all (major : Fin 8) (low : Fin 32) :
      (UInt8.ofNat major <<< 5 ||| UInt8.ofNat low) >>> 5 = UInt8.ofNat major ∧
        (UInt8.ofNat major <<< 5 ||| UInt8.ofNat low) &&& 0x1f = UInt8.ofNat low := by
    decide +revert
  simpa using all ⟨major.toNat, majorSmall⟩ ⟨low.toNat, lowSmall⟩

/-! ## Spellings -/

/-- How many bytes of a head stand behind the first one. -/
inductive Width where
  | within
  | one
  | two
  | four
  | eight

namespace Width

def size : Width → Nat
  | within => 0
  | one => 1
  | two => 2
  | four => 4
  | eight => 8

def Holds (width : Width) (argument : Nat) : Prop :=
  match width with
  | within => argument < 24
  | _ => argument < 256 ^ width.size

def low (width : Width) (argument : UInt64) : UInt8 :=
  match width with
  | within => argument.toUInt8
  | one => 24
  | two => 25
  | four => 26
  | eight => 27

def head (width : Width) (major : UInt8) (argument : UInt64) : List UInt8 :=
  (major <<< 5 ||| width.low argument) :: bytesOf width.size argument

variable {width : Width} {argument : UInt64}

theorem Holds.lt_size {argument : Nat} (holds : width.Holds argument) : argument < UInt64.size := by
  cases width with
  | within => exact Nat.lt_trans holds (by decide)
  | one | two | four | eight => exact Nat.lt_of_lt_of_le holds (by decide)

theorem toNat_toUInt8 (holds : within.Holds argument.toNat) : argument.toUInt8.toNat = argument.toNat := by
  rw [UInt64.toNat_toUInt8]
  exact Nat.mod_eq_of_lt (Nat.lt_trans holds (by decide))

theorem low_lt (holds : width.Holds argument.toNat) : width.low argument < 32 := by
  cases width with
  | within =>
      rw [UInt8.lt_iff_toNat_lt, low, toNat_toUInt8 holds]
      exact Nat.lt_trans holds (by decide)
  | one | two | four | eight => simp [low]

theorem argument?_low (holds : width.Holds argument.toNat) (rest : List UInt8) :
    argument? (width.low argument) (bytesOf width.size argument ++ rest) = some (.value argument, rest) := by
  have cut := cut?_append (length_bytesOf width.size argument) rest
  cases width with
  | within =>
      have small : argument.toUInt8 < 24 := by
        rw [UInt8.lt_iff_toNat_lt, toNat_toUInt8 holds]
        exact holds
      have same : argument.toUInt8.toUInt64 = argument :=
        UInt64.toNat_inj.mp (by rw [UInt8.toNat_toUInt64, toNat_toUInt8 holds])
      rw [low, argument?, if_pos small, same]
      rfl
  | one | two | four | eight =>
      have same := ofNat_bigEndian_bytesOf (by decide) holds
      simp only [size] at cut same ⊢
      simp [argument?, low, cut, same]

theorem exists_head (major : UInt8) (argument : UInt64) :
    ∃ width : Width, width.Holds argument.toNat ∧ Cbor.head major argument = width.head major argument := by
  by_cases least : argument < 24
  · exact ⟨within, least, by simp [Cbor.head, head, low, size, bytesOf, least]⟩
  by_cases byte : argument < 0x100
  · exact ⟨one, byte, by simp [Cbor.head, head, low, size, least, byte]⟩
  by_cases short : argument < 0x10000
  · exact ⟨two, short, by simp [Cbor.head, head, low, size, least, byte, short]⟩
  by_cases half : argument < 0x100000000
  · exact ⟨four, half, by simp [Cbor.head, head, low, size, least, byte, short, half]⟩
  · exact ⟨eight, argument.toNat_lt, by simp [Cbor.head, head, low, size, least, byte, short, half]⟩

end Width

namespace Token

variable {width : Width}

theorem next?_head {major : UInt8} (plain : major < 7) {argument : UInt64} (holds : width.Holds argument.toNat)
    (rest : List UInt8) : next? (width.head major argument ++ rest) = ofArgument? major (.value argument) rest := by
  obtain ⟨shifted, masked⟩ := initial_parts (UInt8.lt_trans plain (by decide)) (Width.low_lt holds)
  rw [Width.head, List.cons_append, next?]
  simp only [shifted, masked, UInt8.ne_of_lt plain, if_false, Width.argument?_low holds]
  rfl

theorem next?_special {initial low : UInt8} (seven : initial >>> 5 = 7) (masked : initial &&& 0x1f = low)
    (rest : List UInt8) : next? (initial :: rest) = special? low rest := by
  rw [next?, seven, masked]
  rfl

theorem next?_head_simple (code : UInt8) (rest : List UInt8) :
    next? (head 7 code.toUInt64 ++ rest) = some (simple code, rest) := by
  by_cases small : code < 24
  · obtain ⟨seven, low⟩ := initial_parts (by decide : (7 : UInt8) < 8) (UInt8.lt_trans small (by decide))
    have least : code.toUInt64 < 24 := small
    have written : head 7 code.toUInt64 = [(7 : UInt8) <<< 5 ||| code] := by simp [head, least]
    rw [written, List.singleton_append, next?_special seven low]
    simp [special?, small]
  · have least : ¬code.toUInt64 < 24 := small
    have byte : code.toUInt64 < 0x100 := code.toNat_lt
    have written : head 7 code.toUInt64 = [(7 : UInt8) <<< 5 ||| 24, code] := by simp [head, least, byte, bytesOf]
    rw [written]
    rfl

def spelled (width : Width) : Token → List UInt8
  | unsigned value => width.head 0 value
  | negative value => width.head 1 value
  | bytes payload => width.head 2 (UInt64.ofNat payload.length) ++ payload
  | text payload => width.head 3 (UInt64.ofNat payload.length) ++ payload
  | array count => width.head 4 count
  | map count => width.head 5 count
  | tag number => width.head 6 number
  | token => token.written

def Admits (width : Width) : Token → Prop
  | unsigned argument | negative argument | array argument | map argument | tag argument =>
      width.Holds argument.toNat
  | bytes payload | text payload => width.Holds payload.length
  | float payload => payload.length = 2 ∨ payload.length = 4 ∨ payload.length = 8
  | chunkedBytes | chunkedText | openArray | openMap | simple _ | stop => True

def Fits : Token → Prop
  | bytes payload | text payload => payload.length < UInt64.size
  | float payload => payload.length = 2 ∨ payload.length = 4 ∨ payload.length = 8
  | unsigned _ | negative _ | chunkedBytes | chunkedText | array _ | openArray | map _ | openMap | tag _ | simple _
  | stop => True

instance : DecidablePred Fits
  | bytes payload | text payload => inferInstanceAs (Decidable (payload.length < UInt64.size))
  | float payload => inferInstanceAs (Decidable (payload.length = 2 ∨ payload.length = 4 ∨ payload.length = 8))
  | unsigned _ | negative _ | chunkedBytes | chunkedText | array _ | openArray | map _ | openMap | tag _ | simple _
  | stop => isTrue trivial

theorem next?_spelled {token : Token} (admits : token.Admits width) (rest : List UInt8) :
    next? (token.spelled width ++ rest) = some (token, rest) := by
  cases token with
  | unsigned | negative | array | map | tag => exact next?_head (by decide) admits rest
  | bytes payload | text payload =>
      have length : (UInt64.ofNat payload.length).toNat = payload.length := UInt64.toNat_ofNat_of_lt admits.lt_size
      have holds : width.Holds (UInt64.ofNat payload.length).toNat := by
        rw [length]
        exact admits
      rw [spelled, List.append_assoc]
      refine (next?_head (by decide) holds (payload ++ rest)).trans ?_
      exact congrArg (Option.map _) (cut?_append length.symm rest)
  | simple code => exact next?_head_simple code rest
  | float payload =>
      have same : (float payload).spelled width = (float payload).written := rfl
      rw [same, written]
      rcases admits with two | four | eight
      · rw [if_pos two, List.cons_append, next?_special (by decide) (by decide : (0xf9 : UInt8) &&& 0x1f = 25)]
        simp [special?, cut?_append two rest]
      · rw [if_neg (by omega), if_pos four, List.cons_append,
          next?_special (by decide) (by decide : (0xfa : UInt8) &&& 0x1f = 26)]
        simp [special?, cut?_append four rest]
      · rw [if_neg (by omega), if_neg (by omega), List.cons_append,
          next?_special (by decide) (by decide : (0xfb : UInt8) &&& 0x1f = 27)]
        simp [special?, cut?_append eight rest]
  | chunkedBytes | chunkedText | openArray | openMap | stop => rfl

theorem exists_spelled {token : Token} (fits : token.Fits) :
    ∃ width : Width, token.Admits width ∧ token.written = token.spelled width := by
  cases token with
  | unsigned argument | negative argument | array argument | map argument | tag argument =>
      exact Width.exists_head _ argument
  | bytes payload | text payload =>
      obtain ⟨width, holds, same⟩ := Width.exists_head _ (UInt64.ofNat payload.length)
      rw [UInt64.toNat_ofNat_of_lt' fits] at holds
      exact ⟨width, holds, congrArg (· ++ payload) same⟩
  | float payload => exact ⟨.within, fits, rfl⟩
  | chunkedBytes | chunkedText | openArray | openMap | simple | stop => exact ⟨.within, trivial, rfl⟩

theorem next?_written {token : Token} (fits : token.Fits) (rest : List UInt8) :
    next? (token.written ++ rest) = some (token, rest) := by
  obtain ⟨width, admits, same⟩ := exists_spelled fits
  rw [same]
  exact next?_spelled admits rest

theorem spelled_ne_nil {token : Token} (admits : token.Admits width) : token.spelled width ≠ [] := by
  intro nothing
  have read := next?_spelled admits []
  rw [nothing] at read
  contradiction

end Token

/-! ## Cutting -/

inductive Spells : List UInt8 → List Token → Prop
  | nil : Spells [] []
  | cons {token : Token} {bytes : List UInt8} {sequence : List Token} (width : Width) (admits : token.Admits width)
      (others : Spells bytes sequence) : Spells (token.spelled width ++ bytes) (token :: sequence)

theorem spells_flatMap {sequence : List Token} (fit : ∀ token ∈ sequence, token.Fits) :
    Spells (sequence.flatMap Token.written) sequence := by
  induction sequence with
  | nil => exact .nil
  | cons token sequence ih =>
      rw [List.forall_mem_cons] at fit
      obtain ⟨width, admits, same⟩ := Token.exists_spelled fit.1
      rw [List.flatMap_cons, same]
      exact .cons width admits (ih fit.2)

namespace Spells

variable {bytes : List UInt8} {sequence : List Token}

theorem tokensWithin_eq (spells : Spells bytes sequence) (count : Nat) (rest : List UInt8) :
    tokensWithin (sequence.length + count) (bytes ++ rest) = sequence ++ tokensWithin count rest := by
  induction spells with
  | nil => simp
  | cons width admits others ih =>
      rw [List.length_cons, Nat.add_right_comm, List.append_assoc, tokensWithin, Token.next?_spelled admits]
      exact congrArg (List.cons _) ih

theorem length_le (spells : Spells bytes sequence) : sequence.length ≤ bytes.length := by
  induction spells with
  | nil => exact Nat.le_refl _
  | cons width admits others ih =>
      have occupied := List.length_pos_iff.mpr (Token.spelled_ne_nil admits)
      rw [List.length_append, List.length_cons]
      omega

theorem exists_tokens (spells : Spells bytes sequence) (rest : List UInt8) :
    ∃ following, tokens (bytes ++ rest) = sequence ++ following := by
  have enough : sequence.length ≤ (bytes ++ rest).length := by
    rw [List.length_append]
    exact Nat.le_add_right_of_le spells.length_le
  obtain ⟨count, length⟩ := Nat.exists_eq_add_of_le enough
  exact ⟨_, by rw [tokens, length, spells.tokensWithin_eq]⟩

end Spells

end PermissionFeed.Cbor
