namespace PermissionFeed.Text.Hex

def digit (value : Nat) : Char :=
  if value < 10 then Char.ofNat (0x30 + value) else Char.ofNat (0x57 + value)

def value? (char : Char) : Option Nat :=
  let code := char.toNat
  if 0x30 ≤ code && code ≤ 0x39 then some (code - 0x30)
  else if 0x61 ≤ code && code ≤ 0x66 then some (code - 0x57)
  else if 0x41 ≤ code && code ≤ 0x46 then some (code - 0x37)
  else none

theorem value?_digit {value : Nat} (small : value < 16) : value? (digit value) = some value := by
  have all : ∀ value ∈ List.range 16, value? (digit value) = some value := by decide
  exact all value (List.mem_range.mpr small)

def digitsOfByte (byte : UInt8) : List Char :=
  [digit (byte.toNat / 16), digit (byte.toNat % 16)]

def digits (bytes : List UInt8) : List Char :=
  bytes.flatMap digitsOfByte

def bytes? : List Char → Option (List UInt8)
  | [] => some []
  | [_] => none
  | high :: low :: rest => do
      let high ← value? high
      let low ← value? low
      let rest ← bytes? rest
      return UInt8.ofNat (16 * high + low) :: rest

theorem bytes?_digits (bytes : List UInt8) : bytes? (digits bytes) = some bytes := by
  induction bytes with
  | nil => rfl
  | cons byte rest ih =>
      have bound := byte.toNat_lt
      change bytes? (digit (byte.toNat / 16) :: digit (byte.toNat % 16) :: digits rest) = _
      simp only [bytes?, value?_digit (show byte.toNat / 16 < 16 by omega),
        value?_digit (show byte.toNat % 16 < 16 by omega), ih, Option.pure_def, Option.bind_eq_bind,
        Option.bind_some, show 16 * (byte.toNat / 16) + byte.toNat % 16 = byte.toNat by omega, UInt8.ofNat_toNat]

theorem length_digits (bytes : List UInt8) : (digits bytes).length = 2 * bytes.length := by
  induction bytes with
  | nil => rfl
  | cons byte rest ih =>
      change (digits rest).length + 2 = 2 * (rest.length + 1)
      rw [ih, Nat.mul_succ]

end PermissionFeed.Text.Hex
