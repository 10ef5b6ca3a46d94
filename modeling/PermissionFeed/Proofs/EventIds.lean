import PermissionFeed.EventId
import PermissionFeed.Proofs.ByteOrder
import PermissionFeed.Proofs.Digits
import PermissionFeed.Proofs.Frames

namespace PermissionFeed

namespace Text

def IsDigitByte (byte : UInt8) : Prop :=
  Hex.IsDigit (Char.ofNat byte.toNat)

def IsFirstStray (bytes : List UInt8) (stray : UInt8) (position : Nat) : Prop :=
  ∃ before after, bytes = before ++ stray :: after ∧ before.length = position ∧
    (∀ byte ∈ before, IsDigitByte byte) ∧ ¬ IsDigitByte stray

theorem exists_firstStray {bytes : List UInt8} (some : ¬ ∀ byte ∈ bytes, IsDigitByte byte) :
    ∃ stray position, IsFirstStray bytes stray position := by
  induction bytes with
  | nil => simp at some
  | cons byte bytes ih =>
      by_cases digit : IsDigitByte byte
      · have later : ¬ ∀ byte ∈ bytes, IsDigitByte byte := fun all => some (List.forall_mem_cons.mpr ⟨digit, all⟩)
        obtain ⟨stray, _, before, after, rfl, rfl, digits, other⟩ := ih later
        exact ⟨stray, _, byte :: before, after, rfl, rfl, List.forall_mem_cons.mpr ⟨digit, digits⟩, other⟩
      · exact ⟨byte, 0, [], bytes, rfl, rfl, by simp, digit⟩

theorem utf8EncodeChar_of_digit {char : Char} (digit : Hex.IsDigit char) :
    String.utf8EncodeChar char = [UInt8.ofNat char.toNat] := by
  have small : char.toNat ≤ 127 := by
    have ranges := Hex.isDigit_iff.mp digit
    omega
  exact if_pos small

theorem ofNat_toNat_of_digit {char : Char} (digit : Hex.IsDigit char) :
    Char.ofNat (UInt8.ofNat char.toNat).toNat = char := by
  have small : char.toNat < 256 := by
    have ranges := Hex.isDigit_iff.mp digit
    omega
  rw [UInt8.toNat_ofNat_of_lt' small, Char.ofNat_toNat]

theorem isDigitByte_lt {byte : UInt8} (digit : IsDigitByte byte) : byte.toNat < 128 := by
  have ranges := Hex.isDigit_iff.mp digit
  rw [Hex.toNat_ofNat (Nat.lt_trans byte.toNat_lt (by decide))] at ranges
  omega

theorem digits_encoded_iff {char : Char} :
    (∀ byte ∈ String.utf8EncodeChar char, IsDigitByte byte) ↔ Hex.IsDigit char := by
  constructor
  · intro digits
    by_cases small : char.toNat ≤ 127
    · have single : String.utf8EncodeChar char = [UInt8.ofNat char.toNat] := if_pos small
      rw [single, List.forall_mem_singleton, IsDigitByte, UInt8.toNat_ofNat_of_lt' (Nat.lt_of_le_of_lt small (by decide)),
        Char.ofNat_toNat] at digits
      exact digits
    · -- the last byte of a longer form is no character of its own
      have last : UInt8.ofNat (char.toNat % 64 + 128) ∈ String.utf8EncodeChar char := by
        unfold String.utf8EncodeChar
        simp only [Char.toNat_val, if_neg small]
        split
        · exact List.mem_of_mem_getLast? rfl
        · split <;> exact List.mem_of_mem_getLast? rfl
      have bound := isDigitByte_lt (digits _ last)
      rw [UInt8.toNat_ofNat_of_lt' (show char.toNat % 64 + 128 < 256 by omega)] at bound
      omega
  · intro digit
    rw [utf8EncodeChar_of_digit digit, List.forall_mem_singleton, IsDigitByte, ofNat_toNat_of_digit digit]
    exact digit

theorem digits_utf8_iff {text : String} :
    (∀ byte ∈ utf8 text, IsDigitByte byte) ↔ ∀ char ∈ text.toList, Hex.IsDigit char := by
  rw [utf8_eq]
  simp only [List.forall_mem_flatMap, digits_encoded_iff]

theorem ofNat_utf8 {text : String} (digits : ∀ char ∈ text.toList, Hex.IsDigit char) :
    (utf8 text).map (fun byte => Char.ofNat byte.toNat) = text.toList := by
  rw [utf8_eq]
  generalize text.toList = chars at digits
  induction chars with
  | nil => rfl
  | cons char chars ih =>
      obtain ⟨digit, digits⟩ := List.forall_mem_cons.mp digits
      rw [List.flatMap_cons, List.map_append, ih digits, utf8EncodeChar_of_digit digit, List.map_singleton,
        ofNat_toNat_of_digit digit, List.singleton_append]

theorem length_utf8 {text : String} (digits : ∀ char ∈ text.toList, Hex.IsDigit char) :
    (utf8 text).length = text.length := by
  rw [← String.length_toList, ← ofNat_utf8 digits, List.length_map]

end Text

namespace EventId

open Text (IsDigitByte IsFirstStray)

variable {text : String} {bytes list : List UInt8} {byte stray : UInt8} {position : Nat} {id : EventId}

theorem digitOfByte?_eq_none_iff : digitOfByte? byte = none ↔ ¬ IsDigitByte byte :=
  Text.Hex.value?_eq_none_iff

theorem isFirstStray_cons_iff : IsFirstStray (byte :: bytes) stray position ↔
    ¬ IsDigitByte byte ∧ stray = byte ∧ position = 0 ∨
      IsDigitByte byte ∧ ∃ later, position = later + 1 ∧ IsFirstStray bytes stray later := by
  constructor
  · rintro ⟨before, after, parts, rfl, digits, other⟩
    cases before with
    | nil =>
        obtain ⟨rfl, rfl⟩ := List.cons.inj parts
        exact Or.inl ⟨other, rfl, rfl⟩
    | cons first before =>
        obtain ⟨rfl, rfl⟩ := List.cons.inj parts
        obtain ⟨digit, digits⟩ := List.forall_mem_cons.mp digits
        exact Or.inr ⟨digit, before.length, rfl, before, after, rfl, rfl, digits, other⟩
  · rintro (⟨other, rfl, rfl⟩ | ⟨digit, later, rfl, before, after, rfl, rfl, digits, other⟩)
    · exact ⟨[], bytes, rfl, rfl, by simp, other⟩
    · exact ⟨byte :: before, after, rfl, rfl, List.forall_mem_cons.mpr ⟨digit, digits⟩, other⟩

theorem isDigitByte_of_found {value : Nat} (found : digitOfByte? byte = some value) : IsDigitByte byte :=
  Text.Hex.isDigit_of_value? found

theorem bytesFromHex_of_stray (even : bytes.length % 2 = 0) (first : IsFirstStray bytes stray position) (start : Nat) :
    bytesFromHex bytes start = .error (.notADigit stray (start + position)) := by
  induction bytes, start using bytesFromHex.induct generalizing position with
  | case1 high low rest start highNone =>
      obtain ⟨_, rfl, rfl⟩ | ⟨digit, _⟩ := isFirstStray_cons_iff.mp first
      · simp [bytesFromHex, highNone]
      · exact absurd digit (digitOfByte?_eq_none_iff.mp highNone)
  | case2 high low rest start value lowNone highFound =>
      obtain ⟨other, _⟩ | ⟨_, later, rfl, next⟩ := isFirstStray_cons_iff.mp first
      · exact absurd (isDigitByte_of_found highFound) other
      · obtain ⟨_, rfl, rfl⟩ | ⟨digit, _⟩ := isFirstStray_cons_iff.mp next
        · simp [bytesFromHex, highFound, lowNone]
        · exact absurd digit (digitOfByte?_eq_none_iff.mp lowNone)
  | case3 high low rest start highValue lowValue lowFound highFound ih =>
      obtain ⟨other, _⟩ | ⟨_, later, rfl, next⟩ := isFirstStray_cons_iff.mp first
      · exact absurd (isDigitByte_of_found highFound) other
      · obtain ⟨other, _⟩ | ⟨_, last, rfl, later⟩ := isFirstStray_cons_iff.mp next
        · exact absurd (isDigitByte_of_found lowFound) other
        · have restEven : rest.length % 2 = 0 := by
            rw [List.length_cons, List.length_cons] at even
            omega
          simp only [bytesFromHex, highFound, lowFound, ih restEven later, Nat.add_comm, Nat.add_left_comm]
          rfl
  | case4 bytes start short =>
      match bytes with
      | [] => simp [IsFirstStray] at first
      | [byte] => simp at even
      | high :: low :: rest => exact absurd rfl (short high low rest)

theorem bytesFromHex_of_bytes? (read : Text.Hex.bytes? (bytes.map fun byte => Char.ofNat byte.toNat) = some list)
    (start : Nat) : bytesFromHex bytes start = .ok list := by
  induction bytes, start using bytesFromHex.induct generalizing list with
  | case1 high low rest start highNone =>
      obtain ⟨_, _, _, highFound, _⟩ := (Text.Hex.bytes?_cons_cons ..).mp read
      exact absurd (highNone.symm.trans highFound) nofun
  | case2 high low rest start value lowNone highFound =>
      obtain ⟨_, _, _, _, lowFound, _⟩ := (Text.Hex.bytes?_cons_cons ..).mp read
      exact absurd (lowNone.symm.trans lowFound) nofun
  | case3 high low rest start highValue lowValue lowFound highFound ih =>
      obtain ⟨_, _, others, highSame, lowSame, readRest, rfl⟩ := (Text.Hex.bytes?_cons_cons ..).mp read
      obtain rfl := Option.some.inj (highFound.symm.trans highSame)
      obtain rfl := Option.some.inj (lowFound.symm.trans lowSame)
      simp only [bytesFromHex, highFound, lowFound, ih readRest]
      rfl
  | case4 bytes start short =>
      match bytes with
      | [] =>
          obtain rfl := Option.some.inj read
          rfl
      | [byte] => contradiction
      | high :: low :: rest => exact absurd rfl (short high low rest)

theorem fromHex_of_odd (odd : (Text.utf8 text).length % 2 = 1) : fromHex text = .error .oddLength :=
  if_pos odd

theorem fromHex_of_stray (even : (Text.utf8 text).length % 2 = 0)
    (first : IsFirstStray (Text.utf8 text) stray position) : fromHex text = .error (.notADigit stray position) := by
  have failed := bytesFromHex_of_stray even first 0
  rw [Nat.zero_add] at failed
  simp only [fromHex, even, failed]
  rfl

theorem fromHex_of_bytes (read : text.toList.map Char.toLower = Text.Hex.digits bytes) : fromHex text =
    match ofBytes? bytes with
    | some id => .ok id
    | none => .error (.notSixteenBytes text) := by
  have found := Text.Hex.bytes?_eq_some_iff.mpr read
  have digits := Text.Hex.isDigit_of_bytes? found
  have even : (Text.utf8 text).length % 2 = 0 := by
    rw [Text.length_utf8 digits, ← String.length_toList, ← List.length_map Char.toLower, read, Text.Hex.length_digits]
    exact Nat.mul_mod_right 2 _
  rw [← Text.ofNat_utf8 digits] at found
  simp only [fromHex, even, bytesFromHex_of_bytes? found 0]
  change (match ofBytes? bytes with
    | some id => (pure id : Except EventIdError EventId)
    | none => throw (EventIdError.notSixteenBytes text)) = _
  cases ofBytes? bytes <;> rfl

/-- What is wrong with a text that names no event. A text of odd length is not looked into, and bytes are only counted once
all of them are digits. -/
inductive Faults (text : String) : EventIdError → Prop
  | odd (odd : (Text.utf8 text).length % 2 = 1) : Faults text .oddLength
  | stray {stray : UInt8} {position : Nat} (even : (Text.utf8 text).length % 2 = 0)
      (first : IsFirstStray (Text.utf8 text) stray position) : Faults text (.notADigit stray position)
  | size (even : (Text.utf8 text).length % 2 = 0) (digits : ∀ byte ∈ Text.utf8 text, IsDigitByte byte)
      (other : (Text.utf8 text).length ≠ 32) : Faults text (.notSixteenBytes text)

theorem toHex_eq_toLower_iff :
    id.toHex = text.toLower ↔ text.toList.map Char.toLower = Text.Hex.digits id.bytes.toList := by
  rw [← String.toList_inj, toHex, String.toList_ofList, Text.Hex.toList_toLower]
  exact eq_comm

theorem fromHex_of_toLower (same : id.toHex = text.toLower) : fromHex text = .ok id := by
  rw [fromHex_of_bytes (toHex_eq_toLower_iff.mp same), id.ofBytes?_toList]

theorem exists_toLower_iff : (∃ id : EventId, id.toHex = text.toLower) ↔
    text.length = 32 ∧ ∀ char ∈ text.toList, Text.Hex.IsDigit char := by
  constructor
  · rintro ⟨id, same⟩
    have read := toHex_eq_toLower_iff.mp same
    refine ⟨?_, Text.Hex.isDigit_of_bytes? (Text.Hex.bytes?_eq_some_iff.mpr read)⟩
    rw [← String.length_toList, ← List.length_map Char.toLower, read, Text.Hex.length_digits, id.bytes.length_toList]
  · rintro ⟨length, digits⟩
    have paired : text.toList.length = 2 * 16 := String.length_toList.trans length
    obtain ⟨bytes, found, size⟩ := Text.Hex.exists_bytes paired digits
    exact ⟨⟨bytes.toArray, size⟩, toHex_eq_toLower_iff.mpr (Text.Hex.bytes?_eq_some_iff.mp found)⟩

theorem fromHex_of_faults {error : EventIdError} (faults : Faults text error) : fromHex text = .error error := by
  cases faults with
  | odd odd => exact fromHex_of_odd odd
  | stray even first => exact fromHex_of_stray even first
  | size even digits other =>
      have chars := Text.digits_utf8_iff.mp digits
      rw [Text.length_utf8 chars] at even other
      obtain ⟨count, half⟩ := Nat.dvd_of_mod_eq_zero even
      obtain ⟨bytes, found, size⟩ := Text.Hex.exists_bytes (String.length_toList.trans half) chars
      have unmade : ofBytes? bytes = none := dif_neg (by rw [List.size_toArray]; omega)
      rw [fromHex_of_bytes (Text.Hex.bytes?_eq_some_iff.mp found), unmade]

theorem faults_or_toLower (text : String) : (∃ error, Faults text error) ∨ ∃ id : EventId, id.toHex = text.toLower := by
  obtain even | odd := Nat.mod_two_eq_zero_or_one (Text.utf8 text).length
  · by_cases digits : ∀ byte ∈ Text.utf8 text, IsDigitByte byte
    · have chars := Text.digits_utf8_iff.mp digits
      by_cases length : text.length = 32
      · exact Or.inr (exists_toLower_iff.mpr ⟨length, chars⟩)
      · exact Or.inl ⟨_, .size even digits (Text.length_utf8 chars ▸ length)⟩
    · obtain ⟨stray, position, first⟩ := Text.exists_firstStray digits
      exact Or.inl ⟨_, .stray even first⟩
  · exact Or.inl ⟨_, .odd odd⟩

theorem fromHex_eq_ok_iff : fromHex text = .ok id ↔ id.toHex = text.toLower := by
  refine ⟨fun read => ?_, fromHex_of_toLower⟩
  obtain ⟨error, faults⟩ | ⟨other, same⟩ := faults_or_toLower text
  · exact absurd (read.symm.trans (fromHex_of_faults faults)) nofun
  · obtain rfl := Except.ok.inj (read.symm.trans (fromHex_of_toLower same))
    exact same

theorem fromHex_eq_error_iff {error : EventIdError} : fromHex text = .error error ↔ Faults text error := by
  refine ⟨fun failed => ?_, fromHex_of_faults⟩
  obtain ⟨first, faults⟩ | ⟨id, same⟩ := faults_or_toLower text
  · obtain rfl := Except.error.inj (failed.symm.trans (fromHex_of_faults faults))
    exact faults
  · exact absurd (failed.symm.trans (fromHex_of_toLower same)) nofun

/-- An id is read back from its digits. A text names an event exactly if it is made of 32 digits, which are in lower case
those of the event, and of any other text the first fault is told. -/
theorem reads_own_digits :
    (∀ id : EventId, fromHex id.toHex = .ok id) ∧ ∀ text : String,
      ((∃ id, fromHex text = .ok id) ↔ text.length = 32 ∧ ∀ char ∈ text.toList, Text.Hex.IsDigit char) ∧
      (∀ id : EventId, fromHex text = .ok id ↔ id.toHex = text.toLower) ∧
      ∀ error, fromHex text = .error error ↔ Faults text error := by
  refine ⟨fun id => ?_, fun text => ⟨?_, fun id => fromHex_eq_ok_iff, fun error => fromHex_eq_error_iff⟩⟩
  · -- digits are written in lower case
    have written := Text.Hex.bytes?_eq_some_iff.mp (Text.Hex.bytes?_digits id.bytes.toList)
    exact fromHex_of_toLower (toHex_eq_toLower_iff.mpr (by rwa [toHex, String.toList_ofList]))
  · rw [← exists_toLower_iff]
    exact exists_congr fun id => fromHex_eq_ok_iff

end EventId

end PermissionFeed
