import PermissionFeed.Cbor.Reader
import PermissionFeed.Proofs.Tokens

namespace PermissionFeed.Cbor.Reader

variable {α β : Type}

/-- The reader takes exactly these tokens and gives the value, or it refuses them, whatever follows them. -/
def Yields (reader : Reader α) (tokens : List Token) (value? : Option α) : Prop :=
  ∀ rest, reader (tokens ++ rest) = value?.map fun value => (value, rest)

structure Reads (reader : Reader α) (tokens : List Token) (value : α) : Prop where
  fit : ∀ token ∈ tokens, token.Fits
  takes : reader.Yields tokens (some value)

theorem yields_lift (value? : Option α) : Yields (liftM value?) [] value? := by
  intro rest
  cases value? <;> rfl

theorem Yields.bind {reader : Reader α} {next : α → Reader β} {first second : List Token} {value? : Option α}
    {result? : α → Option β} (one : reader.Yields first value?)
    (two : ∀ value ∈ value?, (next value).Yields second (result? value)) :
    Yields (reader >>= next) (first ++ second) (value?.bind result?) := by
  intro rest
  have opened (tokens : List Token) : (reader >>= next) tokens =
      (reader tokens).bind fun result => next result.1 result.2 := rfl
  rw [opened, List.append_assoc, one]
  cases value? with
  | none => rfl
  | some value => exact two value rfl rest

theorem Yields.after {reader : Reader α} {next : α → Reader β} {first second : List Token} {value : α}
    {result? : Option β} (two : (next value).Yields second result?) (one : reader.Yields first (some value)) :
    Yields (reader >>= next) (first ++ second) result? := by
  have same (middle : α) (given : middle ∈ some value) : (next middle).Yields second result? := by
    rw [← Option.some.inj given]
    exact two
  exact one.bind same

theorem Yields.conclude {reader : Reader α} {next : α → Reader β} {tokens : List Token} {value? : Option α}
    {result? : α → Option β} (one : reader.Yields tokens value?)
    (two : ∀ value, (next value).Yields [] (result? value)) :
    Yields (reader >>= next) tokens (value?.bind result?) := by
  simpa using one.bind fun value _ => two value

theorem Yields.map {reader : Reader α} {tokens : List Token} {value? : Option α} (yields : reader.Yields tokens value?)
    (change : α → β) : Yields (do return change (← reader)) tokens (value?.map change) := by
  have same : value?.map change = value?.bind fun value => some (change value) := Option.map_eq_bind
  rw [same]
  exact yields.conclude fun value => yields_lift (some (change value))

theorem Yields.choose {reader : Reader α} {tokens : List Token} {value? : Option α}
    (yields : reader.Yields tokens value?) (choose? : α → Option β) :
    Yields (do (choose? (← reader) : Option β)) tokens (value?.bind choose?) :=
  yields.conclude fun value => yields_lift (choose? value)

theorem Yields.headed {reader inner : Reader α} {token : Token} {tokens : List Token} {value? : Option α}
    (yields : inner.Yields tokens value?) (opened : ∀ following, reader (token :: following) = inner following) :
    reader.Yields (token :: tokens) value? :=
  fun rest => (opened (tokens ++ rest)).trans (yields rest)

theorem reads_pure (value : α) : Reads (pure value) [] value :=
  ⟨by simp, fun _ => rfl⟩

theorem reads_lift {value? : Option α} {value : α} (given : value? = some value) : Reads (liftM value?) [] value := by
  subst given
  exact ⟨by simp, yields_lift _⟩

theorem Reads.bind {reader : Reader α} {next : α → Reader β} {first second : List Token} {value : α} {result : β}
    (one : reader.Reads first value) (two : (next value).Reads second result) :
    Reads (reader >>= next) (first ++ second) result :=
  ⟨List.forall_mem_append.mpr ⟨one.fit, two.fit⟩, two.takes.after one.takes⟩

theorem Reads.conclude {reader : Reader α} {next : α → Reader β} {tokens : List Token} {value : α} {result : β}
    (one : reader.Reads tokens value) (two : (next value).Reads [] result) :
    Reads (reader >>= next) tokens result := by
  simpa using one.bind two

theorem Reads.headed {reader inner : Reader α} {token : Token} {tokens : List Token} {value : α}
    (read : inner.Reads tokens value) (fits : token.Fits)
    (opened : ∀ following, reader (token :: following) = inner following) : reader.Reads (token :: tokens) value :=
  ⟨List.forall_mem_cons.mpr ⟨fits, read.fit⟩, read.takes.headed opened⟩

theorem reads_single {reader : Reader α} {token : Token} {value : α} (fits : token.Fits)
    (takes : ∀ rest, reader (token :: rest) = some (value, rest)) : reader.Reads [token] value :=
  ⟨List.forall_mem_singleton.mpr fits, takes⟩

theorem yields_text (written : String) : text.Yields [.text (Text.utf8 written)] (some written) := by
  intro rest
  have opened : text (.text (Text.utf8 written) :: rest) =
      (Text.ofUtf8? (Text.utf8 written)).bind fun text => some (text, rest) := rfl
  rw [List.singleton_append, opened, Text.ofUtf8?_utf8]
  rfl

theorem reads_text {written : String} (fits : (Text.utf8 written).length < UInt64.size) :
    text.Reads [.text (Text.utf8 written)] written :=
  reads_single fits (yields_text written)

theorem lt_of_short {length : Nat} (short : length ≤ longestName) : length < UInt64.size :=
  Nat.lt_of_le_of_lt short (by decide)

theorem reads_name {written : String} (short : (Text.utf8 written).length ≤ longestName) :
    name.Reads [.text (Text.utf8 written)] (Text.utf8 written) := by
  refine reads_single (lt_of_short short) fun rest => ?_
  have opened (payload : List UInt8) : name (.text payload :: rest) =
      (if payload.length ≤ longestName ∧ (Text.ofUtf8? payload).isSome then pure payload else failure :
        Reader (List UInt8)) rest := rfl
  rw [opened, if_pos ⟨short, by rw [Text.ofUtf8?_utf8]; rfl⟩]
  rfl

theorem reads_choice {named? : List UInt8 → Option α} {payload : List UInt8} {value : α}
    (short : payload.length ≤ longestName) (named : named? payload = some value) :
    (choice named?).Reads [.text payload] value := by
  refine reads_single (lt_of_short short) fun rest => ?_
  have opened : choice named? (.text payload :: rest) =
      (if payload.length ≤ longestName then liftM (named? payload) else failure : Reader α) rest := rfl
  rw [opened, if_pos short, named]
  rfl

theorem reads_shortBytes {payload : List UInt8} (short : payload.length ≤ longestName) :
    shortBytes.Reads [.bytes payload] payload := by
  refine reads_single (lt_of_short short) fun rest => ?_
  have opened : shortBytes (.bytes payload :: rest) =
      (if payload.length ≤ longestName then pure payload else failure : Reader (List UInt8)) rest := rfl
  rw [opened, if_pos short]
  rfl

theorem reads_byte (value : UInt8) : byte.Reads [.unsigned value.toUInt64] value := by
  have read : integer.Reads [.unsigned value.toUInt64] value.toNat := reads_single trivial fun _ => rfl
  refine read.conclude ?_
  have small : (0 : Int) ≤ value.toNat ∧ (value.toNat : Int) < 256 :=
    ⟨Int.natCast_nonneg _, Int.ofNat_lt.mpr value.toNat_lt⟩
  rw [if_pos small, Int.toNat_natCast, UInt8.ofNat_toNat]
  exact reads_pure value

section Repetition

variable {ι : Type} {item : Reader α} {tokens : ι → List Token} {items : List ι}

theorem mapM_some (value : ι → α) (items : List ι) :
    (items.mapM fun index => some (value index)) = some (items.map value) :=
  List.mapM_pure

theorem yields_times {value? : ι → Option α} (each : ∀ index ∈ items, item.Yields (tokens index) (value? index)) :
    (times items.length item).Yields (items.flatMap tokens) (items.mapM value?) := by
  induction items with
  | nil => exact fun _ => rfl
  | cons index items ih =>
      rw [List.forall_mem_cons] at each
      rw [List.mapM_cons]
      exact each.1.bind fun first _ => (ih each.2).conclude fun others => yields_lift (some (first :: others))

theorem yields_list {value? : ι → Option α} (few : items.length < UInt64.size)
    (each : ∀ index ∈ items, item.Yields (tokens index) (value? index)) :
    (list item).Yields (.array (UInt64.ofNat items.length) :: items.flatMap tokens) (items.mapM value?) := by
  refine (yields_times each).headed fun following => ?_
  have opened (count : UInt64) : list item (.array count :: following) = times count.toNat item following := rfl
  rw [opened, UInt64.toNat_ofNat_of_lt' few]

variable {value : ι → α}

theorem reads_times (each : ∀ index ∈ items, item.Reads (tokens index) (value index)) :
    (times items.length item).Reads (items.flatMap tokens) (items.map value) := by
  refine ⟨fun token listed => ?_, ?_⟩
  · obtain ⟨index, present, listed⟩ := List.mem_flatMap.mp listed
    exact (each index present).fit token listed
  · rw [← mapM_some]
    exact yields_times fun index present => (each index present).takes

theorem reads_list (few : items.length < UInt64.size)
    (each : ∀ index ∈ items, item.Reads (tokens index) (value index)) :
    (list item).Reads (.array (UInt64.ofNat items.length) :: items.flatMap tokens) (items.map value) := by
  refine ⟨List.forall_mem_cons.mpr ⟨trivial, (reads_times each).fit⟩, ?_⟩
  rw [← mapM_some]
  exact yields_list few fun index present => (each index present).takes

end Repetition

theorem reads_tuple {bytes : List UInt8} (few : bytes.length < UInt64.size) :
    (tuple bytes.length).Reads
      (.array (UInt64.ofNat bytes.length) :: bytes.map fun byte => .unsigned byte.toUInt64) bytes := by
  have read : Reads (times bytes.length byte) (bytes.flatMap fun byte => [.unsigned byte.toUInt64]) (bytes.map id) :=
    reads_times fun value _ => reads_byte value
  rw [List.map_id, ← List.map_eq_flatMap] at read
  refine read.headed trivial fun following => ?_
  have opened (count : UInt64) : tuple bytes.length (.array count :: following) =
      (if count.toNat < bytes.length then failure else times bytes.length byte : Reader (List UInt8)) following := rfl
  rw [opened, UInt64.toNat_ofNat_of_lt' few, if_neg (Nat.lt_irrefl _)]

section Records

variable {ι : Type} {entry : List UInt8 → Reader α} {name : ι → String} {tokens : ι → List Token} {items : List ι}

theorem yields_record {value? : ι → Option α} (few : items.length < UInt64.size)
    (each : ∀ index ∈ items, (Text.utf8 (name index)).length ≤ longestName ∧
      (entry (Text.utf8 (name index))).Yields (tokens index) (value? index)) :
    (record entry).Yields (.map (UInt64.ofNat items.length) ::
      items.flatMap fun index => .text (Text.utf8 (name index)) :: tokens index) (items.mapM value?) := by
  have yields : Yields (times items.length (do entry (← Reader.name)))
      (items.flatMap fun index => .text (Text.utf8 (name index)) :: tokens index) (items.mapM value?) :=
    yields_times fun index present => (each index present).2.after (reads_name (each index present).1).takes
  refine yields.headed fun following => ?_
  have opened (count : UInt64) : record entry (.map count :: following) =
      times count.toNat (do entry (← Reader.name)) following := rfl
  rw [opened, UInt64.toNat_ofNat_of_lt' few]

end Records

structure WrittenField (α : Type) where
  name : String
  tokens : List Token
  value : α

def recordTokens (fields : List (WrittenField α)) : List Token :=
  .map (UInt64.ofNat fields.length) :: fields.flatMap fun field => .text (Text.utf8 field.name) :: field.tokens

theorem reads_record {entry : List UInt8 → Reader α} {fields : List (WrittenField α)}
    (few : fields.length < UInt64.size)
    (each : ∀ field ∈ fields, (Text.utf8 field.name).length ≤ longestName ∧
      (entry (Text.utf8 field.name)).Reads field.tokens field.value) :
    (record entry).Reads (recordTokens fields) (fields.map WrittenField.value) := by
  refine ⟨List.forall_mem_cons.mpr ⟨trivial, fun token listed => ?_⟩, ?_⟩
  · obtain ⟨field, present, listed⟩ := List.mem_flatMap.mp listed
    have whole := (reads_name (each field present).1).fit
    exact (List.mem_cons.mp listed).elim (fun same => whole token (List.mem_singleton.mpr same))
      ((each field present).2.fit token)
  · rw [← mapM_some]
    exact yields_record few fun field present => ⟨(each field present).1, (each field present).2.takes⟩

end PermissionFeed.Cbor.Reader
