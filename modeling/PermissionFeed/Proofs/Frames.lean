import PermissionFeed.Frame
import PermissionFeed.Proofs.Readers

namespace PermissionFeed

open Cbor Cbor.Reader

def EntriesFit (entries : List Entry) : Prop :=
  entries.length < UInt64.size ∧ ∀ entry ∈ entries, (Text.utf8 entry.key).length < UInt64.size

/-- All lengths fit into a word, as those of anything in memory do. -/
structure ChangeEvent.Fits (event : ChangeEvent) : Prop where
  reason : (Text.utf8 event.reason).length < UInt64.size
  direct : EntriesFit event.delta.direct
  groups : EntriesFit event.delta.groups
  effective : EntriesFit event.delta.effective

theorem mk_toList {size : Nat} (bytes : Vector UInt8 size) (sized : bytes.toList.toArray.size = size) :
    Vector.mk bytes.toList.toArray sized = bytes :=
  Vector.toArray_inj.mp Array.toArray_toList

theorem EventId.ofBytes?_toList (id : EventId) : ofBytes? id.bytes.toList = some id := by
  rw [ofBytes?, dif_pos (by simp), mk_toList]

theorem PlayerId.ofBytes?_toList (id : PlayerId) : ofBytes? id.bytes.toList = some id := by
  rw [ofBytes?, dif_pos (by simp), mk_toList]

namespace Frame

theorem toInt_of_neg {value : Int64} (negative : value < 0) :
    value.toInt = -1 - ((~~~value).toUInt64.toNat : Int) := by
  have complement : (~~~value).toUInt64.toNat = 2 ^ 64 - 1 - value.toBitVec.toNat := BitVec.toNat_not
  have word := BitVec.toInt_eq_toNat_cond value.toBitVec
  have small := value.toBitVec.isLt
  rw [Int64.toInt_toBitVec] at word
  rw [Int64.lt_iff_toInt_lt, Int64.toInt_zero] at negative
  split at word <;> omega

theorem toInt_of_not_neg {value : Int64} (positive : ¬value < 0) : value.toInt = value.toUInt64.toNat := by
  have same : value.toUInt64.toNat = value.toBitVec.toNat := rfl
  have word := BitVec.toInt_eq_toNat_cond value.toBitVec
  have small := value.toBitVec.isLt
  rw [Int64.toInt_toBitVec] at word
  rw [Int64.lt_iff_toInt_lt, Int64.toInt_zero] at positive
  split at word <;> omega

theorem reads_integer (value : Int64) : integer.Reads [int64Token value] value.toInt := by
  unfold int64Token
  split
  · next negative =>
      rw [toInt_of_neg negative]
      exact reads_single trivial fun _ => rfl
  · next positive =>
      rw [toInt_of_not_neg positive]
      exact reads_single trivial fun _ => rfl

theorem reads_int64 (value : Int64) : int64.Reads [int64Token value] value := by
  refine (reads_integer value).conclude ?_
  rw [if_pos ⟨value.minValue_le_toInt, value.toInt_le⟩, Int64.ofInt_toInt]
  exact reads_pure value

theorem reads_expiry (expiry : Expiry) : (Reader.optional int64).Reads [expiryToken expiry] expiry := by
  cases expiry with
  | none => exact reads_single trivial fun _ => rfl
  | some time =>
      have read := reads_int64 time
      refine ⟨read.fit, fun rest => ?_⟩
      have opened : Reader.optional int64 (int64Token time :: rest) =
          (int64 (int64Token time :: rest)).map fun (value, rest) => (some value, rest) := by
        unfold int64Token
        split <;> rfl
      exact opened.trans (congrArg (Option.map _) (read.takes rest))

theorem reads_bool (value : Bool) : bool.Reads [boolToken value] value := by
  cases value <;> exact reads_single trivial fun _ => rfl

theorem reads_action (action : Action) : (choice action?).Reads [textToken action.label] action := by
  have named : action? (Text.utf8 action.label) = some action := by
    rw [action?, Text.ofUtf8?_utf8]
    exact action.ofLabel?_label
  exact reads_choice (by cases action <;> decide) named

def entryFields (entry : Entry) : List (WrittenField EntryField) :=
  [⟨Field.action, [textToken entry.action.label], .action entry.action⟩,
    ⟨Field.key, [textToken entry.key], .key entry.key⟩,
    ⟨Field.expiresAt, [expiryToken entry.expiry], .expiry entry.expiry⟩]

theorem reads_entry {entry : Entry} (fits : (Text.utf8 entry.key).length < UInt64.size) :
    readEntry.Reads (entryTokens entry) entry := by
  have fields : (record EntryField.read).Reads (recordTokens (entryFields entry))
      ((entryFields entry).map WrittenField.value) := by
    refine reads_record (by decide : 3 < UInt64.size) ?_
    simp only [entryFields, List.forall_mem_cons, List.not_mem_nil, false_imp_iff, implies_true, and_true]
    refine ⟨⟨by decide, ?_⟩, ⟨by decide, ?_⟩, ⟨by decide, ?_⟩⟩
    all_goals rw [EntryField.read, Text.ofUtf8?_utf8]
    · exact (reads_action entry.action).conclude (reads_pure _)
    · exact (reads_text fits).conclude (reads_pure _)
    · exact (reads_expiry entry.expiry).conclude (reads_pure _)
  exact fields.conclude (reads_lift rfl)

theorem reads_entries {entries : List Entry} (fit : EntriesFit entries) :
    (Reader.list readEntry).Reads (entriesTokens entries) entries := by
  have read : (Reader.list readEntry).Reads (entriesTokens entries) (entries.map id) :=
    reads_list fit.1 fun entry listed => reads_entry (fit.2 entry listed)
  rwa [List.map_id] at read

theorem reads_eventId (id : EventId) : readEventId.Reads (.array 16 :: id.bytes.toList.map byteToken) id := by
  have length : id.bytes.toList.length = 16 := id.bytes.length_toList
  have few : id.bytes.toList.length < UInt64.size := by
    rw [length]
    decide
  have read := reads_tuple few
  rw [length] at read
  exact read.conclude (reads_lift id.ofBytes?_toList)

theorem reads_player (player : PlayerId) : readPlayer.Reads [.bytes player.bytes.toList] player := by
  have short : player.bytes.toList.length ≤ longestName := by
    rw [player.bytes.length_toList]
    decide
  exact (reads_shortBytes short).conclude (reads_lift player.ofBytes?_toList)

def eventFields (event : ChangeEvent) : List (WrittenField EventField) :=
  [⟨Field.eventId, .array 16 :: event.id.bytes.toList.map byteToken, .id event.id⟩,
    ⟨Field.playerId, [.bytes event.player.bytes.toList], .player event.player⟩,
    ⟨Field.occurredAt, [int64Token event.occurredAt], .occurredAt event.occurredAt⟩,
    ⟨Field.reason, [textToken event.reason], .reason event.reason⟩,
    ⟨Field.requiresRefresh, [boolToken event.requiresRefresh], .requiresRefresh event.requiresRefresh⟩,
    ⟨Field.directDeltas, entriesTokens event.delta.direct, .direct event.delta.direct⟩,
    ⟨Field.groupDeltas, entriesTokens event.delta.groups, .groups event.delta.groups⟩,
    ⟨Field.effectiveDeltas, entriesTokens event.delta.effective, .effective event.delta.effective⟩]

theorem eventTokens_eq (event : ChangeEvent) : eventTokens event = recordTokens (eventFields event) := by
  simp [eventTokens, recordTokens, eventFields, textToken]

theorem reads_event {event : ChangeEvent} (fits : event.Fits) : readEvent.Reads (eventTokens event) event := by
  have fields : (record EventField.read).Reads (recordTokens (eventFields event))
      ((eventFields event).map WrittenField.value) := by
    refine reads_record (by decide : 8 < UInt64.size) ?_
    simp only [eventFields, List.forall_mem_cons, List.not_mem_nil, false_imp_iff, implies_true, and_true]
    refine ⟨⟨by decide, ?_⟩, ⟨by decide, ?_⟩, ⟨by decide, ?_⟩, ⟨by decide, ?_⟩, ⟨by decide, ?_⟩, ⟨by decide, ?_⟩,
      ⟨by decide, ?_⟩, ⟨by decide, ?_⟩⟩
    all_goals rw [EventField.read, Text.ofUtf8?_utf8]
    · exact (reads_eventId event.id).conclude (reads_pure _)
    · exact (reads_player event.player).conclude (reads_pure _)
    · exact (reads_int64 event.occurredAt).conclude (reads_pure _)
    · exact (reads_text fits.reason).conclude (reads_pure _)
    · exact (reads_bool event.requiresRefresh).conclude (reads_pure _)
    · exact (reads_entries fits.direct).conclude (reads_pure _)
    · exact (reads_entries fits.groups).conclude (reads_pure _)
    · exact (reads_entries fits.effective).conclude (reads_pure _)
  rw [eventTokens_eq]
  exact fields.conclude (reads_lift rfl)

def frameFields (frame : Frame) : List (WrittenField FrameField) :=
  [⟨Field.version, [byteToken frame.version], .version frame.version⟩,
    ⟨Field.event, eventTokens frame.event, .event frame.event⟩]

theorem toTokens_eq (frame : Frame) : frame.toTokens = recordTokens frame.frameFields := by
  simp [toTokens, recordTokens, frameFields, textToken]

theorem reads_frame {frame : Frame} (fits : frame.event.Fits) : read.Reads frame.toTokens frame := by
  have fields : (record FrameField.read).Reads (recordTokens frame.frameFields)
      (frame.frameFields.map WrittenField.value) := by
    refine reads_record (by decide : 2 < UInt64.size) ?_
    simp only [frameFields, List.forall_mem_cons, List.not_mem_nil, false_imp_iff, implies_true, and_true]
    refine ⟨⟨by decide, ?_⟩, ⟨by decide, ?_⟩⟩
    all_goals rw [FrameField.read, Text.ofUtf8?_utf8]
    · exact (reads_byte frame.version).conclude (reads_pure _)
    · exact (reads_event fits).conclude (reads_pure _)
  rw [toTokens_eq]
  exact fields.conclude (reads_lift rfl)

theorem exists_read_encode {frame : Frame} (fits : frame.event.Fits) (rest : List UInt8) :
    ∃ following, read (tokens (frame.encode ++ rest)) = some (frame, following) := by
  have reads := reads_frame fits
  obtain ⟨following, cut⟩ := (spells_flatMap reads.fit).exists_tokens rest
  exact ⟨following, by rw [encode, cut, reads.takes]; rfl⟩

theorem encode_inj {frame other : Frame} (fits : frame.event.Fits) (alsoFits : other.event.Fits)
    (same : frame.encode = other.encode) : frame = other := by
  obtain ⟨_, read⟩ := exists_read_encode fits []
  obtain ⟨_, readOther⟩ := exists_read_encode alsoFits []
  rw [same, readOther] at read
  exact (congrArg Prod.fst (Option.some.inj read)).symm

/-- An event is encoded without loss, whatever it says, and a frame of another version is refused with that version. -/
theorem decode_encode (event : ChangeEvent) (fits : event.Fits) (version : UInt8) :
    decode (encode ⟨version, event⟩) =
        (if version = frameVersion then .ok ⟨version, event⟩ else .error (.versionMismatch version)) ∧
      ∀ other : ChangeEvent, other.Fits → encode ⟨version, event⟩ = encode ⟨version, other⟩ → event = other := by
  refine ⟨?_, fun other alsoFits same => congrArg Frame.event (encode_inj fits alsoFits same)⟩
  have whole : ∃ following, read (tokens (encode ⟨version, event⟩ ++ [])) = some (⟨version, event⟩, following) :=
    exists_read_encode fits []
  obtain ⟨following, taken⟩ := whole
  rw [List.append_nil] at taken
  rw [decode, taken]

theorem decode_encode_renewal :
    let renewal : List Entry := [.remove "vip", .add "vip" (some (-300))]
    let event : ChangeEvent :=
      ⟨⟨.numbered 1, -1, Reason.playerGroupAdd, false, ⟨[], renewal, []⟩⟩, .zero⟩
    event.Fits ∧ decode (encode ⟨1, event⟩) = .ok ⟨1, event⟩ ∧
      decode (encode ⟨2, event⟩) = .error (.versionMismatch 2) := by
  intro renewal event
  have empty : EntriesFit [] := ⟨by decide, by simp⟩
  have fits : event.Fits := ⟨by decide, empty, ⟨by decide, by decide⟩, empty⟩
  exact ⟨fits, (decode_encode event fits 1).1, (decode_encode event fits 2).1⟩

end Frame

end PermissionFeed
