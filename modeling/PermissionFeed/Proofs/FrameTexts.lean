import PermissionFeed.Proofs.Frames
import PermissionFeed.Proofs.Maps

namespace PermissionFeed.Frame

open Cbor Cbor.Reader

/-! ## Texts -/

inductive EntryPart where
  | action (action : Action)
  | key (key : String)
  | expiry (expiry : Expiry)

namespace EntryPart

def names : List String :=
  [Field.action, Field.key, Field.expiresAt]

def name : EntryPart → String
  | action _ => Field.action
  | key _ => Field.key
  | expiry _ => Field.expiresAt

def tokens : EntryPart → List Token
  | action given => [textToken given.label]
  | key given => [textToken given]
  | expiry given => [expiryToken given]

end EntryPart

structure EntryText where
  items : List (Item EntryPart EntryPart.names (deepest - 4))

namespace EntryText

variable (text : EntryText)

def tokens : List Token :=
  mapTokens EntryPart.name EntryPart.tokens text.items

/-- The parts are those of the entry in any order; an expiry that is never may be left out. -/
def Tells (entry : Entry) : Prop :=
  (parts text.items).Perm [.action entry.action, .key entry.key, .expiry entry.expiry] ∨
    entry.expiry = none ∧ (parts text.items).Perm [.action entry.action, .key entry.key]

def Flawed : Prop :=
  Frame.Flawed [Field.action, Field.key] ((parts text.items).map EntryPart.name)

end EntryText

inductive EventPart where
  | id (id : EventId)
  | player (player : PlayerId)
  | occurredAt (time : Instant)
  | reason (reason : String)
  | requiresRefresh (requiresRefresh : Bool)
  | direct (texts : List EntryText)
  | groups (texts : List EntryText)
  | effective (texts : List EntryText)

namespace EventPart

def names : List String :=
  [Field.eventId, Field.playerId, Field.occurredAt, Field.reason, Field.requiresRefresh, Field.directDeltas,
    Field.groupDeltas, Field.effectiveDeltas]

def name : EventPart → String
  | id _ => Field.eventId
  | player _ => Field.playerId
  | occurredAt _ => Field.occurredAt
  | reason _ => Field.reason
  | requiresRefresh _ => Field.requiresRefresh
  | direct _ => Field.directDeltas
  | groups _ => Field.groupDeltas
  | effective _ => Field.effectiveDeltas

def tokens : EventPart → List Token
  | id given => .array 16 :: given.bytes.toList.map byteToken
  | player given => [.bytes given.bytes.toList]
  | occurredAt given => [int64Token given]
  | reason given => [textToken given]
  | requiresRefresh given => [boolToken given]
  | direct texts | groups texts | effective texts => arrayToken texts :: texts.flatMap EntryText.tokens

def entries : EventPart → List EntryText
  | direct texts | groups texts | effective texts => texts
  | _ => []

def all (event : ChangeEvent) (directs memberships effectives : List EntryText) : List EventPart :=
  [id event.id, player event.player, occurredAt event.occurredAt, reason event.reason,
    requiresRefresh event.requiresRefresh, direct directs, groups memberships, effective effectives]

end EventPart

structure EventText where
  items : List (Item EventPart EventPart.names (deepest - 2))

namespace EventText

variable (text : EventText)

def tokens : List Token :=
  mapTokens EventPart.name EventPart.tokens text.items

def Tells (event : ChangeEvent) : Prop :=
  ∃ directs memberships effectives,
    (parts text.items).Perm (EventPart.all event directs memberships effectives) ∧
      directs.Forall₂ EntryText.Tells event.delta.direct ∧ memberships.Forall₂ EntryText.Tells event.delta.groups ∧
        effectives.Forall₂ EntryText.Tells event.delta.effective

def Flawed : Prop :=
  Frame.Flawed EventPart.names ((parts text.items).map EventPart.name) ∨
    ∃ part ∈ parts text.items, ∃ entry ∈ part.entries, entry.Flawed

end EventText

inductive FramePart where
  | version (version : UInt8)
  | event (text : EventText)

namespace FramePart

def names : List String :=
  [Field.version, Field.event]

def name : FramePart → String
  | version _ => Field.version
  | event _ => Field.event

def tokens : FramePart → List Token
  | version given => [byteToken given]
  | event text => text.tokens

end FramePart

structure FrameText where
  items : List (Item FramePart FramePart.names (deepest - 1))

namespace FrameText

variable (text : FrameText)

def tokens : List Token :=
  mapTokens FramePart.name FramePart.tokens text.items

def Tells (frame : Frame) : Prop :=
  ∃ event : EventText, (parts text.items).Perm [.version frame.version, .event event] ∧ event.Tells frame.event

/-- A part other than an expiry is missing, or a part stands twice, in the frame or somewhere within it. -/
def Flawed : Prop :=
  Frame.Flawed FramePart.names ((parts text.items).map FramePart.name) ∨
    ∃ event, .event event ∈ parts text.items ∧ event.Flawed

end FrameText

/-! ## The text that is written -/

def EntryText.ofEntry (entry : Entry) : EntryText :=
  ⟨[.known (.action entry.action), .known (.key entry.key), .known (.expiry entry.expiry)]⟩

def EventText.ofEvent (event : ChangeEvent) : EventText :=
  let texts (entries : List Entry) : List EntryText := entries.map EntryText.ofEntry
  ⟨(EventPart.all event (texts event.delta.direct) (texts event.delta.groups) (texts event.delta.effective)).map
    .known⟩

def FrameText.ofFrame (frame : Frame) : FrameText :=
  ⟨[.known (.version frame.version), .known (.event (.ofEvent frame.event))]⟩

theorem tokens_ofEntries (entries : List Entry) :
    arrayToken (entries.map EntryText.ofEntry) :: (entries.map EntryText.ofEntry).flatMap EntryText.tokens =
      entriesTokens entries := by
  have same (entry : Entry) : (EntryText.ofEntry entry).tokens = entryTokens entry := rfl
  simp [entriesTokens, arrayToken, List.flatMap_map, same]

theorem tokens_ofFrame (frame : Frame) : (FrameText.ofFrame frame).tokens = frame.toTokens := by
  have event : (EventText.ofEvent frame.event).tokens = eventTokens frame.event := by
    simp [EventText.tokens, EventText.ofEvent, EventPart.all, mapTokens, Item.name, Item.tokens, EventPart.name,
      EventPart.tokens, eventTokens, tokens_ofEntries]
  simp [FrameText.tokens, FrameText.ofFrame, mapTokens, Item.name, Item.tokens, FramePart.name, FramePart.tokens,
    toTokens, event]

theorem forall₂_tells (entries : List Entry) : (entries.map EntryText.ofEntry).Forall₂ EntryText.Tells entries := by
  induction entries with
  | nil => exact .nil
  | cons entry entries ih => exact .cons (.inl (.refl _)) ih

theorem tells_ofFrame (frame : Frame) : (FrameText.ofFrame frame).Tells frame :=
  ⟨_, .refl _, _, _, _, .refl _, forall₂_tells _, forall₂_tells _, forall₂_tells _⟩

theorem exists_text_encode {frame : Frame} (fits : frame.event.Fits) :
    ∃ text : FrameText, text.Tells frame ∧ Spells frame.encode text.tokens := by
  refine ⟨.ofFrame frame, tells_ofFrame frame, ?_⟩
  rw [tokens_ofFrame]
  exact spells_flatMap (reads_frame fits).fit

/-! ## Entries -/

namespace EntryField

def name? : EntryField → Option String
  | action _ => some Field.action
  | key _ => some Field.key
  | expiry _ => some Field.expiresAt
  | unknown => none

end EntryField

theorem entryOf?_congr {fields others : List EntryField}
    (same : ∀ {β : Type} (select : EntryField → Option β), select .unknown = none →
      (fields.filterMap select).Perm (others.filterMap select)) : entryOf? fields = entryOf? others := by
  unfold entryOf?
  rw [once?_perm (same _ rfl), once?_perm (same _ rfl), atMostOnce?_perm (same _ rfl)]

theorem counts_of_entryOf? {fields : List EntryField} {entry : Entry} (found : entryOf? fields = some entry) :
    let names := fields.filterMap EntryField.name?
    names.count Field.action = 1 ∧ names.count Field.key = 1 ∧ names.count Field.expiresAt ≤ 1 := by
  intro names
  obtain ⟨action, actions, found⟩ := Option.bind_eq_some_iff.mp found
  obtain ⟨key, keys, found⟩ := Option.bind_eq_some_iff.mp found
  obtain ⟨expiry, expiries, -⟩ := Option.bind_eq_some_iff.mp found
  refine ⟨?_, ?_, ?_⟩
  · exact (count_filterMap fun field => by cases field <;> rfl).trans (length_of_once? actions)
  · exact (count_filterMap fun field => by cases field <;> rfl).trans (length_of_once? keys)
  · exact Nat.le_trans (Nat.le_of_eq (count_filterMap fun field => by cases field <;> rfl))
      (length_of_atMostOnce? expiries)

namespace EntryPart

def field? : EntryPart → Option EntryField
  | action given => some (.action given)
  | key given => some (.key given)
  | expiry given => some (.expiry given)

theorem name?_of_field? {part : EntryPart} {field : EntryField} (read : part.field? = some field) :
    field.name? = some part.name := by
  cases part <;> cases read <;> rfl

end EntryPart

namespace EntryText

variable {text : EntryText} {entry : Entry}

def says? (text : EntryText) : Option Entry := do
  entryOf? (← text.items.mapM (Item.field? .unknown EntryPart.field?))

theorem says?_of_tells (tells : text.Tells entry) : text.says? = some entry := by
  rcases tells with same | ⟨never, same⟩
  · have told : [EntryPart.action entry.action, .key entry.key, .expiry entry.expiry].mapM EntryPart.field? =
        some [.action entry.action, .key entry.key, .expiry entry.expiry] := rfl
    obtain ⟨fields, read, same⟩ := exists_fields same told
    rw [says?, read, Option.bind_eq_bind, Option.bind_some, entryOf?_congr same]
    rfl
  · have told : [EntryPart.action entry.action, .key entry.key].mapM EntryPart.field? =
        some [.action entry.action, .key entry.key] := rfl
    obtain ⟨fields, read, same⟩ := exists_fields same told
    rw [says?, read, Option.bind_eq_bind, Option.bind_some, entryOf?_congr same]
    have expiry : entry = ⟨entry.action, entry.key, none⟩ := by rw [← never]
    rw [expiry]
    rfl

theorem says?_of_flawed (flawed : text.Flawed) : text.says? = none := by
  cases told : text.says? with
  | none => rfl
  | some entry =>
      obtain ⟨fields, read, found⟩ := Option.bind_eq_some_iff.mp told
      obtain ⟨action, key, expiry⟩ := counts_of_entryOf? found
      refine absurd flawed (not_flawed read rfl (fun part field => EntryPart.name?_of_field?) ?_ fun part => ?_)
      · simp [action, key]
      · cases part with
        | action => exact Nat.le_of_eq action
        | key => exact Nat.le_of_eq key
        | expiry => exact expiry

theorem yields (few : text.tokens.length < UInt64.size) : readEntry.Yields text.tokens text.says? := by
  have fields : (record EntryField.read).Yields text.tokens
      (text.items.mapM (Item.field? .unknown EntryPart.field?)) := by
    refine yields_record_items (Nat.lt_trans length_lt_mapTokens few) ?_ ?_
    · intro part _
      cases part with
      | action given =>
          rw [EntryPart.name, EntryField.read, Text.ofUtf8?_utf8]
          exact ⟨by decide, (reads_action given).takes.map EntryField.action⟩
      | key given =>
          rw [EntryPart.name, EntryField.read, Text.ofUtf8?_utf8]
          exact ⟨by decide, (yields_text given).map EntryField.key⟩
      | expiry given =>
          rw [EntryPart.name, EntryField.read, Text.ofUtf8?_utf8]
          exact ⟨by decide, (reads_expiry given).takes.map EntryField.expiry⟩
    · intro name foreign
      simp only [EntryPart.names, List.mem_cons, List.not_mem_nil, or_false, not_or] at foreign
      rw [EntryField.read, Text.ofUtf8?_utf8]
      split <;> simp_all
  exact fields.choose entryOf?

end EntryText

/-! ## Lists of entries -/

section Entries

variable {texts : List EntryText}

theorem mapM_says? {entries : List Entry} (tells : texts.Forall₂ EntryText.Tells entries) :
    texts.mapM EntryText.says? = some entries := by
  refine mapM_eq_some_iff.mpr ?_
  induction tells with
  | nil => rfl
  | cons first _ ih => rw [List.map_cons, List.map_cons, EntryText.says?_of_tells first, ih]

theorem yields_entries (few : (arrayToken texts :: texts.flatMap EntryText.tokens).length < UInt64.size) :
    (Reader.list readEntry).Yields (arrayToken texts :: texts.flatMap EntryText.tokens)
      (texts.mapM EntryText.says?) := by
  -- A list has no more items than tokens, so its length fits into a word if the number of its tokens does.
  rw [List.length_cons] at few
  have shorter : texts.length ≤ (texts.flatMap EntryText.tokens).length := length_le_flatMap fun _ _ => ⟨_, _, rfl⟩
  refine yields_list (by omega) fun text present => ?_
  have part := length_le_of_mem_flatMap EntryText.tokens present
  exact text.yields (by omega)

end Entries

/-! ## Events -/

namespace EventField

def name? : EventField → Option String
  | id _ => some Field.eventId
  | player _ => some Field.playerId
  | occurredAt _ => some Field.occurredAt
  | reason _ => some Field.reason
  | requiresRefresh _ => some Field.requiresRefresh
  | direct _ => some Field.directDeltas
  | groups _ => some Field.groupDeltas
  | effective _ => some Field.effectiveDeltas
  | unknown => none

end EventField

theorem eventOf?_congr {fields others : List EventField}
    (same : ∀ {β : Type} (select : EventField → Option β), select .unknown = none →
      (fields.filterMap select).Perm (others.filterMap select)) : eventOf? fields = eventOf? others := by
  unfold eventOf?
  rw [once?_perm (same _ rfl), once?_perm (same _ rfl), once?_perm (same _ rfl), once?_perm (same _ rfl),
    once?_perm (same _ rfl), once?_perm (same _ rfl), once?_perm (same _ rfl), once?_perm (same _ rfl)]

theorem count_of_eventOf? {fields : List EventField} {event : ChangeEvent} (found : eventOf? fields = some event)
    {name : String} (listed : name ∈ EventPart.names) : (fields.filterMap EventField.name?).count name = 1 := by
  -- What is selected of the fields are those with one name, so a part that is found once has its name once.
  have counted {β : Type} {select : EventField → Option β} {value : β}
      (found : once? (fields.filterMap select) = some value)
      (selects : ∀ field, (select field).isSome = (field.name? == some name)) :
      (fields.filterMap EventField.name?).count name = 1 :=
    (count_filterMap selects).trans (length_of_once? found)
  obtain ⟨id, ids, found⟩ := Option.bind_eq_some_iff.mp found
  obtain ⟨player, players, found⟩ := Option.bind_eq_some_iff.mp found
  obtain ⟨occurredAt, times, found⟩ := Option.bind_eq_some_iff.mp found
  obtain ⟨reason, reasons, found⟩ := Option.bind_eq_some_iff.mp found
  obtain ⟨refresh, refreshes, found⟩ := Option.bind_eq_some_iff.mp found
  obtain ⟨direct, directs, found⟩ := Option.bind_eq_some_iff.mp found
  obtain ⟨groups, memberships, found⟩ := Option.bind_eq_some_iff.mp found
  obtain ⟨effective, effectives, -⟩ := Option.bind_eq_some_iff.mp found
  simp only [EventPart.names, List.mem_cons, List.not_mem_nil, or_false] at listed
  rcases listed with rfl | rfl | rfl | rfl | rfl | rfl | rfl | rfl
  · exact counted ids fun field => by cases field <;> rfl
  · exact counted players fun field => by cases field <;> rfl
  · exact counted times fun field => by cases field <;> rfl
  · exact counted reasons fun field => by cases field <;> rfl
  · exact counted refreshes fun field => by cases field <;> rfl
  · exact counted directs fun field => by cases field <;> rfl
  · exact counted memberships fun field => by cases field <;> rfl
  · exact counted effectives fun field => by cases field <;> rfl

namespace EventPart

def field? : EventPart → Option EventField
  | id given => some (.id given)
  | player given => some (.player given)
  | occurredAt given => some (.occurredAt given)
  | reason given => some (.reason given)
  | requiresRefresh given => some (.requiresRefresh given)
  | direct texts => (texts.mapM EntryText.says?).map .direct
  | groups texts => (texts.mapM EntryText.says?).map .groups
  | effective texts => (texts.mapM EntryText.says?).map .effective

theorem name?_of_field? {part : EventPart} {field : EventField} (read : part.field? = some field) :
    field.name? = some part.name := by
  cases part with
  | direct | groups | effective =>
      obtain ⟨entries, -, rfl⟩ := Option.map_eq_some_iff.mp read
      rfl
  | _ =>
      cases read
      rfl

theorem name_mem_names (part : EventPart) : part.name ∈ names := by
  cases part <;> simp [name, names]

theorem short_name (part : EventPart) : (Text.utf8 part.name).length ≤ longestName := by
  have short : ∀ name ∈ names, (Text.utf8 name).length ≤ longestName := by decide
  exact short part.name part.name_mem_names

theorem field?_of_flawed {part : EventPart} {text : EntryText} (listed : text ∈ part.entries) (flawed : text.Flawed) :
    part.field? = none := by
  have unread (texts : List EntryText) (listed : text ∈ texts) : texts.mapM EntryText.says? = none := by
    apply Classical.byContradiction
    intro read
    exact mapM_ne_none.mp read text listed (EntryText.says?_of_flawed flawed)
  cases part with
  | direct texts | groups texts | effective texts =>
      rw [field?, unread texts listed]
      rfl
  | _ => contradiction

theorem yields (part : EventPart) (few : part.tokens.length < UInt64.size) :
    (EventField.read (Text.utf8 part.name)).Yields part.tokens part.field? := by
  cases part
  all_goals rw [name, EventField.read, Text.ofUtf8?_utf8]
  case id given => exact (reads_eventId given).takes.map EventField.id
  case player given => exact (reads_player given).takes.map EventField.player
  case occurredAt given => exact (reads_int64 given).takes.map EventField.occurredAt
  case reason given => exact (yields_text given).map EventField.reason
  case requiresRefresh given => exact (reads_bool given).takes.map EventField.requiresRefresh
  case direct texts => exact (yields_entries few).map EventField.direct
  case groups texts => exact (yields_entries few).map EventField.groups
  case effective texts => exact (yields_entries few).map EventField.effective

end EventPart

namespace EventText

variable {text : EventText} {event : ChangeEvent}

def says? (text : EventText) : Option ChangeEvent := do
  eventOf? (← text.items.mapM (Item.field? .unknown EventPart.field?))

theorem says?_of_tells (tells : text.Tells event) : text.says? = some event := by
  obtain ⟨directs, memberships, effectives, same, directly, inGroups, effectively⟩ := tells
  have told : (EventPart.all event directs memberships effectives).mapM EventPart.field? =
      some ((eventFields event).map WrittenField.value) := by
    simp only [mapM_eq_some_iff, EventPart.all, List.map_cons, EventPart.field?, mapM_says? directly,
      mapM_says? inGroups, mapM_says? effectively]
    rfl
  obtain ⟨fields, read, same⟩ := exists_fields same told
  rw [says?, read, Option.bind_eq_bind, Option.bind_some, eventOf?_congr same]
  rfl

theorem says?_of_flawed (flawed : text.Flawed) : text.says? = none := by
  cases told : text.says? with
  | none => rfl
  | some event =>
      obtain ⟨fields, read, found⟩ := Option.bind_eq_some_iff.mp told
      rcases flawed with flawed | ⟨part, present, entry, listed, flawed⟩
      · exact absurd flawed (not_flawed read rfl (fun part field => EventPart.name?_of_field?)
          (fun name => count_of_eventOf? found)
          fun part => Nat.le_of_eq (count_of_eventOf? found part.name_mem_names))
      · have readable : text.items.mapM (Item.field? .unknown EventPart.field?) ≠ none := by simp [read]
        exact absurd (EventPart.field?_of_flawed listed flawed) (mapM_ne_none.mp readable _ (mem_parts.mp present))

theorem yields (few : text.tokens.length < UInt64.size) : readEvent.Yields text.tokens text.says? := by
  have fields : (record EventField.read).Yields text.tokens
      (text.items.mapM (Item.field? .unknown EventPart.field?)) := by
    refine yields_record_items (Nat.lt_trans length_lt_mapTokens few) ?_ ?_
    · intro part present
      exact ⟨part.short_name, part.yields (Nat.lt_trans (length_lt_of_mem_parts present) few)⟩
    · intro name foreign
      simp only [EventPart.names, List.mem_cons, List.not_mem_nil, or_false, not_or] at foreign
      rw [EventField.read, Text.ofUtf8?_utf8]
      split <;> simp_all
  exact fields.choose eventOf?

end EventText

/-! ## Frames -/

namespace FrameField

def name? : FrameField → Option String
  | version _ => some Field.version
  | event _ => some Field.event
  | unknown => none

end FrameField

theorem frameOf?_congr {fields others : List FrameField}
    (same : ∀ {β : Type} (select : FrameField → Option β), select .unknown = none →
      (fields.filterMap select).Perm (others.filterMap select)) : frameOf? fields = frameOf? others := by
  unfold frameOf?
  rw [once?_perm (same _ rfl), once?_perm (same _ rfl)]

theorem count_of_frameOf? {fields : List FrameField} {frame : Frame} (found : frameOf? fields = some frame)
    {name : String} (listed : name ∈ FramePart.names) : (fields.filterMap FrameField.name?).count name = 1 := by
  obtain ⟨version, versions, found⟩ := Option.bind_eq_some_iff.mp found
  obtain ⟨event, events, -⟩ := Option.bind_eq_some_iff.mp found
  simp only [FramePart.names, List.mem_cons, List.not_mem_nil, or_false] at listed
  rcases listed with rfl | rfl
  · exact (count_filterMap fun field => by cases field <;> rfl).trans (length_of_once? versions)
  · exact (count_filterMap fun field => by cases field <;> rfl).trans (length_of_once? events)

namespace FramePart

def field? : FramePart → Option FrameField
  | version given => some (.version given)
  | event text => text.says?.map .event

theorem name?_of_field? {part : FramePart} {field : FrameField} (read : part.field? = some field) :
    field.name? = some part.name := by
  cases part with
  | version =>
      cases read
      rfl
  | event text =>
      obtain ⟨event, -, rfl⟩ := Option.map_eq_some_iff.mp read
      rfl

theorem name_mem_names (part : FramePart) : part.name ∈ names := by
  cases part <;> simp [name, names]

end FramePart

namespace FrameText

variable {text : FrameText} {frame : Frame}

def says? (text : FrameText) : Option Frame := do
  frameOf? (← text.items.mapM (Item.field? .unknown FramePart.field?))

theorem says?_of_tells (tells : text.Tells frame) : text.says? = some frame := by
  obtain ⟨event, same, tells⟩ := tells
  have told : [FramePart.version frame.version, .event event].mapM FramePart.field? =
      some (frame.frameFields.map WrittenField.value) := by
    simp only [mapM_eq_some_iff, List.map_cons, FramePart.field?, EventText.says?_of_tells tells]
    rfl
  obtain ⟨fields, read, same⟩ := exists_fields same told
  rw [says?, read, Option.bind_eq_bind, Option.bind_some, frameOf?_congr same]
  rfl

theorem says?_of_flawed (flawed : text.Flawed) : text.says? = none := by
  cases told : text.says? with
  | none => rfl
  | some frame =>
      obtain ⟨fields, read, found⟩ := Option.bind_eq_some_iff.mp told
      rcases flawed with flawed | ⟨event, present, flawed⟩
      · exact absurd flawed (not_flawed read rfl (fun part field => FramePart.name?_of_field?)
          (fun name => count_of_frameOf? found)
          fun part => Nat.le_of_eq (count_of_frameOf? found part.name_mem_names))
      · have readable : text.items.mapM (Item.field? .unknown FramePart.field?) ≠ none := by simp [read]
        refine absurd ?_ (mapM_ne_none.mp readable _ (mem_parts.mp present))
        rw [Item.field?, FramePart.field?, EventText.says?_of_flawed flawed]
        rfl

theorem yields (few : text.tokens.length < UInt64.size) : Frame.read.Yields text.tokens text.says? := by
  have fields : (record FrameField.read).Yields text.tokens
      (text.items.mapM (Item.field? .unknown FramePart.field?)) := by
    refine yields_record_items (Nat.lt_trans length_lt_mapTokens few) ?_ ?_
    · intro part present
      have shorter := Nat.lt_trans (length_lt_of_mem_parts present) few
      cases part with
      | version given =>
          rw [FramePart.name, FrameField.read, Text.ofUtf8?_utf8]
          exact ⟨by decide, (reads_byte given).takes.map FrameField.version⟩
      | event text =>
          rw [FramePart.name, FrameField.read, Text.ofUtf8?_utf8]
          exact ⟨by decide, (EventText.yields shorter).map FrameField.event⟩
    · intro name foreign
      simp only [FramePart.names, List.mem_cons, List.not_mem_nil, or_false, not_or] at foreign
      rw [FrameField.read, Text.ofUtf8?_utf8]
      split <;> simp_all
  exact fields.choose frameOf?

end FrameText

theorem decode_of_spells {text : FrameText} {bytes : List UInt8} (spells : Spells bytes text.tokens)
    (few : bytes.length < UInt64.size) :
    decode bytes = match text.says? with
      | none => .error .malformed
      | some frame => if frame.version = frameVersion then .ok frame else .error (.versionMismatch frame.version) := by
  obtain ⟨following, cut⟩ := spells.exists_tokens []
  rw [List.append_nil] at cut
  rw [decode, cut, FrameText.yields (Nat.lt_of_le_of_lt spells.length_le few)]
  cases text.says? <;> rfl

theorem decode_eq_decode_encode {frame : Frame} (fits : frame.event.Fits) (short : frame.encode.length < UInt64.size)
    {text : FrameText} (tells : text.Tells frame) {bytes : List UInt8} (spells : Spells bytes text.tokens)
    (few : bytes.length < UInt64.size) : decode bytes = decode frame.encode := by
  obtain ⟨written, writtenTells, encodes⟩ := exists_text_encode fits
  rw [decode_of_spells spells few, decode_of_spells encodes short, FrameText.says?_of_tells tells,
    FrameText.says?_of_tells writtenTells]

/-- The order of the parts, entries under other names and the spelling of the tokens do not matter. Only an expiry may
be left out, and nothing may stand twice. -/
theorem decodes_by_name (text : FrameText) {bytes : List UInt8} (spells : Spells bytes text.tokens)
    (few : bytes.length < UInt64.size) :
    (∀ frame, text.Tells frame → decode bytes =
        if frame.version = frameVersion then .ok frame else .error (.versionMismatch frame.version)) ∧
      (text.Flawed → decode bytes = .error .malformed) := by
  have decoded := decode_of_spells spells few
  constructor
  · intro frame tells
    rw [decoded, FrameText.says?_of_tells tells]
  · intro flawed
    rw [decoded, FrameText.says?_of_flawed flawed]

theorem decodes_by_name_rearranged :
    let event : ChangeEvent :=
      ⟨⟨.numbered 1, -1, Reason.playerGroupAdd, false, ⟨[], [.add "vip" none], []⟩⟩, .zero⟩
    let note : Extra EntryPart.names (deepest - 4) :=
      ⟨"note", [.openArray, .simple nullCode, .stop], by decide, by decide,
        .openArray [[.simple nullCode]] (List.forall_mem_singleton.mpr .null)⟩
    let entry : EntryText := ⟨[.extra note, .known (.key "vip"), .known (.action .add)]⟩
    let told : EventText := ⟨(EventPart.all event [] [entry] []).reverse.map .known⟩
    let text : FrameText := ⟨[.known (.event told), .known (.version frameVersion)]⟩
    let lacking : FrameText := ⟨[.known (.event told)]⟩
    text.Tells ⟨frameVersion, event⟩ ∧ lacking.Flawed ∧
      decode (text.tokens.flatMap Token.written) = .ok ⟨frameVersion, event⟩ ∧
      decode (lacking.tokens.flatMap Token.written) = .error .malformed := by
  intro event note entry told text lacking
  have entries : [entry].Forall₂ EntryText.Tells [.add "vip" none] :=
    .cons (.inr ⟨rfl, List.Perm.swap _ _ _⟩) .nil
  have reversed : (parts told.items).Perm (EventPart.all event [] [entry] []) :=
    List.reverse_perm (EventPart.all _ _ _ _)
  have tells : text.Tells ⟨frameVersion, event⟩ :=
    ⟨told, List.Perm.swap _ _ _, [], [entry], [], reversed, .nil, entries, .nil⟩
  have flawed : lacking.Flawed := .inl (.inl ⟨Field.version, by decide, by decide⟩)
  have spells (given : FrameText) (fit : ∀ token ∈ given.tokens, token.Fits) :
      Spells (given.tokens.flatMap Token.written) given.tokens :=
    spells_flatMap fit
  refine ⟨tells, flawed, ?_, ?_⟩
  · exact (decodes_by_name text (spells text (by decide +kernel)) (by decide +kernel)).1 _ tells
  · exact (decodes_by_name lacking (spells lacking (by decide +kernel)) (by decide +kernel)).2 flawed

end PermissionFeed.Frame
