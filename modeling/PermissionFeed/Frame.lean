import PermissionFeed.Cbor.Reader
import PermissionFeed.ChangeEvent
import PermissionFeed.Field

/-!
# Frames

A frame carries one event over the wire, with a version that lets a receiver refuse what it does not understand. It is
a CBOR map. Writing is canonical: fields in a fixed order, numbers as short as possible, all lengths in front. Reading
takes fields in any order and skips unknown ones; the version is looked at after everything has been read, and what
follows the frame is ignored.
-/

namespace PermissionFeed

open Cbor

def frameVersion : UInt8 :=
  1

structure Frame where
  version : UInt8
  event : ChangeEvent
  deriving DecidableEq

inductive FrameError where
  | malformed
  | versionMismatch (peer : UInt8)
  deriving DecidableEq

def FrameError.message? : FrameError → Option String
  | .malformed => none
  | .versionMismatch peer => some s!"frame version mismatch: local={frameVersion}, peer={peer}"

namespace Frame

def textToken (text : String) : Token :=
  .text (Text.utf8 text)

def byteToken (byte : UInt8) : Token :=
  .unsigned byte.toUInt64

def int64Token (value : Int64) : Token :=
  if value < 0 then .negative (~~~value).toUInt64 else .unsigned value.toUInt64

def boolToken (value : Bool) : Token :=
  .simple (if value then Reader.trueCode else Reader.falseCode)

def expiryToken (expiry : Expiry) : Token :=
  match expiry with
  | none => .simple Reader.nullCode
  | some time => int64Token time

def arrayToken {α : Type} (items : List α) : Token :=
  .array (UInt64.ofNat items.length)

def entryTokens (entry : Entry) : List Token :=
  [.map 3, textToken Field.action, textToken entry.action.label, textToken Field.key, textToken entry.key,
    textToken Field.expiresAt, expiryToken entry.expiry]

def entriesTokens (entries : List Entry) : List Token :=
  arrayToken entries :: entries.flatMap entryTokens

def eventTokens (event : ChangeEvent) : List Token :=
  [.map 8, textToken Field.eventId, .array 16] ++ event.id.bytes.toList.map byteToken ++
    [textToken Field.playerId, .bytes event.player.bytes.toList] ++
    [textToken Field.occurredAt, int64Token event.occurredAt] ++
    [textToken Field.reason, textToken event.reason] ++
    [textToken Field.requiresRefresh, boolToken event.requiresRefresh] ++
    textToken Field.directDeltas :: entriesTokens event.delta.direct ++
    textToken Field.groupDeltas :: entriesTokens event.delta.groups ++
    textToken Field.effectiveDeltas :: entriesTokens event.delta.effective

def toTokens (frame : Frame) : List Token :=
  [.map 2, textToken Field.version, byteToken frame.version, textToken Field.event] ++ eventTokens frame.event

def encode (frame : Frame) : List UInt8 :=
  frame.toTokens.flatMap Token.written

def deepest : Nat :=
  256

def once? {α : Type} (values : List α) : Option α :=
  match values with
  | [value] => some value
  | _ => none

def atMostOnce? {α : Type} (values : List α) : Option (Option α) :=
  match values with
  | [] => some none
  | [value] => some (some value)
  | _ => none

def action? (name : List UInt8) : Option Action := do
  Action.ofLabel? (← Text.ofUtf8? name)

inductive EntryField where
  | action (action : Action)
  | key (key : String)
  | expiry (expiry : Expiry)
  | unknown

def EntryField.read (name : List UInt8) : Reader EntryField := do
  match Text.ofUtf8? name with
  | some Field.action => return .action (← Reader.choice action?)
  | some Field.key => return .key (← Reader.text)
  | some Field.expiresAt => return .expiry (← Reader.optional Reader.int64)
  | _ =>
      Reader.skip (deepest - 4)
      return .unknown

def entryOf? (fields : List EntryField) : Option Entry := do
  let action ← once? (fields.filterMap fun | .action action => some action | _ => none)
  let key ← once? (fields.filterMap fun | .key key => some key | _ => none)
  let expiry ← atMostOnce? (fields.filterMap fun | .expiry expiry => some expiry | _ => none)
  return ⟨action, key, expiry.getD none⟩

def readEntry : Reader Entry := do
  (entryOf? (← Reader.record EntryField.read) : Option Entry)

def readEventId : Reader EventId := do
  (EventId.ofBytes? (← Reader.tuple 16) : Option EventId)

def readPlayer : Reader PlayerId := do
  (PlayerId.ofBytes? (← Reader.shortBytes) : Option PlayerId)

inductive EventField where
  | id (id : EventId)
  | player (player : PlayerId)
  | occurredAt (time : Instant)
  | reason (reason : String)
  | requiresRefresh (requiresRefresh : Bool)
  | direct (entries : List Entry)
  | groups (entries : List Entry)
  | effective (entries : List Entry)
  | unknown

def EventField.read (name : List UInt8) : Reader EventField := do
  match Text.ofUtf8? name with
  | some Field.eventId => return .id (← readEventId)
  | some Field.playerId => return .player (← readPlayer)
  | some Field.occurredAt => return .occurredAt (← Reader.int64)
  | some Field.reason => return .reason (← Reader.text)
  | some Field.requiresRefresh => return .requiresRefresh (← Reader.bool)
  | some Field.directDeltas => return .direct (← Reader.list readEntry)
  | some Field.groupDeltas => return .groups (← Reader.list readEntry)
  | some Field.effectiveDeltas => return .effective (← Reader.list readEntry)
  | _ =>
      Reader.skip (deepest - 2)
      return .unknown

def eventOf? (fields : List EventField) : Option ChangeEvent := do
  let id ← once? (fields.filterMap fun | .id id => some id | _ => none)
  let player ← once? (fields.filterMap fun | .player player => some player | _ => none)
  let occurredAt ← once? (fields.filterMap fun | .occurredAt time => some time | _ => none)
  let reason ← once? (fields.filterMap fun | .reason reason => some reason | _ => none)
  let requiresRefresh ← once? (fields.filterMap fun | .requiresRefresh refresh => some refresh | _ => none)
  let direct ← once? (fields.filterMap fun | .direct entries => some entries | _ => none)
  let groups ← once? (fields.filterMap fun | .groups entries => some entries | _ => none)
  let effective ← once? (fields.filterMap fun | .effective entries => some entries | _ => none)
  return { id, player, occurredAt, reason, requiresRefresh, delta := ⟨direct, groups, effective⟩ }

def readEvent : Reader ChangeEvent := do
  (eventOf? (← Reader.record EventField.read) : Option ChangeEvent)

inductive FrameField where
  | version (version : UInt8)
  | event (event : ChangeEvent)
  | unknown

def FrameField.read (name : List UInt8) : Reader FrameField := do
  match Text.ofUtf8? name with
  | some Field.version => return .version (← Reader.byte)
  | some Field.event => return .event (← readEvent)
  | _ =>
      Reader.skip (deepest - 1)
      return .unknown

def frameOf? (fields : List FrameField) : Option Frame := do
  let version ← once? (fields.filterMap fun | .version version => some version | _ => none)
  let event ← once? (fields.filterMap fun | .event event => some event | _ => none)
  return ⟨version, event⟩

def read : Reader Frame := do
  (frameOf? (← Reader.record FrameField.read) : Option Frame)

def decode (bytes : List UInt8) : Except FrameError Frame :=
  match read (tokens bytes) with
  | none => .error .malformed
  | some (frame, _) => if frame.version = frameVersion then .ok frame else .error (.versionMismatch frame.version)

end Frame

end PermissionFeed
