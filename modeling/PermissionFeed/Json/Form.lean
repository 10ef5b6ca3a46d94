import PermissionFeed.ChangeEvent
import PermissionFeed.Field
import PermissionFeed.Json.Basic

/-!
# JSON forms

A form says how the values of a type are written in JSON and read back. Records are written as objects with their
fields in a fixed order. They are read with their fields in any order, other fields ignored, or as arrays of exactly
their fields in order. Reading text and writing it again normalises it.
-/

namespace PermissionFeed.Json

structure Form (α : Type) where
  write : α → Json
  read? : Json → Option α

namespace Form

def text : Form String where
  write text := .string (some text)
  read?
    | .string text => text
    | _ => none

def bool : Form Bool where
  write := .bool
  read?
    | .bool value => some value
    | _ => none

def ofDigits (digits : List Char) : Nat :=
  digits.foldl (fun value digit => 10 * value + (digit.toNat - '0'.toNat)) 0

/-- The number that a literal stands for if it is written as a whole number; there is no negative zero. -/
def wholeNumber? (literal : List Char) : Option Int :=
  match literal with
  | '-' :: digits =>
      if digits.all Char.isDigit ∧ ofDigits digits ≠ 0 then some (-(ofDigits digits : Int)) else none
  | digits => if digits.all Char.isDigit then some (ofDigits digits : Int) else none

def literalOf (value : Int) : List Char :=
  if value < 0 then '-' :: Nat.toDigits 10 value.natAbs else Nat.toDigits 10 value.natAbs

def int64 : Form Int64 where
  write value := .number (literalOf value.toInt)
  read?
    | .number literal => do
        let value ← wholeNumber? literal
        if Int64.minValue.toInt ≤ value ∧ value ≤ Int64.maxValue.toInt then some (Int64.ofInt value) else none
    | _ => none

def byte : Form UInt8 where
  write value := .number (literalOf value.toNat)
  read?
    | .number literal => do
        let value ← wholeNumber? literal
        if 0 ≤ value ∧ value < 256 then some (UInt8.ofNat value.toNat) else none
    | _ => none

def optional {α : Type} (form : Form α) : Form (Option α) where
  write
    | none => .null
    | some value => form.write value
  read?
    | .null => some none
    | json => (form.read? json).map some

def list {α : Type} (form : Form α) : Form (List α) where
  write values := .array (values.map form.write)
  read?
    | .array items => items.mapM form.read?
    | _ => none

def via {α β : Type} (form : Form α) (representation : β → α) (ofRepresentation : α → Option β) : Form β where
  write value := form.write (representation value)
  read? json := (form.read? json).bind ofRepresentation

def choice {α : Type} (label : α → String) (ofLabel? : String → Option α) : Form α where
  write value := .string (some (label value))
  read?
    | .string name => name.bind ofLabel?
    | .object [(name, .null)] => name.bind ofLabel?
    | _ => none

def record (fields : List (String × Json)) : Json :=
  .object (fields.map fun (name, value) => (some name, value))

def valuesOf (name : String) (members : List (Option String × Json)) : List Json :=
  (members.filter fun member => member.1 = some name).map Prod.snd

def field? (members : List (Option String × Json)) (name : String) : Option (Option Json) :=
  match valuesOf name members with
  | [] => some none
  | [value] => some (some value)
  | _ => none

def fields? (names : List String) : Json → Option (List (Option Json))
  | .object members => if members.all (·.1.isSome) then names.mapM (field? members) else none
  | .array items => if items.length = names.length then some (items.map some) else none
  | _ => none

def expiryOf? (value : Option Json) : Option Expiry :=
  match value with
  | none => some none
  | some json => int64.optional.read? json

def row (keyName : String) : Form Row where
  write row := record [(keyName, text.write row.key), (Field.expiresAt, int64.optional.write row.expiry)]
  read? json := do
    match ← fields? [keyName, Field.expiresAt] json with
    | [some key, expiry] => return ⟨← text.read? key, ← expiryOf? expiry⟩
    | _ => none

def grant : Form Grant :=
  row "permission"

def membership : Form Membership :=
  row "group_name"

def group : Form Group where
  write group := record [("name", text.write group.name), ("permission_grants", grant.list.write group.grants)]
  read? json := do
    match ← fields? ["name", "permission_grants"] json with
    | [some name, some grants] => return ⟨← text.read? name, ← grant.list.read? grants⟩
    | _ => none

def groups : Form Groups where
  write groups := record (groups.toList.map fun (name, value) => (name, group.write value))
  read?
    | .object members => do
        let groups ← members.mapM fun (name, value) => do return (← name, ← group.read? value)
        return Std.ExtTreeMap.ofList groups
    | _ => none

def player : Form PlayerId :=
  text.via toString fun text => PlayerId.ofChars? text.toList

def eventId : Form EventId :=
  byte.list.via (·.bytes.toList) EventId.ofBytes?

def rowSet (form : Form Row) : Form RowSet :=
  form.list.via Std.ExtTreeSet.toList fun rows => some (Std.ExtTreeSet.ofList rows)

def nameSet : Form NameSet :=
  text.list.via Std.ExtTreeSet.toList fun names => some (Std.ExtTreeSet.ofList names)

def snapshot : Form Snapshot where
  write snapshot := record [
    (Field.playerId, player.write snapshot.player),
    ("group_memberships", (rowSet membership).write snapshot.memberships),
    ("direct_grants", (rowSet grant).write snapshot.direct),
    ("effective_permissions", nameSet.write snapshot.effective)]
  read? json := do
    match ← fields? [Field.playerId, "group_memberships", "direct_grants", "effective_permissions"] json with
    | [some id, some memberships, some direct, some effective] =>
        return ⟨← player.read? id, ← (rowSet membership).read? memberships, ← (rowSet grant).read? direct,
          ← nameSet.read? effective⟩
    | _ => none

def scope : Form Scope where
  write scope := record [
    ("effective", bool.write scope.effective), ("direct", bool.write scope.direct),
    ("groups", bool.write scope.groups)]
  read? json := do
    match ← fields? ["effective", "direct", "groups"] json with
    | [some effective, some direct, some groups] =>
        return ⟨← bool.read? effective, ← bool.read? direct, ← bool.read? groups⟩
    | _ => none

def outcome : Form Outcome :=
  choice Outcome.label Outcome.ofLabel?

def action : Form Action :=
  choice Action.label Action.ofLabel?

def entry : Form Entry where
  write entry := record [
    (Field.action, action.write entry.action), (Field.key, text.write entry.key),
    (Field.expiresAt, int64.optional.write entry.expiry)]
  read? json := do
    match ← fields? [Field.action, Field.key, Field.expiresAt] json with
    | [some wanted, some key, expiry] => return ⟨← action.read? wanted, ← text.read? key, ← expiryOf? expiry⟩
    | _ => none

def delta : Form Delta where
  write delta := record [
    ("direct", entry.list.write delta.direct), ("groups", entry.list.write delta.groups),
    ("effective", entry.list.write delta.effective)]
  read? json := do
    match ← fields? ["direct", "groups", "effective"] json with
    | [some direct, some groups, some effective] =>
        return ⟨← entry.list.read? direct, ← entry.list.read? groups, ← entry.list.read? effective⟩
    | _ => none

def eventFields : List String :=
  [Field.eventId, Field.playerId, Field.occurredAt, Field.reason, Field.requiresRefresh, Field.directDeltas,
    Field.groupDeltas, Field.effectiveDeltas]

def event : Form ChangeEvent where
  write event := record (eventFields.zip [
    eventId.write event.id, player.write event.player, int64.write event.occurredAt, text.write event.reason,
    bool.write event.requiresRefresh, entry.list.write event.delta.direct, entry.list.write event.delta.groups,
    entry.list.write event.delta.effective])
  read? json := do
    match ← fields? eventFields json with
    | [some id, some owner, some occurredAt, some reason, some refresh, some direct, some groups, some effective] =>
        return {
          id := ← eventId.read? id
          player := ← player.read? owner
          occurredAt := ← int64.read? occurredAt
          reason := ← text.read? reason
          requiresRefresh := ← bool.read? refresh
          delta := ⟨← entry.list.read? direct, ← entry.list.read? groups, ← entry.list.read? effective⟩ }
    | _ => none

def print {α : Type} (form : Form α) (value : α) : String :=
  (form.write value).print

def parse? {α : Type} (form : Form α) (text : String) : Option α := do
  form.read? (← Json.parse? text)

def normalize? {α : Type} (form : Form α) (text : String) : Option String :=
  (form.parse? text).map form.print

end Form

end PermissionFeed.Json
