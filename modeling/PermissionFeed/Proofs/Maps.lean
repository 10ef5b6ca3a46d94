import Mathlib.Data.List.Nodup
import PermissionFeed.Frame
import PermissionFeed.Proofs.Lists
import PermissionFeed.Proofs.Values

namespace PermissionFeed.Frame

open Cbor Cbor.Reader

/-- An entry under a name that is not one of these, with any value that is not nested too deeply. -/
structure Extra (names : List String) (room : Nat) where
  name : String
  value : List Token
  foreign : name ∉ names
  short : (Text.utf8 name).length ≤ longestName
  formed : Value room value

inductive Item (ι : Type) (names : List String) (room : Nat) where
  | known (part : ι)
  | extra (extra : Extra names room)

variable {ι φ β : Type} {names : List String} {room : Nat}

namespace Item

def part? : Item ι names room → Option ι
  | known part => some part
  | extra _ => none

def name (called : ι → String) : Item ι names room → String
  | known part => called part
  | extra other => other.name

def tokens (written : ι → List Token) : Item ι names room → List Token
  | known part => written part
  | extra other => other.value

def field? (unknown : φ) (read? : ι → Option φ) : Item ι names room → Option φ
  | known part => read? part
  | extra _ => some unknown

end Item

def parts (items : List (Item ι names room)) : List ι :=
  items.filterMap Item.part?

def mapTokens (called : ι → String) (written : ι → List Token) (items : List (Item ι names room)) : List Token :=
  .map (UInt64.ofNat items.length) :: items.flatMap fun item => textToken (item.name called) :: item.tokens written

def Flawed (required names : List String) : Prop :=
  (∃ name ∈ required, name ∉ names) ∨ ¬names.Nodup

section Reading

variable {items : List (Item ι names room)} {called : ι → String} {written : ι → List Token}

theorem mem_parts {part : ι} : part ∈ parts items ↔ .known part ∈ items := by
  rw [parts, List.mem_filterMap]
  constructor
  · rintro ⟨item, present, same⟩
    cases item with
    | known other =>
        cases same
        exact present
    | extra => contradiction
  · exact fun present => ⟨_, present, rfl⟩

theorem length_lt_mapTokens : items.length < (mapTokens called written items).length :=
  Nat.lt_succ_of_le (length_le_flatMap fun _ _ => ⟨_, _, rfl⟩)

theorem length_lt_of_mem_parts {part : ι} (present : part ∈ parts items) :
    (written part).length < (mapTokens called written items).length := by
  have shorter := length_le_of_mem_flatMap (fun item => textToken (item.name called) :: item.tokens written)
    (mem_parts.mp present)
  exact Nat.lt_succ_of_le (Nat.le_of_succ_le shorter)

theorem yields_record_items {entry : List UInt8 → Reader φ} {unknown : φ} {read? : ι → Option φ}
    (few : items.length < UInt64.size)
    (each : ∀ part ∈ parts items, (Text.utf8 (called part)).length ≤ longestName ∧
      (entry (Text.utf8 (called part))).Yields (written part) (read? part))
    (skips : ∀ name ∉ names, entry (Text.utf8 name) = do skip room; return unknown) :
    (record entry).Yields (mapTokens called written items) (items.mapM (Item.field? unknown read?)) := by
  refine yields_record few fun item present => ?_
  cases item with
  | known part => exact each part (mem_parts.mpr present)
  | extra extra =>
      refine ⟨extra.short, ?_⟩
      rw [Item.name, skips extra.name extra.foreign]
      exact extra.formed.skipped.conclude fun _ => (reads_pure unknown).takes

end Reading

variable {items : List (Item ι names room)} {unknown : φ} {read? : ι → Option φ} {fields : List φ}

theorem filterMap_fields (read : items.mapM (Item.field? unknown read?) = some fields) {select : φ → Option β}
    (ignored : select unknown = none) :
    fields.filterMap select = (parts items).filterMap fun part => (read? part).bind select := by
  rw [filterMap_of_mapM read, parts, List.filterMap_filterMap]
  congr 1
  funext item
  cases item with
  | known part => rfl
  | extra => exact ignored

theorem exists_fields {standard : List ι} {given : List φ} (same : (parts items).Perm standard)
    (told : standard.mapM read? = some given) :
    ∃ fields, items.mapM (Item.field? unknown read?) = some fields ∧
      ∀ {β : Type} (select : φ → Option β), select unknown = none →
        (fields.filterMap select).Perm (given.filterMap select) := by
  have readable : items.mapM (Item.field? unknown read?) ≠ none := by
    have each : standard.mapM read? ≠ none := by simp [told]
    refine mapM_ne_none.mpr fun item present => ?_
    cases item with
    | known part => exact mapM_ne_none.mp each part (same.subset (mem_parts.mpr present))
    | extra => exact Option.some_ne_none _
  obtain ⟨fields, read⟩ := Option.ne_none_iff_exists'.mp readable
  refine ⟨fields, read, fun select ignored => ?_⟩
  rw [filterMap_fields read ignored, filterMap_of_mapM told]
  exact same.filterMap _

theorem filterMap_names (read : items.mapM (Item.field? unknown read?) = some fields) {name? : φ → Option String}
    {called : ι → String} (ignored : name? unknown = none)
    (named : ∀ part field, read? part = some field → name? field = some (called part)) :
    fields.filterMap name? = (parts items).map called := by
  rw [filterMap_fields read ignored, ← List.filterMap_eq_map]
  refine List.filterMap_congr fun part present => ?_
  have readable : items.mapM (Item.field? unknown read?) ≠ none := by simp [read]
  cases given : read? part with
  | none => exact absurd given (mapM_ne_none.mp readable _ (mem_parts.mp present))
  | some field => exact named part field given

theorem once?_perm {values others : List β} (same : values.Perm others) : once? values = once? others := by
  match others with
  | [] => rw [List.perm_nil.mp same]
  | [other] => rw [List.perm_singleton.mp same]
  | first :: second :: others =>
      match values with
      | [] | [_] => simpa using same.length_eq
      | _ :: _ :: _ => rfl

theorem atMostOnce?_perm {values others : List β} (same : values.Perm others) :
    atMostOnce? values = atMostOnce? others := by
  match others with
  | [] => rw [List.perm_nil.mp same]
  | [other] => rw [List.perm_singleton.mp same]
  | first :: second :: others =>
      match values with
      | [] | [_] => simpa using same.length_eq
      | _ :: _ :: _ => rfl

theorem count_filterMap {select : φ → Option β} {name? : φ → Option String} {name : String}
    (selects : ∀ field, (select field).isSome = (name? field == some name)) :
    (fields.filterMap name?).count name = (fields.filterMap select).length := by
  simp only [List.count_filterMap, List.length_filterMap_eq_countP, selects]

theorem length_of_once? {values : List β} {value : β} (found : once? values = some value) : values.length = 1 := by
  unfold once? at found
  split at found
  · rfl
  · contradiction

theorem length_of_atMostOnce? {values : List β} {value? : Option β} (found : atMostOnce? values = some value?) :
    values.length ≤ 1 := by
  unfold atMostOnce? at found
  split at found
  · exact Nat.zero_le 1
  · exact Nat.le_refl 1
  · contradiction

theorem not_flawed (read : items.mapM (Item.field? unknown read?) = some fields) {name? : φ → Option String}
    {called : ι → String} (ignored : name? unknown = none)
    (named : ∀ part field, read? part = some field → name? field = some (called part)) {required : List String}
    (once : ∀ name ∈ required, (fields.filterMap name?).count name = 1)
    (atMostOnce : ∀ part, (fields.filterMap name?).count (called part) ≤ 1) :
    ¬Flawed required ((parts items).map called) := by
  rw [filterMap_names read ignored named] at once atMostOnce
  rintro (⟨name, needed, missing⟩ | repeated)
  · have counted := once name needed
    rw [List.count_eq_zero_of_not_mem missing] at counted
    contradiction
  · refine repeated (List.nodup_iff_count_le_one.mpr fun name => ?_)
    by_cases present : name ∈ (parts items).map called
    · obtain ⟨part, -, rfl⟩ := List.mem_map.mp present
      exact atMostOnce part
    · rw [List.count_eq_zero_of_not_mem present]
      exact Nat.zero_le 1

end PermissionFeed.Frame
