import Mathlib.Data.List.Chain
import PermissionFeed.Proofs.Json.Literals

namespace PermissionFeed.Json

namespace Token

def isNumber : Token → Bool
  | number _ => true
  | _ => false

def Fits : Token → Prop
  | number literal => ∃ value, literal = Form.literalOf value
  | string text => text.isSome
  | _ => True

def Apart (tokens : List Token) : Prop :=
  tokens.IsChain fun left right => left.isNumber → right.isNumber = false

theorem exists_numeral (value : Int) :
    ∃ first later, Form.literalOf value = first :: later ∧ (first = '-' ∨ first.isDigit) := by
  obtain ⟨sign, ⟨rfl, _⟩ | ⟨rfl, _⟩, shape⟩ := exists_literalOf value
  · exact ⟨_, _, shape, Or.inl rfl⟩
  · obtain ⟨first, later, digits, digit, _⟩ := exists_toDigits value.natAbs
    exact ⟨first, later, shape.trans digits, Or.inr digit⟩

theorem next?_of_numeral {first : Char} (numeral : first = '-' ∨ first.isDigit) (later : List Char) :
    next? (first :: later) = (number? (first :: later)).map fun (literal, rest) => (.number literal, rest) := by
  rw [next?]
  all_goals
    rintro rest ⟨⟩
    simp at numeral

theorem next?_written {token : Token} (fits : token.Fits) {rest : List Char}
    (closes : token.isNumber → Closes rest) : next? (token.written ++ rest) = some (token, rest) := by
  cases token with
  | number literal =>
      obtain ⟨value, rfl⟩ := fits
      obtain ⟨first, later, shape, numeral⟩ := exists_numeral value
      have read := number?_literalOf value (closes rfl)
      rw [shape, List.cons_append] at read
      rw [written, shape, List.cons_append, next?_of_numeral numeral, read]
      rfl
  | string text =>
      obtain ⟨text, rfl⟩ := Option.isSome_iff_exists.mp fits
      obtain ⟨pieces, make, read⟩ := pieces?_flatMap_escape text.toList rest
      have quoted : Token.written (.string (some text)) ++ rest =
          '"' :: (text.toList.flatMap escape ++ '"' :: rest) := by
        simp [written, quote]
      rw [quoted, next?, read]
      simp only [Option.map_some, textOf?_of_makes make, String.ofList_toList]
  | bool value => cases value <;> rfl
  | _ => rfl

theorem exists_written {token : Token} (fits : token.Fits) :
    ∃ first later, token.written = first :: later ∧ isSpace first = false ∧
      (token.isNumber = false → ∀ rest, Closes (first :: rest)) := by
  have closes {first : Char} (other : first.isDigit = false ∧ first ≠ '.' ∧ first ≠ 'e' ∧ first ≠ 'E')
      (rest : List Char) : Closes (first :: rest) := by
    rintro _ ⟨⟩
    exact other
  cases token with
  | number literal =>
      obtain ⟨value, rfl⟩ := fits
      obtain ⟨first, later, shape, numeral⟩ := exists_numeral value
      refine ⟨first, later, shape, ?_, nofun⟩
      rcases numeral with rfl | digit
      · rfl
      · have spaces : ∀ space ∈ [' ', '\t', '\n', '\r'], ¬ space.isDigit := by simp
        grind [isSpace]
  | bool value => cases value <;> exact ⟨_, _, rfl, rfl, fun _ => closes (by decide)⟩
  | _ => exact ⟨_, _, rfl, rfl, fun _ => closes (by decide)⟩

theorem closes_written {token : Token} (fits : token.Fits) (other : token.isNumber = false) (rest : List Char) :
    Closes (token.written ++ rest) := by
  obtain ⟨first, later, shape, _, closes⟩ := exists_written fits
  rw [shape]
  exact closes other _

theorem tokensWithin?_written {tokens : List Token} (fit : ∀ token ∈ tokens, token.Fits) (apart : Apart tokens)
    {count : Nat} (enough : (tokens.flatMap written).length ≤ count) :
    tokensWithin? count (tokens.flatMap written) = some tokens := by
  induction tokens generalizing count with
  | nil => cases count <;> rfl
  | cons token rest ih =>
      rw [List.forall_mem_cons] at fit
      obtain ⟨first, later, shape, visible, _⟩ := exists_written fit.1
      have closes : token.isNumber → Closes (rest.flatMap written) := by
        intro number
        cases rest with
        | nil => nofun
        | cons next rest =>
            have other := (List.isChain_cons_cons.mp apart).1 number
            exact closes_written (List.forall_mem_cons.mp fit.2).1 other _
      have read := next?_written fit.1 closes
      rw [List.flatMap_cons] at enough ⊢
      rw [shape, List.cons_append] at read enough ⊢
      cases count with
      | zero => contradiction
      | succ count =>
          have fewer : (rest.flatMap written).length ≤ count := by
            simp only [List.length_cons, List.length_append] at enough
            omega
          rw [tokensWithin?, visible, if_neg Bool.false_ne_true, read]
          simp [ih fit.2 apart.tail fewer]

theorem tokens?_written {tokens : List Token} (fit : ∀ token ∈ tokens, token.Fits) (apart : Apart tokens) :
    tokens? (tokens.flatMap written) = some tokens :=
  tokensWithin?_written fit apart (Nat.le_refl _)

theorem Apart.cons {tokens : List Token} {separator : Token} (plain : separator.isNumber = false)
    (apart : Apart tokens) : Apart (separator :: tokens) :=
  List.isChain_cons.mpr ⟨fun _ _ number => by simp [plain] at number, apart⟩

theorem Apart.join {before after : List Token} {separator : Token} (plain : separator.isNumber = false)
    (first : Apart before) (second : Apart after) : Apart (before ++ separator :: after) := by
  refine List.isChain_append.mpr ⟨first, second.cons plain, ?_⟩
  rintro _ _ _ ⟨⟩ _
  exact plain

end Token

mutual

theorem apart_tokens (json : Json) : Token.Apart json.tokens := by
  match json with
  | array items => exact .join rfl ((apart_itemTokens items).cons rfl) .nil
  | object members => exact .join rfl ((apart_memberTokens members).cons rfl) .nil
  | null | bool _ | number _ | string _ => exact .singleton _

theorem apart_itemTokens (items : List Json) : Token.Apart (itemTokens items) := by
  match items with
  | [] => exact .nil
  | [item] => exact apart_tokens item
  | item :: second :: rest => exact .join rfl (apart_tokens item) (apart_itemTokens (second :: rest))

theorem apart_memberTokens (members : List (Option String × Json)) : Token.Apart (memberTokens members) := by
  match members with
  | [] => exact .nil
  | [(name, value)] => exact ((apart_tokens value).cons rfl).cons rfl
  | (name, value) :: second :: rest =>
      exact .join rfl (((apart_tokens value).cons rfl).cons rfl) (apart_memberTokens (second :: rest))

end

theorem exists_tokens (json : Json) : ∃ first later, json.tokens = first :: later ∧ first ≠ .closeArray := by
  cases json <;> exact ⟨_, _, rfl, nofun⟩

theorem itemTokens_cons (item second : Json) (rest : List Json) :
    itemTokens (item :: second :: rest) = item.tokens ++ .comma :: itemTokens (second :: rest) :=
  rfl

theorem memberTokens_cons (name : Option String) (value : Json) (second : Option String × Json)
    (rest : List (Option String × Json)) : memberTokens ((name, value) :: second :: rest) =
      .string name :: .colon :: (value.tokens ++ .comma :: memberTokens (second :: rest)) :=
  rfl

theorem exists_itemTokens (item : Json) (items : List Json) :
    ∃ first later, itemTokens (item :: items) = first :: later ∧ first ≠ .closeArray := by
  obtain ⟨first, later, shape, opening⟩ := exists_tokens item
  cases items with
  | nil => exact ⟨first, later, shape, opening⟩
  | cons second rest => exact ⟨first, _, by rw [itemTokens_cons, shape]; rfl, opening⟩

theorem exists_memberTokens (member : Option String × Json) (members : List (Option String × Json)) :
    ∃ name later, memberTokens (member :: members) = .string name :: later := by
  cases members with
  | nil => exact ⟨_, _, rfl⟩
  | cons second rest => exact ⟨_, _, rfl⟩

mutual

theorem value?_tokens (json : Json) {depth : Nat} (enough : 2 * json.tokens.length ≤ depth + 1) (rest : List Token) :
    value? depth (json.tokens ++ rest) = some (json, rest) := by
  match depth, json with
  | 0, json =>
      obtain ⟨first, later, shape, _⟩ := exists_tokens json
      simp only [shape, List.length_cons] at enough
      omega
  | depth + 1, array [] => rfl
  | depth + 1, array (item :: items) =>
      obtain ⟨first, later, shape, opening⟩ := exists_itemTokens item items
      have left : 2 * (itemTokens (item :: items)).length ≤ depth := by
        simp only [tokens, List.length_append, List.length_cons] at enough
        omega
      have read := items?_itemTokens item items left rest
      have written : tokens (.array (item :: items)) ++ rest =
          .openArray :: (itemTokens (item :: items) ++ .closeArray :: rest) := by
        simp [tokens]
      rw [written, value?, read]
      · rfl
      · rw [shape]
        rintro _ ⟨⟩
        exact opening rfl
  | depth + 1, object [] => rfl
  | depth + 1, object (member :: members) =>
      obtain ⟨name, later, shape⟩ := exists_memberTokens member members
      have left : 2 * (memberTokens (member :: members)).length ≤ depth := by
        simp only [tokens, List.length_append, List.length_cons] at enough
        omega
      have read := members?_memberTokens member members left rest
      have written : tokens (.object (member :: members)) ++ rest =
          .openObject :: (memberTokens (member :: members) ++ .closeObject :: rest) := by
        simp [tokens]
      rw [written, value?, read]
      · rfl
      · rw [shape]
        rintro _ ⟨⟩
  | depth + 1, null | depth + 1, bool _ | depth + 1, number _ | depth + 1, string _ => rfl

theorem items?_itemTokens (item : Json) (items : List Json) {depth : Nat}
    (enough : 2 * (itemTokens (item :: items)).length ≤ depth) (rest : List Token) :
    items? depth (itemTokens (item :: items) ++ .closeArray :: rest) = some (item :: items, rest) := by
  match depth, items with
  | 0, items =>
      obtain ⟨first, later, shape, _⟩ := exists_itemTokens item items
      simp only [shape, List.length_cons] at enough
      omega
  | depth + 1, [] =>
      rw [itemTokens] at enough ⊢
      rw [items?, value?_tokens item (by omega)]
      rfl
  | depth + 1, second :: items =>
      rw [itemTokens_cons, List.length_append, List.length_cons] at enough
      rw [itemTokens_cons, List.append_assoc, List.cons_append, items?, value?_tokens item (by omega)]
      simp only [Option.bind_eq_bind, Option.bind_some]
      rw [items?_itemTokens second items (by omega)]
      rfl

theorem members?_memberTokens (member : Option String × Json) (members : List (Option String × Json)) {depth : Nat}
    (enough : 2 * (memberTokens (member :: members)).length ≤ depth) (rest : List Token) :
    members? depth (memberTokens (member :: members) ++ .closeObject :: rest) = some (member :: members, rest) := by
  match depth, member, members with
  | 0, member, members =>
      obtain ⟨name, later, shape⟩ := exists_memberTokens member members
      simp only [shape, List.length_cons] at enough
      omega
  | depth + 1, (name, value), [] =>
      simp only [memberTokens, List.length_cons] at enough
      rw [memberTokens, List.cons_append, List.cons_append, members?, value?_tokens value (by omega)]
      rfl
  | depth + 1, (name, value), second :: members =>
      simp only [memberTokens_cons, List.length_append, List.length_cons] at enough
      rw [memberTokens_cons, List.cons_append, List.cons_append, List.append_assoc, List.cons_append, members?,
        value?_tokens value (by omega)]
      simp only [Option.bind_eq_bind, Option.bind_some]
      rw [members?_memberTokens second members (by omega)]
      rfl

end

def Fits (json : Json) : Prop :=
  ∀ token ∈ json.tokens, token.Fits

theorem fits_single {json : Json} {token : Token} (single : json.tokens = [token]) (fits : token.Fits) : json.Fits := by
  rw [Fits, single]
  exact List.forall_mem_singleton.mpr fits

theorem fits_itemTokens {items : List Json} (fit : ∀ item ∈ items, item.Fits) :
    ∀ token ∈ itemTokens items, token.Fits := by
  match items with
  | [] => nofun
  | [item] => exact fit item List.mem_cons_self
  | item :: second :: rest =>
      obtain ⟨first, others⟩ := List.forall_mem_cons.mp fit
      rw [itemTokens_cons]
      exact List.forall_mem_append.mpr ⟨first, List.forall_mem_cons.mpr ⟨trivial, fits_itemTokens others⟩⟩

theorem fits_memberTokens {members : List (Option String × Json)}
    (fit : ∀ member ∈ members, member.1.isSome ∧ member.2.Fits) : ∀ token ∈ memberTokens members, token.Fits := by
  match members with
  | [] => nofun
  | [(name, value)] =>
      obtain ⟨named, fits⟩ := fit (name, value) List.mem_cons_self
      exact List.forall_mem_cons.mpr ⟨named, List.forall_mem_cons.mpr ⟨trivial, fits⟩⟩
  | (name, value) :: second :: rest =>
      obtain ⟨⟨named, fits⟩, others⟩ := List.forall_mem_cons.mp fit
      rw [memberTokens_cons]
      refine List.forall_mem_cons.mpr ⟨named, List.forall_mem_cons.mpr ⟨trivial, List.forall_mem_append.mpr ⟨fits, ?_⟩⟩⟩
      exact List.forall_mem_cons.mpr ⟨trivial, fits_memberTokens others⟩

theorem fits_enclosed {opening closing : Token} {tokens : List Token} (opens : opening.Fits) (closes : closing.Fits)
    (fit : ∀ token ∈ tokens, token.Fits) : ∀ token ∈ opening :: tokens ++ [closing], token.Fits :=
  List.forall_mem_append.mpr ⟨List.forall_mem_cons.mpr ⟨opens, fit⟩, List.forall_mem_singleton.mpr closes⟩

theorem fits_array {items : List Json} (fit : ∀ item ∈ items, item.Fits) : (array items).Fits :=
  fits_enclosed trivial trivial (fits_itemTokens fit)

theorem fits_object {members : List (Option String × Json)} (fit : ∀ member ∈ members, member.1.isSome ∧ member.2.Fits) :
    (object members).Fits :=
  fits_enclosed trivial trivial (fits_memberTokens fit)

theorem parse?_print {json : Json} (fits : json.Fits) : parse? json.print = some json := by
  have cut := Token.tokens?_written fits (apart_tokens json)
  have read : value? (2 * json.tokens.length + 1) (json.tokens ++ []) = some (json, []) :=
    value?_tokens json (by omega) []
  rw [List.append_nil] at read
  rw [parse?, print, String.toList_ofList, cut]
  simp only [Option.bind_eq_bind, Option.bind_some, read]
  rfl

end PermissionFeed.Json
