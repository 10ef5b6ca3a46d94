import PermissionFeed.Proofs.Lists
import PermissionFeed.Proofs.Readers

namespace PermissionFeed.Cbor

open Reader

/-- The tokens of one value with at most this many levels of arrays and maps. -/
inductive Value : (levels : Nat) → List Token → Prop
  | unsigned {levels : Nat} (value : UInt64) : Value levels [.unsigned value]
  | negative {levels : Nat} (value : UInt64) : Value levels [.negative value]
  | bool {levels : Nat} (value : Bool) : Value levels [.simple (if value then trueCode else falseCode)]
  | null {levels : Nat} : Value levels [.simple nullCode]
  | bytes {levels : Nat} (payload : List UInt8) : Value levels [.bytes payload]
  | chunkedBytes {levels : Nat} (chunks : List (List UInt8)) :
      Value levels (.chunkedBytes :: chunks.map .bytes ++ [.stop])
  | text {levels : Nat} (written : String) : Value levels [.text (Text.utf8 written)]
  | chunkedText {levels : Nat} (chunks : List String) :
      Value levels (.chunkedText :: chunks.map (fun chunk => .text (Text.utf8 chunk)) ++ [.stop])
  | array {levels : Nat} (count : UInt64) (items : List (List Token)) (counted : count.toNat = items.length)
      (formed : ∀ item ∈ items, Value levels item) : Value (levels + 1) (.array count :: items.flatten)
  | openArray {levels : Nat} (items : List (List Token)) (formed : ∀ item ∈ items, Value levels item) :
      Value (levels + 1) (.openArray :: items.flatten ++ [.stop])
  | map {levels : Nat} (count : UInt64) (entries : List (List Token × List Token))
      (counted : count.toNat = entries.length) (keys : ∀ entry ∈ entries, Value levels entry.1)
      (values : ∀ entry ∈ entries, Value levels entry.2) :
      Value (levels + 1) (.map count :: entries.flatMap fun entry => entry.1 ++ entry.2)
  | openMap {levels : Nat} (entries : List (List Token × List Token))
      (keys : ∀ entry ∈ entries, Value levels entry.1) (values : ∀ entry ∈ entries, Value levels entry.2) :
      Value (levels + 1) (.openMap :: entries.flatMap (fun entry => entry.1 ++ entry.2) ++ [.stop])

namespace Reader

variable {α ι : Type}

theorem yields_byteChunks (chunks : List (List UInt8)) :
    (byteChunks 0).Yields (chunks.map .bytes ++ [.stop]) (some chunks.flatten) := by
  intro rest
  induction chunks with
  | nil => rfl
  | cons chunk chunks ih => exact congrArg (Option.map _) ih

theorem exists_yields_textChunks (chunks : List String) :
    ∃ written, (textChunks 0).Yields (chunks.map (fun chunk => .text (Text.utf8 chunk)) ++ [.stop]) (some written) := by
  induction chunks with
  | nil => exact ⟨"", fun _ => rfl⟩
  | cons chunk chunks ih =>
      obtain ⟨written, yields⟩ := ih
      refine ⟨chunk ++ written, fun rest => ?_⟩
      have taken := yields rest
      simp only [List.map_cons, List.cons_append, textChunks, Text.ofUtf8?_utf8]
      rw [taken]
      rfl

section Repetition

variable {item : Reader α} {tokens : ι → List Token} {value : ι → α} {items : List ι}

theorem untilStopWithin_succ (count : Nat) {first : Token} (goesOn : first ≠ .stop) (others : List Token) :
    untilStopWithin (count + 1) item (first :: others) = do
      let (value, others) ← item (first :: others)
      let (values, others) ← untilStopWithin count item others
      return (value :: values, others) := by
  cases first with
  | stop => contradiction
  | _ => rfl

theorem untilStopWithin_flatMap (each : ∀ index ∈ items, item.Yields (tokens index) (some (value index)))
    (begun : ∀ index ∈ items, ∃ first others, tokens index = first :: others ∧ first ≠ .stop) {count : Nat}
    (enough : items.length ≤ count) (rest : List Token) :
    untilStopWithin count item (items.flatMap tokens ++ .stop :: rest) = some (items.map value, rest) := by
  induction items generalizing count with
  | nil => cases count <;> rfl
  | cons index items ih =>
      rw [List.forall_mem_cons] at each begun
      obtain ⟨first, others, same, goesOn⟩ := begun.1
      cases count with
      | zero => contradiction
      | succ count =>
          have taken := each.1 (items.flatMap tokens ++ .stop :: rest)
          rw [same, List.cons_append] at taken
          rw [List.flatMap_cons, List.append_assoc, same, List.cons_append, untilStopWithin_succ count goesOn, taken]
          have following := ih each.2 begun.2 (Nat.le_of_succ_le_succ enough)
          simp [following]

theorem yields_untilStop (each : ∀ index ∈ items, item.Yields (tokens index) (some (value index)))
    (begun : ∀ index ∈ items, ∃ first others, tokens index = first :: others ∧ first ≠ .stop) :
    (untilStop item).Yields (items.flatMap tokens ++ [.stop]) (some (items.map value)) := by
  intro rest
  have fewer : items.length ≤ (items.flatMap tokens).length :=
    length_le_flatMap fun index present =>
      let ⟨first, others, same, _⟩ := begun index present
      ⟨first, others, same⟩
  rw [untilStop, List.append_assoc, List.singleton_append]
  exact untilStopWithin_flatMap each begun (by rw [List.length_append]; omega) rest

end Repetition

theorem skip_plain (levels : Nat) {first : Token} {others : List Token}
    (plain : match first with
      | .array _ | .openArray | .map _ | .openMap | .tag _ => False
      | _ => True) :
    skip levels (first :: others) = skipPlain.skipToken (first :: others) := by
  cases levels <;> cases first <;> first | rfl | contradiction

theorem yields_discard {reader : Reader α} {tokens : List Token} {value : α}
    (yields : reader.Yields tokens (some value)) :
    Yields (discard reader) tokens (some ()) :=
  yields.conclude fun _ => yields_lift (some ())

theorem yields_skip_skip {levels : Nat} {first second : List Token} (one : (skip levels).Yields first (some ()))
    (two : (skip levels).Yields second (some ())) :
    Yields (do skip levels; skip levels) (first ++ second) (some ()) := by
  refine Yields.after ?_ one
  exact two

end Reader

namespace Value

variable {levels : Nat} {tokens : List Token}

theorem begun (value : Value levels tokens) : ∃ first others, tokens = first :: others ∧ first ≠ .stop := by
  cases value <;> exact ⟨_, _, rfl, by simp⟩

theorem skipped (value : Value levels tokens) : (skip levels).Yields tokens (some ()) := by
  -- What stands in an array or a map has one level less, and so has the reader that skips it.
  induction value with
  | unsigned | negative | bytes => exact fun _ => skip_plain _ trivial
  | null => exact fun _ => skip_plain _ trivial
  | bool value =>
      intro rest
      rw [List.singleton_append, skip_plain _ trivial]
      cases value <;> rfl
  | text written =>
      intro rest
      have opened (payload : List UInt8) : skipPlain.skipToken (.text payload :: rest) =
          (if (Text.ofUtf8? payload).isSome then pure () else failure : Reader Unit) rest := rfl
      rw [List.singleton_append, skip_plain _ trivial, opened, Text.ofUtf8?_utf8]
      rfl
  | chunkedBytes chunks =>
      exact (yields_discard (yields_byteChunks chunks)).headed fun _ => skip_plain _ trivial
  | chunkedText chunks =>
      obtain ⟨written, yields⟩ := exists_yields_textChunks chunks
      exact (yields_discard yields).headed fun _ => skip_plain _ trivial
  | @array levels count items counted formed ih =>
      have yields : Yields (times items.length (skip levels)) (items.flatMap id) (some (items.map fun _ => ())) := by
        rw [← mapM_some]
        exact yields_times ih
      rw [List.flatMap_id, ← counted] at yields
      exact (yields_discard yields).headed fun _ => rfl
  | @openArray levels items formed ih =>
      have yields : Yields (untilStop (skip levels)) (items.flatMap id ++ [.stop]) (some (items.map fun _ => ())) :=
        yields_untilStop ih fun item present => (formed item present).begun
      rw [List.flatMap_id] at yields
      exact (yields_discard yields).headed fun _ => rfl
  | @map levels count entries counted keys values keysSkipped valuesSkipped =>
      have pair (entry : List Token × List Token) (present : entry ∈ entries) :
          Yields (do skip levels; skip levels) (entry.1 ++ entry.2) (some ()) :=
        yields_skip_skip (keysSkipped entry present) (valuesSkipped entry present)
      have yields : Yields (times entries.length (do skip levels; skip levels))
          (entries.flatMap fun entry => entry.1 ++ entry.2) (some (entries.map fun _ => ())) := by
        rw [← mapM_some]
        exact yields_times pair
      rw [← counted] at yields
      exact (yields_discard yields).headed fun _ => rfl
  | @openMap levels entries keys values keysSkipped valuesSkipped =>
      have pair (entry : List Token × List Token) (present : entry ∈ entries) :
          Yields (do skip levels; skip levels) (entry.1 ++ entry.2) (some ()) :=
        yields_skip_skip (keysSkipped entry present) (valuesSkipped entry present)
      have begun (entry : List Token × List Token) (present : entry ∈ entries) :
          ∃ first others, entry.1 ++ entry.2 = first :: others ∧ first ≠ .stop := by
        obtain ⟨first, others, same, goesOn⟩ := (keys entry present).begun
        exact ⟨first, others ++ entry.2, by rw [same, List.cons_append], goesOn⟩
      exact (yields_discard (yields_untilStop pair begun)).headed fun _ => rfl

end Value

end PermissionFeed.Cbor
