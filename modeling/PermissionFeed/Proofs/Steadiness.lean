import PermissionFeed.Cbor.Reader

namespace PermissionFeed.Cbor

variable {σ α β : Type}

/-- What is taken from the front of a list is taken as well if the list is longer. -/
def Steady (take : StateT (List σ) Option α) : Prop :=
  ∀ (input : List σ) (value : α) (rest : List σ), take input = some (value, rest) →
    ∀ more, take (input ++ more) = some (value, rest ++ more)

/-! ## Composition -/

theorem steady_pure (value : α) : Steady (pure value : StateT (List σ) Option α) := by
  intro input result rest taken more
  obtain ⟨rfl, rfl⟩ := Prod.mk.inj (Option.some.inj taken)
  rfl

theorem steady_failure : Steady (failure : StateT (List σ) Option α) := by
  intro input result rest taken
  contradiction

theorem steady_lift (value? : Option α) : Steady (liftM value? : StateT (List σ) Option α) := by
  cases value? with
  | none => exact steady_failure
  | some value => exact steady_pure value

namespace Steady

variable {take other : StateT (List σ) Option α}

theorem bind {next : α → StateT (List σ) Option β} (steady : Steady take) (onward : ∀ value, Steady (next value)) :
    Steady (take >>= next) := by
  intro input result rest taken more
  have opened (input : List σ) : (take >>= next) input = (take input).bind fun result => next result.1 result.2 := rfl
  rw [opened] at taken ⊢
  obtain ⟨⟨value, middle⟩, first, ended⟩ := Option.bind_eq_some_iff.mp taken
  rw [steady input value middle first more]
  exact onward value middle result rest ended more

theorem map (steady : Steady take) (change : α → β) :
    Steady fun input => (take input).map fun (value, rest) => (change value, rest) := by
  intro input result rest taken more
  obtain ⟨⟨value, left⟩, first, same⟩ := Option.map_eq_some_iff.mp taken
  obtain ⟨rfl, rfl⟩ := Prod.mk.inj same
  simp only [steady input value left first more, Option.map_some]

theorem discard (steady : Steady take) : Steady (discard take : StateT (List σ) Option Unit) :=
  steady.bind fun _ => steady_pure ()

theorem ite {condition : Prop} [Decidable condition] (steady : Steady take) (steadyToo : Steady other) :
    Steady (if condition then take else other) := by
  split
  · exact steady
  · exact steadyToo

theorem ite_apply {condition : Prop} [Decidable condition] (steady : Steady take) (steadyToo : Steady other) :
    Steady fun input => if condition then take input else other input := by
  by_cases holds : condition
  · simpa only [if_pos holds] using steady
  · simpa only [if_neg holds] using steadyToo

theorem eq_none_of_cut (steady : Steady take) {input more : List σ} {value : α}
    (whole : take (input ++ more) = some (value, [])) (cut : more ≠ []) : take input = none := by
  cases taken : take input with
  | none => rfl
  | some result =>
      have same := steady input result.1 result.2 taken more
      rw [whole] at same
      have nothing := (Prod.mk.inj (Option.some.inj same)).2
      exact absurd (List.append_eq_nil_iff.mp nothing.symm).2 cut

end Steady

/-! ## Tokens -/

theorem steady_cut? (count : Nat) : Steady (cut? count) := by
  intro input payload rest taken more
  unfold cut? at taken ⊢
  split at taken
  · contradiction
  · next enough =>
      rw [Nat.not_lt] at enough
      rw [List.splitAt_eq] at taken ⊢
      obtain ⟨rfl, rfl⟩ := Prod.mk.inj (Option.some.inj taken)
      rw [if_neg (by simp; omega), List.take_append_of_le_length enough, List.drop_append_of_le_length enough]

theorem steady_argument? (low : UInt8) : Steady (argument? low) := by
  have wide (count : Nat) : Steady fun input => (cut? count input).bind fun cut =>
      some (Argument.value (UInt64.ofNat (bigEndian cut.1)), cut.2) := by
    intro input value rest taken more
    obtain ⟨⟨argument, left⟩, cut, same⟩ := Option.bind_eq_some_iff.mp taken
    obtain ⟨rfl, rfl⟩ := Prod.mk.inj (Option.some.inj same)
    simp only [steady_cut? count input argument left cut more, Option.bind_some]
  exact .ite_apply (steady_pure _) <| .ite_apply (wide 1) <| .ite_apply (wide 2) <| .ite_apply (wide 4) <|
    .ite_apply (wide 8) <| .ite_apply (steady_pure _) steady_failure

namespace Token

theorem steady_special? (low : UInt8) : Steady (special? low) := by
  refine .ite_apply (steady_pure _) <| .ite_apply ?_ <| .ite_apply ((steady_cut? 2).map float) <|
    .ite_apply ((steady_cut? 4).map float) <| .ite_apply ((steady_cut? 8).map float) <|
    .ite_apply (steady_pure stop) steady_failure
  -- The code of a simple value may stand in a byte of its own.
  intro input value rest taken more
  cases input with
  | nil => contradiction
  | cons code input =>
      obtain ⟨rfl, rfl⟩ := Prod.mk.inj (Option.some.inj taken)
      rfl

theorem steady_ofArgument? {major : UInt8} (plain : major < 7) (argument : Argument) :
    Steady (ofArgument? major argument) := by
  have cases : major = 0 ∨ major = 1 ∨ major = 2 ∨ major = 3 ∨ major = 4 ∨ major = 5 ∨ major = 6 := by
    rw [UInt8.lt_iff_toNat_lt] at plain
    simp only [← UInt8.toNat_inj]
    change major.toNat < 7 at plain
    change major.toNat = 0 ∨ major.toNat = 1 ∨ major.toNat = 2 ∨ major.toNat = 3 ∨ major.toNat = 4 ∨ major.toNat = 5 ∨
      major.toNat = 6
    omega
  cases argument with
  | value value =>
      rcases cases with rfl | rfl | rfl | rfl | rfl | rfl | rfl
      · exact steady_pure (unsigned value)
      · exact steady_pure (negative value)
      · exact (steady_cut? value.toNat).map bytes
      · exact (steady_cut? value.toNat).map text
      · exact steady_pure (array value)
      · exact steady_pure (map value)
      · exact steady_pure (tag value)
  | indefinite =>
      rcases cases with rfl | rfl | rfl | rfl | rfl | rfl | rfl
      · exact steady_failure
      · exact steady_failure
      · exact steady_pure chunkedBytes
      · exact steady_pure chunkedText
      · exact steady_pure openArray
      · exact steady_pure openMap
      · exact steady_failure

theorem steady_next? : Steady next? := by
  intro input token rest taken more
  cases input with
  | nil => contradiction
  | cons initial input =>
      simp only [next?, List.cons_append] at taken ⊢
      split at taken
      · rw [if_pos ‹_›]
        exact steady_special? _ input token rest taken more
      · next notSeven =>
          rw [if_neg notSeven]
          have plain : initial >>> 5 < 7 := by
            rw [UInt8.lt_iff_toNat_lt]
            have small := initial.toNat_lt
            rw [← UInt8.toNat_inj] at notSeven
            rw [UInt8.toNat_shiftRight] at notSeven ⊢
            simp [Nat.shiftRight_eq_div_pow] at notSeven ⊢
            omega
          have steady := (steady_argument? (initial &&& 0x1f)).bind fun argument => steady_ofArgument? plain argument
          exact steady input token rest taken more

end Token

theorem exists_tokens_append (bytes more : List UInt8) :
    ∃ following, tokens (bytes ++ more) = tokens bytes ++ following := by
  have within (count room : Nat) (bytes : List UInt8) :
      ∃ following, tokensWithin (count + room) (bytes ++ more) = tokensWithin count bytes ++ following := by
    induction count generalizing bytes with
    | zero => exact ⟨_, rfl⟩
    | succ count ih =>
        rw [Nat.add_right_comm, tokensWithin, tokensWithin]
        cases cut : Token.next? bytes with
        | none => exact ⟨_, rfl⟩
        | some found =>
            obtain ⟨following, same⟩ := ih found.2
            exact ⟨following, by rw [Token.steady_next? bytes found.1 found.2 cut more]; simp [same]⟩
  rw [tokens, tokens, List.length_append]
  exact within bytes.length more.length bytes

namespace Reader

theorem steady_token : Steady token := by
  intro tokens value rest read more
  cases tokens with
  | nil => contradiction
  | cons first tokens =>
      obtain ⟨rfl, rfl⟩ := Prod.mk.inj (Option.some.inj read)
      rfl

theorem steady_untagged : Steady untagged := by
  intro tokens value rest read more
  induction tokens with
  | nil => contradiction
  | cons first tokens ih =>
      cases first with
      | tag number => exact ih read
      | _ =>
          obtain ⟨rfl, rfl⟩ := Prod.mk.inj (Option.some.inj read)
          rfl

/-! ## Strings and numbers -/

theorem steady_byteChunks (enclosing : Nat) : Steady (byteChunks enclosing) := by
  intro tokens value rest read more
  induction tokens generalizing enclosing value with
  | nil => simp [byteChunks] at read
  | cons first tokens ih =>
      cases first with
      | bytes payload =>
          simp only [byteChunks, List.cons_append, Option.map_eq_some_iff, Prod.exists] at read ⊢
          obtain ⟨chunks, left, taken, same⟩ := read
          obtain ⟨rfl, rfl⟩ := Prod.mk.inj same
          exact ⟨_, _, ih enclosing chunks taken, rfl⟩
      | chunkedBytes => exact ih (enclosing + 1) value read
      | stop =>
          cases enclosing with
          | zero =>
              obtain ⟨rfl, rfl⟩ := Prod.mk.inj (Option.some.inj read)
              rfl
          | succ enclosing => exact ih enclosing value read
      | _ => simp [byteChunks] at read

theorem steady_textChunks (enclosing : Nat) : Steady (textChunks enclosing) := by
  intro tokens value rest read more
  induction tokens generalizing enclosing value with
  | nil => simp [textChunks] at read
  | cons first tokens ih =>
      cases first with
      | text payload =>
          simp only [textChunks, List.cons_append] at read ⊢
          obtain ⟨chunk, formed, read⟩ := Option.bind_eq_some_iff.mp read
          obtain ⟨⟨text, left⟩, taken, same⟩ := Option.bind_eq_some_iff.mp read
          obtain ⟨rfl, rfl⟩ := Prod.mk.inj (Option.some.inj same)
          rw [formed]
          simp [ih enclosing text taken]
      | chunkedText => exact ih (enclosing + 1) value read
      | stop =>
          cases enclosing with
          | zero =>
              obtain ⟨rfl, rfl⟩ := Prod.mk.inj (Option.some.inj read)
              rfl
          | succ enclosing => exact ih enclosing value read
      | _ => simp [textChunks] at read

theorem steady_byteString : Steady byteString := by
  refine steady_token.bind fun token => ?_
  cases token with
  | bytes payload => exact steady_pure payload
  | chunkedBytes => exact steady_byteChunks 0
  | _ => exact steady_failure

theorem steady_text : Steady text := by
  refine steady_untagged.bind fun token => ?_
  cases token with
  | text payload => exact steady_lift _
  | chunkedText => exact steady_textChunks 0
  | _ => exact steady_failure

theorem steady_shortBytes : Steady shortBytes := by
  refine steady_untagged.bind fun token => ?_
  cases token with
  | bytes payload => exact .ite (steady_pure payload) steady_failure
  | _ => exact steady_failure

theorem steady_name : Steady name := by
  refine steady_untagged.bind fun token => ?_
  cases token with
  | bytes payload | text payload => exact .ite (steady_pure payload) steady_failure
  | _ => exact steady_failure

theorem steady_integer : Steady integer := by
  intro tokens value rest read more
  induction tokens with
  | nil => contradiction
  | cons first tokens ih =>
      have wide (sign : Nat → Int) (found : ((byteString tokens).bind fun taken =>
          (magnitude? taken.1).bind fun size => some (sign size, taken.2)) = some (value, rest)) :
          ((byteString (tokens ++ more)).bind fun taken =>
            (magnitude? taken.1).bind fun size => some (sign size, taken.2)) = some (value, rest ++ more) := by
        obtain ⟨⟨bytes, left⟩, taken, found⟩ := Option.bind_eq_some_iff.mp found
        obtain ⟨size, small, same⟩ := Option.bind_eq_some_iff.mp found
        obtain ⟨rfl, rfl⟩ := Prod.mk.inj (Option.some.inj same)
        rw [steady_byteString tokens bytes left taken more]
        simp [small]
      cases first with
      | unsigned | negative =>
          obtain ⟨rfl, rfl⟩ := Prod.mk.inj (Option.some.inj read)
          rfl
      | tag number =>
          simp only [integer, List.cons_append] at read ⊢
          split at read
          · rw [if_pos ‹_›]
            exact wide _ read
          · split at read
            · rw [if_neg ‹_›, if_pos ‹_›]
              exact wide _ read
            · rw [if_neg ‹_›, if_neg ‹_›]
              exact ih read
      | _ => contradiction

theorem steady_byte : Steady byte :=
  steady_integer.bind fun _ => .ite (steady_pure _) steady_failure

theorem steady_int64 : Steady int64 :=
  steady_integer.bind fun _ => .ite (steady_pure _) steady_failure

theorem steady_bool : Steady bool := by
  refine steady_untagged.bind fun token => ?_
  cases token with
  | simple code => exact .ite (steady_pure true) (.ite (steady_pure false) steady_failure)
  | _ => exact steady_failure

theorem steady_optional {value : Reader α} (steady : Steady value) (needed : value [] = none) :
    Steady (optional value) := by
  have given := steady.map (some : α → Option α)
  intro tokens result rest read more
  cases tokens with
  | nil => simp [Reader.optional, needed] at read
  | cons first tokens =>
      cases first with
      | simple code =>
          simp only [Reader.optional, List.cons_append] at read ⊢
          split at read
          · rw [if_pos ‹_›]
            obtain ⟨rfl, rfl⟩ := Prod.mk.inj (Option.some.inj read)
            rfl
          · rw [if_neg ‹_›]
            exact given _ result rest read more
      | _ => exact given _ result rest read more

/-! ## Repetition -/

theorem steady_times {item : Reader α} (steady : Steady item) (count : Nat) : Steady (times count item) := by
  induction count with
  | zero => exact steady_pure []
  | succ count ih => exact steady.bind fun first => ih.bind fun rest => steady_pure (first :: rest)

theorem steady_untilStopWithin {item : Reader α} (steady : Steady item) {count : Nat} {tokens rest : List Token}
    {values : List α} (read : untilStopWithin count item tokens = some (values, rest)) (room : Nat)
    (more : List Token) :
    Reader.untilStopWithin (count + room) item (tokens ++ more) = some (values, rest ++ more) := by
  induction count generalizing tokens values with
  | zero =>
      cases tokens with
      | nil => contradiction
      | cons first tokens =>
          cases first with
          | stop =>
              obtain ⟨rfl, rfl⟩ := Prod.mk.inj (Option.some.inj read)
              cases room <;> rfl
          | _ => contradiction
  | succ count ih =>
      rw [Nat.add_right_comm]
      cases tokens with
      | nil => contradiction
      | cons first tokens =>
          have item (found : ((item (first :: tokens)).bind fun first =>
              (untilStopWithin count item first.2).bind fun others => some (first.1 :: others.1, others.2)) =
                some (values, rest)) :
              ((item (first :: tokens ++ more)).bind fun first =>
                (untilStopWithin (count + room) item first.2).bind fun others =>
                  some (first.1 :: others.1, others.2)) = some (values, rest ++ more) := by
            obtain ⟨⟨value, left⟩, taken, found⟩ := Option.bind_eq_some_iff.mp found
            obtain ⟨⟨others, left⟩, takenToo, same⟩ := Option.bind_eq_some_iff.mp found
            obtain ⟨rfl, rfl⟩ := Prod.mk.inj (Option.some.inj same)
            rw [steady _ _ _ taken more]
            simp [ih takenToo]
          cases first with
          | stop =>
              obtain ⟨rfl, rfl⟩ := Prod.mk.inj (Option.some.inj read)
              rfl
          | _ => exact item read

theorem steady_untilStop {item : Reader α} (steady : Steady item) : Steady (untilStop item) := by
  intro tokens values rest read more
  rw [Reader.untilStop, List.length_append]
  exact steady_untilStopWithin steady read more.length more

theorem steady_list {item : Reader α} (steady : Steady item) : Steady (list item) := by
  refine steady_untagged.bind fun token => ?_
  cases token with
  | array count => exact steady_times steady count.toNat
  | openArray => exact steady_untilStop steady
  | bytes payload =>
      cases payload with
      | nil => exact steady_pure []
      | cons => exact steady_failure
  | chunkedBytes => exact (steady_byteChunks 0).bind fun _ => .ite (steady_pure []) steady_failure
  | _ => exact steady_failure

theorem steady_tuple (count : Nat) : Steady (tuple count) := by
  have firstOf (payload : List UInt8) : Steady (tuple.firstOf count payload) := .ite steady_failure (steady_pure _)
  refine steady_untagged.bind fun token => ?_
  cases token with
  | array length => exact .ite steady_failure (steady_times steady_byte count)
  | openArray => exact steady_times steady_byte count
  | bytes payload => exact firstOf payload
  | chunkedBytes => exact (steady_byteChunks 0).bind firstOf
  | _ => exact steady_failure

/-! ## Any value -/

theorem wideNumber?_append (first second : Token) (rest more : List Token) :
    wideNumber? (first :: second :: rest ++ more) =
      (wideNumber? (first :: second :: rest)).map fun (value, rest) => (value, rest ++ more) := by
  cases first with
  | tag number =>
      cases second with
      | bytes payload =>
          simp only [wideNumber?, List.cons_append]
          split
          · split
            · rfl
            · split <;> rfl
          · rfl
      | _ => rfl
  | _ => rfl

theorem steady_skipToken : Steady skipPlain.skipToken := by
  refine steady_token.bind fun token => ?_
  cases token with
  | unsigned | negative | bytes | float => exact steady_pure ()
  | chunkedBytes => exact (steady_byteChunks 0).discard
  | text payload => exact .ite (steady_pure ()) steady_failure
  | chunkedText => exact (steady_textChunks 0).discard
  | simple code => exact .ite (steady_pure ()) steady_failure
  | _ => exact steady_failure

theorem steady_skipPlain : Steady skipPlain := by
  intro tokens value rest read more
  rcases tokens with _ | ⟨first, _ | ⟨second, tokens⟩⟩
  · contradiction
  · have alone (wide : wideNumber? (first :: more) = none) :
        skipPlain ([first] ++ more) = some (value, rest ++ more) := by
      have single : skipPlain.skipToken [first] = some (value, rest) := by
        cases first <;> exact read
      simp only [skipPlain, List.cons_append, List.nil_append, wide]
      exact steady_skipToken [first] value rest single more
    cases first with
    | tag number => contradiction
    | _ => exact alone rfl
  · have longer := wideNumber?_append first second tokens more
    unfold skipPlain at read ⊢
    cases wide : wideNumber? (first :: second :: tokens) with
    | none =>
        rw [wide] at read longer
        rw [longer]
        exact steady_skipToken _ value rest read more
    | some found =>
        rw [wide] at read longer
        rw [longer]
        simp only [Option.map_some] at read ⊢
        split at read
        · obtain ⟨rfl, rfl⟩ := Prod.mk.inj (Option.some.inj read)
          rw [if_pos ‹_›]
        · contradiction

theorem skip_nil (depth : Nat) : skip depth [] = none := by
  cases depth <;> rfl

theorem steady_skip (depth : Nat) : Steady (skip depth) := by
  induction depth with
  | zero => exact steady_skipPlain
  | succ depth ih =>
      have pair : Steady (do skip depth; skip depth) := ih.bind fun _ => ih
      intro tokens value rest read more
      cases tokens with
      | nil =>
          rw [skip_nil] at read
          contradiction
      | cons first tokens =>
          have plain (same : ∀ tokens, skip (depth + 1) (first :: tokens) = skipPlain (first :: tokens)) :
              skip (depth + 1) (first :: tokens ++ more) = some (value, rest ++ more) := by
            rw [same] at read
            rw [List.cons_append, same]
            exact steady_skipPlain _ value rest read more
          cases first with
          | array count => exact (steady_times ih count.toNat).discard tokens value rest read more
          | openArray => exact (steady_untilStop ih).discard tokens value rest read more
          | map count => exact (steady_times pair count.toNat).discard tokens value rest read more
          | openMap => exact (steady_untilStop pair).discard tokens value rest read more
          | tag number =>
              cases tokens with
              | nil =>
                  have nothing : skip (depth + 1) [.tag number] = skip depth [] := rfl
                  rw [nothing, skip_nil] at read
                  contradiction
              | cons second tokens =>
                  -- Whether a tag belongs to a number depends on the token behind it, and that one is there.
                  have longer := wideNumber?_append (.tag number) second tokens more
                  have sameKind : (wideNumber? (.tag number :: second :: tokens ++ more)).isSome =
                      (wideNumber? (.tag number :: second :: tokens)).isSome := by
                    rw [longer, Option.isSome_map]
                  unfold skip at read ⊢
                  simp only [List.cons_append] at read sameKind ⊢
                  rw [sameKind]
                  split at read
                  · rw [if_pos ‹_›]
                    exact steady_skipPlain _ value rest read more
                  · rw [if_neg ‹_›]
                    exact ih _ value rest read more
          | _ => exact plain fun _ => rfl

/-! ## Records and names -/

theorem steady_record {entry : List UInt8 → Reader α} (steady : ∀ name, Steady (entry name)) :
    Steady (record entry) := by
  have named : Steady (do entry (← name)) := steady_name.bind steady
  refine steady_untagged.bind fun token => ?_
  cases token with
  | map count => exact steady_times named count.toNat
  | openMap => exact steady_untilStop named
  | _ => exact steady_failure

theorem steady_choice (named? : List UInt8 → Option α) : Steady (choice named?) := by
  refine steady_untagged.bind fun token => ?_
  cases token with
  | text payload => exact .ite (steady_lift _) steady_failure
  | map count => exact .ite (steady_name.bind fun _ => steady_lift _) steady_failure
  | _ => exact steady_failure

end Reader

end PermissionFeed.Cbor
