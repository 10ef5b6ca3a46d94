import Mathlib.Data.List.Nodup
import Mathlib.Data.List.TakeWhile
import PermissionFeed.Proofs.ByteOrder
import PermissionFeed.Proofs.Callers
import PermissionFeed.Proofs.Reachable

namespace PermissionFeed

/-! ## Trimmed texts -/

namespace Text

def IsBare (text : String) : Prop :=
  ∀ char ∈ text.toList, isBlank char

structure TrimsTo (text trimmed : String) : Prop where
  around : ∃ before after, text.toList = before ++ trimmed.toList ++ after ∧ ∀ char ∈ before ++ after, isBlank char
  first : ∀ char ∈ trimmed.toList.head?, isBlank char = false
  last : ∀ char ∈ trimmed.toList.getLast?, isBlank char = false

theorem trimsTo_trim (text : String) : TrimsTo text (trim text) where
  around := by
    refine ⟨text.toList.takeWhile isBlank, ((text.toList.dropWhile isBlank).reverse.takeWhile isBlank).reverse, ?_, ?_⟩
    · rw [trim, String.toList_ofList, trimChars, List.append_assoc, ← List.reverse_append, List.takeWhile_append_dropWhile,
        List.reverse_reverse, List.takeWhile_append_dropWhile]
    · intro char listed
      rcases List.mem_append.mp listed with front | back
      · exact List.mem_takeWhile_imp front
      · exact List.mem_takeWhile_imp (List.mem_reverse.mp back)
  first := by
    rw [trim, String.toList_ofList]
    exact head_trimChars _
  last := by
    rw [trim, String.toList_ofList, trimChars, List.getLast?_reverse]
    exact head_dropWhile_blank _

theorem trimChars_around {before kept after : List Char} (blank : ∀ char ∈ before ++ after, isBlank char)
    (first : ∀ char ∈ kept.head?, isBlank char = false) (last : ∀ char ∈ kept.getLast?, isBlank char = false) :
    trimChars (before ++ kept ++ after) = kept := by
  obtain ⟨blankBefore, blankAfter⟩ := List.forall_mem_append.mp blank
  have lastFirst : ∀ char ∈ kept.reverse.head?, isBlank char = false := by rwa [List.head?_reverse]
  rw [trimChars, List.append_assoc, List.dropWhile_append_of_pos blankBefore]
  cases kept with
  | nil => rw [List.nil_append, List.dropWhile_eq_nil_iff.mpr blankAfter]; rfl
  | cons char kept =>
      rw [List.cons_append, List.dropWhile_cons_of_neg (by simpa using first), ← List.cons_append, List.reverse_append,
        List.dropWhile_append_of_pos (by simpa using blankAfter), dropWhile_blank_of_head lastFirst, List.reverse_reverse]

theorem trimsTo_iff {text trimmed : String} : TrimsTo text trimmed ↔ trim text = trimmed := by
  constructor
  · rintro ⟨⟨before, after, same, blank⟩, first, last⟩
    rw [trim, same, trimChars_around blank first last, String.ofList_toList]
  · rintro rfl
    exact trimsTo_trim text

theorem isTidy_of_trim {text trimmed : String} (same : trim text = trimmed) (sharp : trimmed ≠ "") :
    IsTidy trimmed := by
  subst same
  exact ⟨sharp, trim_trim text⟩

theorem isBare_iff {text : String} : IsBare text ↔ trim text = "" := by
  constructor
  · intro bare
    exact trimsTo_iff.mp ⟨⟨text.toList, [], by simp, by rwa [List.append_nil]⟩, by simp, by simp⟩
  · intro empty char listed
    obtain ⟨before, after, same, blank⟩ := (trimsTo_iff.mpr empty).around
    exact blank char (by simpa [same] using listed)

end Text

/-! ## Ascending lists -/

section Ascending

variable {α : Type} {key : α → String} {values left right : List α}

def Ascending (key : α → String) (values : List α) : Prop :=
  values.Pairwise fun left right => compare (Text.utf8 (key left)) (Text.utf8 (key right)) = .lt

theorem ascending_iff : Ascending key values ↔ values.Pairwise fun left right => compare (key left) (key right) = .lt := by
  simp only [Ascending, Text.compare_utf8]

theorem Ascending.nodup_map (ascending : Ascending key left) : (left.map key).Nodup :=
  List.pairwise_map.mpr (ascending.imp fun before same => by simp [same] at before)

theorem Ascending.ext (ascending : Ascending key left) (ascendingToo : Ascending key right)
    (same : ∀ value, value ∈ left ↔ value ∈ right) : left = right := by
  have oneWay (first second : α) (_ : first ∈ left) (_ : second ∈ right)
      (before : compare (Text.utf8 (key first)) (Text.utf8 (key second)) = .lt)
      (after : compare (Text.utf8 (key second)) (Text.utf8 (key first)) = .lt) : first = second :=
    absurd after (Std.OrientedCmp.not_lt_of_lt before)
  have permuted := (List.perm_ext_iff_of_nodup ascending.nodup_map.of_map ascendingToo.nodup_map.of_map).mpr same
  exact permuted.eq_of_pairwise oneWay ascending ascendingToo

end Ascending

namespace Request

/-! ## Cleaning -/

structure Cleans {α : Type} (key : α → String) (wanted : List α → α → Prop) (blank : α → Prop) (field : String)
    (clean : List α → Except RequestError (List α)) : Prop where
  accepts : ∀ raw list, clean raw = .ok list ↔ list ≠ [] ∧ Ascending key list ∧ ∀ value, value ∈ list ↔ wanted raw value
  refuses : ∀ raw error, clean raw = .error error ↔ error = .missing field ∧ ∀ value ∈ raw, blank value
  idempotent : ∀ raw list, clean raw = .ok list → clean list = .ok list

section Cleans

variable {α : Type} {key : α → String} {wanted : List α → α → Prop} {blank : α → Prop}
  {field : String} {clean : List α → Except RequestError (List α)}

theorem Cleans.of_lists
    (lists : ∀ raw, ∃ list, Ascending key list ∧ (∀ value, value ∈ list ↔ wanted raw value) ∧
      clean raw = if list.isEmpty then .error (.missing field) else .ok list)
    (nothing : ∀ raw, (∀ value, ¬ wanted raw value) ↔ ∀ value ∈ raw, blank value)
    (again : ∀ raw list, Ascending key list → (∀ value ∈ list, wanted raw value) →
      ∀ value, value ∈ list ↔ wanted list value) : Cleans key wanted blank field clean := by
  have accepts (raw list : List α) : clean raw = .ok list ↔
      list ≠ [] ∧ Ascending key list ∧ ∀ value, value ∈ list ↔ wanted raw value := by
    obtain ⟨made, ascending, listed, cleaned⟩ := lists raw
    rw [cleaned]
    cases made with
    | nil =>
        refine iff_of_false (by simp) ?_
        rintro ⟨occupied, -, same⟩
        obtain ⟨value, present⟩ := List.exists_mem_of_ne_nil list occupied
        exact List.not_mem_nil ((listed value).mpr ((same value).mp present))
    | cons first rest =>
        rw [List.isEmpty_cons, if_neg Bool.false_ne_true, Except.ok.injEq]
        constructor
        · rintro rfl
          exact ⟨List.cons_ne_nil _ _, ascending, listed⟩
        · rintro ⟨-, ascendingToo, same⟩
          exact ascending.ext ascendingToo fun value => (listed value).trans (same value).symm
  refine ⟨accepts, fun raw error => ?_, fun raw list cleaned => ?_⟩
  · obtain ⟨made, -, listed, cleaned⟩ := lists raw
    rw [cleaned, ← nothing]
    simp only [← listed]
    cases made with
    | nil => simp [eq_comm]
    | cons first rest =>
        refine iff_of_false (by simp) fun refused => ?_
        exact refused.2 first List.mem_cons_self
  · obtain ⟨occupied, ascending, listed⟩ := (accepts raw list).mp cleaned
    exact (accepts list list).mpr ⟨occupied, ascending, again raw list ascending fun value => (listed value).mp⟩

end Cleans

/-! ## Names -/

def IsListed (raw : List String) (name : String) : Prop :=
  name ≠ "" ∧ ∃ value ∈ raw, Text.TrimsTo value name

theorem mem_foldl_insert (list : List String) (names : NameSet) (name : String) :
    name ∈ list.foldl (fun names name => names.insert name) names ↔ name ∈ list ∨ name ∈ names := by
  induction list generalizing names with
  | nil => simp
  | cons first rest ih =>
      rw [List.foldl_cons, ih, Std.ExtTreeSet.mem_insert, List.mem_cons, Std.LawfulEqCmp.compare_eq_iff_eq]
      grind

theorem exists_names (raw : List String) (field : String) : ∃ listed : NameSet,
    (∀ name, name ∈ listed ↔ IsListed raw name) ∧
      names raw field = if listed.isEmpty then .error (.missing field) else .ok listed.toList := by
  refine ⟨_, fun name => ?_, rfl⟩
  rw [mem_foldl_insert]
  simp [IsListed, Text.trimsTo_iff, and_comm]

theorem ascending_toList (names : NameSet) : Ascending id names.toList := by
  have ordered : names.toList.Pairwise fun left right => compare left right = .lt := Std.ExtTreeSet.ordered_toList
  exact ascending_iff.mpr ordered

theorem cleans_names (field : String) : Cleans id IsListed Text.IsBare field (names · field) := by
  refine .of_lists (fun raw => ?_) (fun raw => ?_) fun raw list _ listed name => ?_
  · obtain ⟨kept, listed, cleaned⟩ := exists_names raw field
    refine ⟨kept.toList, ascending_toList kept, fun name => ?_, ?_⟩
    · rw [Std.ExtTreeSet.mem_toList, listed]
    · rw [cleaned, Std.ExtTreeSet.isEmpty_toList]
  · simp only [IsListed, Text.trimsTo_iff, Text.isBare_iff]
    grind
  · -- what is listed has nothing to trim
    have tidy (name : String) (present : name ∈ list) : Text.IsTidy name := by
      obtain ⟨sharp, value, -, trimmed⟩ := listed name present
      exact Text.isTidy_of_trim (Text.trimsTo_iff.mp trimmed) sharp
    simp only [IsListed, Text.trimsTo_iff]
    constructor
    · intro present
      exact ⟨(tidy name present).1, name, present, (tidy name present).2⟩
    · rintro ⟨-, value, present, rfl⟩
      rwa [(tidy value present).2]

/-! ## Rows -/

def IsLatest (raw : List Row) (row : Row) : Prop :=
  row.key ≠ "" ∧ ∃ earlier last later, raw = earlier ++ last :: later ∧ Text.TrimsTo last.key row.key ∧
    last.expiry = row.expiry ∧ ∀ other ∈ later, ¬ Text.TrimsTo other.key row.key

theorem last?_trimmed {raw : List Row} {key : String} (sharp : key ≠ "") :
    Row.last? ((raw.map fun row => { row with key := Text.trim row.key }).filter (!·.key.isEmpty)) key =
      (raw.filter fun row => Text.trim row.key = key).getLast?.map Row.expiry := by
  have same : ((raw.map fun row => { row with key := Text.trim row.key }).filter (!·.key.isEmpty)).filter
      (fun row => decide (row.key = key)) =
        (raw.filter fun row => Text.trim row.key = key).map fun row => { row with key := Text.trim row.key } := by
    rw [List.filter_filter, List.filter_map]
    refine congrArg (List.map _) (List.filter_congr fun row _ => ?_)
    by_cases named : Text.trim row.key = key <;> simp [named, sharp]
  rw [Row.last?, same, List.getLast?_map, Option.map_map]
  rfl

theorem isLatest_iff {raw : List Row} {row : Row} : IsLatest raw row ↔
    row.key ≠ "" ∧ (raw.filter fun other => Text.trim other.key = row.key).getLast?.map Row.expiry = some row.expiry := by
  simp only [IsLatest, Text.trimsTo_iff, Option.map_eq_some_iff, getLast?_filter_eq_some_iff, decide_eq_true_eq]
  grind

theorem IsLatest.exists_source {raw : List Row} {row : Row} (latest : IsLatest raw row) :
    ∃ source ∈ raw, Text.trim source.key = row.key ∧ source.expiry = row.expiry := by
  obtain ⟨-, earlier, source, later, rfl, trimmed, same, -⟩ := latest
  exact ⟨source, by simp, Text.trimsTo_iff.mp trimmed, same⟩

theorem exists_isLatest {raw : List Row} {row : Row} (listed : row ∈ raw) (sharp : Text.trim row.key ≠ "") :
    ∃ expiry, IsLatest raw ⟨Text.trim row.key, expiry⟩ := by
  have found : row ∈ raw.filter fun other => Text.trim other.key = Text.trim row.key := by simp [listed]
  have last := List.getLast?_eq_some_getLast (List.ne_nil_of_mem found)
  exact ⟨_, isLatest_iff.mpr ⟨sharp, congrArg (Option.map Row.expiry) last⟩⟩

theorem not_isLatest_iff {raw : List Row} :
    (∀ row, ¬ IsLatest raw row) ↔ ∀ row ∈ raw, Text.IsBare row.key := by
  simp only [Text.isBare_iff]
  constructor
  · intro nothing row listed
    by_contra sharp
    obtain ⟨expiry, latest⟩ := exists_isLatest listed sharp
    exact nothing _ latest
  · intro bare row latest
    obtain ⟨source, listed, trimmed, -⟩ := latest.exists_source
    exact latest.1 (trimmed.symm.trans (bare source listed))

theorem exists_rows (raw : List Row) (field : String) : ∃ kept : Rows,
    (∀ row : Row, kept[row.key]? = some row.expiry ↔ IsLatest raw row) ∧
      rows raw field = if kept.isEmpty then .error (.missing field) else .ok kept.list := by
  refine ⟨_, fun row => ?_, rfl⟩
  rw [Rows.getElem?_ofRows_last, isLatest_iff]
  by_cases sharp : row.key = ""
  · refine iff_of_false (fun found => ?_) fun latest => latest.1 sharp
    obtain ⟨_, kept⟩ := List.mem_filter.mp (Row.mem_of_last? found)
    simp [sharp] at kept
  · rw [last?_trimmed sharp, and_iff_right sharp]

theorem ascending_list (rows : Rows) : Ascending Row.key rows.list := by
  have ordered : rows.keys.Pairwise fun left right => compare left right = .lt := Std.ExtTreeMap.ordered_keys
  rw [← Std.ExtTreeMap.map_fst_toList_eq_keys, List.pairwise_map] at ordered
  rw [ascending_iff, Rows.list, List.pairwise_map]
  exact ordered

theorem cleans_rows (field : String) : Cleans Row.key IsLatest (fun row => Text.IsBare row.key) field (rows · field) := by
  refine .of_lists (fun raw => ?_) (fun raw => ?_) fun raw list ascending listed row => ?_
  · obtain ⟨kept, listed, cleaned⟩ := exists_rows raw field
    refine ⟨kept.list, ascending_list kept, fun row => ?_, ?_⟩
    · rw [Rows.mem_list, listed]
    · rw [cleaned, Rows.list, List.isEmpty_map, Std.ExtTreeMap.isEmpty_toList]
  · exact not_isLatest_iff
  · have tidy (row : Row) (present : row ∈ list) : Text.IsTidy row.key := by
      obtain ⟨source, -, trimmed, -⟩ := (listed row present).exists_source
      exact Text.isTidy_of_trim trimmed (listed row present).1
    constructor
    · intro present
      obtain ⟨earlier, later, rfl⟩ := List.append_of_mem present
      refine ⟨(tidy row present).1, earlier, row, later, rfl, Text.trimsTo_iff.mpr (tidy row present).2, rfl, ?_⟩
      intro other following trimmed
      have before : compare (Text.utf8 row.key) (Text.utf8 other.key) = .lt :=
        (List.pairwise_cons.mp (List.pairwise_append.mp ascending).2.1).1 other following
      rw [Text.trimsTo_iff, (tidy other (by simp [following])).2] at trimmed
      simp [trimmed] at before
    · intro latest
      obtain ⟨source, present, trimmed, same⟩ := latest.exists_source
      rw [(tidy source present).2] at trimmed
      obtain rfl : source = row := by cases source; cases row; simp_all
      exact present

/-! ## Expiries -/

/-- The key is, in the order of bytes, the smallest of a row that is past, and this is its expiry. -/
structure IsFirstPast (listed : Row → Prop) (now : Instant) (key : String) (expiry : Instant) : Prop where
  present : listed ⟨key, some expiry⟩
  past : expiry ≤ now
  least : ∀ other lapse, listed ⟨other, some lapse⟩ → lapse ≤ now → compare (Text.utf8 key) (Text.utf8 other) ≠ .gt

theorem isFirstPast_congr {listed other : Row → Prop} {now : Instant}
    (same : ∀ key expiry, expiry ≤ now → (listed ⟨key, some expiry⟩ ↔ other ⟨key, some expiry⟩)) (key : String)
    (expiry : Instant) : IsFirstPast listed now key expiry ↔ IsFirstPast other now key expiry := by
  constructor
  · rintro ⟨present, past, least⟩
    refine ⟨(same key expiry past).mp present, past, fun key lapse listed lapsed => ?_⟩
    exact least key lapse ((same key lapse lapsed).mpr listed) lapsed
  · rintro ⟨present, past, least⟩
    refine ⟨(same key expiry past).mpr present, past, fun key lapse listed lapsed => ?_⟩
    exact least key lapse ((same key lapse lapsed).mp listed) lapsed

section Expiries

variable {row : Row} {rest list : List Row} {now expiry : Instant}

theorem not_past_of_isActive (active : row.isActive now) (lapses : row.expiry = some expiry) : ¬ expiry ≤ now :=
  Int64.not_le.mpr (Expiry.isActive_iff.mp active expiry lapses)

theorem exists_past_of_not_isActive (lapsed : ¬ row.isActive now) : ∃ expiry, row.expiry = some expiry ∧ expiry ≤ now := by
  simpa [Row.isActive, Expiry.isActive_iff] using lapsed

theorem rejectPast_cons_of_isActive (active : row.isActive now) : rejectPast (row :: rest) now = rejectPast rest now := by
  rw [rejectPast]
  cases lapses : row.expiry with
  | none => rfl
  | some expiry => exact if_neg (not_past_of_isActive active lapses)

theorem rejectPast_cons_of_past (lapses : row.expiry = some expiry) (past : expiry ≤ now) :
    rejectPast (row :: rest) now = .error (.pastExpiry row.key expiry now) := by
  rw [rejectPast, lapses]
  exact if_pos past

theorem rejectPast_eq_error_iff (ascending : Ascending Row.key list) {error : RequestError} :
    rejectPast list now = .error error ↔
      ∃ key expiry, error = .pastExpiry key expiry now ∧ IsFirstPast (· ∈ list) now key expiry := by
  induction list with
  | nil =>
      refine iff_of_false (by simp [rejectPast]) ?_
      rintro ⟨key, expiry, -, first⟩
      exact List.not_mem_nil first.present
  | cons row rest ih =>
      obtain ⟨after, ascending⟩ := List.pairwise_cons.mp ascending
      by_cases active : row.isActive now
      · have others (key : String) (expiry : Instant) (past : expiry ≤ now) :
            ⟨key, some expiry⟩ ∈ row :: rest ↔ ⟨key, some expiry⟩ ∈ rest := by
          rw [List.mem_cons, or_iff_right]
          rintro rfl
          exact not_past_of_isActive active rfl past
        rw [rejectPast_cons_of_isActive active, ih ascending]
        exact exists₂_congr fun key expiry => and_congr_right fun _ => (isFirstPast_congr others key expiry).symm
      · obtain ⟨expiry, lapses, past⟩ := exists_past_of_not_isActive active
        obtain ⟨key, _⟩ := row
        obtain rfl : _ = some expiry := lapses
        have mine : IsFirstPast (· ∈ ⟨key, some expiry⟩ :: rest) now key expiry := by
          refine ⟨List.mem_cons_self, past, fun other lapse listed _ => ?_⟩
          rcases List.mem_cons.mp listed with same | later
          · simp [Row.mk.inj same]
          · simp [after _ later]
        rw [rejectPast_cons_of_past rfl past, Except.error.injEq]
        constructor
        · rintro rfl
          exact ⟨key, expiry, rfl, mine⟩
        · rintro ⟨other, lapse, rfl, first⟩
          rcases List.mem_cons.mp first.present with same | later
          · rw [(Row.mk.inj same).1, Option.some.inj (Row.mk.inj same).2]
          · -- a later row has a greater key
            exact absurd (Std.OrientedCmp.gt_of_lt (after _ later)) (first.least key expiry List.mem_cons_self past)

theorem rejectPast_eq_pastExpiry_iff (ascending : Ascending Row.key list) {key : String} {time : Instant} :
    rejectPast list now = .error (.pastExpiry key expiry time) ↔
      time = now ∧ IsFirstPast (· ∈ list) now key expiry := by
  rw [rejectPast_eq_error_iff ascending]
  constructor
  · rintro ⟨_, _, same, first⟩
    obtain ⟨rfl, rfl, rfl⟩ := RequestError.pastExpiry.inj same
    exact ⟨rfl, first⟩
  · rintro ⟨rfl, first⟩
    exact ⟨key, expiry, rfl, first⟩

theorem rejectPast_eq_ok_iff : rejectPast list now = .ok () ↔ ∀ row ∈ list, row.isActive now := by
  refine ⟨isActive_of_rejectPast, fun active => ?_⟩
  induction list with
  | nil => rfl
  | cons row rest ih =>
      obtain ⟨first, others⟩ := List.forall_mem_cons.mp active
      rw [rejectPast_cons_of_isActive first, ih others]

end Expiries

end Request

end PermissionFeed
