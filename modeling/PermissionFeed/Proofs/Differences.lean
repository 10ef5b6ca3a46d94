import PermissionFeed.Proofs.Applying

namespace PermissionFeed

namespace Entry

/-- The block of entries that accounts for a key by what is stored under it before and after. -/
inductive Accounts (key : String) : Option Expiry → Option Expiry → List Entry → Prop where
  | gone (earlier : Expiry) : Accounts key (some earlier) none [.remove key]
  | new (later : Expiry) : Accounts key none (some later) [.add key later]
  | changed {earlier later : Expiry} (differs : earlier ≠ later) :
      Accounts key (some earlier) (some later) [.remove key, .add key later]

structure Blocks (before after : String → Option Expiry) (kind : String → Prop) (blocks : List (String × List Entry)) :
    Prop where
  ascending : (blocks.map Prod.fst).Pairwise fun left right => compare left right = .lt
  keys : ∀ key, key ∈ blocks.map Prod.fst ↔ kind key ∧ before key ≠ after key
  accounts : ∀ key block, (key, block) ∈ blocks → Accounts key (before key) (after key) block

/-- The blocks of the keys that were there before come first, then those of the new keys. -/
def Canonical (before after : String → Option Expiry) (entries : List Entry) : Prop :=
  ∃ known fresh, Blocks before after (fun key => before key ≠ none) known ∧
    Blocks before after (fun key => before key = none) fresh ∧
    entries = known.flatMap Prod.snd ++ fresh.flatMap Prod.snd

variable {before after : String → Option Expiry} {kind : String → Prop} {key : String}

theorem Accounts.unique {earlier later : Option Expiry} {block other : List Entry}
    (accounts : Accounts key earlier later block) (accountsToo : Accounts key earlier later other) : block = other := by
  cases accounts <;> cases accountsToo <;> rfl

theorem eq_of_ascending {keys others : List String}
    (ascending : keys.Pairwise fun left right => compare left right = .lt)
    (ascendingToo : others.Pairwise fun left right => compare left right = .lt)
    (same : ∀ key, key ∈ keys ↔ key ∈ others) : keys = others := by
  have distinct {keys : List String} (ascending : keys.Pairwise fun left right => compare left right = .lt) :
      keys.Nodup := by
    apply ascending.imp
    rintro left _ less rfl
    simp at less
  have permuted := (List.perm_ext_iff_of_nodup (distinct ascending) (distinct ascendingToo)).mpr same
  refine permuted.eq_of_pairwise ?_ ascending ascendingToo
  intro left right _ _ less greater
  have circular : compare left left = .lt := Std.TransCmp.lt_trans less greater
  simp at circular

def account (key : String) : Option Expiry → Option Expiry → List Entry
  | some earlier, some later => if later = earlier then [] else [.remove key, .add key later]
  | some _, none => [.remove key]
  | none, some later => [.add key later]
  | none, none => []

theorem accounts_account {earlier later : Option Expiry} (differs : earlier ≠ later) :
    Accounts key earlier later (account key earlier later) := by
  cases earlier with
  | none =>
      cases later with
      | none => exact absurd rfl differs
      | some later => exact .new later
  | some earlier =>
      cases later with
      | none => exact .gone earlier
      | some later =>
          have different : earlier ≠ later := fun same => differs (congrArg some same)
          rw [account, if_neg different.symm]
          exact .changed different

theorem account_self (key : String) (stored : Option Expiry) : account key stored stored = [] := by
  cases stored <;> simp [account]

theorem flatMap_account_differing (keys : List String) :
    (keys.filter fun key => before key ≠ after key).flatMap (fun key => account key (before key) (after key)) =
      keys.flatMap fun key => account key (before key) (after key) := by
  induction keys with
  | nil => rfl
  | cons key keys ih =>
      by_cases same : before key = after key
      · simpa [same, account_self] using ih
      · simpa [same] using ih

namespace Blocks

variable {blocks others : List (String × List Entry)}

theorem eq_map (lists : Blocks before after kind blocks) :
    blocks = (blocks.map Prod.fst).map fun key => (key, account key (before key) (after key)) := by
  have accounted : ∀ listed ∈ blocks, (listed.1, account listed.1 (before listed.1) (after listed.1)) = listed := by
    rintro ⟨key, block⟩ listed
    have differs := ((lists.keys key).mp (List.mem_map_of_mem listed)).2
    rw [(lists.accounts key block listed).unique (accounts_account differs)]
  rw [List.map_map]
  exact ((List.map_congr_left accounted).trans (List.map_id _)).symm

theorem unique (lists : Blocks before after kind blocks) (listsToo : Blocks before after kind others) :
    blocks = others := by
  have sameKeys : blocks.map Prod.fst = others.map Prod.fst :=
    eq_of_ascending lists.ascending listsToo.ascending fun key => by rw [lists.keys, listsToo.keys]
  rw [lists.eq_map, listsToo.eq_map, sameKeys]

theorem exists_of_keys {keys : List String} (ascending : keys.Pairwise fun left right => compare left right = .lt)
    (listed : ∀ key, before key ≠ after key → (key ∈ keys ↔ kind key)) :
    ∃ blocks, Blocks before after kind blocks ∧
      keys.flatMap (fun key => account key (before key) (after key)) = blocks.flatMap Prod.snd := by
  let differing := keys.filter fun key => before key ≠ after key
  refine ⟨differing.map fun key => (key, account key (before key) (after key)), ⟨?_, ?_, ?_⟩, ?_⟩
  · simpa [List.map_map, Function.comp_def] using ascending.filter _
  · intro key
    simp only [List.map_map, Function.comp_def, List.map_id', differing, List.mem_filter, decide_eq_true_eq]
    exact and_congr_left (listed key)
  · intro key block member
    obtain ⟨other, kept, same⟩ := List.mem_map.mp member
    obtain ⟨rfl, rfl⟩ := Prod.mk.inj same
    exact accounts_account (by simpa using (List.mem_filter.mp kept).2)
  · rw [List.flatMap_map]
    exact (flatMap_account_differing keys).symm

end Blocks

theorem Canonical.unique {entries others : List Entry} (canonical : Canonical before after entries)
    (canonicalToo : Canonical before after others) : entries = others := by
  obtain ⟨known, fresh, lists, listsFresh, rfl⟩ := canonical
  obtain ⟨knownToo, freshToo, listsToo, listsFreshToo, rfl⟩ := canonicalToo
  rw [lists.unique listsToo, listsFresh.unique listsFreshToo]

theorem Accounts.expiry_eq_none {earlier later : Option Expiry} {block : List Entry}
    (accounts : Accounts key earlier later block) {entry : Entry} (listed : entry ∈ block)
    (removes : entry.action = .remove) : entry.expiry = none := by
  cases accounts with
  | gone earlier =>
      obtain rfl := List.mem_singleton.mp listed
      rfl
  | new later =>
      obtain rfl := List.mem_singleton.mp listed
      simp [add] at removes
  | changed differs =>
      obtain rfl | rfl : entry = remove key ∨ entry = add key _ := by simpa using listed
      · rfl
      · simp [add] at removes

theorem Canonical.expiry_eq_none {entries : List Entry} (canonical : Canonical before after entries) {entry : Entry}
    (listed : entry ∈ entries) (removes : entry.action = .remove) : entry.expiry = none := by
  obtain ⟨known, fresh, lists, listsFresh, rfl⟩ := canonical
  obtain ⟨⟨key, block⟩, member, inside⟩ | ⟨⟨key, block⟩, member, inside⟩ :
      (∃ block ∈ known, entry ∈ block.2) ∨ ∃ block ∈ fresh, entry ∈ block.2 := by simpa using listed
  · exact (lists.accounts key block member).expiry_eq_none inside removes
  · exact (listsFresh.accounts key block member).expiry_eq_none inside removes

end Entry

namespace Rows

open Entry

theorem filterMap_new_eq_accounts {before after : Rows} {rows : List (String × Expiry)}
    (stored : ∀ key expiry, (key, expiry) ∈ rows → after[key]? = some expiry) :
    (rows.filterMap fun (key, expiry) => if before.contains key then none else some (Entry.add key expiry)) =
      ((rows.map Prod.fst).filter fun key => before[key]? = none).flatMap fun key =>
        account key before[key]? after[key]? := by
  induction rows with
  | nil => rfl
  | cons row rows ih =>
      obtain ⟨key, expiry⟩ := row
      have rest := ih fun key expiry listed => stored key expiry (List.mem_cons_of_mem _ listed)
      have later := stored key expiry List.mem_cons_self
      cases earlier : before[key]? with
      | none =>
          have unknown : before.contains key = false := by
            rw [Std.ExtTreeMap.contains_eq_isSome_getElem?, earlier]
            rfl
          simp only [List.filterMap_cons, List.map_cons, List.filter_cons, List.flatMap_cons, unknown, earlier, later,
            account, rest, Bool.false_eq_true, if_false, decide_true, if_true]
          rfl
      | some _ =>
          have known : before.contains key = true := by
            rw [Std.ExtTreeMap.contains_eq_isSome_getElem?, earlier]
            rfl
          simp only [List.filterMap_cons, List.map_cons, List.filter_cons, known, earlier, rest, reduceCtorEq,
            decide_false, Bool.false_eq_true, if_false, if_true]

theorem changesTo_eq_accounts (before after : Rows) :
    before.changesTo after = (before.keys.flatMap fun key => account key before[key]? after[key]?) ++
      (after.keys.filter fun key => before[key]? = none).flatMap fun key => account key before[key]? after[key]? := by
  have stored (rows : Rows) (key : String) (expiry : Expiry) (listed : (key, expiry) ∈ rows.toList) :
      rows[key]? = some expiry :=
    Std.ExtTreeMap.mem_toList_iff_getElem?_eq_some.mp listed
  rw [changesTo, filterMap_new_eq_accounts (stored after), ← Std.ExtTreeMap.map_fst_toList_eq_keys,
    ← Std.ExtTreeMap.map_fst_toList_eq_keys, List.flatMap_map]
  congr 1
  rw [List.flatMap_def, List.flatMap_def]
  congr 1
  apply List.map_congr_left
  rintro ⟨key, expiry⟩ listed
  simp only [stored before key expiry listed]
  cases after[key]? <;> rfl

theorem canonical_changesTo (before after : Rows) :
    Canonical (fun key => before[key]?) (fun key => after[key]?) (before.changesTo after) := by
  rw [changesTo_eq_accounts]
  have ascending (rows : Rows) : rows.keys.Pairwise fun left right => compare left right = .lt :=
    Std.ExtTreeMap.ordered_keys
  have listedBefore (key : String) (_ : before[key]? ≠ after[key]?) : key ∈ before.keys ↔ before[key]? ≠ none := by
    rw [Std.ExtTreeMap.mem_keys, Std.ExtTreeMap.mem_iff_isSome_getElem?, Option.isSome_iff_ne_none]
  have listedAfter (key : String) (differs : before[key]? ≠ after[key]?) :
      key ∈ after.keys.filter (fun key => before[key]? = none) ↔ before[key]? = none := by
    rw [List.mem_filter, decide_eq_true_eq, Std.ExtTreeMap.mem_keys, and_iff_right_iff_imp]
    intro unknown
    rw [unknown] at differs
    exact Std.ExtTreeMap.mem_iff_isSome_getElem?.mpr (Option.isSome_iff_ne_none.mpr differs.symm)
  obtain ⟨known, lists, joined⟩ := Blocks.exists_of_keys (ascending before) listedBefore
  obtain ⟨fresh, listsFresh, joinedFresh⟩ := Blocks.exists_of_keys ((ascending after).filter _) listedAfter
  exact ⟨known, fresh, lists, listsFresh, by rw [joined, joinedFresh]⟩

theorem mentioned_of_apply_eq {before after : Rows} {entries : List Entry} (reached : before.apply entries = after)
    {key : String} (differs : before[key]? ≠ after[key]?) : ∃ entry ∈ entries, entry.key = key := by
  apply Classical.byContradiction
  intro unmentioned
  apply differs
  rw [← reached, getElem?_apply_of_unmentioned]
  exact fun entry listed named => unmentioned ⟨entry, listed, named⟩

/-- The entries between two lists of rows are the canonical ones: nothing but the keys that differ is mentioned,
removals carry no expiry, equal rows give no entries, and whatever turns the one into the other mentions these keys. -/
theorem differences_canonical (before after : List Row) :
    let entries := (ofRows before).changesTo (ofRows after)
    (∀ others, Canonical (Row.last? before) (Row.last? after) others ↔ others = entries) ∧
      (∀ key, (∃ entry ∈ entries, entry.key = key) ↔ Row.last? before key ≠ Row.last? after key) ∧
      (∀ entry ∈ entries, entry.action = .remove → entry.expiry = none) ∧
      (entries = [] ↔ ofRows before = ofRows after) ∧
      ∀ others, (ofRows before).apply others = ofRows after →
        ∀ entry ∈ entries, ∃ other ∈ others, other.key = entry.key := by
  intro entries
  have canonical : Canonical (Row.last? before) (Row.last? after) entries := by
    simpa only [getElem?_ofRows_last] using canonical_changesTo (ofRows before) (ofRows after)
  have mentioned (key : String) :
      (∃ entry ∈ entries, entry.key = key) ↔ Row.last? before key ≠ Row.last? after key := by
    rw [← getElem?_ofRows_last, ← getElem?_ofRows_last]
    exact exists_mem_changesTo_iff
  refine ⟨fun others => ⟨fun same => same.unique canonical, fun same => same ▸ canonical⟩, mentioned,
    fun entry listed removes => canonical.expiry_eq_none listed removes, changesTo_eq_nil_iff, ?_⟩
  intro others reached entry listed
  have differs := (mentioned entry.key).mp ⟨entry, listed, rfl⟩
  rw [← getElem?_ofRows_last, ← getElem?_ofRows_last] at differs
  exact mentioned_of_apply_eq reached differs

theorem differences_canonical_shortened :
    let before : List Row := [⟨"fly", some 5⟩, ⟨"kick", none⟩, ⟨"fly", some 9⟩]
    let after : List Row := [⟨"fly", some 9⟩, ⟨"ban", none⟩, ⟨"fly", some 7⟩]
    let others : List Entry := [.add "ban" none, .add "fly" (some 7), .remove "kick"]
    (ofRows before).apply others = ofRows after ∧
      ∀ entry ∈ (ofRows before).changesTo (ofRows after), ∃ other ∈ others, other.key = entry.key := by
  intro before after others
  have reached : (ofRows before).apply others = ofRows after := by decide +kernel
  exact ⟨reached, (differences_canonical before after).2.2.2.2 others reached⟩

end Rows

end PermissionFeed
