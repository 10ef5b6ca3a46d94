import PermissionFeed.Proofs.Enumerations
import PermissionFeed.Proofs.Outcomes
import PermissionFeed.Store.Memory

namespace PermissionFeed

namespace Owners

variable (owners : Owners) (player : PlayerId)

theorem rows_tidy : owners.tidy.rows player = owners[player]?.getD ∅ := by
  rw [Table.rows, tidy, Std.ExtTreeMap.getElem?_filter']
  cases owners[player]? with
  | none => rfl
  | some rows =>
      by_cases bare : rows = ∅
      · simp [bare, Option.filter_some]
      · simp [bare, Option.filter_some]

theorem tidy_insert (rows : Rows) : tidy (owners.insert player rows) = owners.tidy.set player rows := by
  refine Table.ext_rows fun other => ?_
  simp only [rows_tidy, Table.rows_set, Std.ExtTreeMap.getElem?_insert, Std.LawfulEqCmp.compare_eq_iff_eq]
  split <;> rfl

theorem tidy_erase : tidy (owners.erase player) = owners.tidy.set player ∅ := by
  refine Table.ext_rows fun other => ?_
  simp only [rows_tidy, Table.rows_set, Std.ExtTreeMap.getElem?_erase, Std.LawfulEqCmp.compare_eq_iff_eq]
  split <;> rfl

theorem tidy_set_self : owners.tidy.set player (owners.tidy.rows player) = owners.tidy := by
  refine Table.ext_rows fun other => ?_
  rw [Table.rows_set]
  split
  · next same => rw [same]
  · rfl

theorem upsert_eq (list : List Row) : owners.upsert player list =
    (owners.insert player ((owners.tidy.rows player).upsert list).1, ((owners.tidy.rows player).upsert list).2) := by
  rw [upsert, rows_tidy]

theorem tidy_remove (keys : List String) :
    (owners.remove player keys).1.tidy = owners.tidy.set player ((owners.tidy.rows player).remove keys).1 := by
  unfold remove
  cases found : owners[player]? with
  | none =>
      have bare : owners.tidy.rows player = ∅ := by simp [rows_tidy, found]
      have unchanged : ((owners.tidy.rows player).remove keys).1 = owners.tidy.rows player :=
        Rows.remove_eq_self_iff.mpr fun key _ => by simp [bare]
      rw [unchanged, tidy_set_self]
  | some rows =>
      have stored : owners.tidy.rows player = rows := by simp [rows_tidy, found]
      rw [stored]
      show tidy (if (rows.remove keys).1.isEmpty then _ else _) = _
      split
      · next bare => rw [tidy_erase, Std.ExtTreeMap.isEmpty_iff.mp bare]
      · exact tidy_insert owners player _

theorem remove_snd (keys : List String) :
    (owners.remove player keys).2 = ((owners.tidy.rows player).remove keys).2 := by
  rw [remove, rows_tidy]
  cases owners[player]? with
  | none => exact (Rows.remove_eq_noChange_iff.mpr fun key _ => by simp).symm
  | some rows => rfl

theorem tidy_eraseKey (key : String) : (owners.eraseKey key).tidy = owners.tidy.eraseKey key := by
  refine Table.ext_rows fun player => ?_
  rw [rows_tidy, Table.rows_eraseKey, rows_tidy, eraseKey, Std.ExtTreeMap.getElem?_filterMap']
  cases owners[player]? with
  | none => simp
  | some rows => exact Table.stored?_getD _

theorem active_eq (now : Instant) : owners.active player now = ((owners.tidy.rows player).active now).list := by
  rw [active, rows_tidy]
  cases owners[player]? with
  | none => simp [Rows.active_empty, Rows.list]
  | some rows => rfl

theorem players_eq {condition : Rows → Bool} (empty : condition ∅ = false) :
    owners.players condition = owners.tidy.players condition := by
  apply Std.ExtTreeSet.ext_mem
  intro player
  simp only [Table.mem_players empty, rows_tidy, players, Std.ExtTreeSet.mem_ofList, List.contains_eq_mem,
    decide_eq_true_eq, Std.ExtTreeMap.mem_keys, Std.ExtTreeMap.mem_iff_isSome_getElem?,
    Std.ExtTreeMap.getElem?_filter']
  cases owners[player]? with
  | none => simp [empty]
  | some rows => simp [Option.filter_some]

end Owners

namespace Rows

variable {rows : Rows} {condition : Expiry → Bool}

theorem anyExpiry_empty : (∅ : Rows).anyExpiry condition = false := by
  simp [anyExpiry]

theorem anyExpiry_iff : rows.anyExpiry condition ↔ ∃ row ∈ rows.list, condition row.expiry := by
  simp [anyExpiry, list]

theorem not_isEmpty_iff : (!rows.isEmpty) = true ↔ ∃ row, row ∈ rows.list := by
  rw [← list_ne_nil_iff, ne_eq, List.eq_nil_iff_forall_not_mem]
  simp

theorem anyExpiry_true (rows : Rows) : rows.anyExpiry (fun _ => true) = !rows.isEmpty := by
  rw [Bool.eq_iff_iff, not_isEmpty_iff, anyExpiry_iff]
  simp

theorem anyExpiry_isActive (rows : Rows) (now : Instant) :
    rows.anyExpiry (·.isActive now) = !(rows.active now).isEmpty := by
  rw [Bool.eq_iff_iff, not_isEmpty_iff, anyExpiry_iff]
  simp only [mem_list, getElem?_active_eq_some]

end Rows

namespace Memory

variable (memory : Memory)

theorem playersMatching_eq (condition : Expiry → Bool) :
    memory.playersMatching condition = memory.tidy.playersWith (·.anyExpiry condition) := by
  rw [playersMatching, Owners.players_eq _ Rows.anyExpiry_empty, Owners.players_eq _ Rows.anyExpiry_empty]
  rfl

theorem inherited_eq (player : PlayerId) (now : Instant) :
    memory.inherited player now = memory.tidy.inherited player now := by
  rw [inherited, Store.inherited, tidy, Owners.rows_tidy]
  cases memory.memberships[player]? with
  | none => simp [Rows.active_empty]
  | some rows => rfl

/-- Nobody can tell the players without rows: every call has the same answer with and without them. -/
theorem run_tidy (call : StoreCall) : call.run memory.tidy = ((memory.run call).1, (memory.run call).2.tidy) := by
  cases call with
  | directGrants player now =>
      rw [run, Owners.active_eq]
      rfl
  | memberships player now =>
      rw [run, Owners.active_eq]
      rfl
  | inherited player now =>
      rw [run, inherited_eq]
      rfl
  | group name now => rfl
  | listGroups now => rfl
  | activeMembers group now =>
      rw [run, Owners.players_eq _ rfl]
      rfl
  | playersWithAnyRows =>
      rw [run, playersMatching_eq]
      simp only [Rows.anyExpiry_true]
      rfl
  | playersWithActiveRows now =>
      rw [run, playersMatching_eq]
      simp only [Rows.anyExpiry_isActive]
      rfl
  | playersWithLapsedGrants window =>
      rw [run, Owners.players_eq _ Rows.anyExpiry_empty]
      rfl
  | playersWithLapsedMemberships window =>
      rw [run, Owners.players_eq _ Rows.anyExpiry_empty]
      rfl
  | groupsWithLapsedGrants window => rfl
  | addGrants player list =>
      rw [run, Owners.upsert_eq]
      simp only [tidy, Owners.tidy_insert]
      rfl
  | removeGrants player permissions =>
      simp only [run, tidy, Owners.tidy_remove, Owners.remove_snd]
      rfl
  | addMemberships player list =>
      simp only [run, addMemberships, Owners.upsert_eq, StoreCall.run, Store.addMemberships, tidy]
      cases list.find? fun membership => !memory.groups.contains membership.key with
      | none =>
          simp only [Owners.tidy_insert]
          rfl
      | some missing => rfl
  | removeMemberships player groups =>
      simp only [run, tidy, Owners.tidy_remove, Owners.remove_snd]
      rfl
  | addGroupGrants name list =>
      simp only [run, writeGroups, bareGroups, StoreCall.run, Store.addGroupGrants, tidy]
      cases memory.groups[name]? <;> rfl
  | removeGroupGrants name permissions =>
      simp only [run, writeGroups, bareGroups, StoreCall.run, Store.removeGroupGrants, tidy]
      cases memory.groups[name]? <;> rfl
  | createGroup name =>
      simp only [run, writeGroups, bareGroups, StoreCall.run, Store.createGroup, tidy]
      by_cases known : memory.groups.contains name
      · simp only [known, if_true]
        rfl
      · simp only [known]
        rfl
  | deleteGroup name =>
      simp only [run, deleteGroup, StoreCall.run, Store.deleteGroup, tidy]
      by_cases known : memory.groups.contains name
      · simp only [known, if_true, Owners.tidy_eraseKey]
        rfl
      · simp only [known]
        rfl

example : (Memory.empty.run (.addGrants (.numbered 1) [])).2.grants.size = 1 ∧
    (Memory.empty.run (.addGrants (.numbered 1) [])).2.tidy.grants.owners.size = 0 := by
  decide +kernel

def answers (memory : Memory) : List StoreCall → List ((call : StoreCall) × Except StoreError call.Answer)
  | [] => []
  | call :: calls => ⟨call, (memory.run call).1⟩ :: (memory.run call).2.answers calls

end Memory

def Store.answers (store : Store) : List StoreCall → List ((call : StoreCall) × Except StoreError call.Answer)
  | [] => []
  | call :: calls => ⟨call, (call.run store).1⟩ :: (call.run store).2.answers calls

theorem Memory.answers_tidy (memory : Memory) (calls : List StoreCall) :
    memory.tidy.answers calls = memory.answers calls := by
  induction calls generalizing memory with
  | nil => rfl
  | cons call calls ih => rw [Store.answers, run_tidy, ih, answers]

theorem Memory.answers_empty (calls : List StoreCall) : Memory.empty.answers calls = Store.empty.answers calls := by
  rw [← answers_tidy]
  have nobody : Owners.tidy ∅ = .empty := Table.ext_rows fun player => by rw [Owners.rows_tidy]; rfl
  rw [tidy, empty, nobody]
  rfl

end PermissionFeed
