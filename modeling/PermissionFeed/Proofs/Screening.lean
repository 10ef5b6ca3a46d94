import PermissionFeed.Proofs.Edits

namespace PermissionFeed

open Request

inductive Mutation.Adds : Mutation → (field : String) → List Row → Prop
  | permissions (player : PlayerId) (raw : List Grant) : Adds (.addPlayerPermissions player raw) "permission_grants" raw
  | memberships (player : PlayerId) (raw : List Membership) : Adds (.addPlayerGroups player raw) "group_memberships" raw
  | groupPermissions (group : String) (raw : List Grant) (named : ¬ Text.IsBare group) :
      Adds (.addGroupPermissions group raw) "permission_grants" raw

namespace Service

def Passes (service : Service) (routine : Routine (Except EngineError Outcome)) : Prop :=
  ∃ result, (service.run routine).1 = some result ∧ ∀ error, result ≠ .error (.request error)

structure Screens (service : Service) (routine : Routine (Except EngineError Outcome)) (field : String)
    (raw : List Row) : Prop where
  missing : (service.run routine).1 = some (.error (.request (.missing field))) ↔ ∀ row ∈ raw, Text.IsBare row.key
  past : ∀ key expiry time, (service.run routine).1 = some (.error (.request (.pastExpiry key expiry time))) ↔
    time = service.clock ∧ IsFirstPast (IsLatest raw) time key expiry
  first : ∀ key expiry, IsLatest raw ⟨key, some expiry⟩ → expiry ≤ service.clock →
    ∃ least lapse, IsFirstPast (IsLatest raw) service.clock least lapse
  passes : service.Passes routine ↔
    (∃ row ∈ raw, ¬ Text.IsBare row.key) ∧
      ∀ key expiry, IsLatest raw ⟨key, some expiry⟩ → service.clock < expiry

theorem passes_of_makes {service : Service} (idle : Idle service.locks) (edit : Edit)
    {routine : Routine (Except EngineError Outcome)} (makes : edit.Makes routine) : service.Passes routine := by
  obtain ⟨news, achieves, -⟩ := makes.achieves service idle
  obtain ⟨locks, -, ran⟩ := achieves.run
  refine ⟨_, congrArg Prod.fst ran, fun error refused => ?_⟩
  cases written : (edit.effect service.store).1 <;> simp [written, Except.mapError] at refused

section Cleaned

variable {service : Service} {α : Type} {request : Except RequestError α}
  {next : α → Routine (Except EngineError Outcome)}

theorem run_cleaned_eq_refused_iff (passes : ∀ value, service.Passes (next value)) {error : RequestError} :
    (service.run (Engine.cleaned request next)).1 = some (.error (.request error)) ↔ request = .error error := by
  cases request with
  | error other => simp [Engine.cleaned, run, pure]
  | ok value =>
      obtain ⟨result, ran, accepted⟩ := passes value
      refine iff_of_false (fun refused => ?_) (by simp)
      exact accepted error (Option.some.inj (ran.symm.trans refused))

theorem passes_cleaned_iff (passes : ∀ value, service.Passes (next value)) :
    service.Passes (Engine.cleaned request next) ↔ ∃ value, request = .ok value := by
  cases request with
  | error error =>
      refine iff_of_false ?_ (by simp)
      rintro ⟨result, ran, accepted⟩
      exact accepted error (Option.some.inj ran).symm
  | ok value => exact iff_of_true (passes value) ⟨value, rfl⟩

end Cleaned

theorem groupName_of_not_isBare {group : String} (named : ¬ Text.IsBare group) :
    groupName group = .ok (Text.trim group) := by
  have occupied : ¬ (Text.trim group).isEmpty := by simpa [Text.isBare_iff] using named
  exact if_neg occupied

theorem run_lasting (service : Service) (list : List Row) (next : List Row → Routine (Except EngineError Outcome)) :
    service.run (Engine.lasting (.ok list) next) =
      service.run (Engine.cleaned (rejectPast list service.clock) fun _ => next list) :=
  rfl

theorem screens_lasting {service : Service} {raw : List Row} {field : String}
    {next : List Row → Routine (Except EngineError Outcome)} (goesOn : ∀ list, service.Passes (next list)) :
    service.Screens (Engine.lasting (rows raw field) next) field raw := by
  have cleans := cleans_rows field
  cases cleaned : rows raw field with
  | error error =>
      obtain ⟨rfl, bare⟩ := (cleans.refuses raw error).mp cleaned
      have nothing := not_isLatest_iff.mpr bare
      have refused : (service.run (Engine.lasting (.error (.missing field)) next)).1 =
          some (.error (.request (.missing field))) := rfl
      refine ⟨iff_of_true refused bare, fun key expiry time => ?_, fun _ _ latest => (nothing _ latest).elim,
        iff_of_false ?_ ?_⟩
      · rw [refused]
        exact iff_of_false (by simp) fun past => nothing _ past.2.present
      · rintro ⟨result, ran, accepted⟩
        exact accepted _ (Option.some.inj (refused.symm.trans ran)).symm
      · rintro ⟨⟨row, listed, sharp⟩, -⟩
        exact sharp (bare row listed)
  | ok list =>
      obtain ⟨occupied, ascending, listed⟩ := (cleans.accepts raw list).mp cleaned
      have sharp : ¬ ∀ row ∈ raw, Text.IsBare row.key := by
        obtain ⟨row, present⟩ := List.exists_mem_of_ne_nil list occupied
        exact fun bare => not_isLatest_iff.mpr bare row ((listed row).mp present)
      have goesOnAlways : ∀ _ : Unit, service.Passes (next list) := fun _ => goesOn list
      have refused {error : RequestError} : (service.run (Engine.lasting (.ok list) next)).1 =
          some (.error (.request error)) ↔ rejectPast list service.clock = .error error := by
        rw [run_lasting]
        exact run_cleaned_eq_refused_iff goesOnAlways
      have sameFirst := isFirstPast_congr fun key (expiry : Instant) (_ : expiry ≤ service.clock) =>
        listed ⟨key, some expiry⟩
      refine ⟨?_, fun key expiry time => ?_, fun key expiry latest past => ?_, ?_⟩
      · rw [refused, rejectPast_eq_error_iff ascending]
        exact iff_of_false (by simp) sharp
      · rw [refused, rejectPast_eq_pastExpiry_iff ascending]
        refine and_congr_right fun now => ?_
        rw [now]
        exact sameFirst key expiry
      · cases screened : rejectPast list service.clock with
        | ok =>
            have active := rejectPast_eq_ok_iff.mp screened _ ((listed _).mpr latest)
            exact absurd past (not_past_of_isActive active rfl)
        | error error =>
            obtain ⟨least, lapse, -, first⟩ := (rejectPast_eq_error_iff ascending).mp screened
            exact ⟨least, lapse, (sameFirst least lapse).mp first⟩
      · have passes : service.Passes (Engine.lasting (.ok list) next) ↔
            ∃ value, rejectPast list service.clock = .ok value := passes_cleaned_iff goesOnAlways
        have lasts : (∃ value, rejectPast list service.clock = .ok value) ↔ ∀ row ∈ list, row.isActive service.clock :=
          ⟨fun ⟨_, accepted⟩ => rejectPast_eq_ok_iff.mp accepted, fun active => ⟨(), rejectPast_eq_ok_iff.mpr active⟩⟩
        rw [passes, lasts, and_iff_right (by simpa using sharp)]
        constructor
        · intro active key expiry latest
          exact Expiry.isActive_iff.mp (active _ ((listed _).mpr latest)) expiry rfl
        · rintro later ⟨key, expiry⟩ present
          refine Expiry.isActive_iff.mpr fun lapse same => ?_
          exact later key lapse ((listed _).mp (same ▸ present))

/-- Requests are cleaned to canonical lists, and rows to be added are checked after that: what counts of the rows with
one key is the last. -/
theorem screens_canonical_rows {config : Config} {service : Service} (reachable : Reachable config service)
    {mutation : Mutation} {field : String} {raw : List Row} (adds : mutation.Adds field raw) :
    (∀ field, Cleans id IsListed Text.IsBare field (names · field)) ∧
    Cleans Row.key IsLatest (fun row => Text.IsBare row.key) "permission_grants" grants ∧
    Cleans Row.key IsLatest (fun row => Text.IsBare row.key) "group_memberships" memberships ∧
    service.Screens mutation.routine field raw := by
  refine ⟨cleans_names, cleans_rows _, cleans_rows _, ?_⟩
  have idle := reachable.idle
  cases adds with
  | permissions player =>
      exact screens_lasting fun list => passes_of_makes idle (.add (.grants player) list) (.player rfl fun _ => rfl)
  | memberships player =>
      exact screens_lasting fun list => passes_of_makes idle (.add (.memberships player) list) (.player rfl fun _ => rfl)
  | groupPermissions group raw named =>
      rw [Mutation.routine, Engine.addGroupPermissions, groupName_of_not_isBare named]
      exact screens_lasting fun list =>
        passes_of_makes idle (.add (.group (Text.trim group)) list) (.group rfl fun _ => rfl)

theorem screens_canonical_rows_overridden :
    let raw : List Grant := [⟨" kick", some (-5)⟩, ⟨"kick ", some 9⟩]
    (staffed.run (Mutation.addPlayerPermissions chief raw).routine).1 = some (.ok .created) ∧
      (∀ key expiry, IsLatest raw ⟨key, some expiry⟩ → staffed.clock < expiry) ∧
      (staffed.run (Mutation.addPlayerPermissions chief raw.reverse).routine).1 =
        some (.error (.request (.pastExpiry "kick" (-5) staffed.clock))) ∧
      IsFirstPast (IsLatest raw.reverse) staffed.clock "kick" (-5) := by
  intro raw
  have accepted : (staffed.run (Mutation.addPlayerPermissions chief raw).routine).1 = some (.ok .created) := by
    decide +kernel
  have refused : (staffed.run (Mutation.addPlayerPermissions chief raw.reverse).routine).1 =
      some (.error (.request (.pastExpiry "kick" (-5) staffed.clock))) := by
    decide +kernel
  have screens := (screens_canonical_rows reachable_staffed (.permissions chief raw)).2.2.2
  have reversed := (screens_canonical_rows reachable_staffed (.permissions chief raw.reverse)).2.2.2
  exact ⟨accepted, (screens.passes.mp ⟨_, accepted, by simp⟩).2, refused, ((reversed.past _ _ _).mp refused).2⟩

end Service

end PermissionFeed
