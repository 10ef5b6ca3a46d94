import PermissionFeed.Proofs.Reachable

namespace PermissionFeed

def Snapshot.within (snapshot : Snapshot) (scope : Scope) : Snapshot where
  player := snapshot.player
  memberships := if scope.groups then snapshot.memberships else ∅
  direct := if scope.direct then snapshot.direct else ∅
  effective := if scope.effective then snapshot.effective else ∅

theorem Rows.active_active (rows : Rows) (now : Instant) : (rows.active now).active now = rows.active now := by
  apply Std.ExtTreeMap.ext_getElem?
  intro key
  simp only [getElem?_active, Option.filter_filter, Bool.and_self]

theorem Rows.ofRows_list_filter_active (rows : Rows) (now : Instant) :
    ofRows (rows.list.filter (·.isActive now)) = rows.active now :=
  ofRows_eq_of_mem_iff fun row => by
    rw [List.mem_filter, mem_list, getElem?_active_eq_some]
    rfl

theorem Groups.mem_inherited {groups : Groups} {memberships : List Membership} {now : Instant} {name : String} :
    name ∈ groups.inherited memberships now ↔ ∃ membership ∈ memberships, membership.isActive now ∧
      ∃ group, groups[membership.key]? = some group ∧ ∃ grant ∈ group.grants, grant.isActive now ∧ grant.key = name := by
  simp only [inherited, Group.activeGrants, Std.ExtTreeSet.mem_ofList, List.contains_eq_mem, decide_eq_true_eq,
    List.mem_flatMap, List.mem_filterMap, List.mem_filter, List.mem_map]
  constructor
  · rintro ⟨group, ⟨membership, ⟨joined, active⟩, found⟩, grant, ⟨granted, lasting⟩, named⟩
    exact ⟨membership, joined, active, group, found, grant, granted, lasting, named⟩
  · rintro ⟨membership, joined, active, group, found, grant, granted, lasting, named⟩
    exact ⟨group, ⟨membership, ⟨joined, active⟩, found⟩, grant, ⟨granted, lasting⟩, named⟩

namespace Store

def allGroups (store : Store) : Groups :=
  store.groups.map fun name rows => ⟨name, rows.list⟩

def read (store : Store) (player : PlayerId) (scope : Scope) (now : Instant) : Snapshot :=
  .assemble player scope (if scope.loadsDirect then store.directGrants player now else [])
    (if scope.groups then store.playerMemberships player now else [])
    (if scope.effective then (store.inherited player now).toList else []) now

theorem inherited_allGroups (store : Store) (player : PlayerId) (now : Instant) :
    store.allGroups.inherited (store.memberships.rows player).list now = store.inherited player now := by
  apply Std.ExtTreeSet.ext_mem
  intro name
  rw [mem_inherited, Groups.mem_inherited]
  simp only [allGroups, Std.ExtTreeMap.getElem?_map, Option.map_eq_some_iff]
  constructor
  · rintro ⟨membership, joined, active, _, ⟨rows, found, rfl⟩, grant, granted, lasting, rfl⟩
    refine ⟨membership.key, Rows.mem_active.mpr ⟨_, Rows.mem_list.mp joined, active⟩, ?_⟩
    rw [found]
    exact Rows.mem_active.mpr ⟨_, Rows.mem_list.mp granted, lasting⟩
  · rintro ⟨group, member, granted⟩
    obtain ⟨expiry, joined, active⟩ := Rows.mem_active.mp member
    obtain ⟨rows, found⟩ : ∃ rows, store.groups[group]? = some rows := by
      cases found : store.groups[group]? with
      | none => simp [found, Rows.mem_active] at granted
      | some rows => exact ⟨rows, rfl⟩
    rw [found] at granted
    obtain ⟨lasts, listed, lasting⟩ := Rows.mem_active.mp granted
    exact ⟨⟨group, expiry⟩, Rows.mem_list.mpr joined, active, ⟨group, rows.list⟩, ⟨rows, found, rfl⟩, ⟨name, lasts⟩,
      Rows.mem_list.mpr listed, lasting, rfl⟩

theorem evaluate_stored (store : Store) (player : PlayerId) (scope : Scope) (now : Instant) :
    Snapshot.evaluate player scope (store.grants.rows player).list (store.memberships.rows player).list store.allGroups
        now = (store.snapshot player now).within scope := by
  simp only [Snapshot.evaluate, Snapshot.assemble, Snapshot.within, snapshot, Scope.full, directGrants,
    playerMemberships, inherited_allGroups, Rows.ofRows_list_filter_active, Rows.active_active, if_true]

theorem read_eq_within (store : Store) (player : PlayerId) (scope : Scope) (now : Instant) :
    store.read player scope now = (store.snapshot player now).within scope := by
  -- what is not loaded is not shown either
  obtain ⟨effective, direct, groups⟩ := scope
  cases effective <;> cases direct <;> cases groups <;>
    simp [read, Snapshot.assemble, Snapshot.within, snapshot, Scope.full, Scope.loadsDirect]

theorem read_eq_evaluate (store : Store) (player : PlayerId) (scope : Scope) (now : Instant) :
    store.read player scope now = .evaluate player scope (store.grants.rows player).list
      (store.memberships.rows player).list store.allGroups now :=
  (store.read_eq_within player scope now).trans (store.evaluate_stored player scope now).symm

end Store

namespace Service

open Engine

theorem run_read (service : Service) (player : PlayerId) (scope : Scope) (time : Instant) :
    service.run (read player scope time) = (some (.ok (service.store.read player scope time)), service) := by
  obtain ⟨effective, direct, groups⟩ := scope
  cases effective <;> cases direct <;> cases groups <;> rfl

theorem run_checkPermission (service : Service) (player : PlayerId) {permission : String}
    (named : Text.trim permission ≠ "") : service.run (checkPermission player permission) =
      (some (.ok ((service.store.snapshot player service.clock).hasPermission (Text.trim permission))), service) := by
  have accepted : Request.permission permission = .ok (Text.trim permission) := by
    simp [Request.permission, Request.required, named]
  unfold checkPermission
  rw [accepted]
  rfl

/-- A reader gets what evaluating all stored rows gives, which is the part of the full snapshot that the scope names. A
permission is granted exactly if the full snapshot of the same moment has it. -/
theorem reads_as_evaluated (service : Service) (player : PlayerId) (scope : Scope) (time : Instant) {permission : String}
    (named : Text.trim permission ≠ "") :
    ∃ snapshot full shown answer,
      service.run (read player scope time) = (some (.ok snapshot), service) ∧
      service.run (read player .full time) = (some (.ok full), service) ∧
      snapshot = .evaluate player scope (service.store.grants.rows player).list
        (service.store.memberships.rows player).list service.store.allGroups time ∧
      snapshot = full.within scope ∧
      service.run (playerPermissions player .full) = (some (.ok shown), service) ∧
      service.run (checkPermission player permission) = (some (.ok answer), service) ∧
      (answer = true ↔ Text.trim permission ∈ shown.effective) := by
  have full := service.run_read player .full time
  have whole : service.store.read player .full time = service.store.snapshot player time := rfl
  rw [whole] at full
  exact ⟨_, _, _, _, service.run_read player scope time, full, service.store.read_eq_evaluate player scope time,
    service.store.read_eq_within player scope time, service.run_playerPermissions player,
    service.run_checkPermission player named, Std.ExtTreeSet.contains_iff_mem⟩

def outgrown : Service :=
  let joined := (staffed.run (Mutation.addPlayerGroups newcomer [⟨"staff", some 5⟩]).routine).2
  { joined with clock := 5 }

theorem outgrown_reads_as_evaluated : ∃ snapshot full shown,
    outgrown.run (read newcomer .effectiveOnly 4) = (some (.ok snapshot), outgrown) ∧
    outgrown.run (read newcomer .full 4) = (some (.ok full), outgrown) ∧
    snapshot = .evaluate newcomer .effectiveOnly (outgrown.store.grants.rows newcomer).list
      (outgrown.store.memberships.rows newcomer).list outgrown.store.allGroups 4 ∧
    snapshot = full.within .effectiveOnly ∧
    outgrown.run (playerPermissions newcomer .full) = (some (.ok shown), outgrown) ∧
    outgrown.run (checkPermission newcomer " kick ") = (some (.ok false), outgrown) ∧
    Text.trim " kick " ∉ shown.effective := by
  have named : Text.trim " kick " ≠ "" := by decide +kernel
  obtain ⟨snapshot, full, shown, answer, reads, readsFull, evaluated, part, shows, checks, granted⟩ :=
    reads_as_evaluated outgrown newcomer .effectiveOnly 4 named
  have refused : (outgrown.run (checkPermission newcomer " kick ")).1.bind Except.toOption = some false := by
    decide +kernel
  rw [checks] at refused
  obtain rfl : answer = false := by simpa [Except.toOption] using refused
  have missing : Text.trim " kick " ∉ shown.effective := fun member => by simp [member] at granted
  exact ⟨snapshot, full, shown, reads, readsFull, evaluated, part, shows, checks, missing⟩

end Service

end PermissionFeed
