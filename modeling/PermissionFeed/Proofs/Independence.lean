import PermissionFeed.Proofs.Edits

namespace PermissionFeed

namespace Store

variable {store view : Store} {player : PlayerId}

theorem ext_alike (alike : ∀ player, Alike player store view) : store = view := by
  have groups := (alike ⟨.replicate 16 0⟩).groups
  have grants := Table.ext_rows fun player => (alike player).grants
  have memberships := Table.ext_rows fun player => (alike player).memberships
  cases store
  cases view
  simp_all

theorem Alike.symm (alike : Alike player store view) : Alike player view store :=
  ⟨alike.groups.symm, alike.grants.symm, alike.memberships.symm⟩

theorem Alike.setGrants (alike : Alike player store view) (rows : Rows) :
    Alike player { store with grants := store.grants.set player rows }
      { view with grants := view.grants.set player rows } where
  groups := alike.groups
  grants := by rw [Table.rows_set, Table.rows_set, if_pos rfl, if_pos rfl]
  memberships := alike.memberships

theorem Alike.setMemberships (alike : Alike player store view) (rows : Rows) :
    Alike player { store with memberships := store.memberships.set player rows }
      { view with memberships := view.memberships.set player rows } where
  groups := alike.groups
  grants := alike.grants
  memberships := by rw [Table.rows_set, Table.rows_set, if_pos rfl, if_pos rfl]

structure WrittenAlike (player : PlayerId) (write other : Write) : Prop where
  reported : write.1 = other.1
  alike : Alike player write.2 other.2

theorem Alike.addMemberships (alike : Alike player store view) (memberships : List Membership) :
    WrittenAlike player (store.addMemberships player memberships) (view.addMemberships player memberships) := by
  have known : memberships.find? (fun row => !store.groups.contains row.key) =
      memberships.find? fun row => !view.groups.contains row.key := by rw [alike.groups]
  simp only [Store.addMemberships, known, alike.memberships]
  split
  · exact ⟨rfl, alike⟩
  · exact ⟨rfl, alike.setMemberships _⟩

end Store

theorem Edit.writtenAlike {edit : Edit} {player : PlayerId} (concerns : edit.player? = some player)
    {store view : Store} (alike : Store.Alike player store view) :
    Store.WrittenAlike player (edit.effect store) (edit.effect view) := by
  match edit, concerns with
  | add (.grants player) rows, rfl =>
      simp only [effect, Store.add, Store.addGrants, alike.grants]
      exact ⟨rfl, alike.setGrants _⟩
  | add (.memberships player) rows, rfl => exact alike.addMemberships rows
  | remove (.grants player) names, rfl =>
      simp only [effect, Store.remove, Store.removeGrants, alike.grants]
      exact ⟨rfl, alike.setGrants _⟩
  | remove (.memberships player) names, rfl =>
      simp only [effect, Store.remove, Store.removeMemberships, alike.memberships]
      exact ⟨rfl, alike.setMemberships _⟩

structure Confined {α : Type} (player : PlayerId) (time : Instant) (routine : Routine α) where
  value : Store → α
  after : Store → Store
  news : Store → List Announcement
  achieves : ∀ service : Service, service.clock = time → Service.Idle service.locks →
    service.Achieves routine (value service.store) (after service.store) (news service.store)
  only : ∀ store, Store.OnlyPlayer player store (after store)
  own : ∀ store, ∀ announcement ∈ news store, announcement.player = player
  value_eq : ∀ {store view}, Store.Alike player store view → value store = value view
  alike : ∀ {store view}, Store.Alike player store view → Store.Alike player (after store) (after view)
  news_eq : ∀ {store view}, Store.Alike player store view → news store = news view

theorem player_of_mem_ofChange {player : PlayerId} {reason : String} {dimensions : Dimensions} {before after : Snapshot}
    {time : Instant} {announcement : Announcement}
    (listed : announcement ∈ Announcement.ofChange player reason dimensions before after time) :
    announcement.player = player := by
  unfold Announcement.ofChange at listed
  split at listed
  · contradiction
  · rw [List.mem_singleton.mp listed]
    rfl

namespace Confined

variable {α β : Type} {player left right : PlayerId} {time : Instant}

def refused {routine : Routine α} (value : α)
    (ends : ∀ service : Service, service.clock = time → service.complete routine = some ⟨value, [], service⟩) :
    Confined player time routine where
  value _ := value
  after store := store
  news _ := []
  achieves service now _ := ⟨service.locks, .refl _, ends service now⟩
  only := .refl player
  own _ _ listed := nomatch listed
  value_eq _ := rfl
  alike alike := alike
  news_eq _ := rfl

def changePlayer {edit : Edit} (concerns : edit.player? = some player) {reason : String}
    {write : Routine (Except StoreError Outcome)} (writes : Service.Writes write edit.effect) :
    Confined player time (Engine.changePlayer player reason write) where
  value store := (edit.effect store).1.mapError .store
  after store := (edit.effect store).2
  news store :=
    if Outcome.isEmitted (edit.effect store).1 then
      Announcement.ofChange player reason .all (store.snapshot player time) ((edit.effect store).2.snapshot player time)
        time
    else []
  achieves service now idle := now ▸ Service.achieves_changePlayer writes (idle _)
  only store := edit.only concerns store
  own store announcement listed := by
    split at listed
    · exact player_of_mem_ofChange listed
    · contradiction
  value_eq alike := by rw [(edit.writtenAlike concerns alike).reported]
  alike alike := (edit.writtenAlike concerns alike).alike
  news_eq alike := by
    have written := edit.writtenAlike concerns alike
    rw [written.reported, written.alike.snapshot, alike.snapshot]

theorem undisturbed {first : Routine α} (confined : Confined left time first) (different : left ≠ right)
    (store : Store) : Store.Alike right (confined.after store) store :=
  (confined.only store).alike different.symm

theorem after_comm {first : Routine α} {second : Routine β} (confined : Confined left time first)
    (other : Confined right time second) (different : left ≠ right) (store : Store) :
    other.after (confined.after store) = confined.after (other.after store) := by
  refine Store.ext_alike fun player => ?_
  by_cases mine : player = left
  · subst mine
    have later := other.undisturbed different.symm (confined.after store)
    have earlier := confined.alike (other.undisturbed different.symm store)
    exact later.trans earlier.symm
  · -- what the first routine does is not seen by anyone else
    have unseen (store : Store) : Store.Alike player (confined.after store) store := (confined.only store).alike mine
    by_cases second : player = right
    · subst second
      exact (other.alike (unseen store)).trans (unseen (other.after store)).symm
    · have unseenToo (store : Store) : Store.Alike player (other.after store) store := (other.only store).alike second
      exact (((unseenToo _).trans (unseen _)).trans (unseenToo _).symm).trans (unseen _).symm

def of_complete {routine next : Routine α} (confined : Confined player time next)
    (same : ∀ service : Service, service.clock = time → service.complete routine = service.complete next) :
    Confined player time routine :=
  { confined with
    achieves := fun service now idle => by
      obtain ⟨locks, agree, completed⟩ := confined.achieves service now idle
      exact ⟨locks, agree, (same service now).trans completed⟩ }

end Confined

theorem Engine.exists_confined {mutation : Mutation} {player : PlayerId} (concerns : mutation.player? = some player)
    (time : Instant) : Nonempty (Confined player time mutation.routine) := by
  rcases (checks_edit mutation).settled time with ⟨error, refused⟩ | ⟨routine, passes, same⟩
  · exact ⟨.refused _ refused⟩
  · obtain ⟨edit, -, ofPlayer, makes⟩ := passes
    rw [concerns] at ofPlayer
    cases makes with
    | player concerned writes =>
        obtain rfl := Option.some.inj (concerned.symm.trans ofPlayer)
        exact ⟨(Confined.changePlayer concerned writes).of_complete same⟩
    | group unconcerned | unannounced unconcerned => exact absurd (unconcerned.symm.trans ofPlayer) (by simp)

def newsOf (player : PlayerId) (events : List ChangeEvent) : List Announcement :=
  (events.map ChangeEvent.toAnnouncement).filter (·.player = player)

theorem newsOf_stamp_append (player : PlayerId) (ids idsToo : EventId.Supply) (news others : List Announcement) :
    newsOf player (ids.stamp news ++ idsToo.stamp others) =
      news.filter (·.player = player) ++ others.filter (·.player = player) := by
  rw [newsOf, List.map_append, EventId.Supply.map_stamp, EventId.Supply.map_stamp, List.filter_append]

theorem filter_comm {left right : PlayerId} (different : left ≠ right) {news others : List Announcement}
    (own : ∀ announcement ∈ news, announcement.player = left)
    (ownToo : ∀ announcement ∈ others, announcement.player = right) (player : PlayerId) :
    news.filter (·.player = player) ++ others.filter (·.player = player) =
      others.filter (·.player = player) ++ news.filter (·.player = player) := by
  by_cases mine : player = left
  · have none : others.filter (·.player = player) = [] := by
      simp only [List.filter_eq_nil_iff, decide_eq_true_eq]
      intro announcement listed same
      exact different (mine.symm.trans (same.symm.trans (ownToo announcement listed)))
    rw [none, List.append_nil, List.nil_append]
  · have none : news.filter (·.player = player) = [] := by
      simp only [List.filter_eq_nil_iff, decide_eq_true_eq]
      intro announcement listed same
      exact mine (same.symm.trans (own announcement listed))
    rw [none, List.append_nil, List.nil_append]

namespace Service

structure InTurn {α : Type} (service : Service) (first second : Routine α) (early late : Ran α) : Prop where
  first : service.complete first = some early
  second : early.service.complete second = some late

theorem exists_inTurn {service : Service} (idle : Idle service.locks) {α : Type} {first second : Routine α}
    {left right : PlayerId} (confined : Confined left service.clock first) (other : Confined right service.clock second)
    (different : left ≠ right) :
    ∃ early late, service.InTurn first second early late ∧ early.value = confined.value service.store ∧
      late.value = other.value service.store ∧ late.service.store = other.after (confined.after service.store) ∧
      ∀ player, newsOf player (early.events ++ late.events) =
        (confined.news service.store).filter (·.player = player) ++
          (other.news service.store).filter (·.player = player) := by
  have undisturbed := confined.undisturbed different service.store
  obtain ⟨locks, agree, completed⟩ := confined.achieves service rfl idle
  let middle := service.settle (confined.after service.store) locks (confined.news service.store)
  obtain ⟨laterLocks, -, completedToo⟩ := other.achieves middle rfl (idle.of_agree agree)
  refine ⟨_, _, ⟨completed, completedToo⟩, rfl, other.value_eq undisturbed, rfl, fun player => ?_⟩
  have sameNews : other.news middle.store = other.news service.store := other.news_eq undisturbed
  rw [newsOf_stamp_append, sameNews]

def fullSnapshot (service : Service) (player : PlayerId) (time : Instant) : Option (Except EngineError Snapshot) :=
  (({ service with clock := time } : Service).run (Engine.playerPermissions player .full)).1

/-- In either order mutations of different players return, store and announce the same. -/
theorem mutations_commute {config : Config} {service : Service} (reachable : Reachable config service)
    {first second : Mutation} {left right : PlayerId} (ofLeft : first.player? = some left)
    (ofRight : second.player? = some right) (different : left ≠ right) :
    ∃ early late earlyToo lateToo, service.InTurn first.routine second.routine early late ∧
      service.InTurn second.routine first.routine earlyToo lateToo ∧
      early.value = lateToo.value ∧ late.value = earlyToo.value ∧ late.service.store = lateToo.service.store ∧
      (∀ player time, late.service.fullSnapshot player time = lateToo.service.fullSnapshot player time) ∧
      ∀ player, newsOf player (early.events ++ late.events) = newsOf player (earlyToo.events ++ lateToo.events) := by
  obtain ⟨confined⟩ := Engine.exists_confined ofLeft service.clock
  obtain ⟨other⟩ := Engine.exists_confined ofRight service.clock
  obtain ⟨early, late, inTurn, earlyValue, lateValue, stored, heard⟩ :=
    exists_inTurn reachable.idle confined other different
  obtain ⟨earlyToo, lateToo, inTurnToo, earlyValueToo, lateValueToo, storedToo, heardToo⟩ :=
    exists_inTurn reachable.idle other confined different.symm
  have sameStore : late.service.store = lateToo.service.store := by
    rw [stored, storedToo, confined.after_comm other different]
  refine ⟨early, late, earlyToo, lateToo, inTurn, inTurnToo, earlyValue.trans lateValueToo.symm,
    lateValue.trans earlyValueToo.symm, sameStore, fun player time => ?_, fun player => ?_⟩
  · rw [fullSnapshot, fullSnapshot, run_playerPermissions, run_playerPermissions, sameStore]
  · rw [heard, heardToo]
    exact filter_comm different (confined.own _) (other.own _) player

theorem mutations_commute_staffed :
    let granting := Mutation.addPlayerPermissions chief [⟨"ban", some 9⟩]
    let joining := Mutation.addPlayerGroups newcomer [⟨" staff ", none⟩]
    chief ≠ newcomer ∧
      ∃ early late earlyToo lateToo, staffed.InTurn granting.routine joining.routine early late ∧
        staffed.InTurn joining.routine granting.routine earlyToo lateToo ∧
        early.value = .ok .created ∧ lateToo.value = .ok .created ∧ late.value = .ok .created ∧
        late.service.store = lateToo.service.store ∧
        ∀ player, newsOf player (early.events ++ late.events) = newsOf player (earlyToo.events ++ lateToo.events) := by
  intro granting joining
  have ofChief : granting.player? = some chief := rfl
  have ofNewcomer : joining.player? = some newcomer := rfl
  have different : chief ≠ newcomer := by decide +kernel
  have granted : (staffed.complete granting.routine).map Ran.value = some (.ok .created) := by decide +kernel
  have joined : (staffed.complete joining.routine).map Ran.value = some (.ok .created) := by decide +kernel
  obtain ⟨early, late, earlyToo, lateToo, inTurn, inTurnToo, sameEarly, sameLate, sameStore, -, heard⟩ :=
    mutations_commute reachable_staffed ofChief ofNewcomer different
  rw [inTurn.first, Option.map_some, Option.some.injEq] at granted
  rw [inTurnToo.first, Option.map_some, Option.some.injEq] at joined
  exact ⟨different, early, late, earlyToo, lateToo, inTurn, inTurnToo, granted, sameEarly ▸ granted,
    sameLate.trans joined, sameStore, heard⟩

end Service

end PermissionFeed
