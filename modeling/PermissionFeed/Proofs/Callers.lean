import PermissionFeed.Proofs.Failures
import PermissionFeed.Proofs.Histories

namespace PermissionFeed

def Text.IsTidy (text : String) : Prop :=
  text ≠ "" ∧ trim text = text

namespace Request

theorem isTidy_trim {raw : String} (sharp : (Text.trim raw).isEmpty = false) : Text.IsTidy (Text.trim raw) := by
  refine ⟨?_, Text.trim_trim raw⟩
  intro empty
  simp [empty] at sharp

theorem isTidy_groupName {raw name : String} (cleaned : groupName raw = .ok name) : Text.IsTidy name := by
  unfold groupName required at cleaned
  simp only at cleaned
  split at cleaned
  · nomatch cleaned
  · next sharp =>
      obtain rfl := Except.ok.inj cleaned
      exact isTidy_trim (Bool.eq_false_iff.mpr sharp)

theorem isTidy_rows {raw rows : List Row} {field : String} (cleaned : Request.rows raw field = .ok rows) :
    ∀ row ∈ rows, Text.IsTidy row.key := by
  unfold Request.rows at cleaned
  simp only at cleaned
  split at cleaned
  · contradiction
  · obtain rfl := Except.ok.inj cleaned
    intro row listed
    rw [Rows.mem_list, Rows.getElem?_ofRows] at listed
    obtain ⟨found, isFound, _⟩ := Option.map_eq_some_iff.mp listed
    have named : found.key = row.key := by simpa using List.find?_some isFound
    have kept := List.mem_reverse.mp (List.mem_of_find?_eq_some isFound)
    obtain ⟨trimmed, sharp⟩ := List.mem_filter.mp kept
    obtain ⟨source, _, rfl⟩ := List.mem_map.mp trimmed
    rw [← named]
    exact isTidy_trim (by simpa using sharp)

theorem isActive_of_rejectPast {rows : List Row} {now : Instant} (accepted : rejectPast rows now = .ok ()) :
    ∀ row ∈ rows, row.isActive now := by
  induction rows with
  | nil => exact fun _ listed => nomatch listed
  | cons first rows ih =>
      unfold rejectPast at accepted
      have activeFirst : first.isActive now ∧ rejectPast rows now = .ok () := by
        split at accepted
        · next lasting => exact ⟨by simp [Row.isActive, lasting, Expiry.isActive], accepted⟩
        · next expiry lapses =>
            split at accepted
            · contradiction
            · next later =>
                refine ⟨?_, accepted⟩
                simpa [Row.isActive, lapses, Expiry.isActive] using Int64.not_le.mp later
      intro row listed
      rcases List.mem_cons.mp listed with rfl | listed
      · exact activeFirst.1
      · exact ih activeFirst.2 row listed

end Request

def StoreCall.rows : StoreCall → List Row
  | addGrants _ rows | addMemberships _ rows | addGroupGrants _ rows => rows
  | _ => []

/-- The call adds only tidy rows that are not past at the time that was read, and creates only groups with a tidy
name. -/
structure StoreCall.IsClean (read : Option Instant) (call : StoreCall) : Prop where
  rows : ∀ row ∈ call.rows, Text.IsTidy row.key ∧ ∃ time, read = some time ∧ row.isActive time
  creates : ∀ name, call = .createGroup name → Text.IsTidy name

def Effect.reading : (effect : Effect) → effect.Answer → Option Instant → Option Instant
  | .readClock, time, none => some time
  | _, _, read => read

def cleanWrites : Protocol (Option Instant) where
  allows
    | read, .call call => call.IsClean read
    | _, _ => True
  after read effect answer := effect.reading answer read

namespace StoreCall

theorem mem_rows_of_adds {call : StoreCall} {owner : Owner} {row : Row} (listed : row ∈ call.adds owner) :
    row ∈ call.rows := by
  unfold adds at listed
  split at listed
  · split at listed
    · exact listed
    · simp at listed
  · split at listed
    · exact listed
    · simp at listed
  · split at listed
    · exact listed
    · simp at listed
  · simp at listed

namespace IsClean

variable {call : StoreCall}

theorem of_quiet (quiet : call.rows = []) (creates : ∀ name, call ≠ .createGroup name) (read : Option Instant) :
    call.IsClean read where
  rows row listed := by simp [quiet] at listed
  creates name same := absurd same (creates name)

theorem of_unread (clean : call.IsClean none) (read : Option Instant) : call.IsClean read where
  rows row listed := by
    obtain ⟨_, time, unread, _⟩ := clean.rows row listed
    contradiction
  creates := clean.creates

theorem of_rows {time : Instant} (creates : ∀ name, call ≠ .createGroup name)
    (tidy : ∀ row ∈ call.rows, Text.IsTidy row.key) (active : ∀ row ∈ call.rows, row.isActive time) :
    call.IsClean (some time) where
  rows row listed := ⟨tidy row listed, time, rfl, active row listed⟩
  creates name same := absurd same (creates name)

theorem of_tidy {name : String} (tidy : Text.IsTidy name) (read : Option Instant) :
    (StoreCall.createGroup name).IsClean read where
  rows row listed := by simp [StoreCall.rows] at listed
  creates other same := by
    obtain rfl := StoreCall.createGroup.inj same
    exact tidy

end IsClean

end StoreCall

def Effect.isQuiet : Effect → Bool
  | .call wanted => !wanted.isWrite
  | .capture .. | .readClock | .publish _ | .request _ | .await _ | .release _ => true
  | _ => false

theorem Effect.isQuiet_of_asks {effect : Effect} (asks : effect.asksOfPlayer) : effect.isQuiet := by
  unfold asksOfPlayer at asks
  split at asks
  · rfl
  · rfl
  · rfl
  · contradiction

theorem cleanWrites_allows_of_quiet {effect : Effect} (quiet : effect.isQuiet) (read : Option Instant) :
    cleanWrites.allows read effect := by
  cases effect with
  | call call =>
      apply StoreCall.IsClean.of_quiet
      · cases call <;> first | rfl | simp [Effect.isQuiet, StoreCall.isWrite] at quiet
      · rintro name rfl
        simp [Effect.isQuiet, StoreCall.isWrite] at quiet
  | _ => trivial

theorem cleanWrites_allows_of_unread {effect : Effect} (allowed : cleanWrites.allows none effect)
    (read : Option Instant) : cleanWrites.allows read effect := by
  cases effect with
  | call call => exact StoreCall.IsClean.of_unread allowed read
  | _ => trivial

theorem Effect.reading_some (effect : Effect) (answer : effect.Answer) (time : Instant) :
    effect.reading answer (some time) = some time := by
  cases effect <;> rfl

theorem lenient_cleanWrites : cleanWrites.Lenient where
  fails read call error := rfl
  asks read effect asks := by
    refine ⟨cleanWrites_allows_of_quiet (Effect.isQuiet_of_asks asks) read, fun answer => ?_⟩
    cases effect with
    | readClock => simp [Effect.asksOfPlayer] at asks
    | _ => rfl
  captures read players time := ⟨trivial, fun _ => rfl⟩

namespace Engine

variable {kind : Effect → Prop}

theorem only_withLocks {α : Type} (quiet : ∀ effect : Effect, effect.isQuiet → kind effect) (players : List PlayerId)
    {body : Routine α} (inside : body.Only kind) : (Routine.withLocks players body).Only kind := by
  refine .bind (.perform (quiet _ rfl)) fun claimed => ?_
  cases claimed with
  | none => exact inside
  | some claim =>
      refine .bind (.perform (quiet _ rfl)) fun _ => .bind inside fun _ => ?_
      exact .bind (.perform (quiet _ rfl)) fun _ => .done _

theorem only_changePlayer (quiet : ∀ effect : Effect, effect.isQuiet → kind effect) (player : PlayerId)
    (reason : String) {write : Routine (Except StoreError Outcome)} (writes : write.Only kind) :
    (changePlayer player reason write).Only kind := by
  have captures : (capture player).Only kind :=
    only_capture (quiet _ rfl) (fun _ asks => quiet _ (Effect.isQuiet_of_asks asks)) player
  refine only_withLocks quiet _ (.bind captures fun before => .bind writes fun answer => ?_)
  cases answer with
  | error error => exact .done _
  | ok outcome =>
      simp only
      split
      · refine .bind captures fun after => .bind (.bind ?_ fun _ => .done _) fun _ => .done _
        exact only_emitDelta (quiet _ rfl) (fun _ => quiet _ rfl) player reason before after .all
      · exact .done _

theorem only_changeGroup (quiet : ∀ effect : Effect, effect.isQuiet → kind effect) (group reason : String)
    (dimensions : Dimensions) {write : Routine (Except StoreError Outcome)} (writes : write.Only kind) :
    (changeGroup group reason dimensions write).Only kind := by
  refine .bind (.perform (quiet _ rfl)) fun time => .bind (.perform (quiet _ rfl)) fun answer => ?_
  cases answer with
  | error error => exact .done _
  | ok members =>
      have captures (players : List PlayerId) : (captureAll players).Only kind :=
        only_captureAll (quiet _ rfl) (fun _ _ => quiet _ rfl) players
      refine only_withLocks quiet _ (.bind (captures _) fun before => .bind writes fun answer => ?_)
      cases answer with
      | error error => exact .done _
      | ok outcome =>
          simp only
          split
          · refine .bind (captures _) fun after => .bind ?_ fun _ => .bind ?_ fun _ => .done _
            · exact only_emitDeltas (quiet _ rfl) (fun _ => quiet _ rfl) reason dimensions _ before after
            · exact only_refreshLateJoiners (quiet _ rfl) (fun _ => quiet _ rfl) (fun _ _ => quiet _ rfl) group reason
                members
          · exact .done _

def IsCaller {α : Type} (read : Option Instant) (routine : Routine α) : Prop :=
  routine.Obeys cleanWrites (fun _ _ => True) read

variable {α β : Type}

theorem isCaller_of_unread {routine : Routine α} (only : routine.Only (cleanWrites.allows none))
    (read : Option Instant) : IsCaller read routine := by
  induction only generalizing read with
  | done value => exact .done trivial
  | step allowed _ ih => exact .step (cleanWrites_allows_of_unread allowed read) fun answer => ih answer _

theorem isCaller_of_read {routine : Routine α} {time : Instant} (only : routine.Only (cleanWrites.allows (some time))) :
    IsCaller (some time) routine := by
  induction only with
  | done value => exact .done trivial
  | @step effect next allowed _ ih =>
      refine .step allowed fun answer => ?_
      have stands : cleanWrites.after (some time) effect answer = some time := effect.reading_some answer time
      rw [stands]
      exact ih answer

theorem isCaller_cleaned {request : Except RequestError α} {next : α → Routine (Except EngineError β)}
    {read : Option Instant} (passes : ∀ value, request = .ok value → IsCaller read (next value)) :
    IsCaller read (cleaned request next) := by
  cases request with
  | error error => exact .done trivial
  | ok value => exact passes value rfl

theorem isCaller_lasting {raw : Except RequestError (List Row)} {next : List Row → Routine (Except EngineError β)}
    (passes : ∀ rows time, raw = .ok rows → (∀ row ∈ rows, row.isActive time) →
      (next rows).Only (cleanWrites.allows (some time))) : IsCaller none (lasting raw next) := by
  refine isCaller_cleaned fun rows cleaned => .step trivial fun time => isCaller_cleaned fun _ accepted => ?_
  exact isCaller_of_read (passes rows time cleaned (Request.isActive_of_rejectPast accepted))

theorem isCaller_mutation (mutation : Mutation) : IsCaller none mutation.routine := by
  have quiet (read : Option Instant) (effect : Effect) (isQuiet : effect.isQuiet) : cleanWrites.allows read effect :=
    cleanWrites_allows_of_quiet isQuiet read
  cases mutation <;> simp only [Mutation.routine]
  case addPlayerPermissions player grants =>
    refine isCaller_lasting fun rows time cleaned active => only_changePlayer (quiet _) player _ (.perform ?_)
    exact .of_rows (by simp) (Request.isTidy_rows cleaned) active
  case removePlayerPermissions player permissions =>
    refine isCaller_cleaned fun names _ => isCaller_of_unread ?_ none
    exact only_changePlayer (quiet _) player _ (.perform (.of_quiet rfl (by simp) none))
  case addPlayerGroups player memberships =>
    refine isCaller_lasting fun rows time cleaned active => only_changePlayer (quiet _) player _ (.perform ?_)
    exact .of_rows (by simp) (Request.isTidy_rows cleaned) active
  case removePlayerGroups player groups =>
    refine isCaller_cleaned fun names _ => isCaller_of_unread ?_ none
    exact only_changePlayer (quiet _) player _ (.perform (.of_quiet rfl (by simp) none))
  case addGroupPermissions group grants =>
    refine isCaller_cleaned fun name _ => isCaller_lasting fun rows time cleaned active => ?_
    refine only_changeGroup (quiet _) name _ _ (.perform ?_)
    exact .of_rows (by simp) (Request.isTidy_rows cleaned) active
  case removeGroupPermissions group permissions =>
    refine isCaller_cleaned fun name _ => isCaller_cleaned fun names _ => isCaller_of_unread ?_ none
    exact only_changeGroup (quiet _) name _ _ (.perform (.of_quiet rfl (by simp) none))
  case createGroup raw =>
    refine isCaller_cleaned fun name cleaned => isCaller_of_unread (.bind (.perform ?_) fun _ => .done _) none
    exact .of_tidy (Request.isTidy_groupName cleaned) none
  case deleteGroup name =>
    refine isCaller_cleaned fun name _ => isCaller_of_unread ?_ none
    exact only_changeGroup (quiet _) name _ _ (.perform (.of_quiet rfl (by simp) none))

end Engine

structure Caller where
  rest : Routine (Except EngineError Outcome)
  read : Option Instant

structure Issued where
  read : Option Instant
  call : StoreCall

structure Traffic where
  store : Store
  callers : List Caller
  issued : List Issued

def Effect.calls : Effect → List StoreCall
  | .call wanted => [wanted]
  | _ => []

theorem Effect.clean_calls {read : Option Instant} {effect : Effect} (allowed : cleanWrites.allows read effect) :
    ∀ call ∈ effect.calls, call.IsClean read := by
  cases effect with
  | call call =>
      intro made listed
      obtain rfl := List.mem_singleton.mp listed
      exact allowed
  | _ => exact fun _ listed => nomatch listed

theorem Service.store_perform (service : Service) (effect : Effect) :
    (service.perform effect).2.store = service.store.afterAll effect.calls := by
  cases effect with
  | capture players time =>
      rw [perform_capture]
      rfl
  | request players =>
      simp only [perform]
      split <;> rfl
  | await claim =>
      simp only [perform, poll]
      split <;> rfl
  | advance scanner last =>
      simp only [perform, advance]
      split <;> rfl
  | rewind scanner window =>
      simp only [perform, rewind]
      split <;> rfl
  | _ => rfl

namespace Traffic

def start (requests : List (Mutation × List Nat × List (Option StoreError))) : Traffic where
  store := .empty
  callers := requests.map fun (mutation, order, failures) => ⟨Service.disturbed mutation.routine order failures, none⟩
  issued := []

/-- Lets the request at a place go on. Of the surroundings it meets, only the store is that of the traffic. -/
def step (traffic : Traffic) (surroundings : Service) (place : Nat) : Traffic :=
  match traffic.callers[place]? with
  | some ⟨.step effect next, read⟩ =>
      match { surroundings with store := traffic.store }.perform effect with
      | (some answer, after) =>
          { store := after.store
            callers := traffic.callers.set place ⟨next answer, effect.reading answer read⟩
            issued := traffic.issued ++ effect.calls.map (Issued.mk read) }
      | (none, _) => traffic
  | _ => traffic

def play (traffic : Traffic) (moves : List (Service × Nat)) : Traffic :=
  moves.foldl (fun traffic (surroundings, place) => traffic.step surroundings place) traffic

structure Orderly (traffic : Traffic) : Prop where
  store : traffic.store = Store.empty.afterAll (traffic.issued.map Issued.call)
  obey : ∀ caller ∈ traffic.callers, Engine.IsCaller caller.read caller.rest
  clean : ∀ issued ∈ traffic.issued, issued.call.IsClean issued.read

variable {traffic : Traffic}

theorem orderly_start (requests : List (Mutation × List Nat × List (Option StoreError))) :
    (start requests).Orderly where
  store := rfl
  obey caller listed := by
    obtain ⟨⟨mutation, order, failures⟩, _, rfl⟩ := List.mem_map.mp listed
    exact ((Engine.isCaller_mutation mutation).spread lenient_cleanWrites order).failing lenient_cleanWrites failures
  clean _ listed := nomatch listed

theorem Orderly.step (orderly : traffic.Orderly) (surroundings : Service) (place : Nat) :
    (traffic.step surroundings place).Orderly := by
  unfold Traffic.step
  split
  · next effect next read placed =>
      split
      · next answer after performed =>
          have obeys := orderly.obey _ (List.mem_of_getElem? placed)
          cases obeys with
          | step allowed rest =>
              refine ⟨?_, fun caller listed => ?_, fun issued listed => ?_⟩
              · have stored := Service.store_perform { surroundings with store := traffic.store } effect
                rw [performed] at stored
                have named : Issued.call ∘ Issued.mk read = id := rfl
                rw [stored, orderly.store, List.map_append, Store.afterAll_append, List.map_map, named, List.map_id]
              · rcases List.mem_or_eq_of_mem_set listed with untouched | rfl
                · exact orderly.obey caller untouched
                · exact rest answer
              · rcases List.mem_append.mp listed with before | listed
                · exact orderly.clean issued before
                · obtain ⟨call, made, rfl⟩ := List.mem_map.mp listed
                  exact Effect.clean_calls allowed call made
      · exact orderly
  · exact orderly

theorem Orderly.play (orderly : traffic.Orderly) (moves : List (Service × Nat)) : (traffic.play moves).Orderly := by
  induction moves generalizing traffic with
  | nil => exact orderly
  | cons move moves ih => exact ih (orderly.step move.1 move.2)

theorem Orderly.isTidy_of_mem_groups (orderly : traffic.Orderly) {name : String} (known : name ∈ traffic.store.groups) :
    Text.IsTidy name := by
  rw [orderly.store] at known
  rcases Store.created_of_mem_groups known with never | created
  · simp [Store.empty] at never
  · obtain ⟨issued, listed, created⟩ := List.mem_map.mp created
    exact (orderly.clean issued listed).creates name created

theorem Orderly.isTidy_of_holds (orderly : traffic.Orderly) {owner : Owner} {row : Row}
    (held : traffic.store.Holds owner row) : Text.IsTidy row.key := by
  rw [orderly.store] at held
  rcases Store.holds_afterAll held with never | ⟨earlier, call, later, history, _, added⟩
  · exact absurd never Store.not_holds_empty
  · have made : call ∈ traffic.issued.map Issued.call := by simp [history]
    obtain ⟨issued, listed, rfl⟩ := List.mem_map.mp made
    exact ((orderly.clean issued listed).rows row (StoreCall.mem_rows_of_adds added)).1

/-- Whatever is written to a store, memberships are in groups that exist, keys are unique, and a group that was deleted
has nothing until it is added anew. If only requests write, then also all names are tidy, and no row is past at the time
that its request has read. -/
theorem stays_coherent :
    (∀ calls : List StoreCall,
      let store := Store.empty.afterAll calls
      store.Linked ∧ (∀ owner, ((store.rowsOf owner).list.map Row.key).Nodup) ∧
        ∀ earlier name later, calls = earlier ++ .deleteGroup name :: later →
          let deleted := ((Store.empty.afterAll earlier).deleteGroup name).2
          (∀ owner row, owner.ConcernsGroup name row → store.Holds owner row → deleted.Added later owner row) ∧
            ((∀ owner row, owner.ConcernsGroup name row → ¬ deleted.Added later owner row) →
              ∀ now, (∀ found ∈ store.group name now, found.grants = []) ∧ store.activeMembers name now = ∅)) ∧
    ∀ (requests : List (Mutation × List Nat × List (Option StoreError))) (moves : List (Service × Nat)),
      let traffic := (start requests).play moves
      traffic.store = Store.empty.afterAll (traffic.issued.map Issued.call) ∧
        (∀ name ∈ traffic.store.groups, Text.IsTidy name) ∧
        (∀ owner row, traffic.store.Holds owner row → Text.IsTidy row.key) ∧
        ∀ issued ∈ traffic.issued, ∀ owner, ∀ row ∈ issued.call.adds owner,
          ∃ time, issued.read = some time ∧ ∀ instant, row.expiry = some instant → time < instant := by
  constructor
  · intro calls
    have linked := Store.linked_empty.afterAll calls
    refine ⟨linked, fun owner => Rows.nodup_keys_list _, ?_⟩
    rintro earlier name later rfl
    have since (owner : Owner) (row : Row) (concerns : owner.ConcernsGroup name row)
        (held : (Store.empty.afterAll (earlier ++ .deleteGroup name :: later)).Holds owner row) :
        ((Store.empty.afterAll earlier).deleteGroup name).2.Added later owner row := by
      rw [Store.afterAll_append] at held
      exact (Store.linked_empty.afterAll earlier).added_since concerns held
    refine ⟨since, fun none now => Store.shows_nothing (fun owner row concerns held => ?_) now⟩
    exact none owner row concerns (since owner row concerns held)
  · intro requests moves
    have orderly := (orderly_start requests).play moves
    refine ⟨orderly.store, fun _ => orderly.isTidy_of_mem_groups, fun _ _ => orderly.isTidy_of_holds, ?_⟩
    intro issued listed owner row added
    obtain ⟨_, time, read, active⟩ := (orderly.clean issued listed).rows row (StoreCall.mem_rows_of_adds added)
    exact ⟨time, read, Expiry.isActive_iff.mp active⟩

def recreated : List StoreCall :=
  [.createGroup "staff", .addGroupGrants "staff" [⟨"kick", none⟩], .addMemberships Service.newcomer [⟨"staff", none⟩],
    .deleteGroup "staff", .createGroup "staff"]

theorem recreated_shows_nothing : "staff" ∈ (Store.empty.afterAll recreated).groups ∧
    ∀ now, (∀ found ∈ (Store.empty.afterAll recreated).group "staff" now, found.grants = []) ∧
      (Store.empty.afterAll recreated).activeMembers "staff" now = ∅ := by
  obtain ⟨_, _, deletes⟩ := stays_coherent.1 recreated
  refine ⟨by decide +kernel, (deletes (recreated.take 3) "staff" [.createGroup "staff"] rfl).2 ?_⟩
  rintro owner row _ ⟨earlier, call, later, history, _, added⟩
  cases earlier with
  | nil =>
      cases history
      simp [StoreCall.adds] at added
  | cons other earlier => simp at history

end Traffic

end PermissionFeed
