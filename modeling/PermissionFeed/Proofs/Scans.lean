import PermissionFeed.Proofs.Lapses
import PermissionFeed.Proofs.Reachable

namespace PermissionFeed

def Effect.callsStore : Effect → Bool
  | .call _ => true
  | _ => false

namespace Routine

variable {α : Type}

/-- The routine as it goes when some of its store calls fail. The list says of each call in turn whether it does. -/
def failing : List (Option StoreError) → Routine α → Routine α
  | _, .done value => .done value
  | some error :: failures, .step (.call call) next =>
      failing failures (next (Except.error error : Except StoreError call.Answer))
  | none :: failures, .step (.call call) next => .step (.call call) fun answer => failing failures (next answer)
  | failures, .step effect next => .step effect fun answer => failing failures (next answer)

theorem failing_nil (routine : Routine α) : routine.failing [] = routine := by
  induction routine with
  | done value => rfl
  | step effect next ih =>
      have stepped : (Routine.step effect next).failing [] = .step effect fun answer => (next answer).failing [] := by
        cases effect <;> rfl
      rw [stepped]
      exact congrArg (Routine.step effect) (funext ih)

theorem failing_of_uncalled {routine : Routine α} (uncalled : routine.Only fun effect => effect.callsStore = false)
    (failures : List (Option StoreError)) : routine.failing failures = routine := by
  induction uncalled with
  | done value => cases failures <;> rfl
  | @step effect next first rest ih =>
      have stepped : (Routine.step effect next).failing failures =
          .step effect fun answer => (next answer).failing failures := by
        cases effect with
        | call call => contradiction
        | _ => rfl
      rw [stepped]
      exact congrArg (Routine.step effect) (funext ih)

def firstFailure? (failures : List (Option StoreError)) (calls : Nat) : Option StoreError :=
  (failures.take calls).findSome? id

theorem firstFailure?_add (failures : List (Option StoreError)) (first second : Nat) :
    firstFailure? failures (first + second) =
      (firstFailure? failures first).or (firstFailure? (failures.drop first) second) := by
  rw [firstFailure?, List.take_add, List.findSome?_append]
  rfl

end Routine

theorem Cursor.toInt_reachingBack (now : Instant) (reach : Nat) : (reachingBack now reach).position.toInt =
    max Int64.minValue.toInt (now.toInt - min (reach : Int) Int64.maxValue.toInt) := by
  have lower := Int64.le_toInt now
  have upper := Int64.toInt_lt now
  have least : Int64.minValue.toInt = -2 ^ 63 := rfl
  have most : Int64.maxValue.toInt = 2 ^ 63 - 1 := rfl
  rw [reachingBack, least, most]
  exact Int64.toInt_ofInt_of_le (by omega) (by omega)

theorem Cursor.reachingBack_le (now : Instant) (reach : Nat) : (reachingBack now reach).position ≤ now := by
  have lower := Int64.le_toInt now
  have least : Int64.minValue.toInt = -2 ^ 63 := rfl
  have most : Int64.maxValue.toInt = 2 ^ 63 - 1 := rfl
  rw [Int64.le_iff_toInt_le, toInt_reachingBack, least, most]
  omega

namespace Service

variable {α β : Type} {service : Service}

/-! ## Readings that give up at the first failure -/

open Routine (firstFailure?)

/-- A routine that reads by so many store calls and leaves the service as it is. Its answer is the first failure, after
which it calls the store no more, or else a value. -/
structure Finds (service : Service) (calls : Nat) (routine : Routine (Except StoreError α)) (value : α) : Prop where
  givesUp {failures : List (Option StoreError)} {error : StoreError} (failed : firstFailure? failures calls = some error)
    (β : Type) (next : Except StoreError α → Routine β) : ∃ rest,
      service.complete ((routine >>= next).failing failures) = service.complete ((next (.error error)).failing rest)
  succeeds {failures : List (Option StoreError)} (unhindered : firstFailure? failures calls = none)
    (β : Type) (next : Except StoreError α → Routine β) :
      service.complete ((routine >>= next).failing failures) =
        service.complete ((next (.ok value)).failing (failures.drop calls))

namespace Finds

theorem pure (service : Service) (value : α) : service.Finds 0 (pure (.ok value)) value where
  givesUp failed := by simp [firstFailure?] at failed
  succeeds _ _ _ := rfl

theorem call (call : StoreCall) {value : call.Answer} (reads : call.run service.store = (.ok value, service.store)) :
    service.Finds 1 (Routine.call call) value where
  givesUp {failures error} failed β next := by
    rcases failures with _ | ⟨_ | first, failures⟩
    · contradiction
    · contradiction
    · obtain rfl := Option.some.inj failed
      exact ⟨failures, rfl⟩
  succeeds {failures} unhindered β next := by
    have performed := perform_call reads
    rcases failures with _ | ⟨_ | first, failures⟩
    · exact (complete_step performed _).trans (Ran.map_after_nil _)
    · exact (complete_step performed _).trans (Ran.map_after_nil _)
    · contradiction

theorem complete_now (next : Instant → Routine (Except StoreError α)) (last : Except StoreError α → Routine β)
    (failures : List (Option StoreError)) : service.complete (((Routine.now >>= next) >>= last).failing failures) =
      service.complete ((next service.clock >>= last).failing failures) := by
  have stepped : ((Routine.now >>= next) >>= last).failing failures =
      .step .readClock fun time => (next time >>= last).failing failures := by
    rcases failures with _ | ⟨_ | _, _⟩ <;> rfl
  rw [stepped]
  exact (complete_step rfl _).trans (Ran.map_after_nil _)

theorem now {calls : Nat} {next : Instant → Routine (Except StoreError α)} {value : α}
    (ends : service.Finds calls (next service.clock) value) : service.Finds calls (Routine.now >>= next) value where
  givesUp failed β last := by
    rw [complete_now]
    exact ends.givesUp failed β last
  succeeds unhindered β last := by
    rw [complete_now]
    exact ends.succeeds unhindered β last

theorem bind {first second : Nat} {routine : Routine (Except StoreError α)}
    {next : Except StoreError α → Routine (Except StoreError β)} {value : α} {result : β}
    (begins : service.Finds first routine value) (givesUp : ∀ error, next (.error error) = Pure.pure (.error error))
    (ends : service.Finds second (next (.ok value)) result) :
    service.Finds (first + second) (routine >>= next) result where
  givesUp {failures error} failed γ last := by
    rw [Routine.bind_assoc]
    rw [Routine.firstFailure?_add] at failed
    cases early : firstFailure? failures first with
    | some stopped =>
        rw [early, Option.some_or, Option.some_inj] at failed
        obtain ⟨rest, completed⟩ := begins.givesUp early γ fun value => next value >>= last
        -- the rest is not even begun
        rw [givesUp, failed] at completed
        exact ⟨rest, completed⟩
    | none =>
        rw [early, Option.none_or] at failed
        rw [begins.succeeds early]
        exact ends.givesUp failed γ last
  succeeds {failures} unhindered γ last := by
    rw [Routine.firstFailure?_add, Option.or_eq_none_iff] at unhindered
    rw [Routine.bind_assoc, begins.succeeds unhindered.1, ends.succeeds unhindered.2, List.drop_drop]

end Finds

/-! ## Whom a window concerns -/

open Scanner

theorem finds_membersOf (service : Service) (time : Instant) (groups : List String) (found : PlayerSet) :
    service.Finds groups.length (membersOf time groups found)
      (groups.foldl (fun found group => found ∪ service.store.activeMembers group time) found) := by
  induction groups generalizing found with
  | nil => exact .pure service found
  | cons group groups ih =>
      rw [List.length_cons, Nat.add_comm]
      exact .bind (.call (.activeMembers group time) rfl) (fun _ => rfl) (ih _)

theorem finds_playersWithLapsedRows (service : Service) (window : Window) :
    service.Finds 2 (playersWithLapsedRows window)
      (service.store.playersWithLapsedGrants window ∪ service.store.playersWithLapsedMemberships window) := by
  change service.Finds (1 + (1 + 0)) _ _
  refine .bind (.call (.playersWithLapsedGrants window) rfl) (fun _ => rfl) ?_
  refine .bind (.call (.playersWithLapsedMemberships window) rfl) (fun _ => rfl) ?_
  exact .pure service _

theorem finds_affected (service : Service) (window : Window) :
    service.Finds (service.store.scanCalls window) (affected window) (service.store.affected window service.clock) := by
  have calls : service.store.scanCalls window = 2 + (1 + (service.store.groupsWithLapsedGrants window).toList.length) := by
    rw [Std.ExtTreeSet.length_toList, ← Nat.add_assoc]
    rfl
  rw [calls]
  refine .bind (finds_playersWithLapsedRows service window) (fun _ => rfl) ?_
  refine .bind (.call (.groupsWithLapsedGrants window) rfl) (fun _ => rfl) ?_
  exact .now (finds_membersOf service _ _ _)

/-! ## Ticks -/

def window? (service : Service) (scanner : Nat) : Option Window :=
  (service.advance scanner service.clock).1

def Due (service : Service) (scanner : Nat) (player : PlayerId) : Prop :=
  ∃ window, service.window? scanner = some window ∧ player ∈ service.store.affected window service.clock

def scanned (service : Service) (scanner : Nat) : Service :=
  { service with cursors := service.cursors.set scanner ⟨service.clock⟩ }

def lapseNews (service : Service) (window : Window) : List Announcement :=
  (service.store.affected window service.clock).toList.map fun player => .refresh player Reason.expiry service.clock

theorem window?_eq_some {scanner : Nat} {window : Window} : service.window? scanner = some window ↔
    ∃ cursor, service.cursors[scanner]? = some cursor ∧ cursor.position < service.clock ∧
      window = ⟨cursor.position, service.clock⟩ := by
  unfold window? advance Cursor.advance
  cases service.cursors[scanner]? with
  | none => simp
  | some cursor =>
      by_cases behind : cursor.position < service.clock
      · simp [behind, eq_comm]
      · simp [behind]

theorem advance_of_window {scanner : Nat} {window : Window} (claimed : service.window? scanner = some window) :
    service.advance scanner service.clock = (some window, service.scanned scanner) := by
  obtain ⟨cursor, found, behind, rfl⟩ := window?_eq_some.mp claimed
  simp [advance, found, Cursor.advance, behind, scanned]

theorem set_cursor_self {scanner : Nat} {cursor : Cursor} (found : service.cursors[scanner]? = some cursor) :
    ({ service with cursors := service.cursors.set scanner cursor } : Service) = service := by
  obtain ⟨bound, rfl⟩ := List.getElem?_eq_some_iff.mp found
  rw [List.set_getElem_self]

theorem advance_of_level {scanner : Nat} (level : service.window? scanner = none) :
    service.advance scanner service.clock = (none, service) := by
  unfold window? at level
  unfold advance at level ⊢
  cases found : service.cursors[scanner]? with
  | none => rfl
  | some cursor =>
      by_cases behind : cursor.position < service.clock
      · simp [found, Cursor.advance, behind] at level
      · simp [Cursor.advance, behind, set_cursor_self found]

theorem rewind_of_window {scanner : Nat} {window : Window} (claimed : service.window? scanner = some window) :
    (service.scanned scanner).rewind scanner window = (true, service) := by
  obtain ⟨cursor, found, behind, rfl⟩ := window?_eq_some.mp claimed
  obtain ⟨bound, _⟩ := List.getElem?_eq_some_iff.mp found
  simp [rewind, scanned, bound, Cursor.rewind, set_cursor_self found]

inductive Ticked (service : Service) (scanner : Nat) (failures : List (Option StoreError)) :
    Ran (Except StoreError ScanReport) → Prop where
  | idle (level : service.window? scanner = none) : Ticked service scanner failures ⟨.ok ⟨none, ∅⟩, [], service⟩
  | failed {window : Window} {error : StoreError} (claimed : service.window? scanner = some window)
      (failed : firstFailure? failures (service.store.scanCalls window) = some error) :
      Ticked service scanner failures ⟨.error error, [], service⟩
  | refreshed {window : Window} {locks : Option LockTable} (claimed : service.window? scanner = some window)
      (unhindered : firstFailure? failures (service.store.scanCalls window) = none)
      (agree : LocksAgree locks service.locks) :
      Ticked service scanner failures
        ⟨.ok ⟨some window, service.store.affected window service.clock⟩, service.ids.stamp (service.lapseNews window),
          (service.scanned scanner).settle service.store locks (service.lapseNews window)⟩

def concludeTick (scanner : Nat) (window : Window) :
    Except StoreError PlayerSet → Routine (Except StoreError ScanReport)
  | .error error => do
      discard (Routine.perform (.rewind scanner window))
      return .error error
  | .ok players => do
      Engine.emitRefreshes players.toList Reason.expiry
      return .ok ⟨some window, players⟩

theorem uncalled_concludeTick (scanner : Nat) (window : Window) (players : Except StoreError PlayerSet) :
    (concludeTick scanner window players).Only fun effect => effect.callsStore = false := by
  cases players with
  | error error => exact .bind (.step rfl fun _ => .done _) fun _ => .done _
  | ok players =>
      exact .bind (Engine.only_emitRefreshes (fun effect => effect.callsStore = false) rfl (fun _ => rfl) _ _)
        fun _ => .done _

theorem tick_failing (scanner : Nat) (failures : List (Option StoreError)) :
    (tick scanner).failing failures = .step .readClock fun time => .step (.advance scanner time) fun
      | none => .done (.ok ⟨none, ∅⟩)
      | some window => (affected window >>= concludeTick scanner window).failing failures := by
  rcases failures with _ | ⟨_ | _, _⟩ <;> (
    refine congrArg (Routine.step _) (funext fun time => congrArg (Routine.step _) (funext fun window => ?_))
    cases window <;> rfl)

theorem ticked_of_window {scanner : Nat} {window : Window} (claimed : service.window? scanner = some window)
    (failures : List (Option StoreError)) :
    ∃ ran, (service.scanned scanner).complete ((affected window >>= concludeTick scanner window).failing failures) =
      some ran ∧ Ticked service scanner failures ran := by
  have finds := finds_affected (service.scanned scanner) window
  cases outcome : firstFailure? failures (service.store.scanCalls window) with
  | some error =>
      obtain ⟨rest, completed⟩ := finds.givesUp outcome _ (concludeTick scanner window)
      have rewound : (service.scanned scanner).perform (.rewind scanner window) = (some true, service) := by
        simp only [perform, rewind_of_window claimed]
        rfl
      rw [completed, Routine.failing_of_uncalled (uncalled_concludeTick scanner window (.error error))]
      exact ⟨_, (complete_step rewound _).trans (Ran.map_after_nil _), .failed claimed outcome⟩
  | none =>
      obtain ⟨locks, agree, emitted⟩ := (achieves_emitRefreshes (service.scanned scanner)
        (service.store.affected window service.clock).toList Reason.expiry).andReturn
          (.ok ⟨some window, service.store.affected window service.clock⟩ : Except StoreError ScanReport)
      rw [finds.succeeds outcome, Routine.failing_of_uncalled (uncalled_concludeTick scanner window (.ok _))]
      exact ⟨_, emitted, .refreshed claimed outcome agree⟩

theorem ticked (service : Service) (scanner : Nat) (failures : List (Option StoreError)) :
    ∃ ran, service.complete ((tick scanner).failing failures) = some ran ∧ Ticked service scanner failures ran := by
  rw [tick_failing]
  cases claimed : service.window? scanner with
  | none =>
      have advanced : service.perform (.advance scanner service.clock) = (some none, service) := by
        simp only [perform, advance_of_level claimed]
        rfl
      refine ⟨⟨.ok ⟨none, ∅⟩, [], service⟩, (complete_step rfl _).trans ?_, .idle claimed⟩
      rw [complete_step advanced]
      rfl
  | some window =>
      have advanced : service.perform (.advance scanner service.clock) =
          (some (some window), service.scanned scanner) := by
        simp only [perform, advance_of_window claimed]
        rfl
      obtain ⟨ran, completed, ticked⟩ := ticked_of_window claimed failures
      refine ⟨ran, (complete_step rfl _).trans ?_, ticked⟩
      rw [complete_step advanced]
      exact (Ran.map_after_nil _).trans ((Ran.map_after_nil _).trans completed)

/-! ## What a tick leaves behind -/

def Scanning (service : Service) (scanner : Nat) : Prop :=
  ∃ cursor, service.cursors[scanner]? = some cursor ∧ cursor.position ≤ service.clock

theorem applyAll_lapseNews (cache : Cache) (service : Service) (window : Window) :
    cache.applyAll (service.ids.stamp (service.lapseNews window)) = cache.hearAll (service.lapseNews window) := by
  rw [Cache.applyAll_eq_hearAll, EventId.Supply.map_stamp]

namespace Ticked

variable {scanner : Nat} {failures : List (Option StoreError)} {ran : Ran (Except StoreError ScanReport)}

theorem store (ticked : Ticked service scanner failures ran) : ran.service.store = service.store := by
  cases ticked <;> rfl

theorem clock (ticked : Ticked service scanner failures ran) : ran.service.clock = service.clock := by
  cases ticked <;> rfl

theorem locks (ticked : Ticked service scanner failures ran) : LocksAgree ran.service.locks service.locks := by
  cases ticked with
  | idle level => exact .refl _
  | failed claimed failed => exact .refl _
  | refreshed claimed unhindered agree => exact agree

theorem scanning (ticked : Ticked service scanner failures ran) (scanning : service.Scanning scanner) :
    ran.service.Scanning scanner := by
  cases ticked with
  | idle level => exact scanning
  | failed claimed failed => exact scanning
  | refreshed claimed unhindered agree =>
      obtain ⟨cursor, found, _⟩ := scanning
      obtain ⟨bound, _⟩ := List.getElem?_eq_some_iff.mp found
      exact ⟨⟨service.clock⟩, by simp [settle, scanned, bound], Int64.le_refl _⟩

theorem shown (ticked : Ticked service scanner failures ran) (cache : Cache) (player : PlayerId) :
    (cache.applyAll ran.events).shown player = cache.shown player := by
  cases ticked with
  | idle level => rfl
  | failed claimed failed => rfl
  | refreshed claimed unhindered agree =>
      rw [applyAll_lapseNews]
      exact Cache.shown_hearAll_refreshes _ _ _ _ _

theorem mem_stale (ticked : Ticked service scanner failures ran) {report : ScanReport} (ok : ran.value = .ok report)
    {cache : Cache} {player : PlayerId} :
    player ∈ (cache.applyAll ran.events).stale ↔ player ∈ cache.stale ∨ service.Due scanner player := by
  cases ticked with
  | idle level => exact (or_iff_left fun ⟨window, claimed, _⟩ => by simp [level] at claimed).symm
  | failed claimed failed => contradiction
  | @refreshed window locks claimed unhindered agree =>
      rw [applyAll_lapseNews, lapseNews, Cache.mem_stale_hearAll_refreshes, Std.ExtTreeSet.mem_toList]
      refine or_congr_right ⟨fun affected => ⟨window, claimed, affected⟩, fun ⟨other, claimed', affected⟩ => ?_⟩
      obtain rfl : other = window := Option.some.inj (claimed'.symm.trans claimed)
      exact affected

theorem of_failed (ticked : Ticked service scanner failures ran) {error : StoreError} (failed : ran.value = .error error) :
    ran.events = [] ∧ ran.service = service := by
  cases ticked with
  | idle level => contradiction
  | failed claimed failed => exact ⟨rfl, rfl⟩
  | refreshed claimed unhindered agree => contradiction

end Ticked

end Service

end PermissionFeed
