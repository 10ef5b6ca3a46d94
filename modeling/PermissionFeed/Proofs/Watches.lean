import PermissionFeed.Proofs.Scans

/-!
# Consumers while time passes

A consumer who hears everything still holds what has lapsed since. A scan asks for a load of whoever has a lapsed row.
Only a mutation can keep it from that, by doing away with the lapsed row first; the mutation itself is announced without
it, because it had lapsed before. Exactly then the consumer goes on holding what the player has lost
(`Watch.knows_unless_overlooked`).

Time passes until an instant unless that is past, and some of the store calls of a scan may fail.
-/

namespace PermissionFeed

inductive Occurrence where
  | mutate (mutation : Mutation)
  | pass (time : Instant)
  | scan (failures : List (Option StoreError))

structure Moment where
  occurrence : Occurrence
  before : Service
  after : Service

structure Watch where
  service : Service
  cache : Cache
  -- the latest first
  moments : List Moment

def Service.held (service : Service) (player : PlayerId) (facet : Facet) (key : String) : Option Expiry :=
  (service.store.shown player service.clock).entry facet key

def Service.pass (service : Service) (time : Instant) : Service :=
  { service with clock := if service.clock ≤ time then time else service.clock }

theorem Service.clock_le_pass (service : Service) (time : Instant) : service.clock ≤ (service.pass time).clock := by
  unfold pass
  split
  · assumption
  · exact Int64.le_refl _

/-- The player lost what is under the key by the passing of time, and has not got it back. -/
inductive Lapsed (player : PlayerId) (facet : Facet) (key : String) : List Moment → Prop where
  | now {time : Instant} {before after : Service} {earlier : List Moment} (held : before.held player facet key ≠ none)
      (lost : after.held player facet key = none) : Lapsed player facet key (⟨.pass time, before, after⟩ :: earlier)
  | still {moment : Moment} {earlier : List Moment} (lapsed : Lapsed player facet key earlier)
      (missing : moment.after.held player facet key = none) : Lapsed player facet key (moment :: earlier)

/-- A mutation kept the scanner from finding a player who had lost what is under the key, and who has not got it back. -/
inductive Overlooked (scanner : Nat) (player : PlayerId) (facet : Facet) (key : String) : List Moment → Prop where
  | now {mutation : Mutation} {before after : Service} {earlier : List Moment}
      (lapsed : Lapsed player facet key earlier) (due : before.Due scanner player) (spared : ¬after.Due scanner player)
      (missing : after.held player facet key = none) :
      Overlooked scanner player facet key (⟨.mutate mutation, before, after⟩ :: earlier)
  | still {moment : Moment} {earlier : List Moment} (overlooked : Overlooked scanner player facet key earlier)
      (missing : moment.after.held player facet key = none) : Overlooked scanner player facet key (moment :: earlier)

theorem Overlooked.lapsed {scanner : Nat} {player : PlayerId} {facet : Facet} {key : String} {moments : List Moment}
    (overlooked : Overlooked scanner player facet key moments) : Lapsed player facet key moments := by
  induction overlooked with
  | now lapsed _ _ missing => exact .still lapsed missing
  | still _ missing ih => exact .still ih missing

theorem Lapsed.of_cons {player : PlayerId} {facet : Facet} {key : String} {moment : Moment} {earlier : List Moment}
    (lapsed : Lapsed player facet key (moment :: earlier)) (timeless : ∀ time, moment.occurrence ≠ .pass time) :
    Lapsed player facet key earlier ∧ moment.after.held player facet key = none := by
  cases lapsed with
  | now => exact absurd rfl (timeless _)
  | still lapsed missing => exact ⟨lapsed, missing⟩

namespace Service

variable {service : Service} {scanner : Nat} {player : PlayerId} {facet : Facet} {key : String}

theorem held_of_pass {time : Instant} {expiry : Expiry}
    (held : (service.pass time).held player facet key = some expiry) : service.held player facet key = some expiry :=
  Store.entry_of_later (clock_le_pass service time) held

theorem due_of_affected {cursor : Cursor} {time : Instant} (found : service.cursors[scanner]? = some cursor)
    (begins : cursor.position < (service.pass time).clock)
    (affected : player ∈ service.store.affected ⟨cursor.position, (service.pass time).clock⟩ (service.pass time).clock) :
    (service.pass time).Due scanner player :=
  ⟨_, window?_eq_some.mpr ⟨cursor, found, begins, rfl⟩, affected⟩

theorem due_of_lost (scanning : service.Scanning scanner) {time : Instant} (held : service.held player facet key ≠ none)
    (lost : (service.pass time).held player facet key = none) : (service.pass time).Due scanner player := by
  obtain ⟨cursor, found, begins⟩ := scanning
  have moves : service.clock ≠ (service.pass time).clock := by
    intro stands
    apply held
    rw [Service.held, stands]
    exact lost
  have begun := Int64.lt_of_le_of_lt begins (Int64.lt_of_le_of_ne (clock_le_pass service time) moves)
  exact due_of_affected found begun (Store.mem_affected_of_lapsed begins held lost)

theorem Due.pass (due : service.Due scanner player) (time : Instant) : (service.pass time).Due scanner player := by
  obtain ⟨window, claimed, affected⟩ := due
  obtain ⟨cursor, found, begins, rfl⟩ := window?_eq_some.mp claimed
  have passes := clock_le_pass service time
  refine due_of_affected found (Int64.lt_of_lt_of_le begins passes) ?_
  exact Store.mem_affected_of_longer (Int64.le_of_lt begins) passes affected

theorem Scanning.pass (scanning : service.Scanning scanner) (time : Instant) :
    (service.pass time).Scanning scanner := by
  obtain ⟨cursor, found, begins⟩ := scanning
  exact ⟨cursor, found, Int64.le_trans begins (clock_le_pass service time)⟩

theorem scanning_newScanner (service : Service) (reach : Nat) :
    (service.newScanner reach).Scanning service.cursors.length :=
  ⟨.reachingBack service.clock reach, by simp [newScanner], Cursor.reachingBack_le _ _⟩

end Service

namespace Watch

def after {α : Type} (watch : Watch) (occurrence : Occurrence) (ran : Ran α) : Watch where
  service := ran.service
  cache := watch.cache.applyAll ran.events
  moments := ⟨occurrence, watch.service, ran.service⟩ :: watch.moments

def meet (scanner : Nat) (watch : Watch) (occurrence : Occurrence) : Option Watch :=
  match occurrence with
  | .mutate mutation => (watch.service.complete mutation.routine).map (watch.after occurrence)
  | .pass time => some (watch.after occurrence ⟨(), [], watch.service.pass time⟩)
  | .scan failures =>
      (watch.service.complete ((Scanner.tick scanner).failing failures)).map (watch.after occurrence)

def meetAll (scanner : Nat) (watch : Watch) (occurrences : List Occurrence) : Option Watch :=
  occurrences.foldlM (meet scanner) watch

def Knows (watch : Watch) (player : PlayerId) : Prop :=
  player ∈ watch.cache.stale ∨ watch.cache.shown player = watch.service.store.shown player watch.service.clock

structure Tracks (scanner : Nat) (watch : Watch) : Prop where
  idle : Service.Idle watch.service.locks
  scanning : watch.service.Scanning scanner
  known : ∀ (player : PlayerId) (facet : Facet) (key : String),
    (watch.cache.shown player).entry facet key = watch.service.held player facet key ∧
        ¬Lapsed player facet key watch.moments ∨
      (watch.cache.shown player).entry facet key ≠ none ∧ watch.service.held player facet key = none ∧
        Lapsed player facet key watch.moments
  noticed : ∀ (player : PlayerId) (facet : Facet) (key : String), Lapsed player facet key watch.moments →
    watch.service.Due scanner player ∨ Overlooked scanner player facet key watch.moments ∨ player ∈ watch.cache.stale

namespace Tracks

variable {scanner : Nat} {watch : Watch} {player : PlayerId} {facet : Facet} {key : String}

theorem mutate (tracks : Tracks scanner watch) (mutation : Mutation) :
    ∃ later, watch.meet scanner (.mutate mutation) = some later ∧ Tracks scanner later := by
  obtain ⟨value, store, news, ⟨locks, agree, completed⟩, told, _⟩ := Service.tells_mutation tracks.idle mutation
  let ran : Ran (Except EngineError Outcome) := ⟨value, watch.service.ids.stamp news, watch.service.settle store locks news⟩
  have heard : watch.cache.applyAll ran.events = watch.cache.hearAll news := by
    rw [Cache.applyAll_eq_hearAll, EventId.Supply.map_stamp]
  have timeless : ∀ time, Occurrence.mutate mutation ≠ .pass time := by simp
  refine ⟨watch.after (.mutate mutation) ran, by rw [meet, completed]; rfl, ?_⟩
  refine ⟨tracks.idle.of_agree agree, tracks.scanning, fun player facet key => ?_, fun player facet key lapsed => ?_⟩
  · have follows : ((watch.cache.applyAll ran.events).shown player).entry facet key =
        if watch.service.held player facet key = ran.service.held player facet key then
          (watch.cache.shown player).entry facet key
        else ran.service.held player facet key := by
      rw [heard]
      exact told.follows watch.cache player facet key
    rcases tracks.known player facet key with ⟨same, unlapsed⟩ | ⟨kept, lost, lapsed⟩
    · refine Or.inl ⟨?_, fun lapsed => unlapsed (lapsed.of_cons timeless).1⟩
      refine follows.trans ?_
      split
      · next unchanged => rw [same, unchanged]; rfl
      · rfl
    · by_cases missing : ran.service.held player facet key = none
      · refine Or.inr ⟨?_, missing, .still lapsed missing⟩
        rw [lost, missing, if_pos rfl] at follows
        exact fun gone => kept (follows.symm.trans gone)
      · refine Or.inl ⟨?_, fun lapsed => missing (lapsed.of_cons timeless).2⟩
        rw [lost, if_neg (Ne.symm missing)] at follows
        exact follows
  · obtain ⟨lapsed, missing⟩ := lapsed.of_cons timeless
    -- only here can a player get out of the scanner's sight
    rcases tracks.noticed player facet key lapsed with due | overlooked | stale
    · by_cases still : ran.service.Due scanner player
      · exact Or.inl still
      · exact Or.inr (Or.inl (.now lapsed due still missing))
    · exact Or.inr (Or.inl (.still overlooked missing))
    · refine Or.inr (Or.inr ?_)
      change player ∈ (watch.cache.applyAll ran.events).stale
      rwa [heard, told.stale]

theorem pass (tracks : Tracks scanner watch) (time : Instant) :
    ∃ later, watch.meet scanner (.pass time) = some later ∧ Tracks scanner later := by
  refine ⟨_, rfl, tracks.idle, tracks.scanning.pass time, fun player facet key => ?_, fun player facet key lapsed => ?_⟩
  · rcases tracks.known player facet key with ⟨same, unlapsed⟩ | ⟨kept, lost, lapsed⟩
    · by_cases unchanged : (watch.service.pass time).held player facet key = watch.service.held player facet key
      · refine Or.inl ⟨same.trans unchanged.symm, fun lapsed => ?_⟩
        cases lapsed with
        | now held missing => exact held (unchanged.symm.trans missing)
        | still lapsed _ => exact unlapsed lapsed
      -- time gives nothing, so what has changed is gone
      · have missing : (watch.service.pass time).held player facet key = none := by
          cases held : (watch.service.pass time).held player facet key with
          | none => rfl
          | some expiry => exact absurd (held.trans (Service.held_of_pass held).symm) unchanged
        have held : watch.service.held player facet key ≠ none := fun lost => unchanged (missing.trans lost.symm)
        exact Or.inr ⟨fun gone => held (same.symm.trans gone), missing, .now held missing⟩
    · have missing : (watch.service.pass time).held player facet key = none := by
        cases held : (watch.service.pass time).held player facet key with
        | none => rfl
        | some expiry => exact absurd (Service.held_of_pass held) (by simp [lost])
      exact Or.inr ⟨kept, missing, .still lapsed missing⟩
  · cases lapsed with
    | now held missing => exact Or.inl (Service.due_of_lost tracks.scanning held missing)
    | still lapsed missing =>
        rcases tracks.noticed player facet key lapsed with due | overlooked | stale
        · exact Or.inl (due.pass time)
        · exact Or.inr (Or.inl (.still overlooked missing))
        · exact Or.inr (Or.inr stale)

theorem scan (tracks : Tracks scanner watch) {failures : List (Option StoreError)}
    {ran : Ran (Except StoreError ScanReport)} (ticked : watch.service.Ticked scanner failures ran) :
    Tracks scanner (watch.after (.scan failures) ran) := by
  have timeless : ∀ time, Occurrence.scan failures ≠ .pass time := by simp
  have held : ∀ player facet key, ran.service.held player facet key = watch.service.held player facet key := by
    intro player facet key
    rw [Service.held, ticked.store, ticked.clock]
    rfl
  refine ⟨tracks.idle.of_agree ticked.locks, ticked.scanning tracks.scanning, fun player facet key => ?_,
    fun player facet key lapsed => ?_⟩
  · change ((watch.cache.applyAll ran.events).shown player).entry facet key = ran.service.held player facet key ∧ _ ∨
      ((watch.cache.applyAll ran.events).shown player).entry facet key ≠ none ∧ ran.service.held player facet key = none ∧ _
    rw [ticked.shown, held]
    rcases tracks.known player facet key with ⟨same, unlapsed⟩ | ⟨kept, lost, lapsed⟩
    · exact Or.inl ⟨same, fun lapsed => unlapsed (lapsed.of_cons timeless).1⟩
    · exact Or.inr ⟨kept, lost, .still lapsed ((held player facet key).trans lost)⟩
  · obtain ⟨lapsed, missing⟩ := lapsed.of_cons timeless
    rcases tracks.noticed player facet key lapsed with due | overlooked | stale
    · cases value : ran.value with
      | error error =>
          left
          change ran.service.Due scanner player
          rwa [(ticked.of_failed value).2]
      | ok report => exact Or.inr (Or.inr ((ticked.mem_stale value).mpr (Or.inr due)))
    · exact Or.inr (Or.inl (.still overlooked missing))
    · cases value : ran.value with
      | error error =>
          right; right
          change player ∈ (watch.cache.applyAll ran.events).stale
          rwa [(ticked.of_failed value).1]
      | ok report => exact Or.inr (Or.inr ((ticked.mem_stale value).mpr (Or.inl stale)))

theorem overlooked_of_lapsed (tracks : Tracks scanner watch) {failures : List (Option StoreError)}
    {ran : Ran (Except StoreError ScanReport)} (ticked : watch.service.Ticked scanner failures ran) {report : ScanReport}
    (ok : ran.value = .ok report) (fresh : player ∉ (watch.after (.scan failures) ran).cache.stale)
    (lapsed : Lapsed player facet key (watch.after (.scan failures) ran).moments) :
    Overlooked scanner player facet key (watch.after (.scan failures) ran).moments := by
  obtain ⟨earlier, missing⟩ := lapsed.of_cons (by simp)
  rcases tracks.noticed player facet key earlier with due | overlooked | stale
  · exact absurd ((ticked.mem_stale ok).mpr (Or.inr due)) fresh
  · exact .still overlooked missing
  · exact absurd ((ticked.mem_stale ok).mpr (Or.inl stale)) fresh

theorem meetAll (tracks : Tracks scanner watch) (occurrences : List Occurrence) :
    ∃ later, watch.meetAll scanner occurrences = some later ∧ Tracks scanner later := by
  induction occurrences generalizing watch with
  | nil => exact ⟨watch, rfl, tracks⟩
  | cons occurrence occurrences ih =>
      obtain ⟨middle, met, stillTracks⟩ : ∃ middle, watch.meet scanner occurrence = some middle ∧ Tracks scanner middle := by
        cases occurrence with
        | mutate mutation => exact tracks.mutate mutation
        | pass time => exact tracks.pass time
        | scan failures =>
            obtain ⟨ran, completed, ticked⟩ := Service.ticked watch.service scanner failures
            exact ⟨_, by rw [meet, completed]; rfl, tracks.scan ticked⟩
      obtain ⟨later, allMet, tracksLater⟩ := ih stillTracks
      refine ⟨later, ?_, tracksLater⟩
      rw [Watch.meetAll, List.foldlM_cons, met]
      exact allMet

theorem knows_iff (tracks : Tracks scanner watch) : watch.Knows player ↔
    player ∈ watch.cache.stale ∨ ∀ (facet : Facet) (key : String), ¬Lapsed player facet key watch.moments := by
  refine or_congr_right ⟨fun same facet key lapsed => ?_, fun unlapsed => CachedPlayer.ext_entries fun facet key => ?_⟩
  · rcases tracks.known player facet key with ⟨_, unlapsed⟩ | ⟨kept, lost, _⟩
    · exact unlapsed lapsed
    · rw [same] at kept
      exact kept lost
  · rcases tracks.known player facet key with ⟨same, _⟩ | ⟨_, _, lapsed⟩
    · exact same
    · exact absurd lapsed (unlapsed facet key)

end Tracks

/-- Start with a new scanner and a consumer who is in sync, and let mutations, the passing of time and scans happen in
any order. After a scan that does not fail the consumer knows every player who need not be loaded again, but for those
whom mutations have kept the scanner from finding. -/
theorem knows_unless_overlooked {config : Config} {service : Service} (reachable : Service.Reachable config service)
    {cache : Cache} (loaded : cache.InSync service.store service.clock) (occurrences : List Occurrence)
    (failures : List (Option StoreError)) :
    ∃ watch ran,
      meetAll service.cursors.length ⟨service.newScanner config.bootstrap, cache, []⟩ occurrences = some watch ∧
      watch.service.complete ((Scanner.tick service.cursors.length).failing failures) = some ran ∧
      ∀ report, ran.value = .ok report → ∀ player, (watch.after (.scan failures) ran).Knows player ↔
        player ∈ (watch.after (.scan failures) ran).cache.stale ∨ ∀ (facet : Facet) (key : String),
          ¬Overlooked service.cursors.length player facet key (watch.after (.scan failures) ran).moments := by
  have tracks : Tracks service.cursors.length ⟨service.newScanner config.bootstrap, cache, []⟩ :=
    { idle := reachable.idle
      scanning := Service.scanning_newScanner service config.bootstrap
      known := fun player facet key => Or.inl ⟨by rw [loaded.shown]; rfl, fun lapsed => nomatch lapsed⟩
      noticed := fun _ _ _ lapsed => nomatch lapsed }
  obtain ⟨watch, met, tracks⟩ := tracks.meetAll occurrences
  obtain ⟨ran, completed, ticked⟩ := Service.ticked watch.service service.cursors.length failures
  refine ⟨watch, ran, met, completed, fun report ok player => ?_⟩
  rw [(tracks.scan ticked).knows_iff]
  by_cases stale : player ∈ (watch.after (.scan failures) ran).cache.stale
  · simp [stale]
  · refine or_congr_right (forall_congr' fun facet => forall_congr' fun key => not_congr ?_)
    exact ⟨tracks.overlooked_of_lapsed ticked ok stale, Overlooked.lapsed⟩

open Service

def removedLapse : List Occurrence :=
  [.mutate (.addPlayerPermissions newcomer [⟨"fly", some 10⟩]), .pass 20,
    .mutate (.removePlayerPermissions newcomer ["fly"])]

instance (watch : Watch) (player : PlayerId) : Decidable (watch.Knows player) :=
  inferInstanceAs (Decidable (_ ∨ _))

theorem scan_removedLapse : ((meetAll staffed.cursors.length ⟨staffed.newScanner ({} : Config).bootstrap, staffedCache, []⟩
      removedLapse).bind fun watch =>
        (watch.service.complete ((Scanner.tick staffed.cursors.length).failing [])).map fun ran =>
          (ran.value.toOption, ran.service.clock, decide ((watch.after (.scan []) ran).Knows newcomer))) =
      some (some ⟨some ⟨-60000, 20⟩, ∅⟩, 20, false) := by
  decide +kernel

theorem newcomer_overlooked : ∃ watch ran,
    meetAll staffed.cursors.length ⟨staffed.newScanner ({} : Config).bootstrap, staffedCache, []⟩ removedLapse =
      some watch ∧
    watch.service.complete ((Scanner.tick staffed.cursors.length).failing []) = some ran ∧
    ∃ (facet : Facet) (key : String),
      Overlooked staffed.cursors.length newcomer facet key (watch.after (.scan []) ran).moments := by
  obtain ⟨watch, ran, met, completed, knows⟩ :=
    knows_unless_overlooked reachable_staffed inSync_staffedCache removedLapse []
  have scanned := scan_removedLapse
  rw [met] at scanned
  simp only [Option.bind_some, completed, Option.map_some, Option.some.injEq, Prod.mk.injEq,
    decide_eq_false_iff_not] at scanned
  obtain ⟨value, _, unknown⟩ := scanned
  cases ended : ran.value with
  | error error => simp [ended, Except.toOption] at value
  | ok report =>
      have overlooked := mt (knows report ended newcomer).mpr unknown
      refine ⟨watch, ran, met, completed, ?_⟩
      simpa using (not_or.mp overlooked).2

theorem removal_unnoticed : ¬∀ {config : Config} {service : Service}, Reachable config service → ∀ {cache : Cache},
    cache.InSync service.store service.clock → ∀ occurrences : List Occurrence,
    ∃ watch ran,
      meetAll service.cursors.length ⟨service.newScanner config.bootstrap, cache, []⟩ occurrences = some watch ∧
      watch.service.complete ((Scanner.tick service.cursors.length).failing []) = some ran ∧
      ∀ report window, ran.value = .ok report → report.window = some window → window.last = ran.service.clock →
        ∀ player, (watch.after (.scan []) ran).Knows player := by
  intro noticed
  obtain ⟨watch, ran, met, completed, knows⟩ := noticed reachable_staffed inSync_staffedCache removedLapse
  have scanned := scan_removedLapse
  rw [met] at scanned
  simp only [Option.bind_some, completed, Option.map_some, Option.some.injEq, Prod.mk.injEq,
    decide_eq_false_iff_not] at scanned
  obtain ⟨value, clock, unknown⟩ := scanned
  cases ended : ran.value with
  | error error => simp [ended, Except.toOption] at value
  | ok report =>
      obtain rfl : report = ⟨some ⟨-60000, 20⟩, ∅⟩ := by simpa [ended, Except.toOption] using value
      exact unknown (knows _ ⟨-60000, 20⟩ ended rfl clock.symm newcomer)

end Watch

end PermissionFeed
