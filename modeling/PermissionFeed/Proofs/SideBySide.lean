import PermissionFeed.Proofs.Engine

namespace PermissionFeed

def Effect.asksOfPlayer : Effect → Bool
  | .call (.directGrants ..) | .call (.memberships ..) | .call (.inherited ..) => true
  | _ => false

theorem Effect.not_of_asks {kind : Effect → Bool}
    (grants : ∀ player now, kind (.call (.directGrants player now)) = false)
    (memberships : ∀ player now, kind (.call (.memberships player now)) = false)
    (inherited : ∀ player now, kind (.call (.inherited player now)) = false) (effect : Effect)
    (asks : effect.asksOfPlayer) : kind effect = false := by
  unfold asksOfPlayer at asks
  split at asks
  · exact grants _ _
  · exact memberships _ _
  · exact inherited _ _
  · contradiction

namespace Routine

variable {α β : Type}

def inquireAll : List (Inquiry α) → Routine (List α)
  | [] => return []
  | inquiry :: inquiries => do return (← inquire inquiry) :: (← inquireAll inquiries)

/-- Follows inquiries side by side. The order says which of them asks next; what is left after it is asked inquiry by
inquiry. -/
def sideBySide : (order : List Nat) → List (Inquiry α) → Routine (List α)
  | [], inquiries => inquireAll inquiries
  | place :: order, inquiries =>
      match inquiries[place]? with
      | some (.ask call next) => .step (.call call) fun answer => sideBySide order (inquiries.set place (next answer))
      | _ => sideBySide order inquiries

def spread (order : List Nat) : Routine α → Routine α
  | .done value => .done value
  | .step (.capture players time) next => do
      let answers ← sideBySide order (players.map fun player => .snapshot player .full time)
      spread order (next (answers.map Except.toOption))
  | .step effect next => .step effect fun answer => spread order (next answer)

inductive Asks (stores : Store → Prop) : Routine α → α → Prop where
  | done (value : α) : Asks stores (.done value) value
  | step {call : StoreCall} {next : Except StoreError call.Answer → Routine α} {value : α}
      (answer : Except StoreError call.Answer) (reads : ∀ store, stores store → call.run store = (answer, store))
      (asked : Effect.asksOfPlayer (.call call)) (rest : Asks stores (next answer) value) :
      Asks stores (.step (.call call) next) value

namespace Asks

variable {stores : Store → Prop}

theorem bind {routine : Routine α} {next : α → Routine β} {value : α} {result : β}
    (begins : Asks stores routine value) (ends : Asks stores (next value) result) :
    Asks stores (routine >>= next) result := by
  induction begins with
  | done value => exact ends
  | step answer reads asked rest ih => exact .step answer reads asked (ih ends)

theorem of_bind {routine : Routine α} {next : α → Routine β} {result : β}
    (asks : Asks stores (routine >>= next) result) :
    ∃ value, Asks stores routine value ∧ Asks stores (next value) result := by
  induction routine with
  | done value => exact ⟨value, .done value, asks⟩
  | step effect rest ih =>
      have stepped : Asks stores (.step effect fun answer => rest answer >>= next) result := asks
      cases stepped with
      | step answer reads asked later =>
          obtain ⟨value, begins, ends⟩ := ih answer later
          exact ⟨value, .step answer reads asked begins, ends⟩

theorem ask {inquiries : List (Inquiry α)} {values : List α} (asks : Asks stores (inquireAll inquiries) values)
    {place : Nat} {call : StoreCall} {next : Except StoreError call.Answer → Inquiry α}
    (placed : inquiries[place]? = some (.ask call next)) :
    ∃ answer, (∀ store, stores store → call.run store = (answer, store)) ∧
      Effect.asksOfPlayer (.call call) ∧
      Asks stores (inquireAll (inquiries.set place (next answer))) values := by
  induction inquiries generalizing place values with
  | nil => simp at placed
  | cons inquiry inquiries ih =>
      obtain ⟨value, first, later⟩ := of_bind asks
      cases place with
      | zero =>
          obtain rfl : inquiry = .ask call next := by simpa using placed
          cases first with
          | step answer reads asked rest => exact ⟨answer, reads, asked, rest.bind later⟩
      | succ place =>
          obtain ⟨others, remaining, last⟩ := of_bind later
          obtain ⟨answer, reads, asked, rest⟩ := ih remaining (by simpa using placed)
          -- the inquiries in front only ask, so they do not mind
          exact ⟨answer, reads, asked, first.bind (rest.bind last)⟩

theorem sideBySide {inquiries : List (Inquiry α)} {values : List α} (asks : Asks stores (inquireAll inquiries) values)
    (order : List Nat) : Asks stores (Routine.sideBySide order inquiries) values := by
  induction order generalizing inquiries with
  | nil => exact asks
  | cons place order ih =>
      unfold Routine.sideBySide
      split
      · next call next placed =>
          obtain ⟨answer, reads, asked, rest⟩ := asks.ask placed
          exact .step answer reads asked (ih rest)
      · exact ih asks

theorem inquireAll {ι : Type} {players : List ι} {inquiry : ι → Inquiry α} {value : ι → α}
    (each : ∀ player ∈ players, Asks stores (inquire (inquiry player)) (value player)) :
    Asks stores (Routine.inquireAll (players.map inquiry)) (players.map value) := by
  induction players with
  | nil => exact .done _
  | cons player players ih =>
      have rest := ih fun other listed => each other (by simp [listed])
      exact (each player (by simp)).bind (rest.bind (.done _))

theorem snapshot {base : Store} {player : PlayerId} (alike : ∀ store : Store, stores store → store.Alike player base)
    (time : Instant) : Asks stores (inquire (.snapshot player .full time)) (.ok (base.snapshot player time)) := by
  refine .step (.ok (base.directGrants player time)) (fun store shares => ?_) rfl ?_
  · simp only [StoreCall.run, Store.directGrants, (alike store shares).grants]
  refine .step (.ok (base.playerMemberships player time)) (fun store shares => ?_) rfl ?_
  · simp only [StoreCall.run, Store.playerMemberships, (alike store shares).memberships]
  refine .step (.ok (base.inherited player time)) (fun store shares => ?_) rfl ?_
  · simp only [StoreCall.run, Store.inherited, (alike store shares).memberships, (alike store shares).groups]
  exact .done _

end Asks

end Routine

namespace Service

variable {α β : Type}

theorem complete_of_asks {stores : Store → Prop} {routine : Routine α} {value : α}
    (asks : routine.Asks stores value) (service : Service) (shares : stores service.store) :
    service.complete routine = some ⟨value, [], service⟩ := by
  induction asks with
  | done value => rfl
  | @step call next value answer reads asked rest ih =>
      refine (complete_step (perform_call (reads service.store shares)) next).trans ?_
      rw [ih]
      rfl

theorem complete_spread (service : Service) (order : List Nat) (routine : Routine α) :
    service.complete (routine.spread order) = service.complete routine := by
  induction routine generalizing service with
  | done value => rfl
  | step effect next ih =>
      have unfolded : ∀ next' : effect.Answer → Routine α, (∀ answer (after : Service),
          after.complete (next' answer) = after.complete (next answer)) →
          service.complete (.step effect next') = service.complete (.step effect next) := by
        intro next' same
        rw [complete, complete]
        split
        · rw [same]
        · rfl
      cases effect with
      | capture players time =>
          have asked : (Routine.sideBySide order (players.map fun player => .snapshot player .full time)).Asks
              (· = service.store) (players.map fun player => .ok (service.store.snapshot player time)) := by
            refine .sideBySide (.inquireAll fun player _ => ?_) order
            exact .snapshot (fun store same => same ▸ .refl player store) time
          have read : (players.map fun player => (.ok (service.store.snapshot player time) :
                Except StoreError Snapshot)).map Except.toOption =
              players.map fun player => some (service.store.snapshot player time) := List.map_map
          calc service.complete ((Routine.step (.capture players time) next).spread order)
            _ = (service.complete ((next _).spread order)).map (·.after []) :=
              complete_bind (complete_of_asks asked service rfl) _
            _ = (service.complete (next _)).map (·.after []) := congrArg (Option.map _) (ih _ service)
            _ = (service.complete (next (players.map fun player => some (service.store.snapshot player time)))).map
                  (·.after []) := by rw [read]
            _ = service.complete (.step (.capture players time) next) :=
              (complete_step (perform_capture service players time) next).symm
      | _ => exact unfolded _ fun answer after => ih answer after

end Service

end PermissionFeed
