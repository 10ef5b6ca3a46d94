import PermissionFeed.ChangeEvent
import PermissionFeed.Inquiry
import PermissionFeed.LockTable

namespace PermissionFeed

inductive Effect where
  | call (call : StoreCall)
  /-- Reads full snapshots of players side by side; there is none where the store fails. -/
  | capture (players : List PlayerId) (time : Instant)
  | readClock
  | publish (announcement : Announcement)
  /-- Asks for the locks of players; no claim is made if writes do not take turns. -/
  | request (players : List PlayerId)
  | await (claim : ClaimId)
  | release (claim : ClaimId)
  | attach (server : String)
  | detach (subscription : Nat)
  | advance (scanner : Nat) (last : Instant)
  | rewind (scanner : Nat) (window : Window)

def Effect.Answer : Effect → Type
  | .call wanted => Except StoreError wanted.Answer
  | .capture .. => List (Option Snapshot)
  | .readClock => Instant
  | .publish _ => EventId × Nat
  | .request _ => Option ClaimId
  | .await _ | .release _ | .detach _ => Unit
  | .attach _ => Nat
  | .advance .. => Option Window
  | .rewind .. => Bool

/-- A sequence of effects that ends with a value. -/
inductive Routine (α : Type) where
  | done (value : α)
  | step (effect : Effect) (next : effect.Answer → Routine α)

namespace Routine

def bind {α β : Type} : Routine α → (α → Routine β) → Routine β
  | done value, next => next value
  | step effect rest, next => step effect fun answer => (rest answer).bind next

instance : Monad Routine where
  pure := done
  bind := bind

def perform (effect : Effect) : Routine effect.Answer :=
  step effect done

def call (call : StoreCall) : Routine (Except StoreError call.Answer) :=
  perform (.call call)

def inquire {α : Type} : Inquiry α → Routine α
  | .done value => done value
  | .ask call next => step (.call call) fun answer => inquire (next answer)

def now : Routine Instant :=
  perform .readClock

def publish (announcement : Announcement) : Routine (EventId × Nat) :=
  perform (.publish announcement)

def withLocks {α : Type} (players : List PlayerId) (body : Routine α) : Routine α := do
  match ← perform (.request players) with
  | none => body
  | some claim =>
      perform (.await claim)
      let result ← body
      perform (.release claim)
      return result

end Routine

end PermissionFeed
