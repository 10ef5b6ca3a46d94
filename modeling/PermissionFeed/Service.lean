import PermissionFeed.Config
import PermissionFeed.Feed
import PermissionFeed.Routine

namespace PermissionFeed

structure Service where
  store : Store
  clock : Instant
  feed : Feed ChangeEvent
  ids : EventId.Supply
  locks : Option LockTable
  cursors : List Cursor

namespace Service

def start (config : Config) (store : Store) (clock : Instant) (ids : EventId.Supply) : Service where
  store := store
  clock := clock
  feed := .ofCapacity config.capacity
  ids := ids
  locks := if config.serialize then some .empty else none
  cursors := []

def publish (service : Service) (announcement : Announcement) : (EventId × Nat) × Service :=
  let (id, ids) := service.ids.next
  let (delivered, feed) := service.feed.publish ⟨announcement, id⟩
  ((id, delivered), { service with feed, ids })

def newScanner (service : Service) (reach : Nat) : Service :=
  { service with cursors := service.cursors ++ [.reachingBack service.clock reach] }

def advance (service : Service) (scanner : Nat) (last : Instant) : Option Window × Service :=
  match service.cursors[scanner]? with
  | none => (none, service)
  | some cursor =>
      let (window, cursor) := cursor.advance last
      (window, { service with cursors := service.cursors.set scanner cursor })

def rewind (service : Service) (scanner : Nat) (window : Window) : Bool × Service :=
  match service.cursors[scanner]? with
  | none => (false, service)
  | some cursor =>
      let (rewound, cursor) := cursor.rewind window
      (rewound, { service with cursors := service.cursors.set scanner cursor })

def poll (service : Service) (claim : ClaimId) : Bool × Service :=
  match service.locks with
  | none => (true, service)
  | some locks =>
      let (granted, locks) := locks.poll claim
      (granted, { service with locks := some locks })

def capture (service : Service) (time : Instant) : List PlayerId → List (Option Snapshot) × Service
  | [] => ([], service)
  | player :: players =>
      let (snapshot, store) := (Inquiry.snapshot player .full time).run service.store
      let (snapshots, service) := capture { service with store } time players
      (snapshot.toOption :: snapshots, service)

/-- Performs an effect; there is no answer while the routine has to wait. -/
def perform (service : Service) : (effect : Effect) → Option effect.Answer × Service
  | .call call =>
      let (answer, store) := call.run service.store
      (some answer, { service with store })
  | .capture players time =>
      let (snapshots, service) := service.capture time players
      (some snapshots, service)
  | .readClock => (some service.clock, service)
  | .publish announcement =>
      let (answer, service) := service.publish announcement
      (some answer, service)
  | .request players =>
      match service.locks with
      | none => (some none, service)
      | some locks =>
          let (claim, locks) := locks.request players
          (some (some claim), { service with locks := some locks })
  | .await claim =>
      let (granted, service) := service.poll claim
      (if granted then some () else none, service)
  | .release claim => (some (), { service with locks := service.locks.map (·.release claim) })
  | .attach server =>
      let (subscription, feed) := service.feed.subscribe server
      (some subscription.id, { service with feed })
  | .detach subscription => (some (), { service with feed := service.feed.unsubscribe subscription })
  | .advance scanner last =>
      let (window, service) := service.advance scanner last
      (some window, service)
  | .rewind scanner window =>
      let (rewound, service) := service.rewind scanner window
      (some rewound, service)

def run {α : Type} (service : Service) : Routine α → Option α × Service
  | .done value => (some value, service)
  | .step effect next =>
      match service.perform effect with
      | (some answer, service) => service.run (next answer)
      | (none, service) => (none, service)

end Service

end PermissionFeed
