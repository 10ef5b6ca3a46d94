import PermissionFeed.Snapshot
import PermissionFeed.Store.Call

namespace PermissionFeed

inductive Inquiry (α : Type) where
  | done (value : α)
  | ask (call : StoreCall) (next : Except StoreError call.Answer → Inquiry α)

namespace Inquiry

def bind {α β : Type} : Inquiry α → (α → Inquiry β) → Inquiry β
  | done value, next => next value
  | ask call rest, next => ask call fun answer => (rest answer).bind next

instance : Monad Inquiry where
  pure := done
  bind := bind

def question (call : StoreCall) : Inquiry (Except StoreError call.Answer) :=
  ask call done

def run {α : Type} : Inquiry α → Store → α × Store
  | done value, store => (value, store)
  | ask call next, store =>
      let (answer, store) := call.run store
      (next answer).run store

def snapshot (player : PlayerId) (scope : Scope) (time : Instant) : Inquiry (Except StoreError Snapshot) := do
  let direct ← if scope.loadsDirect then question (.directGrants player time) else pure (.ok [])
  match direct with
  | .error error => return .error error
  | .ok direct =>
      let memberships ← if scope.groups then question (.memberships player time) else pure (.ok [])
      match memberships with
      | .error error => return .error error
      | .ok memberships =>
          let inherited ← if scope.effective then question (.inherited player time) else pure (.ok (∅ : NameSet))
          match inherited with
          | .error error => return .error error
          | .ok (inherited : NameSet) =>
              return .ok (.assemble player scope direct memberships inherited.toList time)

end Inquiry

end PermissionFeed
