import PermissionFeed.ChangeEvent

namespace PermissionFeed

structure CachedPlayer where
  direct : Rows
  groups : Rows
  effective : NameSet
  deriving DecidableEq

namespace CachedPlayer

def empty : CachedPlayer :=
  ⟨∅, ∅, ∅⟩

def ofSnapshot (snapshot : Snapshot) : CachedPlayer :=
  ⟨RowSet.keyed snapshot.direct, RowSet.keyed snapshot.memberships, snapshot.effective⟩

def apply (cached : CachedPlayer) (delta : Delta) : CachedPlayer where
  direct := Rows.apply cached.direct delta.direct
  groups := Rows.apply cached.groups delta.groups
  effective := Rows.names (Rows.apply (NameSet.keyed cached.effective) delta.effective)

end CachedPlayer

structure Cache where
  players : Std.ExtTreeMap PlayerId CachedPlayer
  stale : PlayerSet

namespace Cache

def empty : Cache :=
  ⟨∅, ∅⟩

def load (cache : Cache) (snapshot : Snapshot) : Cache :=
  ⟨cache.players.insert snapshot.player (.ofSnapshot snapshot), cache.stale.erase snapshot.player⟩

def apply (cache : Cache) (event : ChangeEvent) : Cache :=
  if event.requiresRefresh then { cache with stale := cache.stale.insert event.player }
  else
    let cached := cache.players[event.player]?.getD .empty
    { cache with players := cache.players.insert event.player (cached.apply event.delta) }

def applyAll (cache : Cache) (events : List ChangeEvent) : Cache :=
  events.foldl apply cache

end Cache

end PermissionFeed
