import RuleSim.Error
import RuleSim.OrderedSet

namespace RuleSim

structure EntityStore where
  live : OrderedSet EntityId := []
  next : Nat := 0
deriving DecidableEq, Inhabited

namespace EntityStore

def exists? (s : EntityStore) (id : EntityId) : Bool := id ∈ s.live

/-- The first number from `n` on that is not live. One of `live.length + 1` numbers is free. -/
def firstFree (live : List EntityId) (n : Nat) : (fuel : Nat) → Nat
  | 0 => n
  | fuel + 1 => if EntityId.ofNat n ∈ live then firstFree live (n + 1) fuel else n

/-- Allocates a fresh entity. After the last identifier the allocator starts from zero again. -/
def spawn (s : EntityStore) : EntityId × EntityStore :=
  let n := firstFree s.live s.next s.live.length
  let id := EntityId.ofNat n
  (id, { live := s.live.insert id, next := (n + 1) % 2 ^ 64 })

def maxId : Nat := 2 ^ 64 - 1

/-- Makes an entity live under an identifier that the caller chose. The allocator moves past it, so
that a reference to a dead entity is not taken up by a new one. -/
def insert (s : EntityStore) (id : EntityId) : Except Error EntityStore :=
  if id ∈ s.live then .error ⟨.entityExists id, none⟩
  else .ok { live := s.live.insert id, next := max s.next (min (id.toNat + 1) maxId) }

def destroy (s : EntityStore) (id : EntityId) : Except Error EntityStore :=
  if id ∈ s.live then .ok { s with live := s.live.erase id }
  else .error ⟨.entityNotFound id, none⟩

def validate (s : EntityStore) (id : EntityId) : Except Error Unit :=
  if id ∈ s.live then .ok () else .error ⟨.entityNotFound id, none⟩

def empty : EntityStore := {}

end EntityStore

end RuleSim
