namespace RuleSim

structure EntityId where
  raw : UInt64
deriving DecidableEq, Inhabited

namespace EntityId

instance : LT EntityId := ⟨fun a b => a.raw < b.raw⟩
instance : DecidableLT EntityId := fun a b => inferInstanceAs (Decidable (a.raw < b.raw))

def ofNat (n : Nat) : EntityId := ⟨n.toUInt64⟩

def toNat (e : EntityId) : Nat := e.raw.toNat

def text (e : EntityId) : String := "Entity(" ++ toString e.toNat ++ ")"

def inspect (e : EntityId) : String := "EntityId(" ++ toString e.toNat ++ ")"

end EntityId

end RuleSim
