namespace RuleSim

abbrev OrderedSet (α : Type) := List α

namespace OrderedSet

variable {α : Type} [DecidableEq α]

def insert [LT α] [DecidableLT α] (s : OrderedSet α) (a : α) : OrderedSet α :=
  match s with
  | [] => [a]
  | b :: s => if a = b then b :: s else if a < b then a :: b :: s else b :: insert s a

def erase (s : OrderedSet α) (a : α) : OrderedSet α := s.filter (· ≠ a)

theorem mem_insert [LT α] [DecidableLT α] (s : OrderedSet α) (a b : α) :
    b ∈ s.insert a ↔ b = a ∨ b ∈ s := by
  induction s with
  | nil => simp [insert]
  | cons c s ih => by_cases h : a = c <;> by_cases h' : a < c <;> grind [insert]

theorem mem_erase (s : OrderedSet α) (a b : α) : b ∈ s.erase a ↔ b ≠ a ∧ b ∈ s := by
  simp [erase, and_comm]

end OrderedSet

end RuleSim
