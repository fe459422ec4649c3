namespace RuleSim.Heap

variable {α : Type}

def parent (i : Nat) : Nat := (i - 1) / 2

/-- No element comes before its parent. The children of position `i` are at `2 * i + 1` and
`2 * i + 2`. -/
def Ordered (before : α → α → Bool) (h : Array α) : Prop :=
  ∀ i, (hi : i < h.size) → (hp : parent i < h.size) → 0 < i → before h[i] h[parent i] = false

/-- Moves the element at `i` up until its parent does not come after it. -/
def siftUp (before : α → α → Bool) (h : Array α) (i : Nat) (hi : i < h.size) : Array α :=
  if _h0 : i = 0 then h
  else
    have hp : parent i < i := by unfold parent; omega
    if before h[i] h[parent i] then
      siftUp before (h.swap i (parent i)) (parent i) (by simp; omega)
    else h
termination_by i

/-- The position of the earlier of two elements; `i` if `j` is outside or not earlier. -/
def earlier (before : α → α → Bool) (h : Array α) (i j : Nat) : Nat :=
  if hj : j < h.size then
    if hi : i < h.size then if before h[j] h[i] then j else i else i
  else i

theorem earlier_cases (before : α → α → Bool) (h : Array α) (i j : Nat) :
    earlier before h i j = i ∨ earlier before h i j = j ∧ j < h.size := by
  unfold earlier
  split
  · split
    · split <;> simp_all
    · simp
  · simp

def earliest (before : α → α → Bool) (h : Array α) (i : Nat) : Nat :=
  earlier before h (earlier before h i (2 * i + 1)) (2 * i + 2)

theorem earliest_cases (before : α → α → Bool) (h : Array α) (i : Nat) :
    earliest before h i = i ∨ i < earliest before h i ∧ earliest before h i < h.size := by
  unfold earliest
  rcases earlier_cases before h i (2 * i + 1) with h1 | h1 <;>
    rcases earlier_cases before h (earlier before h i (2 * i + 1)) (2 * i + 2) with h2 | h2 <;>
    omega

def siftDown (before : α → α → Bool) (h : Array α) (i : Nat) (hi : i < h.size) : Array α :=
  if hs : earliest before h i = i then h
  else
    have hc : i < earliest before h i ∧ earliest before h i < h.size := by
      rcases earliest_cases before h i with h1 | h1
      · exact absurd h1 hs
      · exact h1
    siftDown before (h.swap i (earliest before h i) hi hc.2) (earliest before h i) (by simp; omega)
termination_by h.size - i
decreasing_by simp; omega

def push (before : α → α → Bool) (h : Array α) (a : α) : Array α :=
  siftUp before (h.push a) h.size (by simp)

def swapRemove (h : Array α) (i : Nat) (hi : i < h.size) : Array α :=
  (h.swap i (h.size - 1)).pop

theorem size_siftDown (before : α → α → Bool) (h : Array α) (i : Nat) (hi : i < h.size) :
    (siftDown before h i hi).size = h.size := by
  fun_induction siftDown before h i hi with
  | case1 => rfl
  | case2 h i hi hs hc ih => simp [ih]

/-- Removes the element at `i`: the last element takes its place and finds its own. -/
def removeAt (before : α → α → Bool) (h : Array α) (i : Nat) (hi : i < h.size) : Array α :=
  let r := swapRemove h i hi
  if hr : i < r.size then
    siftUp before (siftDown before r i hr) i (by rw [size_siftDown]; exact hr)
  else r

def pop? (before : α → α → Bool) (h : Array α) : Option (α × Array α) :=
  if h0 : 0 < h.size then
    let r := swapRemove h 0 h0
    some (h[0], if hr : 0 < r.size then siftDown before r 0 hr else r)
  else none

end RuleSim.Heap
