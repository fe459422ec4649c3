namespace RuleSim

abbrev Table (κ α : Type) := List (κ × α)

namespace Table

variable {κ α : Type} [DecidableEq κ]

def find? (t : Table κ α) (k : κ) : Option α :=
  match t with
  | [] => none
  | (k', v) :: t => if k = k' then some v else find? t k

def contains (t : Table κ α) (k : κ) : Bool := (t.find? k).isSome

def keys (t : Table κ α) : List κ := t.map (·.1)

def values (t : Table κ α) : List α := t.map (·.2)

def erase (t : Table κ α) (k : κ) : Table κ α := t.filter (·.1 ≠ k)

/-- Replaces the value in place, or adds the pair at the end. -/
def put (t : Table κ α) (k : κ) (v : α) : Table κ α :=
  match t with
  | [] => [(k, v)]
  | (k', v') :: t => if k = k' then (k, v) :: t else (k', v') :: put t k v

/-- Replaces the value in place, or adds the pair before the first larger key. -/
def insert [LT κ] [DecidableLT κ] (t : Table κ α) (k : κ) (v : α) : Table κ α :=
  match t with
  | [] => [(k, v)]
  | (k', v') :: t =>
    if k = k' then (k, v) :: t
    else if k < k' then (k, v) :: (k', v') :: t
    else (k', v') :: insert t k v

/-- Adds the pairs one after another: of two values for a key the later stays. -/
def insertAll [LT κ] [DecidableLT κ] (t : Table κ α) (pairs : List (κ × α)) : Table κ α :=
  pairs.foldl (fun t p => insert t p.1 p.2) t

def ofList [LT κ] [DecidableLT κ] (pairs : List (κ × α)) : Table κ α := insertAll [] pairs

@[simp] theorem find?_nil (k : κ) : find? ([] : Table κ α) k = none := rfl

theorem find?_put (t : Table κ α) (k l : κ) (v : α) :
    (t.put k v).find? l = if l = k then some v else t.find? l := by
  induction t with
  | nil => simp [put, find?]
  | cons p t ih => by_cases h : k = p.1 <;> by_cases h' : l = p.1 <;> grind [put, find?]

theorem find?_insert [LT κ] [DecidableLT κ] (t : Table κ α) (k l : κ) (v : α) :
    (t.insert k v).find? l = if l = k then some v else t.find? l := by
  induction t with
  | nil => simp [insert, find?]
  | cons p t ih => by_cases h : k = p.1 <;> by_cases h' : l = p.1 <;> grind [insert, find?]

theorem find?_erase (t : Table κ α) (k l : κ) :
    (t.erase k).find? l = if l = k then none else t.find? l := by
  induction t with
  | nil => simp [erase]
  | cons p t ih =>
    have : erase (p :: t) k = if p.1 = k then erase t k else p :: erase t k := by
      by_cases h : p.1 = k <;> simp [erase, h]
    grind [find?]

theorem mem_insert [LT κ] [DecidableLT κ] {t : Table κ α} {k : κ} {v : α} {p : κ × α}
    (h : p ∈ t.insert k v) : p = (k, v) ∨ p ∈ t := by
  induction t with
  | nil => simpa [insert] using h
  | cons q t ih => by_cases hk : k = q.1 <;> by_cases hlt : k < q.1 <;> grind [insert]

theorem mem_of_find? {t : Table κ α} {k : κ} {v : α} (h : t.find? k = some v) : (k, v) ∈ t := by
  induction t with
  | nil => simp at h
  | cons p t ih => by_cases hk : k = p.1 <;> grind [find?]

theorem mem_keys_iff {t : Table κ α} {k : κ} : k ∈ t.keys ↔ t.contains k = true := by
  induction t with
  | nil => simp [keys, contains]
  | cons p t ih => by_cases h : k = p.1 <;> simp_all [keys, contains, find?]

theorem eq_nil_of_find? {t : Table κ α} (h : ∀ k, t.find? k = none) : t = [] := by
  cases t with
  | nil => rfl
  | cons p t =>
    have hp := h p.1
    simp [find?] at hp

end Table

end RuleSim
