import Mathlib.Data.String.Basic
import Mathlib.Order.Defs.Unbundled
import RuleSim.Table

namespace RuleSim.Table

variable {κ α β : Type}

@[simp] theorem keys_nil : keys ([] : Table κ α) = [] := rfl

@[simp] theorem keys_cons (p : κ × α) (t : Table κ α) : keys (p :: t) = p.1 :: t.keys := rfl

@[simp] theorem keys_append (s t : Table κ α) : keys (s ++ t) = s.keys ++ t.keys := List.map_append

def Ascending [LT κ] (t : Table κ α) : Prop := t.Pairwise (·.1 < ·.1)

instance [LT κ] [DecidableLT κ] (t : Table κ α) : Decidable t.Ascending :=
  inferInstanceAs (Decidable (t.Pairwise (·.1 < ·.1)))

theorem Ascending.map [LT κ] {t : Table κ α} (h : t.Ascending) (f : κ → α → β) :
    Ascending (t.map fun p => (p.1, f p.1 p.2)) := List.pairwise_map.mpr h

theorem Ascending.erase [LT κ] [DecidableEq κ] {t : Table κ α} (h : t.Ascending) (k : κ) :
    (t.erase k).Ascending := List.Pairwise.filter _ h

theorem Ascending.nodup [LT κ] [IsStrictTotalOrder κ (· < ·)] {t : Table κ α}
    (h : t.Ascending) : t.keys.Nodup := by
  refine List.pairwise_map.mpr (h.imp fun {p q} hlt heq => ?_)
  rw [heq] at hlt
  exact irrefl_of (· < ·) q.1 hlt

theorem map_eq_self_iff (t : Table κ α) (f : α → α) :
    (t.map fun p => (p.1, f p.2)) = t ↔ ∀ p ∈ t, f p.2 = p.2 := by
  induction t with
  | nil => simp
  | cons p t ih => rw [List.map_cons, List.cons.injEq, ih, List.forall_mem_cons, Prod.ext_iff,
      and_iff_right rfl]

variable [DecidableEq κ]

theorem find?_map (t : Table κ α) (f : α → β) (k : κ) :
    find? (t.map fun p => (p.1, f p.2)) k = (t.find? k).map f := by
  induction t with
  | nil => rfl
  | cons p t ih =>
      rw [List.map_cons, find?, find?]
      split
      · rfl
      · exact ih

theorem find?_append (s t : Table κ α) (k : κ) :
    find? (s ++ t) k = (s.find? k).or (t.find? k) := by
  induction s with
  | nil => rfl
  | cons p s ih =>
      rw [List.cons_append, find?, find?]
      split
      · rfl
      · exact ih

theorem find?_eq_none_of_notMem {t : Table κ α} {k : κ} (h : k ∉ t.keys) : t.find? k = none := by
  rw [mem_keys_iff, contains, Bool.not_eq_true, Option.isSome_eq_false_iff] at h
  simpa using h

theorem find?_filterMap (ks : List κ) (f : κ → Option α) (k : κ) :
    find? (ks.filterMap fun k => (f k).map (k, ·)) k = if k ∈ ks then f k else none := by
  induction ks with
  | nil => rfl
  | cons l ks ih =>
      cases hl : f l with
      | none =>
          rw [List.filterMap_cons_none (by rw [hl, Option.map_none]), ih]
          by_cases hk : k = l
          · simp [hk, hl]
          · simp [hk]
      | some v =>
          rw [List.filterMap_cons_some (by rw [hl, Option.map_some]), find?, ih]
          by_cases hk : k = l
          · simp [hk, hl]
          · simp [hk]

/-- The first key of a table in order is below all keys that are found further on. -/
theorem Ascending.find?_tail [LT κ] {p : κ × α} {t : Table κ α} (h : Ascending (p :: t)) {k : κ}
    {v : α} (hk : t.find? k = some v) : p.1 < k :=
  (List.pairwise_cons.mp h).1 _ (mem_of_find? hk)

/-- No entry is hidden behind another of its key. -/
theorem Ascending.find?_eq_some_iff [LT κ] [IsStrictTotalOrder κ (· < ·)] {t : Table κ α}
    (h : t.Ascending) {k : κ} {v : α} : t.find? k = some v ↔ (k, v) ∈ t := by
  refine ⟨mem_of_find?, fun hmem => ?_⟩
  induction t with
  | nil => exact absurd hmem List.not_mem_nil
  | cons p t ih =>
      rw [find?]
      rcases List.mem_cons.mp hmem with rfl | hmem
      · exact if_pos rfl
      · have hlt : p.1 < k := (List.pairwise_cons.mp h).1 _ hmem
        have hne : k ≠ p.1 := fun heq => irrefl_of (· < ·) k (heq ▸ hlt)
        rw [if_neg hne]
        exact ih (List.pairwise_cons.mp h).2 hmem

section Sorting

variable [LT κ] [DecidableLT κ]

theorem mem_insert_of_ne {t : Table κ α} {k : κ} {v : α} {p : κ × α}
    (hne : p.1 ≠ k) : p ∈ t.insert k v ↔ p ∈ t := by
  have hpair : p ≠ (k, v) := fun heq => hne (congrArg Prod.fst heq)
  induction t with
  | nil => simp [insert, hpair]
  | cons q t ih =>
      rw [insert]
      split
      · next hk =>
          have hq : p ≠ q := fun heq => hne ((congrArg Prod.fst heq).trans hk.symm)
          simp [hpair, hq]
      · split
        · simp [hpair]
        · exact (List.mem_cons.trans (or_congr_right ih)).trans List.mem_cons.symm

theorem mem_insertAll {s t : Table κ α} {p : κ × α} (h : p ∈ insertAll s t) : p ∈ s ∨ p ∈ t := by
  induction t generalizing s with
  | nil => exact .inl h
  | cons q t ih =>
      rcases ih h with h | h
      · rcases mem_insert h with rfl | h
        · exact .inr List.mem_cons_self
        · exact .inl h
      · exact .inr (List.mem_cons_of_mem _ h)

theorem mem_of_mem_ofList {t : Table κ α} {p : κ × α} (h : p ∈ ofList t) : p ∈ t :=
  (mem_insertAll h).resolve_left List.not_mem_nil

theorem insertAll_map (s t : Table κ α) (f : α → β) :
    insertAll (s.map fun p => (p.1, f p.2)) (t.map fun p => (p.1, f p.2)) =
      (insertAll s t).map fun p => (p.1, f p.2) := by
  have hinsert (s : Table κ α) (k : κ) (v : α) :
      insert (s.map fun p => (p.1, f p.2)) k (f v) = (s.insert k v).map fun p => (p.1, f p.2) := by
    induction s with
    | nil => rfl
    | cons p s ih =>
        simp only [List.map_cons, insert, ih]
        split_ifs <;> rfl
  induction t generalizing s with
  | nil => rfl
  | cons p t ih =>
      change insertAll (insert _ p.1 (f p.2)) _ = _
      rw [hinsert, ih]
      rfl

theorem ofList_map (t : Table κ α) (f : α → β) :
    ofList (t.map fun p => (p.1, f p.2)) = (ofList t).map fun p => (p.1, f p.2) :=
  insertAll_map [] t f

theorem find?_insertAll {s t : Table κ α} (h : t.keys.Nodup) (k : κ) :
    find? (insertAll s t) k = (t.find? k).or (s.find? k) := by
  induction t generalizing s with
  | nil => rfl
  | cons p t ih =>
      rw [keys, List.map_cons, List.nodup_cons] at h
      change find? (insertAll (insert s p.1 p.2) t) k = _
      rw [ih h.2, find?_insert, find?]
      split
      · next hk =>
          rw [hk, find?_eq_none_of_notMem h.1]
          rfl
      · rfl

theorem find?_ofList {t : Table κ α} (h : t.keys.Nodup) (k : κ) :
    (ofList t).find? k = t.find? k := by
  rw [ofList, find?_insertAll h, find?_nil, Option.or_none]

/-- What is added is found before what was there, whatever keys come twice. -/
theorem find?_insertAll_ofList (s t : Table κ α) (k : κ) :
    find? (insertAll s t) k = ((ofList t).find? k).or (s.find? k) := by
  induction t generalizing s with
  | nil => rfl
  | cons p t ih =>
      change find? (insertAll (insert s p.1 p.2) t) k =
        (find? (insertAll (insert [] p.1 p.2) t) k).or _
      rw [ih, ih, Option.or_assoc, find?_insert, find?_insert]
      split
      · rfl
      · rfl

theorem find?_ofList_cons (p : κ × α) (t : Table κ α) (k : κ) :
    (ofList (p :: t)).find? k = ((ofList t).find? k).or (if k = p.1 then some p.2 else none) := by
  change find? (insertAll (insert [] p.1 p.2) t) k = _
  rw [find?_insertAll_ofList, find?_insert, find?_nil]

theorem find?_ofList_map (t : Table κ α) (f : κ → α → β) (k : κ) :
    (ofList (t.map fun p => (p.1, f p.1 p.2))).find? k = ((ofList t).find? k).map (f k) := by
  induction t with
  | nil => rfl
  | cons p t ih =>
      rw [List.map_cons, find?_ofList_cons, find?_ofList_cons, ih, Option.map_or]
      split
      · next hk => rw [hk, Option.map_some]
      · rfl

variable [IsStrictTotalOrder κ (· < ·)]

theorem insert_of_above {t : Table κ α} {k : κ} (h : ∀ p ∈ t, p.1 < k) (v : α) :
    t.insert k v = t ++ [(k, v)] := by
  induction t with
  | nil => rfl
  | cons p t ih =>
      have hp := h p List.mem_cons_self
      have hne : k ≠ p.1 := fun heq => irrefl_of (· < ·) k (heq ▸ hp)
      rw [insert, if_neg hne, if_neg (asymm_of (· < ·) hp),
        ih fun q hq => h q (List.mem_cons_of_mem _ hq)]
      rfl

theorem insertAll_of_ascending {s t : Table κ α} (h : Ascending (s ++ t)) :
    insertAll s t = s ++ t := by
  induction t generalizing s with
  | nil => exact (List.append_nil s).symm
  | cons p t ih =>
      have habove (q) (hq : q ∈ s) : q.1 < p.1 :=
        (List.pairwise_append.mp h).2.2 q hq p List.mem_cons_self
      change insertAll (insert s p.1 p.2) t = _
      rw [insert_of_above habove, ih]
      · rw [List.append_assoc]
        rfl
      · rwa [List.append_assoc]

theorem ofList_of_ascending {t : Table κ α} (h : t.Ascending) : ofList t = t :=
  insertAll_of_ascending h

theorem Ascending.insert {t : Table κ α} (h : t.Ascending) (k : κ) (v : α) :
    (t.insert k v).Ascending := by
  induction t with
  | nil => exact List.pairwise_singleton ..
  | cons p t ih =>
      obtain ⟨hp, ht⟩ := List.pairwise_cons.mp h
      rw [Table.insert]
      split
      · next heq => exact List.pairwise_cons.mpr ⟨fun q hq => heq ▸ hp q hq, ht⟩
      · next hne =>
          split
          · next hlt =>
              refine List.pairwise_cons.mpr ⟨fun q hq => ?_, h⟩
              rcases List.mem_cons.mp hq with rfl | hq
              · exact hlt
              · exact trans_of (· < ·) hlt (hp q hq)
          · next hlt =>
              refine List.pairwise_cons.mpr ⟨fun q hq => ?_, ih ht⟩
              rcases mem_insert hq with rfl | hq
              · rcases trichotomous_of (· < ·) k p.1 with h | h | h
                · exact absurd h hlt
                · exact absurd h hne
                · exact h
              · exact hp q hq

theorem ascending_insertAll {s : Table κ α} (h : s.Ascending) (t : List (κ × α)) :
    (insertAll s t).Ascending := by
  induction t generalizing s with
  | nil => exact h
  | cons p t ih => exact ih (h.insert p.1 p.2)

theorem ascending_ofList (t : List (κ × α)) : (ofList t).Ascending :=
  ascending_insertAll List.Pairwise.nil t

end Sorting

/-- Tables in order with the same look-ups are the same. -/
theorem Ascending.ext [LT κ] [IsStrictTotalOrder κ (· < ·)] {s t : Table κ α}
    (hs : s.Ascending) (ht : t.Ascending) (h : ∀ k, s.find? k = t.find? k) : s = t := by
  induction s generalizing t with
  | nil => exact (eq_nil_of_find? fun k => (h k).symm).symm
  | cons p s ih =>
      cases t with
      | nil => exact eq_nil_of_find? h
      | cons q t =>
          have hp := h p.1
          have hq := h q.1
          rw [find?, if_pos rfl, find?] at hp
          rw [find?, find?, if_pos rfl] at hq
          have hkey : p.1 = q.1 := by
            by_contra hne
            rw [if_neg hne] at hp
            rw [if_neg (Ne.symm hne)] at hq
            exact asymm_of (· < ·) (hs.find?_tail hq) (ht.find?_tail hp.symm)
          rw [if_pos hkey] at hp
          obtain rfl : p = q := Prod.ext hkey (Option.some.inj hp)
          refine congrArg (p :: ·) (ih (List.pairwise_cons.mp hs).2 (List.pairwise_cons.mp ht).2 ?_)
          intro k
          by_cases hk : k = p.1
          · have hnone {u : Table κ α} (hu : Ascending (p :: u)) : u.find? k = none := by
              refine Option.eq_none_iff_forall_ne_some.mpr fun v hv => ?_
              have hlt := hu.find?_tail hv
              rw [← hk] at hlt
              exact irrefl_of (· < ·) k hlt
            rw [hnone hs, hnone ht]
          · have hfound := h k
            rwa [find?, if_neg hk, find?, if_neg hk] at hfound

end RuleSim.Table
