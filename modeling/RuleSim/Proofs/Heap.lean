import Mathlib.Data.Multiset.AddSub
import Mathlib.Logic.Equiv.Basic
import RuleSim.Heap

namespace RuleSim.Heap

variable {α : Type} {before : α → α → Bool} {h : Array α} {i : Nat}

/-- Elements come one before the other, or they are level; being level is transitive. -/
structure Strict (before : α → α → Bool) : Prop where
  asymm : ∀ {a b}, before a b = true → before b a = false
  trans : ∀ {a b c}, before b a = false → before c b = false → before c a = false

theorem Strict.irrefl (ho : Strict before) (a : α) : before a a = false := by
  cases ha : before a a with
  | false => rfl
  | true => exact ha ▸ ho.asymm ha

theorem parent_lt (h0 : 0 < i) : parent i < i := by unfold parent; omega

theorem parent_eq_iff {c : Nat} (h0 : 0 < c) : parent c = i ↔ c = 2 * i + 1 ∨ c = 2 * i + 2 := by
  unfold parent; omega

def Follows (before : α → α → Bool) (h : Array α) (i j : Nat) : Prop :=
  ∀ (hj : j < h.size) (hi : i < h.size), before h[j] h[i] = false

theorem Follows.trans (ho : Strict before) {i j k : Nat} (hij : Follows before h i j)
    (hjk : Follows before h j k) (hj : j < h.size) : Follows before h i k :=
  fun hk hi => ho.trans (hij hj hi) (hjk hk hj)

theorem ordered_iff : Ordered before h ↔ ∀ k, 0 < k → Follows before h (parent k) k :=
  ⟨fun hh k h0 hk hp => hh k hk hp h0, fun hh k hk hp h0 => hh k h0 hk hp⟩

theorem follows_swap {p a b : Nat} (hi : i < h.size) (hp : p < h.size) :
    Follows before (h.swap i p) a b ↔
      Follows before h (Equiv.swap i p a) (Equiv.swap i p b) := by
  have hlt (k : Nat) : Equiv.swap i p k < h.size ↔ k < h.size := by
    by_cases hki : k = i
    · subst k; simp [hi, hp]
    · by_cases hkp : k = p
      · subst k; simp [hi, hp]
      · rw [Equiv.swap_apply_of_ne_of_ne hki hkp]
  have hget (k : Nat) (hk : k < (h.swap i p).size) (hk' : Equiv.swap i p k < h.size) :
      (h.swap i p)[k] = h[Equiv.swap i p k] := by
    rw [Array.getElem_swap]
    by_cases hki : k = i
    · subst k; simp
    · by_cases hkp : k = p
      · subst k; simp [hki]
      · simp [hki, hkp, Equiv.swap_apply_of_ne_of_ne hki hkp]
  constructor
  · intro hf hb ha
    have hb' : b < (h.swap i p).size := by simpa using (hlt b).mp hb
    have ha' : a < (h.swap i p).size := by simpa using (hlt a).mp ha
    rw [← hget b hb' hb, ← hget a ha' ha]
    exact hf hb' ha'
  · intro hf hb ha
    have hb' := (hlt b).mpr (by simpa using hb)
    have ha' := (hlt a).mpr (by simpa using ha)
    rw [hget b hb hb', hget a ha ha']
    exact hf hb' ha'

structure UpReady (before : α → α → Bool) (h : Array α) (i : Nat) : Prop where
  except : ∀ k, 0 < k → k ≠ i → Follows before h (parent k) k
  below : ∀ c, 0 < c → parent c = i → 0 < i → Follows before h (parent i) c

theorem Ordered.upReady (ho : Strict before) (hh : Ordered before h) (hi : i < h.size) :
    UpReady before h i := by
  rw [ordered_iff] at hh
  refine ⟨fun k h0 _ => hh k h0, fun c hc hp h0 => ?_⟩
  have hf := hh c hc
  rw [hp] at hf
  exact (hh i h0).trans ho hf hi

theorem UpReady.swap (ho : Strict before) (hr : UpReady before h i) (h0 : 0 < i) (hi : i < h.size)
    (hp : parent i < h.size) (hb : before h[i] h[parent i] = true) :
    UpReady before (h.swap i (parent i)) (parent i) := by
  have hlt := parent_lt h0
  constructor
  · intro k hk hkp
    rw [follows_swap hi hp, Equiv.swap_apply_def, Equiv.swap_apply_def]
    by_cases hki : k = i
    · subst k
      simp only [if_true, if_neg hkp, if_neg hlt.ne]
      exact fun _ _ => ho.asymm hb
    · simp only [if_neg hki, if_neg hkp]
      split
      · next hpi => exact hr.below k hk hpi h0
      · split
        · next hpp =>
            have hf := hr.except k hk hki
            rw [hpp] at hf
            exact Follows.trans ho (fun _ _ => ho.asymm hb) hf hp
        · exact hr.except k hk hki
  · intro c hc hcp hp0
    have hpp := parent_lt hp0
    rw [follows_swap hi hp, Equiv.swap_apply_def, Equiv.swap_apply_def,
      if_neg (show parent (parent i) ≠ i by omega), if_neg hpp.ne]
    have hup : Follows before h (parent (parent i)) (parent i) := hr.except (parent i) hp0 hlt.ne
    by_cases hci : c = i
    · rw [if_pos hci]
      exact hup
    · rw [if_neg hci, if_neg (show c ≠ parent i by have := parent_lt hc; omega)]
      have hf := hr.except c hc hci
      rw [hcp] at hf
      exact hup.trans ho hf hp

theorem siftUp_ordered (ho : Strict before) (hi : i < h.size) (hr : UpReady before h i) :
    Ordered before (siftUp before h i hi) := by
  fun_induction siftUp before h i hi with
  | case1 h hi =>
      rw [ordered_iff]
      exact fun k hk => hr.except k hk (by omega)
  | case2 h i hi h0 hp hb ih => exact ih (hr.swap ho (by omega) hi (by omega) hb)
  | case3 h i hi h0 hp hb =>
      rw [ordered_iff]
      intro k hk
      by_cases hki : k = i
      · subst k
        exact fun _ _ => by simpa using hb
      · exact hr.except k hk hki

structure DownReady (before : α → α → Bool) (h : Array α) (i : Nat) : Prop where
  except : ∀ k, 0 < k → parent k ≠ i → Follows before h (parent k) k
  below : ∀ c, 0 < c → parent c = i → 0 < i → Follows before h (parent i) c

theorem earlier_follows (ho : Strict before) {j : Nat} (hi : i < h.size) :
    Follows before h (earlier before h i j) i ∧ Follows before h (earlier before h i j) j := by
  unfold earlier
  split
  · next hj =>
      split
      · next hb => exact ⟨fun _ _ => ho.asymm hb, fun _ _ => ho.irrefl _⟩
      · next hb => exact ⟨fun _ _ => ho.irrefl _, fun _ _ => by simpa using hb⟩
  · next hj => exact ⟨fun _ _ => ho.irrefl _, fun hj' => absurd hj' hj⟩

theorem earliest_follows (ho : Strict before) (hi : i < h.size) :
    Follows before h (earliest before h i) i ∧
      ∀ c, 0 < c → parent c = i → Follows before h (earliest before h i) c := by
  have hm : earlier before h i (2 * i + 1) < h.size := by
    rcases earlier_cases before h i (2 * i + 1) with he | he
    · rwa [he]
    · rw [he.1]; exact he.2
  obtain ⟨hself, hleft⟩ := earlier_follows ho (j := 2 * i + 1) hi
  obtain ⟨hmid, hright⟩ := earlier_follows ho (j := 2 * i + 2) hm
  refine ⟨hmid.trans ho hself hm, fun c hc hp => ?_⟩
  rcases (parent_eq_iff hc).mp hp with rfl | rfl
  · exact hmid.trans ho hleft hm
  · exact hright

theorem parent_earliest (he : earliest before h i ≠ i) : parent (earliest before h i) = i := by
  have hc : earliest before h i = i ∨ earliest before h i = 2 * i + 1 ∨
      earliest before h i = 2 * i + 2 := by
    unfold earliest
    rcases earlier_cases before h (earlier before h i (2 * i + 1)) (2 * i + 2) with h2 | h2
    · rw [h2]
      rcases earlier_cases before h i (2 * i + 1) with h1 | h1
      · exact .inl h1
      · exact .inr (.inl h1.1)
    · exact .inr (.inr h2.1)
  unfold parent
  omega

theorem DownReady.swap (ho : Strict before) (hr : DownReady before h i) (hi : i < h.size)
    (he : earliest before h i ≠ i) (hc : i < earliest before h i ∧ earliest before h i < h.size) :
    DownReady before (h.swap i (earliest before h i) hi hc.2) (earliest before h i) := by
  obtain ⟨hself, hleast⟩ := earliest_follows ho hi
  have hpar := parent_earliest he
  obtain ⟨hlt, hm⟩ := hc
  revert hself hleast hpar hlt hm
  generalize earliest before h i = m
  intro hself hleast hpar hlt hm
  constructor
  · intro k hk hkm
    rw [follows_swap hi hm, Equiv.swap_apply_def, Equiv.swap_apply_def, if_neg hkm]
    by_cases hpi : parent k = i
    · rw [if_pos hpi, if_neg (show k ≠ i by have := parent_lt hk; omega)]
      split
      · exact hself
      · exact hleast k hk hpi
    · rw [if_neg hpi]
      by_cases hki : k = i
      · subst k
        rw [if_pos rfl]
        exact hr.below m (by omega) hpar hk
      · rw [if_neg hki, if_neg (show k ≠ m by rintro rfl; exact hpi hpar)]
        exact hr.except k hk hpi
  · intro c hc hcm _
    have hmc := parent_lt hc
    rw [hpar, follows_swap hi hm, Equiv.swap_apply_left,
      Equiv.swap_apply_of_ne_of_ne (by omega) (by omega)]
    have hf := hr.except c hc (by omega)
    rwa [hcm] at hf

theorem siftDown_ordered (ho : Strict before) (hi : i < h.size) (hr : DownReady before h i) :
    Ordered before (siftDown before h i hi) := by
  fun_induction siftDown before h i hi with
  | case1 h i hi hs =>
      rw [ordered_iff]
      intro k hk
      by_cases hpi : parent k = i
      · have hf := (earliest_follows ho hi).2 k hk hpi
        rwa [hs, ← hpi] at hf
      · exact hr.except k hk hpi
  | case2 h i hi hs hc ih => exact ih (hr.swap ho hi hs hc)

theorem siftDown_eq_self (hi : i < h.size)
    (hc : ∀ c, 0 < c → parent c = i → Follows before h i c) : siftDown before h i hi = h := by
  have hstay {j : Nat} (hj : Follows before h i j) : earlier before h i j = i := by
    unfold earlier
    split
    · next hlt => simp [hj hlt hi]
    · rfl
  have he : earliest before h i = i := by
    rw [earliest, hstay (hc _ (by omega) ((parent_eq_iff (by omega)).mpr (.inl rfl))),
      hstay (hc _ (by omega) ((parent_eq_iff (by omega)).mpr (.inr rfl)))]
  rw [siftDown, dif_pos he]

def contents (h : Array α) : Multiset α := h.toList

theorem mem_contents {a : α} : a ∈ contents h ↔ a ∈ h := by
  simp [contents]

theorem contents_swap {j : Nat} (hi : i < h.size) (hj : j < h.size) :
    contents (h.swap i j) = contents h :=
  Multiset.coe_eq_coe.mpr (Array.swap_perm hi hj).toList

theorem contents_siftUp (hi : i < h.size) : contents (siftUp before h i hi) = contents h := by
  fun_induction siftUp before h i hi with
  | case1 | case3 => rfl
  | case2 h i hi h0 hp hb ih => rw [ih, contents_swap]

theorem contents_siftDown (hi : i < h.size) : contents (siftDown before h i hi) = contents h := by
  fun_induction siftDown before h i hi with
  | case1 => rfl
  | case2 h i hi hs hc ih => rw [ih, contents_swap]

theorem contents_push (a : α) : contents (push before h a) = a ::ₘ contents h := by
  rw [push, contents_siftUp, contents, Array.toList_push]
  exact Multiset.coe_eq_coe.mpr (List.perm_append_singleton a h.toList)

theorem contents_swapRemove (hi : i < h.size) :
    h[i] ::ₘ contents (swapRemove h i hi) = contents h := by
  have hlast : h.size - 1 < h.size := by omega
  have hne : (h.swap i (h.size - 1)).toList ≠ [] := by
    apply List.ne_nil_of_length_pos
    simp only [Array.length_toList, Array.size_swap]
    omega
  have hget : (h.swap i (h.size - 1)).toList.getLast hne = h[i] := by
    simp [List.getLast_eq_getElem]
  have hp : (swapRemove h i hi).toList ++ [h[i]] = (h.swap i (h.size - 1)).toList := by
    rw [swapRemove, Array.toList_pop, ← hget, List.dropLast_concat_getLast]
  rw [← contents_swap hi hlast, contents, contents, ← hp]
  exact (Multiset.coe_eq_coe.mpr (List.perm_append_singleton _ _)).symm

theorem contents_removeAt (hi : i < h.size) :
    h[i] ::ₘ contents (removeAt before h i hi) = contents h := by
  rw [removeAt]
  split
  · rw [contents_siftUp, contents_siftDown, contents_swapRemove]
  · exact contents_swapRemove hi

theorem root_first (ho : Strict before) (hh : Ordered before h) (h0 : 0 < h.size) {a : α}
    (ha : a ∈ contents h) : before a h[0] = false := by
  rw [ordered_iff] at hh
  have hall : ∀ k, Follows before h 0 k := by
    intro k
    induction k using Nat.strongRecOn with
    | ind k ih =>
        by_cases hk : k = 0
        · subst k
          exact fun _ _ => ho.irrefl _
        · intro hks
          have hlt := parent_lt (show 0 < k by omega)
          exact (ih (parent k) hlt).trans ho (hh k (by omega)) (by omega) hks
  obtain ⟨k, hk, rfl⟩ := Array.mem_iff_getElem.mp (mem_contents.mp ha)
  exact hall k hk h0

theorem push_ordered (ho : Strict before) (hh : Ordered before h) (a : α) :
    Ordered before (push before h a) := by
  apply siftUp_ordered ho
  constructor
  · intro k h0 hk hks hps
    have hks' : k < h.size := by
      rw [Array.size_push] at hks
      omega
    have hlt := parent_lt h0
    rw [Array.getElem_push_lt hks', Array.getElem_push_lt (hlt.trans hks')]
    exact hh k hks' (hlt.trans hks') h0
  · intro c hc hp _ hcs
    have hlt := parent_lt hc
    rw [Array.size_push] at hcs
    omega

theorem swapRemove_size (hi : i < h.size) : (swapRemove h i hi).size = h.size - 1 := by
  simp [swapRemove]

theorem getElem_swapRemove (hi : i < h.size) {k : Nat} (hk : k < (swapRemove h i hi).size)
    (hkh : k < h.size) (hne : k ≠ i) : (swapRemove h i hi)[k] = h[k] := by
  have hk' : k < h.size - 1 := by rwa [swapRemove_size] at hk
  simp only [swapRemove, Array.getElem_pop, Array.getElem_swap, if_neg hne,
    if_neg (show k ≠ h.size - 1 by omega)]

theorem follows_swapRemove (hi : i < h.size) {a b : Nat} (ha : a ≠ i) (hb : b ≠ i)
    (hf : Follows before h a b) : Follows before (swapRemove h i hi) a b := by
  intro hbs has
  have hbh : b < h.size := by rw [swapRemove_size] at hbs; omega
  have hah : a < h.size := by rw [swapRemove_size] at has; omega
  rw [getElem_swapRemove hi hbs hbh hb, getElem_swapRemove hi has hah ha]
  exact hf hbh hah

/-- What `removeAt` sifts is in order but for the element that fills the gap. -/
theorem swapRemove_order (ho : Strict before) (hh : Ordered before h) (hi : i < h.size) :
    (∀ k, 0 < k → k ≠ i → parent k ≠ i → Follows before (swapRemove h i hi) (parent k) k) ∧
      ∀ c, 0 < c → parent c = i → 0 < i → Follows before (swapRemove h i hi) (parent i) c := by
  have hup := hh.upReady ho hi
  constructor
  · intro k hk hki hpi
    exact follows_swapRemove hi hpi hki (hup.except k hk hki)
  · intro c hc hp h0
    have hlt := parent_lt h0
    have hgt := parent_lt hc
    exact follows_swapRemove hi hlt.ne (by omega) (hup.below c hc hp h0)

/-- The element that fills the gap is not too early for its place: it can only go down. -/
theorem swapRemove_downReady (ho : Strict before) (hh : Ordered before h) (hi : i < h.size)
    (hf : 0 < i → Follows before (swapRemove h i hi) (parent i) i) :
    DownReady before (swapRemove h i hi) i := by
  obtain ⟨hexc, hbel⟩ := swapRemove_order ho hh hi
  refine ⟨fun k hk hp => ?_, hbel⟩
  by_cases hki : k = i
  · subst k
    exact hf hk
  · exact hexc k hk hki hp

/-- It is too early, and so early enough for the children: it can only go up. -/
theorem swapRemove_upReady (ho : Strict before) (hh : Ordered before h) (hi : i < h.size)
    (h0 : 0 < i) (hf : ¬ Follows before (swapRemove h i hi) (parent i) i) :
    UpReady before (swapRemove h i hi) i ∧
      ∀ c, 0 < c → parent c = i → Follows before (swapRemove h i hi) i c := by
  obtain ⟨hexc, hbel⟩ := swapRemove_order ho hh hi
  obtain ⟨hrs, hps, hb⟩ : ∃ (hrs : i < (swapRemove h i hi).size)
      (hps : parent i < (swapRemove h i hi).size),
      before (swapRemove h i hi)[i] (swapRemove h i hi)[parent i] = true := by
    by_contra hn
    refine hf fun hrs hps => ?_
    by_contra hb
    exact hn ⟨hrs, hps, by simpa using hb⟩
  have hchild : ∀ c, 0 < c → parent c = i → Follows before (swapRemove h i hi) i c := by
    intro c hc hp
    exact Follows.trans ho (fun _ _ => ho.asymm hb) (hbel c hc hp h0) hps
  refine ⟨⟨fun k hk hki => ?_, hbel⟩, hchild⟩
  by_cases hp : parent k = i
  · rw [hp]
    exact hchild k hk hp
  · exact hexc k hk hki hp

theorem removeAt_ordered (ho : Strict before) (hh : Ordered before h) (hi : i < h.size) :
    Ordered before (removeAt before h i hi) := by
  rw [removeAt]
  split
  · next hr =>
      by_cases hf : 0 < i → Follows before (swapRemove h i hi) (parent i) i
      · have hord := siftDown_ordered ho hr (swapRemove_downReady ho hh hi hf)
        exact siftUp_ordered ho _ (hord.upReady ho (by rwa [size_siftDown]))
      · obtain ⟨h0, hf⟩ := Classical.not_imp.mp hf
        obtain ⟨hup, hchild⟩ := swapRemove_upReady ho hh hi h0 hf
        apply siftUp_ordered ho
        rw [siftDown_eq_self hr hchild]
        exact hup
  · next hr =>
      -- The last element was removed, and nothing was put in its place.
      rw [ordered_iff]
      intro k hk hks
      rw [swapRemove_size] at hr hks
      have hlt := parent_lt hk
      exact (swapRemove_order ho hh hi).1 k hk (by omega) (by omega) (by rwa [swapRemove_size])

theorem pop?_eq_none_iff : pop? before h = none ↔ contents h = 0 := by
  rw [pop?]
  split
  · next h0 =>
      simp only [reduceCtorEq, false_iff, contents, Multiset.coe_eq_zero, Array.toList_eq_nil_iff]
      rintro rfl
      simp at h0
  · next h0 =>
      simp only [true_iff, contents, Multiset.coe_eq_zero, Array.toList_eq_nil_iff]
      exact Array.eq_empty_of_size_eq_zero (by omega)

theorem pop?_contents {a : α} {r : Array α} (hp : pop? before h = some (a, r)) :
    h[0]? = some a ∧ contents h = a ::ₘ contents r := by
  rw [pop?] at hp
  split at hp
  · next h0 =>
      simp only [Option.some.injEq, Prod.mk.injEq] at hp
      obtain ⟨rfl, rfl⟩ := hp
      refine ⟨Array.getElem?_eq_getElem h0, ?_⟩
      split
      · rw [contents_siftDown, contents_swapRemove]
      · rw [contents_swapRemove]
  · exact absurd hp (by simp)

theorem pop?_ordered (ho : Strict before) (hh : Ordered before h) {a : α} {r : Array α}
    (hp : pop? before h = some (a, r)) : Ordered before r := by
  rw [pop?] at hp
  split at hp
  · next h0 =>
      obtain ⟨hexc, hbel⟩ := swapRemove_order ho hh h0
      simp only [Option.some.injEq, Prod.mk.injEq] at hp
      obtain ⟨rfl, rfl⟩ := hp
      split
      · next hr =>
          exact siftDown_ordered ho hr ⟨fun k hk hp => hexc k hk (by omega) hp, hbel⟩
      · next hr =>
          rw [ordered_iff]
          exact fun k hk hks => by omega
  · exact absurd hp (by simp)

end RuleSim.Heap
