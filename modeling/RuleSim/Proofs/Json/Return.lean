import Mathlib.Data.List.Forall2
import RuleSim.Proofs.Json.Tree

namespace RuleSim.Json

structure Parsed (d : Nat) (j : Json) : Prop where
  plain : j.all plain = true
  orderly : j.all orderly = true
  depth : j.depth ≤ d

structure Portable (d : Nat) (j : Json) : Prop where
  plain : j.all plain = true
  depth : j.depth ≤ d

variable {d : Nat}

theorem Parsed.portable {j : Json} (h : Parsed d j) : Portable d j := ⟨h.plain, h.depth⟩

theorem Parsed.arr {items : List Json} (h : Parsed d (arr items)) :
    ∃ k, d = k + 1 ∧ ∀ j ∈ items, Parsed k j := by
  obtain ⟨hplain, horderly, hdepth⟩ := h
  rw [all_arr] at hplain horderly
  obtain ⟨k, rfl⟩ : ∃ k, d = k + 1 := ⟨d - 1, by rw [Json.depth] at hdepth; omega⟩
  rw [depth_arr] at hdepth
  exact ⟨k, rfl, fun j hj => ⟨hplain.2 j hj, horderly.2 j hj, hdepth j hj⟩⟩

theorem Parsed.obj {es : List (String × Json)} (h : Parsed d (obj es)) :
    ∃ k, d = k + 1 ∧ Table.Ascending es ∧ ∀ p ∈ es, Parsed k p.2 := by
  obtain ⟨hplain, horderly, hdepth⟩ := h
  rw [all_obj] at hplain horderly
  obtain ⟨k, rfl⟩ : ∃ k, d = k + 1 := ⟨d - 1, by rw [Json.depth] at hdepth; omega⟩
  rw [depth_obj] at hdepth
  exact ⟨k, rfl, of_decide_eq_true horderly.1,
    fun p hp => ⟨hplain.2 p hp, horderly.2 p hp, hdepth p hp⟩⟩

theorem Parsed.of_find? {k : String} {j : Json} {es : List (String × Json)}
    (h : ∀ p ∈ es, Parsed d p.2) (hj : Table.find? es k = some j) : Parsed d j :=
  h (k, j) (Table.mem_of_find? hj)

theorem Portable.mono {k : Nat} {j : Json} (h : Portable d j) (hk : d ≤ k) : Portable k j :=
  ⟨h.plain, h.depth.trans hk⟩

@[simp] theorem portable_null : Portable d null := ⟨rfl, Nat.zero_le _⟩

@[simp] theorem portable_str (s : String) : Portable d (str s) := ⟨rfl, Nat.zero_le _⟩

theorem portable_int {n : Int} (hlo : -2 ^ 63 ≤ n) (hhi : n < 2 ^ 64) : Portable d (int n) := by
  refine ⟨?_, Nat.zero_le _⟩
  rw [all, plain, narrow, decide_eq_true hlo, decide_eq_true hhi, Bool.and_true]
  all_goals rintro _ ⟨⟩

theorem portable_arr {items : List Json} (h : ∀ j ∈ items, Portable d j) :
    Portable (d + 1) (arr items) :=
  ⟨all_arr.mpr ⟨rfl, fun j hj => (h j hj).plain⟩, depth_arr.mpr fun j hj => (h j hj).depth⟩

theorem portable_obj {es : List (String × Json)} (h : ∀ p ∈ es, Portable d p.2) :
    Portable (d + 1) (obj es) :=
  ⟨all_obj.mpr ⟨rfl, fun p hp => (h p hp).plain⟩, depth_obj.mpr fun p hp => (h p hp).depth⟩

structure Returns {α : Type} (read : Json → α → Prop) (write : α → Json) (d : Nat) (a : α) :
    Prop where
  portable : Portable d (write a)
  back : read (write a).sorted a

/-- All that is read from trees of a depth returns, from trees deeper by at most one level. -/
def Faithful {α : Type} (read : Json → α → Prop) (write : α → Json) (d : Nat) : Prop :=
  ∀ ⦃j : Json⦄ ⦃a : α⦄, Parsed d j → read j a → Returns read write (d + 1) a

section Parts

variable {α : Type} {read : Json → α → Prop} {write : α → Json}

def Items (read : Json → α → Prop) (j : Json) (as : List α) : Prop :=
  ∃ items, j = arr items ∧ List.Forall₂ read items as

def Entries (read : Json → α → Prop) (j : Json) (fs : List (String × α)) : Prop :=
  ∃ es, j = obj es ∧ List.Forall₂ (fun p q => p.1 = q.1 ∧ read p.2 q.2) es fs

theorem returns_items {as : List α} (h : ∀ a ∈ as, Returns read write d a) :
    Returns (Items read) (fun as => arr (as.map write)) (d + 1) as := by
  refine ⟨portable_arr (List.forall_mem_map.mpr fun a ha => (h a ha).portable), _, sorted_arr _, ?_⟩
  rw [List.map_map, List.forall₂_map_left_iff, List.forall₂_same]
  exact fun a ha => (h a ha).back

theorem returns_entries {fs : List (String × α)} (hfs : Table.Ascending fs)
    (h : ∀ p ∈ fs, Returns read write d p.2) :
    Returns (Entries read) (fun fs => obj (fs.map fun p => (p.1, write p.2))) (d + 1) fs := by
  refine ⟨portable_obj (List.forall_mem_map.mpr fun p hp => (h p hp).portable), _, sorted_obj _, ?_⟩
  have hasc := hfs.map fun _ a => (write a).sorted
  rw [List.map_map, Function.comp_def, Table.ofList_of_ascending hasc, List.forall₂_map_left_iff,
    List.forall₂_same]
  exact fun p hp => ⟨rfl, (h p hp).back⟩

/-- What relates to the items of a list has a property if the items bring it about. -/
theorem mem_of_forall₂ {β γ : Type} {R : β → γ → Prop} {P : γ → Prop} {bs : List β} {cs : List γ}
    (h : List.Forall₂ R bs cs) (hp : ∀ b ∈ bs, ∀ c, R b c → P c) : ∀ c ∈ cs, P c := by
  induction h with
  | nil => exact nofun
  | cons hr _ ih =>
      rw [List.forall_mem_cons] at hp ⊢
      exact ⟨hp.1 _ hr, ih hp.2⟩

theorem Faithful.items (h : ∀ k < d, Faithful read write k) :
    Faithful (Items read) (fun as => arr (as.map write)) d := by
  rintro _ as hj ⟨items, rfl, has⟩
  obtain ⟨k, rfl, hitems⟩ := hj.arr
  exact returns_items (mem_of_forall₂ has fun j hj a ha => h k k.lt_succ_self (hitems j hj) ha)

theorem Faithful.entries (h : ∀ k < d, Faithful read write k) :
    Faithful (Entries read) (fun fs => obj (fs.map fun p => (p.1, write p.2))) d := by
  rintro _ fs hj ⟨es, rfl, hfs⟩
  obtain ⟨k, rfl, hasc, hes⟩ := hj.obj
  have hkeys : es.map (·.1) = fs.map (·.1) := by
    rw [← List.forall₂_eq_eq_eq, List.forall₂_map_left_iff, List.forall₂_map_right_iff]
    exact hfs.imp fun _ _ h => h.1
  refine returns_entries ?_ (mem_of_forall₂ hfs fun p hp q hq => h k k.lt_succ_self (hes p hp) hq.2)
  rw [Table.Ascending, ← List.pairwise_map (f := Prod.fst), ← hkeys]
  exact List.pairwise_map.mpr hasc

/-- What is read from a part that may be missing comes back, if what stands for it does. -/
theorem Faithful.elim {o : Option Json} {absent : Option α} {reader : Json → Option α} {a : α}
    (hf : Faithful read write d) (hr : ∀ {j a}, reader j = some a → read j a)
    (ho : ∀ j, o = some j → Parsed d j) (ha : ∀ a, absent = some a → Returns read write (d + 1) a)
    (h : o.elim absent reader = some a) : Returns read write (d + 1) a := by
  cases o with
  | none => exact ha a h
  | some j => exact hf (ho j rfl) (hr h)

end Parts

end RuleSim.Json
