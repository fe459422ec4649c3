import RuleSim.Document.Reading
import RuleSim.Proofs.Expr.Action
import RuleSim.Proofs.Final

namespace RuleSim

namespace Read

open Json (Parsed Portable Returns Faithful Items portable_obj)

variable {α β : Type} {d : Nat} {es : Entries} {key : String}

abbrev Reads (f : Json → Read α) (j : Json) (a : α) : Prop := f j = .ok a

@[simp] theorem ok_bind {ε : Type} (a : α) (f : α → Except ε β) : (Except.ok a >>= f) = f a := rfl

theorem need_ok_iff {o : Option α} {a : α} : need o = .ok a ↔ o = some a := by
  cases o <;> simp [need]

theorem ofOption_ok_iff {f : Json → Option α} {j : Json} {a : α} :
    ofOption f j = .ok a ↔ f j = some a := by
  rw [ofOption]
  cases f j <;> simp

theorem mapM_ok_iff {f : α → Read β} {as : List α} {bs : List β} :
    as.mapM f = .ok bs ↔ List.Forall₂ (fun a b => f a = .ok b) as bs := by
  induction as generalizing bs with
  | nil => rw [List.mapM_nil, pure_ok_iff, List.forall₂_nil_left_iff, eq_comm]
  | cons a as ih =>
      rw [List.mapM_cons, List.forall₂_cons_left_iff]
      simp only [bind_ok_iff, pure_ok_iff, ih]
      constructor
      · rintro ⟨b, hb, bs, hbs, rfl⟩
        exact ⟨b, bs, hb, hbs, rfl⟩
      · rintro ⟨b, bs, hb, hbs, rfl⟩
        exact ⟨b, hb, bs, hbs, rfl⟩

theorem list_ok_iff {f : Json → Read α} {j : Json} {as : List α} :
    list f j = .ok as ↔ Items (Reads f) j as := by
  cases j with
  | arr items => simp [list, Items, mapM_ok_iff]
  | _ => simp [list, Items]

theorem fields_ok_iff {f : Json → Read α} {j : Json} {fs : Fields α} :
    fields f j = .ok fs ↔ Json.Entries (Reads f) j fs := by
  cases j with
  | obj es =>
      simp only [fields, Json.Entries, mapM_ok_iff, bind_ok_iff, pure_ok_iff, Json.obj.injEq,
        exists_eq_left', Prod.ext_iff]
      refine iff_of_eq (congrArg (List.Forall₂ · es fs) ?_)
      funext p q
      aesop
  | _ => simp [fields, Json.Entries]

theorem record_parsed {names : List String} {j : Json} (hj : Parsed d j)
    (h : record names j = .ok es) : ∃ k, d = k + 1 ∧ ∀ p ∈ es, Parsed k p.2 := by
  cases j with
  | obj es' =>
      obtain rfl := Except.ok.inj h
      obtain ⟨k, rfl, -, hes⟩ := hj.obj
      exact ⟨k, rfl, hes⟩
  | arr items =>
      rw [record] at h
      split_ifs at h
      obtain rfl := Except.ok.inj h
      obtain ⟨k, rfl, hitems⟩ := hj.arr
      exact ⟨k, rfl, fun p hp => hitems p.2 (List.of_mem_zip hp).2⟩
  | _ => cases h

theorem recordBy_parsed {names : List String} {inOrder : Entries → Read Unit}
    {parts : Entries → Read α} {j : Json} {a : α} (hj : Parsed d j)
    (h : recordBy names inOrder parts j = .ok a) :
    ∃ k es, d = k + 1 ∧ (∀ p ∈ es, Parsed k p.2) ∧ parts es = .ok a := by
  cases j with
  | obj es =>
      obtain ⟨k, rfl, -, hes⟩ := hj.obj
      exact ⟨k, es, rfl, hes, h⟩
  | arr items =>
      obtain ⟨k, rfl, hitems⟩ := hj.arr
      obtain ⟨_, -, h⟩ := bind_ok_iff.mp h
      obtain ⟨a', ha, h⟩ := bind_ok_iff.mp h
      split_ifs at h
      obtain rfl := Except.ok.inj h
      exact ⟨k, _, rfl, fun p hp => hitems p.2 (List.of_mem_zip hp).2, ha⟩
  | _ => cases h

/-- What is read from the parts of a record comes back from an object with these parts. -/
theorem returns_record {reader : Json → Read α} {write : α → Json} {a : α} {parts : Entries}
    (hwrite : write a = .obj parts) (hkeys : (Table.keys parts).Nodup)
    (hparts : ∀ p ∈ parts, Portable d p.2)
    (hback : ∀ es, (∀ key, Table.find? es key = (Table.find? parts key).map Json.sorted) →
      reader (.obj es) = .ok a) : Returns (Reads reader) write (d + 1) a := by
  refine ⟨?_, ?_⟩
  · rw [hwrite]
    exact portable_obj hparts
  · rw [hwrite, Json.sorted_obj]
    exact hback _ (Json.find?_sorted hkeys)

variable {f : Json → Read α} {write : α → Json}

theorem present_held {a : α} (hget : Table.find? es key = some (write a).sorted)
    (h : Returns (Reads f) write d a) : present es key f = .ok (some a) := by
  have hback : f (write a).sorted = .ok a := h.back
  simp only [present, hget, hback]
  rfl

theorem defaulting_held {a default : α} (hget : Table.find? es key = some (write a).sorted)
    (h : Returns (Reads f) write d a) : defaulting es key default f = .ok a := by
  have hback : f (write a).sorted = .ok a := h.back
  simp only [defaulting, hget, hback]

theorem nullable_held {o : Option α} (hget : Table.find? es key = (o.map write).map Json.sorted)
    (h : ∀ a ∈ o, Returns (Reads f) write d a ∧ write a ≠ .null) : nullable es key f = .ok o := by
  rw [nullable, hget]
  cases o with
  | none => rfl
  | some a =>
      obtain ⟨ha, hnull⟩ := h a rfl
      have hback := ha.back
      cases hj : write a with
      | null => exact absurd hj hnull
      | _ => simp_all [Except.map, Json.sorted]

theorem present_eq_ok {a : α} (h : present es key f = .ok (some a)) :
    ∃ j, Table.find? es key = some j ∧ f j = .ok a := by
  rw [present.eq_def] at h
  split at h
  · cases h
  · next j hj =>
      refine ⟨j, hj, ?_⟩
      cases ha : f j with
      | error e => simp [ha, Except.map] at h
      | ok a' => simpa [ha, Except.map] using h

variable (hes : ∀ p ∈ es, Parsed d p.2) (hf : Faithful (Reads f) write d)

include hes hf

theorem present_stays {a : α} (h : present es key f = .ok (some a)) :
    Returns (Reads f) write (d + 1) a := by
  obtain ⟨j, hj, ha⟩ := present_eq_ok h
  exact hf (Parsed.of_find? hes hj) ha

theorem defaulting_stays {a default : α} (hd : Returns (Reads f) write (d + 1) default)
    (h : defaulting es key default f = .ok a) : Returns (Reads f) write (d + 1) a := by
  rw [defaulting.eq_def] at h
  split at h
  · obtain rfl := Except.ok.inj h
    exact hd
  · next j hj => exact hf (Parsed.of_find? hes hj) h

theorem nullable_stays {o : Option α} (hnull : ∀ j a, j ≠ .null → f j = .ok a → write a ≠ .null)
    (h : nullable es key f = .ok o) :
    ∀ a ∈ o, Returns (Reads f) write (d + 1) a ∧ write a ≠ .null := by
  rw [nullable.eq_def] at h
  split at h
  · obtain rfl := Except.ok.inj h
    exact nofun
  · obtain rfl := Except.ok.inj h
    exact nofun
  · next j hne hj =>
      cases ha : f j with
      | error e => simp [ha, Except.map] at h
      | ok a =>
          simp only [ha, Except.map, Except.ok.injEq] at h
          subst h
          rintro _ ⟨⟩
          exact ⟨hf (Parsed.of_find? hes hj) ha, hnull j a (fun hj' => hne (hj' ▸ rfl)) ha⟩

end Read

end RuleSim
