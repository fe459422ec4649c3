import Mathlib.Data.List.Nodup
import RuleSim.Document.Load

namespace RuleSim

namespace Read

variable {α β : Type} {P : α → Prop}

def Yields (P : α → Prop) (x : Read α) : Prop := ∀ a, x = .ok a → P a

theorem Yields.bind {Q : β → Prop} {x : Read α} {f : α → Read β} (hx : Yields P x)
    (hf : ∀ a, P a → Yields Q (f a)) : Yields Q (x >>= f) := by
  intro b hb
  cases x with
  | ok a => exact hf a (hx a rfl) b hb
  | error e => cases hb

theorem Yields.any {Q : β → Prop} {x : Read α} {f : α → Read β}
    (hf : ∀ a, Yields Q (f a)) : Yields Q (x >>= f) := by
  refine Yields.bind (P := fun _ => True) (fun _ _ => trivial) fun a _ => hf a

theorem yields_ok {a : α} (ha : P a) : Yields P (.ok a) := by
  rintro b hb
  obtain rfl := Except.ok.inj hb
  exact ha

theorem yields_error (e : Document.Flaw) : Yields P (.error e : Read α) := by
  intro a ha
  cases ha

theorem nullable_yields {f : Json → Read α} (hf : ∀ j, Yields P (f j)) (es : Entries)
    (key : String) : Yields (fun a => ∀ x ∈ a, P x) (nullable es key f) := by
  unfold nullable
  split
  · exact yields_ok (by simp)
  · exact yields_ok (by simp)
  · next j _ _ =>
      intro a ha
      cases hj : f j with
      | ok x =>
          rw [hj] at ha
          obtain rfl := Except.ok.inj ha
          simpa using hf j x hj
      | error e =>
          rw [hj] at ha
          cases ha

theorem defaulting_yields {f : Json → Read α} (hf : ∀ j, Yields P (f j)) {default : α}
    (hd : P default) (es : Entries) (key : String) : Yields P (defaulting es key default f) := by
  unfold defaulting
  split
  · exact yields_ok hd
  · exact hf _

theorem list_yields {f : Json → Read α} (hf : ∀ j, Yields P (f j)) (j : Json) :
    Yields (fun as => ∀ a ∈ as, P a) (list f j) := by
  unfold list
  split
  · next items =>
      induction items with
      | nil => exact yields_ok (by simp)
      | cons i items ih =>
          rw [List.mapM_cons]
          refine (hf i).bind fun a ha => ih.bind fun as has => ?_
          exact yields_ok (List.forall_mem_cons.mpr ⟨ha, has⟩)
  · exact yields_error _

theorem recordBy_yields {names : List String} {inOrder : Entries → Read Unit}
    {parts : Entries → Read α} (hp : ∀ es, Yields P (parts es)) (j : Json) :
    Yields P (recordBy names inOrder parts j) := by
  unfold recordBy
  split
  · exact hp _
  · refine .any fun _ => (hp _).bind fun a ha => ?_
    split
    · exact yields_ok ha
    · exact yields_error _
  · exact yields_error _

theorem whole_yields (j : Json) : Yields (fun n => n < 2 ^ 64) (whole j) := by
  unfold whole
  split
  · next n =>
      split
      · next h => exact yields_ok (by omega)
      · exact yields_error _
  · exact yields_error _

end Read

open Read

def EntityDecl.Bounded (d : EntityDecl) : Prop := ∀ n ∈ d.id, n < 2 ^ 64

theorem EntityDecl.ofJson_bounded (j : Json) : Yields Bounded (EntityDecl.ofJson j) := by
  refine recordBy_yields (fun es => ?_) j
  refine .any fun functions => .any fun components => ?_
  refine (nullable_yields whole_yields es "id").bind fun id hid => .any fun name => ?_
  exact yields_ok hid

theorem initialStateOfJson_bounded (j : Json) :
    Yields (fun ds => ∀ d ∈ ds, d.Bounded) (initialStateOfJson j) := by
  refine .any fun es => ?_
  exact defaulting_yields (list_yields EntityDecl.ofJson_bounded) (by simp) es "entities"

namespace Module

structure Accepted (m : Module) : Prop where
  bounded : ∀ d ∈ m.initialEntities, d.Bounded
  distinct : (m.initialEntities.filterMap (·.id)).Nodup

theorem ofJson_bounded (j : Json) :
    Yields (fun m => ∀ d ∈ m.initialEntities, d.Bounded) (Module.ofJson j) := by
  refine .any fun es => .any fun _ => .any fun _ => .any fun _ => .any fun _ => .any fun _ => ?_
  refine (nullable_yields initialStateOfJson_bounded es "initial_state").bind fun state hs => ?_
  refine .any fun _ => .any fun _ => .any fun _ => .any fun _ => .any fun _ => .any fun _ =>
    .any fun _ => .any fun _ => yields_ok ?_
  cases state with
  | none => simp [initialEntities]
  | some ds => exact hs ds rfl

theorem checkIds_distinct {seen : List Nat} {index : Nat} {ds : List EntityDecl}
    (h : checkIds seen index ds = .ok ()) :
    (ds.filterMap (·.id)).Nodup ∧ ∀ n ∈ ds.filterMap (·.id), n ∉ seen := by
  induction ds generalizing seen index with
  | nil => simp
  | cons d ds ih =>
      rw [checkIds] at h
      cases hd : d.id with
      | none =>
          rw [hd] at h
          simpa [hd] using ih h
      | some n =>
          rw [hd] at h
          by_cases hn : n ∈ seen
          · simp [hn, Document.flaw] at h
          · simp only [hn, if_false] at h
            obtain ⟨hnodup, hfresh⟩ := ih h
            rw [List.filterMap_cons_some hd, List.nodup_cons]
            refine ⟨⟨fun hmem => hfresh n hmem (by simp), hnodup⟩, ?_⟩
            refine List.forall_mem_cons.mpr ⟨hn, fun k hk => ?_⟩
            exact fun hseen => hfresh k hk (List.mem_cons_of_mem _ hseen)

theorem load_accepted {doc : Json} {m : Module} (h : load doc = .ok m) : Accepted m := by
  unfold load at h
  cases hv : Document.validate doc with
  | error e => simp [hv, bind, Except.bind] at h
  | ok version =>
      cases hm : Module.ofJson doc with
      | error f => simp [hv, hm, bind, Except.bind, Document.flaw] at h
      | ok m' =>
          cases ht : m'.checkTriggers with
          | error e => simp [hv, hm, ht, bind, Except.bind] at h
          | ok u =>
              cases hi : checkIds [] 0 m'.initialEntities with
              | error e => simp [hv, hm, ht, hi, bind, Except.bind] at h
              | ok u =>
                  simp only [hv, hm, ht, hi, bind, Except.bind, pure, Except.pure,
                    Except.ok.injEq] at h
                  subst m
                  exact ⟨ofJson_bounded doc m' hm, (checkIds_distinct hi).1⟩

end Module

end RuleSim
