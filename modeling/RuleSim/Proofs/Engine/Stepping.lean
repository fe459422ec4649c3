import RuleSim.Proofs.Engine.Progress
import RuleSim.Proofs.Execution.Accounts

namespace RuleSim.Engine

open TraceSink (Accounts)

variable {e e' e'' : Engine} {event : Event} {beats : List Event}

/-- The heartbeats are taken out and handled one after another. -/
inductive Beats : Engine → List Event → Engine → Prop
  | nil (e : Engine) : Beats e [] e
  | cons {e e' e'' : Engine} {event : Event} {beats : List Event}
      (h : e.take? = some (event, e')) (hb : event.isHeartbeat = true)
      (hs : Beats e'.heartbeat beats e'') : Beats e (event :: beats) e''

structure Rests (e e' : Engine) : Prop where
  world : e'.world = e.world
  random : e'.random = e.random
  rules : e'.rules = e.rules
  account : e.trace.Accounts [] e'.trace

theorem Rests.refl (e : Engine) : Rests e e := ⟨rfl, rfl, rfl, .refl e.trace⟩

theorem Rests.trans (h : Rests e e') (h' : Rests e' e'') : Rests e e'' where
  world := h'.world.trans h.world
  random := h'.random.trans h.random
  rules := h'.rules.trans h.rules
  account := h.account.trans h'.account

theorem Beats.isHeartbeat (h : Beats e beats e') : ∀ b ∈ beats, b.isHeartbeat = true := by
  induction h with
  | nil => exact nofun
  | cons _ hb _ ih => exact List.forall_mem_cons.mpr ⟨hb, ih⟩

end RuleSim.Engine
