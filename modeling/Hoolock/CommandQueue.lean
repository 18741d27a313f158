import Mathlib.Data.List.Basic

/-!
Commands on their way to a server that takes them in the order they were sent.  The client
knows which state the server will be in when it has taken all of them.
-/

set_option autoImplicit false

namespace CommandQueue

variable {γ σ : Type*}

/-- By the effects `R` the commands `q` lead from the state `u` to the state `v`. -/
def Leads (R : γ → σ → σ → Prop) : σ → List γ → σ → Prop
  | u, [], v => u = v
  | u, c :: q, v => ∃ x, R c u x ∧ Leads R x q v

theorem Leads.send {R : γ → σ → σ → Prop} {u v x : σ} {q : List γ} {c : γ}
    (h : Leads R u q v) (hc : R c v x) : Leads R u (q ++ [c]) x := by
  induction q generalizing u with
  | nil =>
    obtain rfl : u = v := h
    exact ⟨x, hc, rfl⟩
  | cons d q ih =>
    obtain ⟨y, hd, hrest⟩ := h
    exact ⟨y, hd, ih hrest⟩

theorem Leads.settled {R : γ → σ → σ → Prop} {u v : σ} (h : Leads R u [] v) : u = v := h

end CommandQueue
