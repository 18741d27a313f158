import Mathlib.Data.List.Chain
import Hoolock.Transition

/-!
A run of a partial step function follows a specification: the states it goes through show
states of the specification, each a step of it behind the one before, or the same.
-/

set_option autoImplicit false

namespace Simulation

variable {σ ε τ : Type*}

end Simulation
