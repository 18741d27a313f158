import Mathlib.Data.Set.Basic
import Hoolock.Simulation

/-!
What a handover is, over any set of ports: a soft one joins the new port before it switches and
leaves the old one after that, a hard one has one port at a time.
-/

set_option autoImplicit false

namespace MobileSpec

open Simulation

variable {ι : Type*}

/-- The ports a mobile is connected at, and the one it sends through. -/
structure Mobile (ι : Type*) where
  connected : Set ι
  active : Option ι

/-- A soft step never takes the port that is sent through away, and switches to a connected
one only. -/
inductive Soft : Mobile ι → Mobile ι → Prop
  | join (x : Mobile ι) (i : ι) : Soft x { x with connected := insert i x.connected }
  | switch (x : Mobile ι) {i : ι} (h : i ∈ x.connected) : Soft x { x with active := some i }
  | leave (x : Mobile ι) {i : ι} (h : x.active ≠ some i) :
    Soft x { x with connected := x.connected \ {i} }

def Mobile.Sends (x : Mobile ι) : Prop := ∀ i, x.active = some i → i ∈ x.connected

theorem Soft.sends {x y : Mobile ι} (h : Soft x y) (hx : x.Sends) : y.Sends := by
  cases h with
  | join i => exact fun j hj => Or.inr (hx j hj)
  | switch hi =>
    intro j hj
    cases hj
    exact hi
  | leave hi =>
    intro j hj
    refine ⟨hx j hj, ?_⟩
    rintro rfl
    exact hi hj

end MobileSpec
