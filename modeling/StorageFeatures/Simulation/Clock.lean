/-!
# A virtual clock

The clock of a simulation stands still while anything can happen and then moves to the time at
which something happens next. It never moves past the time that it is sent to.
-/

namespace StorageFeatures

/-- Simulations with a clock. -/
class Clocked (ω : Type) where
  now : ω → Nat
  /-- Sets the clock. -/
  atTime : ω → Nat → ω
  /-- When something happens next. -/
  nextTime? : ω → Option Nat
  /-- Everything happens that is due at a time. -/
  wake : ω → Nat → ω

namespace Clocked

variable {ω : Type} [Clocked ω]

/-- Lets things happen until a time, at so many times at most, and sets the clock to it. -/
def runUntil : Nat → Nat → ω → ω
  | 0, time, w => atTime w time
  | fuel + 1, time, w =>
    match nextTime? w with
    | some due => if due ≤ time then runUntil fuel time (wake w due) else atTime w time
    | none => atTime w time

/-- Moves the clock to a time. -/
def advanceTo (w : ω) (time : Nat) : ω := runUntil (time - now w + 1) time w

/-- A clock that is moved shows the time that it was moved to. -/
theorem now_advanceTo (h : ∀ (w : ω) (time : Nat), now (atTime w time) = time) (w : ω)
    (time : Nat) : now (advanceTo w time) = time := by
  have key : ∀ fuel (w : ω), now (runUntil fuel time w) = time := by
    intro fuel
    induction fuel with
    | zero => exact fun w => h w time
    | succ fuel ih =>
      intro w
      unfold runUntil
      split
      · split
        · exact ih _
        · exact h w time
      · exact h w time
  exact key _ w

end Clocked

end StorageFeatures
