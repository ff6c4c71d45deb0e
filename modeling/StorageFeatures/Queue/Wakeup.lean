/-!
# Waking those who wait

`Wakeup` lets getters sleep until there may be work. Waking one getter wakes the one that waits
longest, or leaves a single permit if nobody waits; the permit spares the next getter its sleep.
Waking all leaves nothing behind. A getter that goes away without having used its wake-up hands
it on.
-/

namespace StorageFeatures

structure Wakeup (γ : Type) where
  permit : Bool := false
  /-- The getters that sleep, the longest first. -/
  waiting : List γ := []
  /-- The getters that were woken and have not run since, the earliest first. -/
  woken : List γ := []
  /-- Those of the woken that were woken one at a time. -/
  owed : List γ := []

namespace Wakeup

variable {γ : Type}

/-- Wakes the getter that waits longest, or leaves a permit. -/
def wakeOne (w : Wakeup γ) : Wakeup γ :=
  match w.waiting with
  | [] => { w with permit := true }
  | g :: gs => { w with waiting := gs, woken := w.woken ++ [g], owed := w.owed ++ [g] }

/-- Wakes every getter that waits. -/
def wakeAll (w : Wakeup γ) : Wakeup γ :=
  { w with waiting := [], woken := w.woken ++ w.waiting }

/-- A woken getter runs: its wake-up is used. -/
def consume [DecidableEq γ] (w : Wakeup γ) (g : γ) : Wakeup γ :=
  { w with woken := w.woken.erase g, owed := w.owed.erase g }

/-- A getter takes the permit, or else joins those who wait; answers whether it took it. -/
def enter (w : Wakeup γ) (g : γ) : Wakeup γ × Bool :=
  if w.permit then ({ w with permit := false }, true)
  else ({ w with waiting := w.waiting ++ [g] }, false)

/-- A getter goes away. -/
def leave [DecidableEq γ] (w : Wakeup γ) (g : γ) : Wakeup γ :=
  if g ∈ w.owed then (w.consume g).wakeOne
  else { w with waiting := w.waiting.erase g, woken := w.woken.erase g }

@[simp] theorem waiting_wakeAll (w : Wakeup γ) : w.wakeAll.waiting = [] := rfl

/-- Who enters waits unless a permit lies ready. -/
theorem waiting_enter (w : Wakeup γ) (g : γ) :
    (w.enter g).1.waiting = w.waiting ++ if w.permit then [] else [g] := by
  unfold enter
  split <;> simp_all

end Wakeup

end StorageFeatures
