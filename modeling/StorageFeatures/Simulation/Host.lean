import StorageFeatures.Controller.Run
import StorageFeatures.Simulation.Clock

/-!
# Hosts of a controller

A host is a simulation that a controller runs in: it carries out the writes, and it has arrivals
of its own beside the timers of the controller. Getters run as long as any can, and all timers of
one time go off before a getter runs.
-/

namespace StorageFeatures

/-- Simulations with a controller; `τ` is what arrives beside the timers of the controller. -/
class Host (ω : Type) (τ : outParam Type) where
  controller : ω → Controller
  setController : ω → Controller → ω
  /-- Deals with what a turn asked for. -/
  perform : ω → Controller.Effect → ω
  /-- What is on its way, with the times of its arrival. -/
  arrivals : ω → List (Nat × τ)
  arrive : ω → Nat × τ → ω
  /-- More turns than the host can cause before the clock has to move. -/
  patience : ω → Nat

/-- What happens at a certain time. -/
inductive Timer (τ : Type) where
  | poll
  | requeue (r : Requeue)
  | arrival (a : τ)

namespace Host

variable {ω τ : Type} [Host ω τ]

/-- Changes the controller. -/
def modify (w : ω) (f : Controller → Controller) : ω := setController w (f (controller w))

/-! ### Turns -/

/-- Runs getters until none can run, for at most so many turns. -/
def runTurns : Nat → ω → ω
  | 0, w => w
  | turns + 1, w =>
    match (controller w).next? with
    | none => w
    | some g =>
      let (c, effect) := (controller w).turn g
      let w := setController w c
      runTurns turns (match effect with
        | some effect => perform w effect
        | none => w)

/-- More turns than the getters, the keys and the host can cause. -/
def turnBound (w : ω) : Nat :=
  let c := controller w
  16 + 4 * (c.queue.length + c.queue.keys.dirty.size + c.queue.keys.processing.size +
    c.ready.length + c.workers + c.queue.wakeup.waiting.length + c.queue.wakeup.woken.length +
    patience w)

/-- Runs getters until none can run. -/
def settle (w : ω) : ω := runTurns (turnBound w) w

/-! ### Timers -/

/-- The timers that are set, each with its time. -/
def timers (w : ω) : List (Nat × Timer τ) :=
  let c := controller w
  (match c.phase with
    | .sync _ _ nextPoll => [(nextPoll, .poll)]
    | _ => []) ++
  c.requeues.map (fun r => (r.due, .requeue r)) ++
  (arrivals w).map fun (due, a) => (due, .arrival a)

/-- A timer goes off. -/
def fire (w : ω) (timer : Nat × Timer τ) : ω :=
  match timer.2 with
  | .poll => modify w Controller.poll
  | .requeue r => modify w fun c => c.bringBack r
  | .arrival a => arrive w (timer.1, a)

instance : Clocked ω where
  now w := (controller w).now
  atTime w time := modify w fun c => { c with now := time }
  nextTime? w := ((timers w).map (·.1)).min?
  wake w time :=
    let due := (timers w).filter fun t => t.1 = time
    settle (due.foldl fire (modify w fun c => { c with now := time }))

end Host

end StorageFeatures
