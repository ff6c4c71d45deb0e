import StorageFeatures.Simulation.Host
import StorageFeatures.Simulation.SlowStore

/-!
# A controller on a virtual clock

`Engine` runs a controller on a slow store. A write without delay is answered in the turn that
makes it.
-/

namespace StorageFeatures

structure Engine where
  controller : Controller
  store : SlowStore := {}
  /-- When the writes of open passes are answered. -/
  landings : List (Nat × Pass) := []
  /-- The guests that have left, with their keys. -/
  served : List (Nat × Option String) := []

namespace Engine

def now (e : Engine) : Nat := e.controller.now

def caches (e : Engine) : Caches := e.controller.caches

/-- Changes the controller, which then notes how many keys wait. -/
def withController (e : Engine) (f : Controller → Controller) : Engine :=
  { e with controller := (f e.controller).noteDepth }

def withCaches (e : Engine) (caches : Caches) : Engine :=
  e.withController fun c => { c with caches }

/-! ### Calls -/

/-- A call whose time is over is carried out. -/
def carryOut (e : Engine) (call : StoreCall) : Engine × Except Fault StoreAnswer :=
  let (store, caches, answer) := e.store.land e.caches call
  ({ e with store }.withCaches caches, answer)

/-- The write of an open pass is answered. -/
def land (e : Engine) (pass : Pass) : Engine :=
  let (e, answer) := e.carryOut pass.call
  e.withController fun c => c.conclude pass (answer.map fun _ => ())

/-- A pass makes its write. -/
def enter (e : Engine) (pass : Pass) : Engine :=
  let (store, delay) := e.store.enter e.now pass.call
  let e := { e with store }
  if delay = 0 then e.land pass
  else { e with landings := e.landings ++ [(e.now + delay, pass)] }

instance : Host Engine Pass where
  controller := controller
  setController e controller := e.withController fun _ => controller
  perform e
    | .write pass => e.enter pass
    | .handOut guest key => { e with served := e.served ++ [(guest, key)] }
  arrivals := landings
  arrive e landing := { e with landings := e.landings.erase landing }.land landing.2
  patience e := (e.store.failures.values.map List.length).foldl (· + ·) 0

/-! ### Running -/

/-- Runs getters until none can run. -/
def settle (e : Engine) : Engine := Host.settle e

/-- Moves the clock to a time. -/
def advanceTo (e : Engine) (time : Nat) : Engine := Clocked.advanceTo e time

/-- Starts a run on a cluster of some version. -/
def start (e : Engine) (workers : Nat) (version : String) : Engine :=
  e.withController fun c => (c.start workers).discovered (.ok version)

/-- A guest comes for a key. -/
def invite (e : Engine) (guest : Nat) : Engine :=
  e.withController fun c => { c with ready := c.ready ++ [.guest guest] }

/-- Makes a call and waits for its answer. -/
def request (e : Engine) (call : StoreCall) : Engine × Except Fault StoreAnswer :=
  let (store, delay) := e.store.enter e.now call
  let e := { e with store }
  (if delay = 0 then e else e.advanceTo (e.now + delay)).carryOut call

/-- Makes one pass over a key outside the queue. -/
def sync (e : Engine) (k : String) : Engine × Except Fault Sync.Outcome :=
  let store : CapabilityStore (StateM Engine) := fun call => do
    let (e, answer) := (← get).request call
    set e
    return answer
  let (result, e) := (Sync.pass store e.caches k).run e
  (e, result)

end Engine

end StorageFeatures
