import StorageFeatures.Controller.Run
import StorageFeatures.Proofs.Queue.Keys
import StorageFeatures.Proofs.Watch.Routing

/-!
# The work of a controller

What matters for the keys of a controller is its `Work`: the caches, the keys, the open passes and
the keys that are kept until they are due, together with the store and the writes that have landed
in it. Metrics, phases and sleeping workers are left out. An `Action` is anything that can happen,
and `Work.Step` lists what it can do to the work.
-/

namespace StorageFeatures

/-- What can happen to a system. -/
inductive Action where
  | observe (k : Kind) (change : Change k.Object)
  | resync (k : Kind)
  /-- Someone adds a key. -/
  | add (k : String)
  | bringBack (r : Requeue)
  | wait (time : Nat)
  | turn (worker : Nat)
  /-- The write of a pass reaches the store. -/
  | land (pass : Pass)
  /-- The write of a pass fails before it reaches the store. -/
  | fail (pass : Pass) (fault : Fault)
  /-- The store is told to fail its next write. -/
  | inject (fault : Fault)
  | start (workers : Nat)
  | discovered (reported : Except Fault String)
  | poll
  | cancel

/-- The caches, the keys and the passes of a controller, and the store it writes to. -/
structure Work where
  caches : Caches
  keys : KeyQueue
  passes : List Pass
  requeues : List Requeue
  store : MemoryStore
  landed : List StoreCall

namespace Work

def addAll (w : Work) (ks : List String) : Work := { w with keys := w.keys.addAll ks }

/-- Ends the processing of a key. -/
def done (w : Work) (k : String) : Work := { w with keys := (w.keys.done k).1 }

/-- Keeps a key until it is due. -/
def defer (w : Work) (r : Requeue) : Work := { w with requeues := w.requeues ++ [r] }

/-- Stores what a watch reports and adds the keys of its events. -/
def observe {α : Type} [Watched α] (w : Work) (change : Change α) : Work :=
  { w with caches := w.caches.observed change }.addAll (w.caches.routed change)

/-- Whether a key is to be processed, now or when its delay is over. -/
def Owes (w : Work) (k : String) : Prop :=
  w.keys.dirty.contains k = true ∨ ∃ r ∈ w.requeues, r.key = k

/-- The end of a pass over a key: the key is added again, at once or later, or nothing is done
about it, and then it is released. -/
inductive Ended (w : Work) (k : String) : Work → Prop where
  | forget : Ended w k (w.done k)
  | again : Ended w k ((w.addAll [k]).done k)
  | later (due : Nat) : Ended w k ((w.defer ⟨due, k⟩).done k)

/-- What an action does to the work. -/
inductive Step (w : Work) : Action → Work → Prop where
  | observe (k : Kind) (change : Change k.Object) : Step w (.observe k change) (w.observe change)
  | resync (k : Kind) (ks : List String) : Step w (.resync k) (w.addAll ks)
  | add (k : String) : Step w (.add k) (w.addAll [k])
  | bringBack {r : Requeue} (due : r ∈ w.requeues) :
      Step w (.bringBack r) { w.addAll [r.key] with requeues := w.requeues.erase r }
  | inject (fault : Fault) :
      Step w (.inject fault) { w with store := { w.store with failNext := some fault } }
  /-- Nothing happens to the work. -/
  | idle (a : Action) : Step w a w
  | close (a : Action) : Step w a { w with keys := w.keys.close }
  /-- A worker makes a pass that needs no write. -/
  | settle {worker : Nat} {k : String} {keys : KeyQueue} {w' : Work}
      (take : w.keys.take? = some (k, keys)) (synced : w.caches.allSynced = true)
      (ask : Sync.ask w.caches k = none) (ended : Ended { w with keys } k w') :
      Step w (.turn worker) w'
  /-- A worker begins a pass that makes a write. -/
  | begin {worker : Nat} {k : String} {keys : KeyQueue} {call : StoreCall}
      (take : w.keys.take? = some (k, keys)) (synced : w.caches.allSynced = true)
      (ask : Sync.ask w.caches k = some call) :
      Step w (.turn worker) { w with keys, passes := w.passes ++ [⟨worker, k, call⟩] }
  | land (pass : Pass) {store : MemoryStore} {caches : Caches}
      {answer : Except Fault StoreAnswer} {w' : Work} (mem : pass ∈ w.passes)
      (run : w.store.run w.caches pass.call = (store, caches, answer))
      (ended : Ended { w with
        store, caches, passes := w.passes.erase pass
        landed := w.landed ++ if answer.toOption.isSome then [pass.call] else [] } pass.key w') :
      Step w (.land pass) w'
  | fail (pass : Pass) {fault : Fault} {w' : Work} (mem : pass ∈ w.passes)
      (ended : Ended { w with passes := w.passes.erase pass } pass.key w')
      (owes : fault.action = .requeueWithBackoff → (∀ n, pass.call ≠ .deleteCapability n) →
        w.keys.closed = false → w'.Owes pass.key) :
      Step w (.fail pass fault) w'

/-! ### What the end of a pass keeps -/

namespace Ended

variable {w w' : Work} {k : String}

theorem caches (h : Ended w k w') : w'.caches = w.caches := by cases h <;> rfl

theorem passes (h : Ended w k w') : w'.passes = w.passes := by cases h <;> rfl

theorem store (h : Ended w k w') : w'.store = w.store := by cases h <;> rfl

theorem landed (h : Ended w k w') : w'.landed = w.landed := by cases h <;> rfl

/-- The end of a pass leaves the queue open or closed as it was. -/
theorem closed (h : Ended w k w') : w'.keys.closed = w.keys.closed := by
  cases h <;> simp [done, defer, addAll, KeyQueue.addAll]

/-- The key is released, and no other. -/
theorem processing (h : Ended w k w') : w'.keys.processing = w.keys.processing.erase k := by
  cases h <;> simp [done, defer, addAll, KeyQueue.addAll]

/-- The end of a pass leaves the queue consistent. -/
theorem consistent (h : Ended w k w') (hw : w.keys.Consistent)
    (hk : w.keys.processing.contains k = true) : w'.keys.Consistent := by
  cases h with
  | forget | later => exact hw.done hk
  | again => exact (hw.add k).done (by simpa using hk)

/-- No key is forgotten. -/
theorem dirty (h : Ended w k w') {n : String} (hn : w.keys.dirty.contains n = true) :
    w'.keys.dirty.contains n = true := by
  cases h <;> simp [done, defer, addAll, KeyQueue.addAll, KeyQueue.contains_dirty_add, hn]

/-- No key that is kept is dropped. -/
theorem requeues (h : Ended w k w') {r : Requeue} (hr : r ∈ w.requeues) : r ∈ w'.requeues := by
  cases h with
  | forget | again => exact hr
  | later due => exact List.mem_append_left _ hr

theorem owes (h : Ended w k w') {n : String} (hn : w.Owes n) : w'.Owes n :=
  hn.imp h.dirty fun ⟨r, hr, hrn⟩ => ⟨r, h.requeues hr, hrn⟩

end Ended

variable {w w' : Work} {a : Action}

/-- A pass that is open after a step was open before, or makes what was asked for. -/
theorem Step.passes (step : Step w a w') {pass : Pass} (hp : pass ∈ w'.passes) :
    pass ∈ w.passes ∨ Sync.ask w.caches pass.key = some pass.call := by
  cases step with
  | observe | resync | add | bringBack | inject | idle | close => exact .inl hp
  | settle take synced ask ended => exact .inl (ended.passes ▸ hp)
  | begin take synced ask =>
    rcases List.mem_append.mp hp with hp | hp
    · exact .inl hp
    · obtain rfl := List.mem_singleton.mp hp
      exact .inr ask
  | land _ mem run ended | fail _ mem ended owes =>
    exact .inl (List.mem_of_mem_erase (ended.passes ▸ hp))

/-- A cache that has synced stays synced. -/
theorem Step.isSynced (step : Step w a w') {k : Kind} (h : w.caches.isSynced k = true) :
    w'.caches.isSynced k = true := by
  cases step with
  | observe k' change => exact Caches.isSynced_observed change h
  | resync | add | bringBack | inject | idle | close | begin => exact h
  | settle take synced ask ended =>
    rw [ended.caches]
    exact h
  | fail pass mem ended owes =>
    rw [ended.caches]
    exact h
  | land pass mem run ended =>
    have touched := MemoryStore.touched_run w.caches pass.call w.store
    rw [run] at touched
    rw [ended.caches]
    exact (touched.isSynced k).trans h

/-- Once all caches have synced they stay so. -/
theorem Step.allSynced (step : Step w a w') (h : w.caches.allSynced = true) :
    w'.caches.allSynced = true := by
  rw [Caches.allSynced_iff] at h ⊢
  exact fun k => step.isSynced (h k)

end Work

end StorageFeatures
