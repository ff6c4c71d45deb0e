import StorageFeatures.NameMap

/-!
# Keys to be processed

`KeyQueue` hands keys out in the order in which they became pending. A key that is already
pending is not added again, and a key that is added while it is processed is parked: it becomes
pending when its processing is done. After `close` nothing is added any more.
-/

namespace StorageFeatures

structure KeyQueue where
  /-- The keys that can be handed out, the oldest first. -/
  pending : List String := []
  /-- The keys that need processing: the pending and the parked ones. -/
  dirty : NameSet := ∅
  /-- The keys that are handed out. -/
  processing : NameSet := ∅
  closed : Bool := false
  deriving DecidableEq

namespace KeyQueue

/-- Adds a key; answers also whether it became pending. -/
def add (q : KeyQueue) (k : String) : KeyQueue × Bool :=
  if q.closed || q.dirty.contains k then (q, false)
  else if q.processing.contains k then ({ q with dirty := q.dirty.add k }, false)
  else ({ q with dirty := q.dirty.add k, pending := q.pending ++ [k] }, true)

/-- Hands out the oldest pending key. -/
def take? (q : KeyQueue) : Option (String × KeyQueue) :=
  match q.pending with
  | [] => none
  | k :: ks => some (k, { q with
      pending := ks, dirty := q.dirty.erase k, processing := q.processing.add k })

/-- Ends the processing of a key; answers also whether it became pending again. -/
def done (q : KeyQueue) (k : String) : KeyQueue × Bool :=
  let q := { q with processing := q.processing.erase k }
  if q.dirty.contains k then ({ q with pending := q.pending ++ [k] }, true) else (q, false)

/-- Accepts no more keys. -/
def close (q : KeyQueue) : KeyQueue := { q with closed := true }

/-- A closed queue takes no further key. -/
@[simp] theorem add_of_closed {q : KeyQueue} (h : q.closed = true) (k : String) :
    q.add k = (q, false) := by
  simp [add, h]

/-- An added key is dirty. -/
theorem dirty_add {q : KeyQueue} (h : q.closed = false) (k : String) :
    (q.add k).1.dirty.contains k = true := by
  unfold add
  by_cases hd : q.dirty.contains k
  · simp [h, hd]
  · by_cases hp : q.processing.contains k <;> simp [h, hd, hp]

/-- Nothing but the tail of the pending keys changes when a key is added. -/
theorem pending_add (q : KeyQueue) (k : String) :
    (q.add k).1.pending = q.pending ++ if (q.add k).2 then [k] else [] := by
  unfold add
  split
  · simp
  · split <;> simp

/-- Nothing is handed out only where nothing is pending. -/
theorem take?_eq_none_iff {q : KeyQueue} : q.take? = none ↔ q.pending = [] := by
  unfold take?
  split <;> simp_all

end KeyQueue

end StorageFeatures
