import StorageFeatures.Queue.WorkQueue
import Mathlib.Data.List.Nodup

/-!
# The collections of a queue fit together

A queue keeps its keys in three collections. `KeyQueue.Consistent` says how they belong together:
the pending keys are listed once each, and they are the dirty keys that nobody processes. Every
operation keeps that, with one condition: only a key that is processed can be done.

The second half reduces the work queue to its keys. Getters, wake-ups and delays never change
which keys are pending, so each operation of `WorkQueue` acts on the keys as one operation of
`KeyQueue`; in particular what a getter comes to is a function of the keys alone
(`WorkQueue.keys_poll`, `WorkQueue.polled_poll`).
-/

namespace StorageFeatures

namespace KeyQueue

variable {q : KeyQueue}

/-! ### What each operation changes -/

/-- Whether adding a key makes it pending. -/
theorem add_snd (q : KeyQueue) (k : String) :
    (q.add k).2 = (!q.closed && !q.dirty.contains k && !q.processing.contains k) := by
  unfold add
  cases q.closed <;> cases q.dirty.contains k <;> cases q.processing.contains k <;> rfl

@[simp]
theorem closed_add (q : KeyQueue) (k : String) : (q.add k).1.closed = q.closed := by
  unfold add
  split
  · rfl
  · split <;> rfl

@[simp]
theorem processing_add (q : KeyQueue) (k : String) : (q.add k).1.processing = q.processing := by
  unfold add
  split
  · rfl
  · split <;> rfl

/-- An open queue takes note of every key that is added. -/
theorem contains_dirty_add (q : KeyQueue) (k k' : String) :
    (q.add k).1.dirty.contains k' = (q.dirty.contains k' || (decide (k' = k) && !q.closed)) := by
  unfold add
  by_cases hk : k' = k
  · subst hk
    cases hc : q.closed <;> cases hd : q.dirty.contains k' <;>
      cases hp : q.processing.contains k' <;> simp [hd]
  · split
    · simp [hk]
    · split <;> simp [hk]

/-- Adding a key makes at most that key pending. -/
theorem mem_pending_add (q : KeyQueue) (k k' : String) :
    k' ∈ (q.add k).1.pending ↔ k' ∈ q.pending ∨ (k' = k ∧ (q.add k).2 = true) := by
  rw [pending_add]
  split <;> simp_all

@[simp]
theorem closed_done (q : KeyQueue) (k : String) : (q.done k).1.closed = q.closed := by
  unfold done
  dsimp only
  split <;> rfl

/-- Releasing a key does not make it clean. -/
@[simp]
theorem dirty_done (q : KeyQueue) (k : String) : (q.done k).1.dirty = q.dirty := by
  unfold done
  dsimp only
  split <;> rfl

@[simp]
theorem processing_done (q : KeyQueue) (k : String) :
    (q.done k).1.processing = q.processing.erase k := by
  unfold done
  dsimp only
  split <;> rfl

/-- A key that was added while it was processed becomes pending when it is released. -/
@[simp]
theorem done_snd (q : KeyQueue) (k : String) : (q.done k).2 = q.dirty.contains k := by
  unfold done
  dsimp only
  split <;> simp_all

/-- A key that is done becomes pending if it was added in the meantime. -/
theorem pending_done (q : KeyQueue) (k : String) :
    (q.done k).1.pending = q.pending ++ if q.dirty.contains k then [k] else [] := by
  unfold done
  dsimp only
  split <;> simp

/-- The oldest pending key is handed out and is processed from then on. -/
theorem take?_eq_some_iff {k : String} {q' : KeyQueue} :
    q.take? = some (k, q') ↔
      ∃ ks, q.pending = k :: ks ∧ q' = { q with
        pending := ks, dirty := q.dirty.erase k, processing := q.processing.add k } := by
  unfold take?
  cases q.pending with
  | nil => simp
  | cons k₀ ks =>
    constructor
    · rintro ⟨⟩
      exact ⟨ks, rfl, rfl⟩
    · rintro ⟨_, ⟨⟩, rfl⟩
      rfl

/-! ### Consistent queues -/

/-- The three collections belong together: the pending keys are listed once each, and they are
the dirty keys that nobody processes. -/
structure Consistent (q : KeyQueue) : Prop where
  nodup : q.pending.Nodup
  mem_pending_iff : ∀ k, k ∈ q.pending ↔
    q.dirty.contains k = true ∧ q.processing.contains k = false

/-- An empty queue is consistent. -/
theorem consistent_empty : Consistent {} :=
  ⟨List.nodup_nil, fun k => by simp [NameMap.contains]⟩

/-- A dirty key is pending unless it is processed, in which case it is parked. -/
theorem Consistent.pending_or_processing (h : q.Consistent) {k : String}
    (hd : q.dirty.contains k = true) : k ∈ q.pending ∨ q.processing.contains k = true := by
  cases hp : q.processing.contains k with
  | true => exact .inr rfl
  | false => exact .inl ((h.mem_pending_iff k).mpr ⟨hd, hp⟩)

/-- Adding a key keeps the queue consistent: it becomes pending unless it is dirty or processed. -/
protected theorem Consistent.add (h : q.Consistent) (k : String) : (q.add k).1.Consistent := by
  refine ⟨?_, fun k' => ?_⟩
  · rw [pending_add]
    split
    · -- a key that becomes pending was not dirty, hence not pending
      rename_i hs
      rw [add_snd] at hs
      refine List.nodup_append.mpr ⟨h.nodup, List.nodup_singleton k, fun a ha b hb => ?_⟩
      have hd := ((h.mem_pending_iff a).mp ha).1
      rw [List.mem_singleton] at hb
      rintro rfl
      subst hb
      simp [hd] at hs
    · simpa using h.nodup
  · rw [mem_pending_add, add_snd, contains_dirty_add, processing_add, h.mem_pending_iff]
    by_cases hk : k' = k
    · subst hk
      cases q.closed <;> cases q.dirty.contains k' <;> cases q.processing.contains k' <;> simp
    · simp [hk]

/-- Taking a key keeps the queue consistent: the key moves from the pending ones to those in
process. -/
protected theorem Consistent.take? (h : q.Consistent) {k : String} {q' : KeyQueue}
    (ht : q.take? = some (k, q')) : q'.Consistent := by
  obtain ⟨ks, hks, rfl⟩ := take?_eq_some_iff.mp ht
  have hnd := h.nodup
  rw [hks, List.nodup_cons] at hnd
  refine ⟨hnd.2, fun k' => ?_⟩
  have hmem := h.mem_pending_iff k'
  rw [hks, List.mem_cons] at hmem
  by_cases hk : k' = k
  · subst hk
    simp [hnd.1]
  · simpa [hk] using hmem

/-- Of a key that is processed, the end of its processing is consistent. -/
protected theorem Consistent.done (h : q.Consistent) {k : String}
    (hk : q.processing.contains k = true) : (q.done k).1.Consistent := by
  -- a processed key is not pending, so nothing is listed twice
  have hnot : k ∉ q.pending := fun hm => by
    simp [((h.mem_pending_iff k).mp hm).2] at hk
  refine ⟨?_, fun k' => ?_⟩
  · rw [pending_done]
    split
    · refine List.nodup_append.mpr ⟨h.nodup, List.nodup_singleton k, fun a ha b hb => ?_⟩
      rw [List.mem_singleton] at hb
      rintro rfl
      exact hnot (hb ▸ ha)
    · simpa using h.nodup
  · rw [pending_done, dirty_done, processing_done, List.mem_append, h.mem_pending_iff]
    by_cases he : k' = k
    · subst he
      cases q.dirty.contains k' <;> simp [hk]
    · cases q.dirty.contains k <;> simp [he]

/-- A queue can be closed at any time. -/
protected theorem Consistent.close (h : q.Consistent) : q.close.Consistent :=
  ⟨h.nodup, h.mem_pending_iff⟩

/-- **Handing out is exclusive.** A key that is handed out was dirty, and nobody processed it. -/
theorem Consistent.of_take? (h : q.Consistent) {k : String} {q' : KeyQueue}
    (ht : q.take? = some (k, q')) :
    q.dirty.contains k = true ∧ q.processing.contains k = false := by
  obtain ⟨ks, hks, -⟩ := take?_eq_some_iff.mp ht
  exact (h.mem_pending_iff k).mp (by rw [hks]; exact List.mem_cons_self)

/-! ### Adding several keys -/

/-- Adds keys, in order. -/
def addAll (q : KeyQueue) (ks : List String) : KeyQueue :=
  ks.foldl (fun q k => (q.add k).1) q

@[simp]
theorem closed_addAll (q : KeyQueue) (ks : List String) : (q.addAll ks).closed = q.closed := by
  induction ks generalizing q with
  | nil => rfl
  | cons k ks ih => exact (ih (q.add k).1).trans (closed_add q k)

@[simp]
theorem processing_addAll (q : KeyQueue) (ks : List String) :
    (q.addAll ks).processing = q.processing := by
  induction ks generalizing q with
  | nil => rfl
  | cons k ks ih => exact (ih (q.add k).1).trans (processing_add q k)

/-- An open queue takes note of all keys that are added. -/
theorem contains_dirty_addAll (q : KeyQueue) (ks : List String) (k : String) :
    (q.addAll ks).dirty.contains k = (q.dirty.contains k || (decide (k ∈ ks) && !q.closed)) := by
  induction ks generalizing q with
  | nil => simp [addAll]
  | cons k' ks ih =>
    refine (ih (q.add k').1).trans ?_
    rw [contains_dirty_add, closed_add]
    by_cases hk : k = k'
    · cases q.closed <;> simp [hk]
    · simp [hk]

protected theorem Consistent.addAll (h : q.Consistent) (ks : List String) :
    (q.addAll ks).Consistent := by
  induction ks generalizing q with
  | nil => exact h
  | cons k ks ih => exact ih (h.add k)

theorem addAll_append (q : KeyQueue) (ks ls : List String) :
    q.addAll (ks ++ ls) = (q.addAll ks).addAll ls :=
  List.foldl_append

/-! ### What a getter finds -/

/-- What a getter finds and what it leaves. -/
def hand (q : KeyQueue) : Polled × KeyQueue :=
  match q.take? with
  | some (k, q') => (.key k, q')
  | none => (if q.closed then .closed else .asleep, q)

theorem hand_of_take? {k : String} {q' : KeyQueue} (h : q.take? = some (k, q')) :
    q.hand = (.key k, q') := by
  simp only [hand, h]

/-- A key is handed out exactly if it can be taken. -/
theorem hand_fst_eq_key_iff {k : String} : q.hand.1 = .key k ↔ q.take? = some (k, q.hand.2) := by
  unfold hand
  split
  · rename_i k' q' h
    simp [h]
  · rename_i h
    cases q.closed <;> simp [h]

/-- A getter that finds no key leaves the keys as they are. -/
theorem hand_snd_of_ne_key (h : ∀ k, q.hand.1 ≠ .key k) : q.hand.2 = q := by
  unfold hand at h ⊢
  split
  · rename_i k q' ht
    simp [ht] at h
  · rfl

@[simp]
theorem closed_hand (q : KeyQueue) : q.hand.2.closed = q.closed := by
  unfold hand
  split
  · rename_i k q' ht
    obtain ⟨ks, -, rfl⟩ := take?_eq_some_iff.mp ht
    rfl
  · rfl

/-- A getter sleeps only beside an open queue that has nothing pending. -/
theorem hand_fst_eq_asleep_iff :
    q.hand.1 = .asleep ↔ q.pending = [] ∧ q.closed = false := by
  unfold hand
  split
  · rename_i k q' ht
    obtain ⟨ks, hks, -⟩ := take?_eq_some_iff.mp ht
    simp [hks]
  · rename_i ht
    rw [take?_eq_none_iff] at ht
    cases q.closed <;> simp [ht]

/-- A getter leaves without a key only a closed queue that has nothing pending. -/
theorem hand_fst_eq_closed_iff :
    q.hand.1 = .closed ↔ q.pending = [] ∧ q.closed = true := by
  unfold hand
  split
  · rename_i k q' ht
    obtain ⟨ks, hks, -⟩ := take?_eq_some_iff.mp ht
    simp [hks]
  · rename_i ht
    rw [take?_eq_none_iff] at ht
    cases q.closed <;> simp [ht]

end KeyQueue

namespace WorkQueue

variable {γ : Type}

/-! ### The keys of the work queue -/

@[simp]
theorem keys_add (q : WorkQueue γ) (k : String) : (q.add k).keys = (q.keys.add k).1 := rfl

@[simp]
theorem limiter_add (q : WorkQueue γ) (k : String) : (q.add k).limiter = q.limiter := rfl

@[simp]
theorem keys_done (q : WorkQueue γ) (k : String) : (q.done k).keys = (q.keys.done k).1 := rfl

@[simp]
theorem keys_shutDown (q : WorkQueue γ) : q.shutDown.keys = q.keys.close := rfl

@[simp]
theorem keys_forget (q : WorkQueue γ) (k : String) : (q.forget k).keys = q.keys := rfl

/-- A delayed addition leaves the keys alone or adds at once. -/
theorem keys_addAfter (q : WorkQueue γ) (k : String) (delay : Nat) :
    (q.addAfter k delay).1.keys = if delay = 0 then (q.keys.add k).1 else q.keys := by
  unfold addAfter isClosed
  cases hc : q.keys.closed with
  | true => simp [hc]
  | false =>
    by_cases hd : delay = 0 <;> simp [hd]

/-- A key is added at once only if the limiter asks for no delay. -/
theorem keys_addRateLimited (q : WorkQueue γ) (k : String) :
    (q.addRateLimited k).1.keys =
      if (q.limiter.next k).1 = 0 then (q.keys.add k).1 else q.keys :=
  keys_addAfter _ _ _

section Poll

variable [DecidableEq γ]

/-- One look hands out what the keys have to give. -/
theorem look_spec (q : WorkQueue γ) (g : γ) :
    ((q.look g).2, (q.look g).1.keys) = q.keys.hand ∧ (q.look g).1.limiter = q.limiter := by
  unfold look KeyQueue.hand isClosed
  cases q.keys.take? with
  | some taken => exact ⟨rfl, rfl⟩
  | none =>
    dsimp only
    cases q.keys.closed <;> exact ⟨rfl, rfl⟩

/-- A look that finds nothing changes nothing. -/
theorem look_of_asleep {q : WorkQueue γ} {g : γ} (h : (q.look g).2 = .asleep) :
    (q.look g).1 = q := by
  unfold look at h ⊢
  split
  · rename_i taken
    simp [taken] at h
  · rename_i none
    rw [none] at h
    dsimp only at h
    split at h
    · cases h
    · rename_i hopen
      rw [if_neg hopen]

/-- A run of a getter hands out what the keys have to give: the second look of a getter with a
permit finds what the first one found. -/
theorem poll_spec (q : WorkQueue γ) (g : γ) :
    ((q.poll g).2, (q.poll g).1.keys) = q.keys.hand ∧ (q.poll g).1.limiter = q.limiter := by
  unfold poll
  generalize hw : (q.wakeup.consume g).enter g = w
  obtain ⟨wakeup, permitted⟩ := w
  have hlook := look_spec { q with wakeup } g
  dsimp only
  split
  · rename_i q₁ heq
    rw [heq] at hlook
    obtain ⟨hkeys, hlim⟩ := hlook
    dsimp only at hkeys hlim
    -- the first look found nothing, so the second one starts from the same keys
    have hasleep : q.keys.hand.1 = .asleep := by rw [← hkeys]
    have hsame : q₁.keys = q.keys := by
      rw [show q₁.keys = q.keys.hand.2 from congrArg Prod.snd hkeys]
      exact KeyQueue.hand_snd_of_ne_key (by simp [hasleep])
    split
    · have hagain := look_spec { q₁ with wakeup := (q₁.wakeup.enter g).1 } g
      exact ⟨hagain.1.trans (congrArg KeyQueue.hand hsame), hagain.2.trans hlim⟩
    · exact ⟨hkeys, hlim⟩
  · exact hlook

/-- A poll answers what the keys have to give. -/
theorem polled_poll (q : WorkQueue γ) (g : γ) : (q.poll g).2 = q.keys.hand.1 :=
  congrArg Prod.fst (poll_spec q g).1

theorem keys_poll (q : WorkQueue γ) (g : γ) : (q.poll g).1.keys = q.keys.hand.2 :=
  congrArg Prod.snd (poll_spec q g).1

@[simp]
theorem limiter_poll (q : WorkQueue γ) (g : γ) : (q.poll g).1.limiter = q.limiter :=
  (poll_spec q g).2

theorem polled_pollOnce (q : WorkQueue γ) (g : γ) : (q.pollOnce g).2 = q.keys.hand.1 := by
  rw [← polled_poll q g]
  unfold pollOnce
  split <;> simp_all

theorem keys_pollOnce (q : WorkQueue γ) (g : γ) : (q.pollOnce g).1.keys = q.keys.hand.2 := by
  rw [← keys_poll q g]
  unfold pollOnce
  split <;> simp_all

end Poll

end WorkQueue

end StorageFeatures
