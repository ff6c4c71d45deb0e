import StorageFeatures.Proofs.Controller.System

/-!
# One pass at a time over a key

`Work.Orderly` ties the queue to the open passes: the keys that are processed are those with an
open pass, each has one only, and an open pass writes the capability of its key and no other. A
key that a worker holds outside a pass, between taking it and opening the pass or between closing
the pass and releasing the key, is counted apart. Every step keeps it (`Work.Step.orderly`),
whatever watches report and however writes fail.
-/

namespace StorageFeatures

namespace Work

/-- The keys that are processed are those of the open passes and those that workers hold outside
a pass, once each. -/
structure Orderly (w : Work) (held : List String) : Prop where
  keyed : w.caches.Keyed
  consistent : w.keys.Consistent
  nodup : (w.passes.map Pass.key ++ held).Nodup
  mem_iff : ∀ k, k ∈ w.passes.map Pass.key ++ held ↔ w.keys.processing.contains k = true
  /-- An open pass writes the capability of its key. -/
  concerns : ∀ pass ∈ w.passes, pass.call.Concerns pass.key

variable {w w' : Work} {a : Action} {k : String} {keys : KeyQueue} {pass : Pass}

/-- A worker takes a key. -/
theorem Orderly.take (h : w.Orderly []) (ht : w.keys.take? = some (k, keys)) :
    Orderly { w with keys } [k] := by
  have hfree := (h.consistent.of_take? ht).2
  -- a key with an open pass is processed, and such a key is not handed out
  have hnot : k ∉ w.passes.map Pass.key := by
    intro hm
    rw [(h.mem_iff k).mp (List.mem_append_left _ hm)] at hfree
    exact Bool.noConfusion hfree
  obtain ⟨ks, -, rfl⟩ := KeyQueue.take?_eq_some_iff.mp ht
  refine ⟨h.keyed, h.consistent.take? ht, ?_, fun n => ?_, h.concerns⟩
  · have hnd := h.nodup
    rw [List.append_nil] at hnd
    exact List.nodup_append_comm.mp (List.nodup_cons.mpr ⟨hnot, hnd⟩)
  · have hn := h.mem_iff n
    rw [List.append_nil] at hn
    rw [List.mem_append, hn, List.mem_singleton, NameSet.contains_add]
    simp [or_comm]

/-- A pass is closed and its worker holds the key. -/
theorem Orderly.erase (h : w.Orderly []) (mem : pass ∈ w.passes) :
    Orderly { w with passes := w.passes.erase pass } [pass.key] := by
  -- the key only changes its place in the list
  have hperm : (w.passes.map Pass.key).Perm
      ((w.passes.erase pass).map Pass.key ++ [pass.key]) :=
    ((List.perm_cons_erase mem).map Pass.key).trans (List.perm_append_singleton _ _).symm
  refine ⟨h.keyed, h.consistent, ?_, fun n => ?_,
    fun p hp => h.concerns p (List.mem_of_mem_erase hp)⟩
  · have hnd := h.nodup
    rw [List.append_nil] at hnd
    exact hperm.nodup_iff.mp hnd
  · have hn := h.mem_iff n
    rw [List.append_nil] at hn
    exact hperm.mem_iff.symm.trans hn

/-- The key of an open pass is processed. -/
theorem Orderly.processing_of_mem (h : w.Orderly []) (mem : pass ∈ w.passes) :
    w.keys.processing.contains pass.key = true :=
  (h.mem_iff pass.key).mp (List.mem_append_left _ (List.mem_map_of_mem mem))

/-- Without open passes no key is processed. -/
theorem Orderly.processing_of_idle (h : w.Orderly []) (idle : w.passes = []) (k : String) :
    w.keys.processing.contains k = false := by
  refine Bool.eq_false_iff.mpr fun hk => ?_
  have hm := (h.mem_iff k).mpr hk
  rw [idle] at hm
  cases hm

/-- Without open passes every dirty key is pending. -/
theorem Orderly.dirty_of_idle (h : w.Orderly []) (idle : w.passes = [])
    (pending : w.keys.pending = []) (k : String) : w.keys.dirty.contains k = false := by
  refine Bool.eq_false_iff.mpr fun hk => ?_
  rcases h.consistent.pending_or_processing hk with hm | hm
  · rw [pending] at hm
    cases hm
  · rw [h.processing_of_idle idle] at hm
    cases hm

/-- The other open passes are over other keys. -/
theorem Orderly.key_ne (h : w.Orderly []) {p : Pass} (mem : pass ∈ w.passes)
    (hp : p ∈ w.passes.erase pass) : p.key ≠ pass.key := by
  obtain ⟨-, -, hdis⟩ := List.nodup_append.mp (h.erase mem).nodup
  exact hdis _ (List.mem_map_of_mem hp) _ (List.mem_singleton_self _)

/-- A worker that takes a key is the only one to process it. -/
theorem Orderly.key_ne_of_take (h : w.Orderly []) (ht : w.keys.take? = some (k, keys))
    (hp : pass ∈ w.passes) : pass.key ≠ k := by
  obtain ⟨-, -, hdis⟩ := List.nodup_append.mp (h.take ht).nodup
  exact hdis _ (List.mem_map_of_mem hp) _ (List.mem_singleton_self _)

/-- A write that lands changes the capability of its key at most. -/
theorem Orderly.frame_run (h : w.Orderly []) (mem : pass ∈ w.passes) {store : MemoryStore}
    {caches : Caches} {answer : Except Fault StoreAnswer}
    (run : w.store.run w.caches pass.call = (store, caches, answer)) :
    ∃ cache, caches = { w.caches with capabilities := cache } ∧
      ∀ n, n ≠ pass.key → cache.peek n = w.caches.capabilities.peek n := by
  have touched := MemoryStore.touched_run w.caches pass.call w.store
  rw [run] at touched
  exact touched.frame (h.concerns pass mem)

/-- The end of a pass releases the key. -/
theorem Orderly.ended (h : w.Orderly [k]) (ended : Ended w k w') : w'.Orderly [] := by
  have hk : w.keys.processing.contains k = true :=
    (h.mem_iff k).mp (List.mem_append_right _ (List.mem_singleton_self k))
  obtain ⟨hnd, -, hdis⟩ := List.nodup_append.mp h.nodup
  refine ⟨ended.caches ▸ h.keyed, ended.consistent h.consistent hk, ?_, fun n => ?_,
    ended.passes ▸ h.concerns⟩
  · rw [ended.passes, List.append_nil]
    exact hnd
  · rw [ended.passes, List.append_nil, ended.processing, NameSet.contains_erase]
    have hn := h.mem_iff n
    rw [List.mem_append, List.mem_singleton] at hn
    by_cases hnk : n = k
    · subst hnk
      simpa using fun hm => hdis n hm n (List.mem_singleton_self n) rfl
    · simpa [hnk] using hn

/-- **One pass at a time.** -/
theorem Step.orderly (step : Step w a w') (h : w.Orderly []) : w'.Orderly [] := by
  -- added keys are not processed yet
  have added : ∀ ks, (w.addAll ks).Orderly [] := fun ks =>
    ⟨h.keyed, h.consistent.addAll ks, h.nodup,
      fun n => (h.mem_iff n).trans (by rw [addAll, KeyQueue.processing_addAll]), h.concerns⟩
  cases step with
  | observe kind change =>
    exact ⟨h.keyed.observed change, (added _).2, h.nodup, (added _).4, h.concerns⟩
  | resync => exact added _
  | add k => exact added [k]
  | bringBack _ => exact ⟨h.keyed, (added _).2, h.nodup, (added _).4, h.concerns⟩
  | inject => exact ⟨h.keyed, h.consistent, h.nodup, h.mem_iff, h.concerns⟩
  | idle => exact h
  | close => exact ⟨h.keyed, h.consistent.close, h.nodup, h.mem_iff, h.concerns⟩
  | settle take synced ask ended => exact (h.take take).ended ended
  | begin take synced ask =>
    have hheld := h.take take
    refine ⟨h.keyed, hheld.consistent, ?_, fun n => ?_, fun p hp => ?_⟩
    · simpa using hheld.nodup
    · simpa using hheld.mem_iff n
    · rcases List.mem_append.mp hp with hp | hp
      · exact h.concerns p hp
      · obtain rfl := List.mem_singleton.mp hp
        exact (Sync.fits_of_ask h.keyed ask).concerns
  | land pass mem run ended =>
    have hheld := h.erase mem
    have touched := MemoryStore.touched_run w.caches pass.call w.store
    rw [run] at touched
    refine Orderly.ended ?_ ended
    exact ⟨touched.keyed h.keyed, hheld.consistent, hheld.nodup, hheld.mem_iff, hheld.concerns⟩
  | fail pass mem ended owes => exact (h.erase mem).ended ended

end Work

theorem System.orderly_fresh {caches : Caches} (keyed : caches.Keyed) (config : ControllerConfig)
    (metrics : Option Metrics) (store : MemoryStore) :
    (fresh config metrics caches store).work.Orderly [] := by
  refine ⟨keyed, KeyQueue.consistent_empty, List.nodup_nil, fun k => ?_, ?_⟩
  · exact ⟨fun hm => absurd hm List.not_mem_nil, fun hm => Bool.noConfusion hm⟩
  · exact fun pass hm => absurd hm List.not_mem_nil

end StorageFeatures
