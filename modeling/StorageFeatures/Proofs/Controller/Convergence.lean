import StorageFeatures.Proofs.Controller.Exclusion

/-!
# Convergence

While the queue is open, no name under which a write is asked for is forgotten: its key is dirty,
or kept until it is due, or a pass is open over it. And no open pass is about to make an outdated
write unless its key is dirty again. `Work.Attentive` says so, and every step keeps it, provided
that revisions tell states of an object apart and that a write which fails is worth a retry
(`Action.Heeds`).

The main result is `System.converged_of_run`: when there is nothing left to do, the capabilities
are those that follow from the classes, the snapshot classes and the provisioners.
-/

namespace StorageFeatures

/-- What convergence asks of an action: watches report known objects, and before it reaches the
store a write fails only for a fault that is worth a retry, and a deletion not at all. -/
def Action.Heeds (h : History) : Action → Prop
  | .observe k change => h.Knows k change
  | .fail pass fault =>
    fault.action = .requeueWithBackoff ∧ ∀ n, pass.call ≠ .deleteCapability n
  | .inject _ => False
  | _ => True

namespace Work

/-- What every step keeps while the queue is open. -/
structure Attentive (w : Work) : Prop where
  /-- Before the classes have synced, every cached class is still to be processed. -/
  cold : w.caches.storageClasses.synced = false → ∀ n c, n ≠ "" →
    w.caches.storageClasses.peek n = some c → w.keys.dirty.contains n = true
  /-- A name under which a write is asked for is not forgotten. -/
  covered : ∀ n, n ≠ "" →
    Sync.ask w.caches n = none ∨ w.Owes n ∨ ∃ pass ∈ w.passes, pass.key = n
  /-- An open pass makes the write that is asked for, or its key is processed again. -/
  current : ∀ pass ∈ w.passes, pass.key ≠ "" →
    w.keys.dirty.contains pass.key = true ∨ Sync.ask w.caches pass.key = some pass.call

/-- What every step keeps. -/
structure Heedful (h : History) (w : Work) : Prop where
  orderly : w.Orderly []
  known : h.Covers w.caches
  unarmed : w.store.failNext = none
  attentive : w.keys.closed = false → w.Attentive

variable {w w' : Work} {a : Action} {h : History}

/-! ### Adding keys -/

/-- Adding keys only makes more keys dirty. -/
theorem dirty_addAll (w : Work) (ks : List String) {n : String}
    (hn : w.keys.dirty.contains n = true) : (w.addAll ks).keys.dirty.contains n = true := by
  rw [addAll, KeyQueue.contains_dirty_addAll, hn, Bool.true_or]

/-- An open queue owes a pass to every key that is added. -/
theorem dirty_addAll_of_mem (hopen : w.keys.closed = false) {ks : List String} {n : String}
    (hn : n ∈ ks) : (w.addAll ks).keys.dirty.contains n = true := by
  rw [addAll, KeyQueue.contains_dirty_addAll, hopen]
  simp [hn]

theorem Owes.addAll {n : String} (hn : w.Owes n) (ks : List String) : (w.addAll ks).Owes n :=
  hn.imp_left (dirty_addAll w ks)

/-- Adding keys takes no debt away. -/
theorem Attentive.addAll (hw : w.Attentive) (ks : List String) : (w.addAll ks).Attentive := by
  refine ⟨fun hs n c hn hc => dirty_addAll w ks (hw.cold hs n c hn hc), fun n hn => ?_,
    fun pass hp hn => (hw.current pass hp hn).imp_left (dirty_addAll w ks)⟩
  exact (hw.covered n hn).imp_right (Or.imp_left (·.addAll ks))

/-- A kept key that is due is added, so its name is not forgotten. -/
theorem Attentive.bringBack (hw : w.Attentive) (hopen : w.keys.closed = false) (r : Requeue) :
    Attentive { w.addAll [r.key] with requeues := w.requeues.erase r } := by
  have hadded := hw.addAll [r.key]
  refine ⟨hadded.cold, fun n hn => (hadded.covered n hn).imp_right (Or.imp_left ?_),
    hadded.current⟩
  rintro (hd | ⟨r', hr, rfl⟩)
  · exact .inl hd
  · by_cases hr' : r' = r
    · exact .inl (dirty_addAll_of_mem hopen (by simp [hr']))
    · exact .inr ⟨r', (List.mem_erase_of_ne hr').mpr hr, rfl⟩

/-- After a change every name under which something else is asked for is to be processed. -/
theorem Heedful.dirty_observe (hw : w.Heedful h) (hopen : w.keys.closed = false) {k : Kind}
    {change : Change k.Object} (hk : h.Knows k change) {n : String} (hn : n ≠ "")
    (hne : Sync.ask (w.caches.observed change) n ≠ Sync.ask w.caches n) :
    (w.observe change).keys.dirty.contains n = true := by
  rcases Caches.routed_of_ask_ne hw.orderly.keyed hw.known hk hn hne with hmem | ⟨hs, c, hc⟩
  · exact dirty_addAll_of_mem hopen hmem
  · exact dirty_addAll w _ ((hw.attentive hopen).cold hs n c hn hc)

/-- A class that a cold cache shows was just reported, so its key has been added. -/
theorem Heedful.cold_observe (hw : w.Heedful h) (hopen : w.keys.closed = false) {k : Kind}
    {change : Change k.Object} (hk : h.Knows k change)
    (hs : (w.caches.observed change).storageClasses.synced = false) (n : String)
    (c : StorageClass) (hn : n ≠ "")
    (hc : (w.caches.observed change).storageClasses.peek n = some c) :
    (w.observe change).keys.dirty.contains n = true := by
  -- a cache that has not synced after the change had not before
  have hcold : w.caches.storageClasses.synced = false := by
    cases hsynced : w.caches.storageClasses.synced with
    | false => rfl
    | true =>
      have hstays : (w.caches.observed change).isSynced .storageClass = true :=
        Caches.isSynced_observed change hsynced
      exact absurd hstays (by simp [Caches.isSynced, hs])
  have unchanged : w.caches.storageClasses.peek n = some c →
      (w.observe change).keys.dirty.contains n = true := fun hc =>
    dirty_addAll w _ ((hw.attentive hopen).cold hcold n c hn hc)
  cases k with
  | storageClass =>
    by_cases hne : (w.caches.storageClasses.observe change).1.peek n =
        w.caches.storageClasses.peek n
    · exact unchanged (hne.symm.trans hc)
    · have steady :=
        h.revisioned_classes.steady hw.orderly.keyed.storageClasses hw.known.classes hk
      exact dirty_addAll_of_mem hopen
        (Caches.routed_of_class_ne hw.orderly.keyed steady hn hne)
  | snapshotClass | provisionerCapability | classCapability => exact unchanged hc

/-- A watch adds the keys of all classes for which it changes what is asked. -/
theorem Heedful.attentive_observe (hw : w.Heedful h) (hopen : w.keys.closed = false) {k : Kind}
    {change : Change k.Object} (hk : h.Knows k change) : (w.observe change).Attentive := by
  have hatt := hw.attentive hopen
  refine ⟨hw.cold_observe hopen hk, fun n hn => ?_, fun pass hp hn => ?_⟩
  · by_cases hask : Sync.ask (w.caches.observed change) n = Sync.ask w.caches n
    · exact (hatt.covered n hn).imp hask.trans (Or.imp_left (·.addAll _))
    · exact .inr (.inl (.inl (hw.dirty_observe hopen hk hn hask)))
  · by_cases hask : Sync.ask (w.caches.observed change) pass.key = Sync.ask w.caches pass.key
    · exact (hatt.current pass hp hn).imp (dirty_addAll w _) hask.trans
    · exact .inl (hw.dirty_observe hopen hk hn hask)

/-! ### Passes -/

/-- The end of a pass that has left nothing to do under its key, or a pass to be owed. -/
theorem Attentive.ended {k : String} (ended : Ended w k w')
    (cold : w.caches.storageClasses.synced = false → ∀ n c, n ≠ "" →
      w.caches.storageClasses.peek n = some c → w.keys.dirty.contains n = true)
    (covered : ∀ n, n ≠ "" → n ≠ k →
      Sync.ask w.caches n = none ∨ w.Owes n ∨ ∃ pass ∈ w.passes, pass.key = n)
    (current : ∀ pass ∈ w.passes, pass.key ≠ "" →
      w.keys.dirty.contains pass.key = true ∨ Sync.ask w.caches pass.key = some pass.call)
    (done : k ≠ "" → Sync.ask w.caches k = none ∨ w'.Owes k) : w'.Attentive := by
  have hcaches := ended.caches
  refine ⟨?_, fun n hn => ?_, ?_⟩
  · rw [hcaches]
    exact fun hs n c hn hc => ended.dirty (cold hs n c hn hc)
  · rw [hcaches, ended.passes]
    by_cases hk : n = k
    · subst hk
      exact (done hn).imp_right .inl
    · exact (covered n hn hk).imp_right (Or.imp_left ended.owes)
  · rw [hcaches, ended.passes]
    exact fun pass hp hn => (current pass hp hn).imp_left ended.dirty

theorem dirty_take {k n : String} {keys : KeyQueue} (ht : w.keys.take? = some (k, keys))
    (hn : n ≠ k) : keys.dirty.contains n = w.keys.dirty.contains n := by
  obtain ⟨ks, -, rfl⟩ := KeyQueue.take?_eq_some_iff.mp ht
  simp [hn]

/-- What a worker leaves alone when it takes a key. -/
theorem Heedful.attentive_take (hw : w.Heedful h) (hopen : w.keys.closed = false) {k : String}
    {keys : KeyQueue} (ht : w.keys.take? = some (k, keys)) (hs : w.caches.allSynced = true) :
    (w.caches.storageClasses.synced = true) ∧
      (∀ n, n ≠ "" → n ≠ k → Sync.ask w.caches n = none ∨ Owes { w with keys } n ∨
        ∃ pass ∈ w.passes, pass.key = n) ∧
      ∀ pass ∈ w.passes, pass.key ≠ "" → keys.dirty.contains pass.key = true ∨
        Sync.ask w.caches pass.key = some pass.call := by
  have hatt := hw.attentive hopen
  refine ⟨Caches.allSynced_iff.mp hs .storageClass, fun n hn hk => ?_, fun pass hp hn => ?_⟩
  · refine (hatt.covered n hn).imp_right (Or.imp_left (Or.imp_left fun hd => ?_))
    exact (dirty_take ht hk).trans hd
  · exact (hatt.current pass hp hn).imp_left
      (dirty_take ht (hw.orderly.key_ne_of_take ht hp)).trans

/-- What is left alone when a pass is closed whose write has changed nothing under other names. -/
theorem Heedful.attentive_erase (hw : w.Heedful h) (hopen : w.keys.closed = false) {pass : Pass}
    (mem : pass ∈ w.passes) {caches : Caches}
    (same : ∀ n, n ≠ pass.key → Sync.ask caches n = Sync.ask w.caches n) :
    (∀ n, n ≠ "" → n ≠ pass.key → Sync.ask caches n = none ∨ w.Owes n ∨
        ∃ p ∈ w.passes.erase pass, p.key = n) ∧
      ∀ p ∈ w.passes.erase pass, p.key ≠ "" → w.keys.dirty.contains p.key = true ∨
        Sync.ask caches p.key = some p.call := by
  have hatt := hw.attentive hopen
  refine ⟨fun n hn hk => ?_, fun p hp hn => ?_⟩
  · refine (hatt.covered n hn).imp (same n hk).trans (Or.imp_right ?_)
    rintro ⟨p, hp, rfl⟩
    have hne : p ≠ pass := fun he => hk (congrArg Pass.key he)
    exact ⟨p, (List.mem_erase_of_ne hne).mpr hp, rfl⟩
  · refine (hatt.current p (List.mem_of_mem_erase hp) hn).imp_right ?_
    exact (same p.key (hw.orderly.key_ne mem hp)).trans

/-- A pass makes the write that is asked for when it begins. -/
theorem Heedful.attentive_begin (hw : w.Heedful h) (hopen : w.keys.closed = false) {k : String}
    {keys : KeyQueue} {call : StoreCall} (ht : w.keys.take? = some (k, keys))
    (hs : w.caches.allSynced = true) (hask : Sync.ask w.caches k = some call) (worker : Nat) :
    Attentive { w with keys, passes := w.passes ++ [⟨worker, k, call⟩] } := by
  obtain ⟨hsynced, covered, current⟩ := hw.attentive_take hopen ht hs
  refine ⟨fun hcold => by simp [hsynced] at hcold, fun n hn => ?_, fun p hp hn => ?_⟩
  · by_cases hk : n = k
    · subst hk
      exact .inr (.inr ⟨_, List.mem_append_right _ (List.mem_singleton_self _), rfl⟩)
    · refine (covered n hn hk).imp_right (Or.imp_right ?_)
      rintro ⟨p, hp, hpn⟩
      exact ⟨p, List.mem_append_left _ hp, hpn⟩
  · -- the new pass makes what was asked for just now
    rcases List.mem_append.mp hp with hp | hp
    · exact current p hp hn
    · obtain rfl := List.mem_singleton.mp hp
      exact .inr hask

/-- A write that lands settles its key if it was asked for, and concerns no other name. -/
theorem Orderly.ask_run (hw : w.Orderly []) (unarmed : w.store.failNext = none) {pass : Pass}
    (mem : pass ∈ w.passes) {store : MemoryStore} {caches : Caches}
    {answer : Except Fault StoreAnswer}
    (run : w.store.run w.caches pass.call = (store, caches, answer)) :
    (Sync.ask w.caches pass.key = some pass.call → Sync.ask caches pass.key = none) ∧
      ∀ n, n ≠ pass.key → Sync.ask caches n = Sync.ask w.caches n := by
  obtain ⟨-, store', hrun⟩ := MemoryStore.run_of_unarmed w.caches pass.call unarmed
  rw [run] at hrun
  refine ⟨fun hask => ?_, fun n hn => ?_⟩
  · have hnone := Sync.ask_perform store' hw.keyed hask
    rwa [← hrun] at hnone
  · obtain ⟨cache, rfl, others⟩ := hw.frame_run mem run
    exact Sync.ask_congr rfl rfl (fun _ _ => rfl) (others n hn)

/-- A write that has become outdated leaves its key dirty. -/
theorem Heedful.attentive_land (hw : w.Heedful h) (hopen : w.keys.closed = false) {pass : Pass}
    (mem : pass ∈ w.passes) {store : MemoryStore} {caches : Caches}
    {answer : Except Fault StoreAnswer} {landed : List StoreCall}
    (run : w.store.run w.caches pass.call = (store, caches, answer))
    (ended : Ended { w with store, caches, landed, passes := w.passes.erase pass } pass.key w') :
    w'.Attentive := by
  have hatt := hw.attentive hopen
  obtain ⟨settled, same⟩ := hw.orderly.ask_run hw.unarmed mem run
  obtain ⟨cache, rfl, -⟩ := hw.orderly.frame_run mem run
  obtain ⟨covered, current⟩ := hw.attentive_erase hopen mem same
  refine .ended ended hatt.cold covered current fun hn => ?_
  -- the write is still the one that is asked for, or the key is dirty
  rcases hatt.current pass mem hn with hd | hcurrent
  · exact .inr (.inl (ended.dirty hd))
  · exact .inl (settled hcurrent)

/-- No step takes a debt away without paying it, as long as the queue is open. -/
theorem Step.attentive (step : Step w a w') (ok : a.Heeds h) (hw : w.Heedful h)
    (hopen : w'.keys.closed = false) : w'.Attentive := by
  have closed_take : ∀ {k keys}, w.keys.take? = some (k, keys) → keys.closed = w.keys.closed := by
    intro k keys ht
    obtain ⟨ks, -, rfl⟩ := KeyQueue.take?_eq_some_iff.mp ht
    rfl
  cases step with
  | observe k change =>
    exact hw.attentive_observe ((KeyQueue.closed_addAll _ _).symm.trans hopen) ok
  | resync | add =>
    exact (hw.attentive ((KeyQueue.closed_addAll _ _).symm.trans hopen)).addAll _
  | bringBack due =>
    exact (hw.attentive ((KeyQueue.closed_addAll _ _).symm.trans hopen)).bringBack
      ((KeyQueue.closed_addAll _ _).symm.trans hopen) _
  | inject fault => exact ok.elim
  | idle => exact hw.attentive hopen
  | close => cases hopen
  | settle take synced ask ended =>
    have hbefore := (ended.closed.trans (closed_take take)).symm.trans hopen
    obtain ⟨hs, covered, current⟩ := hw.attentive_take hbefore take synced
    exact .ended ended (fun hcold => by simp [hs] at hcold) covered current fun _ => .inl ask
  | begin take synced ask =>
    exact hw.attentive_begin ((closed_take take).symm.trans hopen) take synced ask _
  | land pass mem run ended =>
    exact hw.attentive_land (ended.closed.symm.trans hopen) mem run ended
  | fail pass mem ended owes =>
    have hbefore : w.keys.closed = false := ended.closed.symm.trans hopen
    obtain ⟨covered, current⟩ := hw.attentive_erase hbefore mem fun _ _ => rfl
    -- the write never reached the store, so it is still asked for: its key comes back
    exact .ended ended (hw.attentive hbefore).cold covered current
      fun _ => .inr (owes ok.1 ok.2 hbefore)

theorem Step.known (step : Step w a w') (ok : a.Heeds h) (hw : w.Heedful h) :
    h.Covers w'.caches := by
  cases step with
  | observe k change => exact hw.known.observed ok
  | resync | add | bringBack | inject | idle | close | begin => exact hw.known
  | settle take synced ask ended | fail pass mem ended owes => exact ended.caches ▸ hw.known
  | land pass mem run ended =>
    obtain ⟨cache, rfl, -⟩ := hw.orderly.frame_run mem run
    rw [ended.caches]
    exact ⟨hw.known.classes, hw.known.snapshots⟩

/-- No step lays out a fault, since a heeded action injects none. -/
theorem Step.unarmed (step : Step w a w') (ok : a.Heeds h) (hw : w.Heedful h) :
    w'.store.failNext = none := by
  cases step with
  | observe | resync | add | bringBack | idle | close | begin => exact hw.unarmed
  | inject fault => exact ok.elim
  | settle take synced ask ended | fail pass mem ended owes => exact ended.store ▸ hw.unarmed
  | land pass mem run ended =>
    have hnone := (MemoryStore.run_of_unarmed w.caches pass.call hw.unarmed).1
    rw [run] at hnone
    rw [ended.store]
    exact hnone

/-- **No change is forgotten.** -/
theorem Step.heedful (step : Step w a w') (ok : a.Heeds h) (hw : w.Heedful h) : w'.Heedful h :=
  ⟨step.orderly hw.orderly, step.known ok hw, step.unarmed ok hw, step.attentive ok hw⟩

end Work

/-! ### Quiet systems -/

namespace System

/-- The queue is open and empty, no key is processed, and none is kept until it is due. -/
def Quiet (s : System) : Prop := s.controller.queue.keys = {} ∧ s.controller.requeues = []

/-- The capabilities are those that follow from the other three kinds. -/
structure Converged (s : System) : Prop where
  /-- Without a class there is no capability. -/
  absent : ∀ n, n ≠ "" → s.controller.caches.storageClasses.peek n = none →
    s.controller.caches.capabilities.peek n = none
  /-- A class whose provisioner has published has the capability that follows. -/
  served : ∀ n c p, n ≠ "" → s.controller.caches.storageClasses.peek n = some c →
    c.metadata.name = some n → s.controller.caches.provisioners.peek c.provisioner = some p →
    ∃ a, s.controller.caches.capabilities.peek n = some a ∧
      a.spec = .derive c (s.controller.caches.snapshotClasses.peek n) p
  /-- Another pass would change nothing. -/
  settled : ∀ n d, n ≠ "" → Sync.decide s.controller.caches n = .ok d → d.call? = none

variable {s : System} {h : History}

theorem heedful_fresh (config : ControllerConfig) (metrics : Option Metrics) (h : History) :
    (fresh config metrics {} {}).work.Heedful h := by
  have absent : ∀ {α : Type} {n : String} {a : α}, Cache.peek {} n ≠ some a := nofun
  refine ⟨orderly_fresh Caches.keyed_empty config metrics {}, ⟨?_, ?_⟩, rfl, fun _ => ⟨?_, ?_, ?_⟩⟩
  · exact fun _ _ hc => absurd hc absent
  · exact fun _ _ hs => absurd hs absent
  · exact fun _ _ _ _ hc => absurd hc absent
  · exact fun _ _ => .inl rfl
  · exact fun pass hm => absurd hm List.not_mem_nil

/-- A quiet system asks for nothing. -/
theorem ask_of_quiet (hw : s.work.Heedful h) (quiet : s.Quiet) {n : String} (hn : n ≠ "") :
    Sync.ask s.controller.caches n = none := by
  obtain ⟨hkeys, hrequeues⟩ := quiet
  have hopen : s.work.keys.closed = false := congrArg KeyQueue.closed hkeys
  rcases (hw.attentive hopen).covered n hn with hnone | (hdirty | ⟨r, hr, -⟩) | ⟨pass, hp, rfl⟩
  · exact hnone
  · rw [show s.work.keys = {} from hkeys] at hdirty
    cases hdirty
  · rw [show s.work.requeues = [] from hrequeues] at hr
    cases hr
  · -- the key of an open pass is processed
    have hprocessing := hw.orderly.processing_of_mem hp
    rw [show s.work.keys = {} from hkeys] at hprocessing
    cases hprocessing

/-- **Convergence.** However watches, timers, workers and writes interleave, and however often
creations and updates fail before they succeed: when nothing is left to do, every capability is
the one that follows from its class, its snapshot class and its provisioner. -/
theorem converged_of_run {config : ControllerConfig} {metrics : Option Metrics}
    (run : Run (Action.Heeds h) (fresh config metrics {} {}) s) (quiet : s.Quiet) :
    s.Converged := by
  have hw : s.work.Heedful h :=
    Run.preserves run (staffed_fresh config metrics {} {})
      (fun ok step hw => step.heedful ok hw) (heedful_fresh config metrics h)
  refine ⟨fun n hn hclass => ?_, fun n c p hn hclass hname hp => ?_, fun n d hn hd => ?_⟩
  · have hask := ask_of_quiet hw quiet hn
    rw [Sync.ask_of_absent hclass] at hask
    exact Option.map_eq_none_iff.mp hask
  · have hnamed : c.metadata.name.getD "" ≠ "" := by simpa [hname] using hn
    exact (Sync.ask_of_served hw.orderly.keyed hclass hnamed hp).mp (ask_of_quiet hw quiet hn)
  · exact (Sync.call?_of_decide hd).trans (ask_of_quiet hw quiet hn)

/-- Only the sample class ever exists. -/
def sampleHistory : History where
  classes c := c = sampleClass
  snapshots _ := False
  revisioned_classes _ _ ha hb _ _ _ := ha.trans hb.symm
  revisioned_snapshots _ _ ha := ha.elim

/-- What happens until a class is served at the second attempt. -/
def serving : List Action :=
  [.observe .storageClass (.restarted [sampleClass]), .observe .snapshotClass (.restarted []),
    .observe .provisionerCapability (.restarted [sampleProvisioner]),
    .observe .classCapability (.restarted []), .start 1, .discovered (.ok "v1.29.3"), .turn 0,
    .fail samplePass (.internal "timeout"), .wait 5, .bringBack ⟨5, "fast"⟩, .turn 0,
    .land samplePass]

/-- A run that serves one class converges with one write. -/
theorem converged_serving : ∃ s,
    Run (Action.Heeds sampleHistory) (fresh {} none {} {}) s ∧ s.Quiet ∧ s.landed.length = 1 ∧
    s.Converged := by
  have computed : ((fresh {} none {} {}).follow serving).map
      (fun s => (s.controller.queue.keys, s.controller.requeues, s.landed.length)) =
        some ({}, [], 1) := by
    decide +kernel
  obtain ⟨s, hfollow, hs⟩ := Option.map_eq_some_iff.mp computed
  obtain ⟨hkeys, hs⟩ := Prod.mk.inj hs
  obtain ⟨hrequeues, hlanded⟩ := Prod.mk.inj hs
  have ok : ∀ a ∈ serving, a.Heeds sampleHistory := by
    simp [serving, Action.Heeds, History.Knows, Change.present, sampleHistory, samplePass,
      Fault.action]
  have run := run_of_follow ok hfollow
  exact ⟨s, run, ⟨hkeys, hrequeues⟩, hlanded, converged_of_run run ⟨hkeys, hrequeues⟩⟩

end System

end StorageFeatures
