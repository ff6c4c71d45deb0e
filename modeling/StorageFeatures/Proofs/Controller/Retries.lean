import StorageFeatures.Proofs.Controller.Accounts
import StorageFeatures.Proofs.Controller.Intake
import StorageFeatures.Proofs.Queue.Delays
import Mathlib.Data.List.DropRight

/-!
# Keys that come back

A pass that fails is repeated, unless nothing is to be gained by that. `System.retrying_of_trace`
says of every run how:

* the limiter remembers the failures of a key in a row (`Sync.streak`), for nothing but the end of a
  pass concerns it (`System.limiter_next`);
* the end of a pass adds its key again after a delay that depends on these failures alone, or not
  at all (`Moment.schedules_of_ended?`);
* a key that is to be added again is kept until it is dirty, and is dirty until a worker takes it
  (`Work.Step.awaits`), whatever else happens to it.
-/

namespace StorageFeatures

/-! ### Failures in a row -/

namespace Sync

variable {result : Except Fault Outcome}

/-- Whether a pass clears the failures of its key: it has come to an outcome, or trying again
cannot help. -/
def settled : Except Fault Outcome → Bool
  | .ok _ => true
  | .error fault => fault.action = .noRequeue

/-- The failures in a row at the end of some passes over a key: those that call for another pass
after a growing delay, since the last one that cleared them. -/
def streak (results : List (Except Fault Outcome)) : Nat :=
  (results.rtakeWhile (!settled ·)).countP retried

/-- The last pass decides whether the failures go on or are cleared. -/
theorem streak_concat (results : List (Except Fault Outcome)) (result : Except Fault Outcome) :
    streak (results ++ [result]) =
      if settled result then 0 else streak results + if retried result then 1 else 0 := by
  rw [streak, List.rtakeWhile_concat]
  cases settled result with
  | true => rfl
  | false => exact List.countP_append.trans (congrArg _ List.countP_singleton)

end Sync

namespace Limiter

variable {l : Limiter} {k : String} {result : Except Fault Sync.Outcome}

/-- The end of a pass is a failure, clears the failures, or is of no concern. -/
theorem heed_eq (l : Limiter) (k : String) (result : Except Fault Sync.Outcome) :
    l.heed k result =
      if Sync.settled result then l.forget k
      else if Sync.retried result then (l.next k).2
      else l := by
  cases result with
  | ok outcome => rfl
  | error fault => cases haction : fault.action <;> simp [heed, Sync.settled, Sync.retried, haction]

theorem config_heed (l : Limiter) (k : String) (result : Except Fault Sync.Outcome) :
    (l.heed k result).config = l.config := by
  rw [heed_eq]
  split
  · exact config_forget l k
  · split
    · exact config_next l k
    · rfl

protected theorem Doubling.heed (h : l.Doubling) (k : String)
    (result : Except Fault Sync.Outcome) : (l.heed k result).Doubling := by
  rw [heed_eq]
  split
  · exact h.forget k
  · split
    · exact h.next k
    · exact h

/-- The end of a pass concerns the failures of its own key only. -/
theorem failures_heed (l : Limiter) (k k' : String) (result : Except Fault Sync.Outcome) :
    (l.heed k result).failures k' =
      if k' ≠ k then l.failures k'
      else if Sync.settled result then 0
      else l.failures k' + if Sync.retried result then 1 else 0 := by
  rw [heed_eq]
  split
  · rw [failures_forget]
    split <;> simp_all
  · split
    · rw [failures_next]
      split <;> simp_all
    · simp_all

theorem due_of_settled (h : Sync.settled result = true) : l.due k result = none := by
  cases result with
  | ok outcome => rfl
  | error fault =>
    have haction : fault.action = .noRequeue := by simpa [Sync.settled] using h
    simp only [due, haction]

end Limiter

/-! ### Keys that are awaited -/

namespace Work

variable {w w' : Work} {a : Action} {k : String} {r : Requeue}

/-- A key that is to be added again is dirty, or is kept until then. -/
def Awaits (w : Work) (r : Requeue) : Prop :=
  w.keys.dirty.contains r.key = true ∨ r ∈ w.requeues

/-- The end of a pass drops no key that is awaited. -/
theorem Ended.awaits (h : Ended w k w') (hr : w.Awaits r) : w'.Awaits r :=
  hr.imp h.dirty h.requeues

theorem Awaits.addAll (h : w.Awaits r) (ks : List String) : (w.addAll ks).Awaits r := by
  refine h.imp_left fun hd => ?_
  refine (KeyQueue.contains_dirty_addAll w.keys ks r.key).trans ?_
  rw [hd, Bool.true_or]

/-- The queue stays closed. -/
theorem Step.closed (step : Step w a w') (h : w.keys.closed = true) : w'.keys.closed = true := by
  have taken : ∀ {k : String} {keys : KeyQueue}, w.keys.take? = some (k, keys) →
      keys.closed = true := by
    intro k keys take
    obtain ⟨_, -, rfl⟩ := KeyQueue.take?_eq_some_iff.mp take
    exact h
  cases step with
  | observe | resync | add | bringBack => exact (KeyQueue.closed_addAll _ _).trans h
  | inject | idle => exact h
  | close => rfl
  | settle take synced ask ended => exact ended.closed.trans (taken take)
  | begin take => exact taken take
  | land pass mem run ended => exact ended.closed.trans h
  | fail pass mem ended => exact ended.closed.trans h

/-- **Awaited keys are not lost.** While the queue is open only a worker that takes a key ends that
the key is awaited. -/
theorem Step.awaits (step : Step w a w') (hopen : w'.keys.closed = false)
    (untaken : ∀ worker keys, a = .turn worker → w.keys.take? ≠ some (r.key, keys))
    (h : w.Awaits r) : w'.Awaits r := by
  -- a worker takes another key
  have taken : ∀ {worker : Nat} {k : String} {keys : KeyQueue}, a = .turn worker →
      w.keys.take? = some (k, keys) → Awaits { w with keys } r := by
    intro worker k keys ha take
    have hne : r.key ≠ k := by
      rintro rfl
      exact untaken worker keys ha take
    obtain ⟨_, -, rfl⟩ := KeyQueue.take?_eq_some_iff.mp take
    refine h.imp_left fun hd => ?_
    simpa [hne] using hd
  cases step with
  | observe k change => exact Awaits.addAll (w := { w with caches := _ }) h _
  | resync k ks => exact h.addAll ks
  | add k => exact h.addAll [k]
  | @bringBack r' due =>
    by_cases hr : r = r'
    · -- the key itself comes back, and the queue is open
      subst hr
      refine .inl ((KeyQueue.contains_dirty_addAll w.keys [r.key] r.key).trans ?_)
      have hopen : w.keys.closed = false := (KeyQueue.closed_addAll _ _).symm.trans hopen
      simp [hopen]
    · exact (h.addAll [r'.key]).imp_right (List.mem_erase_of_ne hr).mpr
  | inject | idle | close => exact h
  | settle take synced ask ended => exact ended.awaits (taken rfl take)
  | begin take synced ask => exact taken rfl take
  | land pass mem run ended => exact ended.awaits h
  | fail pass mem ended owes => exact ended.awaits h

end Work

/-! ### The end of a pass -/

namespace Controller

variable {c c' : Controller} {k : String} {delay : Option Nat}

/-- A key whose pass ends is added again after a delay, at once if that is zero, or not at all; then
it is released. -/
structure Schedules (c : Controller) (k : String) (delay : Option Nat) (c' : Controller) :
    Prop where
  requeues : c'.requeues =
    c.requeues ++ (delay.filter (0 < ·)).toList.map fun delay => ⟨c.now + delay, k⟩
  keys : c'.queue.keys =
    ((if delay = some 0 then (c.queue.keys.add k).1 else c.queue.keys).done k).1

/-- A key that is added to an open queue is awaited from then on. -/
theorem Schedules.awaits {delay : Nat} (h : c.Schedules k (some delay) c') (s : System)
    (hopen : c.queue.keys.closed = false) : (c'.work s).Awaits ⟨c.now + delay, k⟩ := by
  obtain ⟨requeues, keys⟩ := h
  cases delay with
  | zero =>
    refine .inl ?_
    show c'.queue.keys.dirty.contains k = true
    rw [keys, KeyQueue.dirty_done]
    exact KeyQueue.dirty_add hopen k
  | succ delay =>
    refine .inr ?_
    show _ ∈ c'.requeues
    rw [requeues]
    exact List.mem_append_right _ (List.mem_singleton_self _)

/-- **The end of a pass schedules what is due.** -/
theorem schedules_finish (c : Controller) (worker : Nat) (k : String)
    (result : Except Fault Sync.Outcome) :
    c.Schedules k (c.again? k result) (c.finish worker k result) := by
  obtain ⟨metrics, hfinish⟩ := c.finish_eq k worker result
  rw [hfinish]
  refine ⟨rfl, ?_⟩
  unfold noted
  split <;> rfl

/-! ### The limiter of a controller -/

/-- The limiter hears of the end of a pass. -/
theorem limiter_finish (c : Controller) (worker : Nat) (k : String)
    (result : Except Fault Sync.Outcome) :
    (c.finish worker k result).queue.limiter = c.queue.limiter.heed k result := by
  obtain ⟨metrics, hfinish⟩ := c.finish_eq k worker result
  rw [hfinish]
  unfold noted
  split <;> rfl

theorem limiter_routeAll {α : Type} [Watched α] (c : Controller) (events : List (Event α)) :
    (events.foldl route c).queue.limiter = c.queue.limiter := by
  rw [queue_routeAll]
  generalize events.flatMap _ = ks
  induction ks generalizing c with
  | nil => rfl
  | cons k ks ih => exact ih (c.enqueue k)

theorem limiter_drain (c : Controller) : c.drain.queue.limiter = c.queue.limiter := by
  rw [drain_eq]
  rfl

theorem limiter_pollCaches (c : Controller) (workers : Nat) (deadline : Option Nat) :
    (c.pollCaches workers deadline).queue.limiter = c.queue.limiter := by
  unfold pollCaches
  split
  · unfold launch
    dsimp only
    split
    · exact limiter_drain _
    · rfl
  · split
    · rfl
    · split <;> rfl

theorem limiter_discovered (c : Controller) (reported : Except Fault String) :
    (c.discovered reported).queue.limiter = c.queue.limiter := by
  unfold discovered
  split
  · split
    · rfl
    · exact limiter_pollCaches c _ _
  · rfl

theorem limiter_poll (c : Controller) : c.poll.queue.limiter = c.queue.limiter := by
  unfold poll
  split
  · exact limiter_pollCaches c _ _
  · rfl

theorem limiter_cancel (c : Controller) : c.cancel.queue.limiter = c.queue.limiter := by
  unfold cancel
  dsimp only
  split
  · rfl
  · exact limiter_drain _
  · rfl

end Controller

namespace Moment

variable {m : Moment} {k : String} {result : Except Fault Sync.Outcome}

/-- In this moment the pass over a key ends, which is added again after a delay or not at all. -/
def Schedules (m : Moment) (k : String) (delay : Option Nat) : Prop :=
  m.holding.Schedules k delay (m.system.next m.action).controller

theorem limiter_holding (m : Moment) :
    m.holding.queue.limiter = m.system.controller.queue.limiter := by
  obtain ⟨s, a⟩ := m
  cases a with
  | turn worker => exact WorkQueue.limiter_poll _ _
  | _ => rfl

theorem closed_holding (m : Moment) :
    m.holding.queue.keys.closed = m.system.controller.queue.keys.closed := by
  obtain ⟨s, a⟩ := m
  cases a with
  | turn worker => exact Controller.closed_polled _ worker
  | _ => rfl

theorem now_holding (m : Moment) : m.holding.now = m.system.controller.now := by
  obtain ⟨s, a⟩ := m
  cases a <;> rfl

/-- A pass that ends in some moment adds its key again as the limiter says. -/
theorem schedules_of_ended? (h : m.ended? = some (k, result)) :
    m.Schedules k (m.holding.again? k result) := by
  obtain ⟨c, worker, hnext, hqueue, hrequeues, hnow⟩ := finish_of_ended? h
  have hagain : c.again? k result = m.holding.again? k result := by
    rw [Controller.again?, Controller.again?, hqueue]
  obtain ⟨requeues, keys⟩ := c.schedules_finish worker k result
  rw [hagain, ← hnext] at requeues keys
  rw [hrequeues, hnow] at requeues
  rw [hqueue] at keys
  exact ⟨requeues, keys⟩

/-- Until shutdown the delay is what is due. -/
theorem again?_holding (hopen : m.system.controller.queue.keys.closed = false) (k : String)
    (result : Except Fault Sync.Outcome) : m.holding.again? k result =
      m.system.controller.queue.limiter.due k result := by
  rw [Controller.again?, closed_holding, limiter_holding, hopen]
  rfl

/-- How the passes over a key have ended that end in some moments, in order. -/
def results (k : String) (moments : List Moment) : List (Except Fault Sync.Outcome) :=
  ((moments.filterMap ended?).filter (·.1 = k)).map (·.2)

theorem results_concat (k : String) (moments : List Moment) (m : Moment) :
    results k (moments ++ [m]) =
      results k moments ++ (m.ended?.toList.filter (·.1 = k)).map (·.2) := by
  rw [results, List.filterMap_append, List.filter_append, List.map_append, List.filterMap_cons]
  cases m.ended? <;> rfl

end Moment

/-! ### Runs -/

namespace System

open Moment (results)

variable {s s' : System} {a : Action} {past : List Moment} {m : Moment} {k : String}
  {config : ControllerConfig} {metrics : Option Metrics} {caches : Caches} {store : MemoryStore}

/-- **Only the end of a pass concerns the limiter.** -/
theorem limiter_next (s : System) (a : Action) :
    (s.next a).controller.queue.limiter = (Moment.mk s a).ended?.elim s.controller.queue.limiter
      fun e => s.controller.queue.limiter.heed e.1 e.2 := by
  cases hended : (Moment.mk s a).ended? with
  | some e =>
    obtain ⟨c, worker, hnext, hqueue, -, -⟩ := Moment.finish_of_ended? hended
    show (s.next a).controller.queue.limiter = _
    rw [hnext, Controller.limiter_finish, hqueue, Moment.limiter_holding]
    rfl
  | none =>
    cases a with
    | observe k change => exact Controller.limiter_routeAll _ _
    | resync k => exact Controller.limiter_routeAll _ _
    | add | bringBack | wait | inject | start => rfl
    | turn worker =>
      have turned := s.controller.turn_worker worker
      show (s.controller.turn (.worker worker)).1.queue.limiter = _
      generalize (s.controller.turn (.worker worker)).1 = c' at turned ⊢
      cases turned with
      | sleeps | begins => exact WorkQueue.limiter_poll _ _
      | leaves =>
        rw [Controller.settleExit_eq]
        exact WorkQueue.limiter_poll _ _
      | @settles k result hp hv =>
        -- this pass would have ended in the moment
        have hsome : (Moment.mk s (.turn worker)).ended? = some (k, result) := by
          simp [Moment.ended?, Moment.taken?, hp, Polled.key?, hv]
        rw [hsome] at hended
        cases hended
    | land | fail => cases hended
    | discovered reported => exact Controller.limiter_discovered _ reported
    | poll => exact Controller.limiter_poll _
    | cancel => exact Controller.limiter_cancel _

/-- What a limiter remembers of some moments. -/
structure Remembered (config : BackoffConfig) (past : List Moment) (l : Limiter) : Prop where
  config : l.config = config
  doubling : l.Doubling
  failures : ∀ k, l.failures k = Sync.streak (results k past)

/-- The limiter hears of every pass that ends, and of nothing else. -/
theorem Remembered.next {l : Limiter} {backoff : BackoffConfig} (h : Remembered backoff past l)
    (m : Moment) :
    Remembered backoff (past ++ [m]) (m.ended?.elim l fun e => l.heed e.1 e.2) := by
  cases hended : m.ended? with
  | none =>
    refine ⟨h.config, h.doubling, fun k => ?_⟩
    rw [Moment.results_concat, hended]
    exact (h.failures k).trans (congrArg _ (List.append_nil _).symm)
  | some e =>
    obtain ⟨k', result⟩ := e
    refine ⟨(Limiter.config_heed l k' result).trans h.config, h.doubling.heed k' result,
      fun k => ?_⟩
    rw [Moment.results_concat, hended]
    refine (Limiter.failures_heed l k' k result).trans ?_
    by_cases hk : k = k'
    · subst hk
      simp [Sync.streak_concat, h.failures]
    · simp [hk, Ne.symm hk, h.failures]

/-- At every moment of a run the limiter remembers the passes until then. -/
theorem Trace.remembered (trace : Trace (fresh config metrics caches store) past s) :
    Remembered config.backoff past s.controller.queue.limiter := by
  induction trace with
  | start => exact ⟨rfl, Limiter.doubling_empty _, fun k => rfl⟩
  | @step past s' a trace enabled ih =>
    rw [limiter_next]
    exact ih.next ⟨s', a⟩

/-- Shutdown is final. -/
theorem Trace.closed (trace : Trace s past s') (hs : s.controller.Staffed)
    (h : s.controller.queue.keys.closed = true) : s'.controller.queue.keys.closed = true :=
  Run.preserves (P := fun w => w.keys.closed = true)
    (run_iff_exists_trace.mpr ⟨past, trace⟩) hs (fun _ step => step.closed) h

/-- **Awaited keys are not lost.** A key is awaited until a worker takes it. -/
theorem Trace.awaits {r : Requeue} (trace : Trace s past s') (hs : s.controller.Staffed)
    (hr : s.work.Awaits r) (untaken : ∀ m ∈ past, m.taken? ≠ some r.key)
    (hopen : s'.controller.queue.keys.closed = false) : s'.work.Awaits r := by
  induction trace with
  | start => exact hr
  | @step past s' a trace enabled ih =>
    have staffed := (run_iff_exists_trace.mpr ⟨past, trace⟩).staffed hs
    have step := step_work staffed enabled
    have hbefore : s'.controller.queue.keys.closed = false :=
      Bool.eq_false_iff.mpr fun hclosed => Bool.eq_false_iff.mp hopen (step.closed hclosed)
    have awaits := ih (fun m hm => untaken m (List.mem_append_left _ hm)) hbefore
    refine step.awaits hopen (fun worker keys ha take => ?_) awaits
    refine untaken ⟨s', a⟩ (by simp) ?_
    have hand : s'.controller.queue.keys.hand = (.key r.key, keys) := KeyQueue.hand_of_take? take
    simp only [Moment.taken?, ha, WorkQueue.polled_poll, hand, Polled.key?]

/-- What a controller remembers and owes of keys that have failed, if it began with some delays. -/
structure Retrying (config : BackoffConfig) (past : List Moment) (s : System) : Prop where
  /-- The failures of a key are those in a row. -/
  failures : ∀ k, s.controller.queue.failures k = Sync.streak (results k past)
  /-- Until shutdown a key that fails for the `n`-th time in a row is added again after the first
  delay doubled `n - 1` times, or after the largest delay. -/
  backoff : ∀ {before m after k fault}, past = before ++ m :: after →
    m.ended? = some (k, .error fault) → fault.action = .requeueWithBackoff →
    m.system.controller.queue.keys.closed = false →
    ∀ n, Sync.streak (results k (before ++ [m])) = n →
      m.Schedules k (some (min (config.base * 2 ^ (n - 1)) config.max))
  /-- Until shutdown a key whose pass has met a cold cache is added again after a second. -/
  cold : ∀ {m k kind}, m ∈ past → m.ended? = some (k, .error (.cacheNotSynced kind)) →
    m.system.controller.queue.keys.closed = false → m.Schedules k (some 1000)
  /-- A key whose failures are cleared is not added again. -/
  settled : ∀ {m k result}, m ∈ past → m.ended? = some (k, result) → Sync.settled result = true →
    m.Schedules k none
  /-- Until shutdown a key that is to be added again is dirty, or is kept for as long as it was
  scheduled, while no worker takes it. -/
  kept : ∀ {before m after k fault}, past = before ++ m :: after →
    m.ended? = some (k, .error fault) → fault.isRetryable = true →
    (∀ m' ∈ after, m'.taken? ≠ some k) → s.controller.queue.keys.closed = false →
    ∃ delay, m.Schedules k (some delay) ∧ (s.controller.queue.keys.dirty.contains k = true ∨
      ⟨m.system.controller.now + delay, k⟩ ∈ s.controller.requeues)

/-- **No failed key is lost.** However long a controller runs and whatever its passes come to, it
counts the failures of every key in a row and adds the key again after the delay for them. -/
theorem retrying_of_trace (trace : Trace (fresh config metrics caches store) past s) :
    Retrying config.backoff past s where
  failures := trace.remembered.failures
  backoff := by
    rintro before m after k fault rfl hended haction hopen n rfl
    have remembered := trace.split.1.remembered
    have scheduled := Moment.schedules_of_ended? hended
    rw [Moment.again?_holding hopen] at scheduled
    have hdelay : m.system.controller.queue.limiter.due k (.error fault) =
        some (config.backoff.delay (Sync.streak (results k before))) := by
      rw [← remembered.failures, ← remembered.config, ← remembered.doubling.next_fst]
      simp only [Limiter.due, haction]
    have hstreak : Sync.streak (results k (before ++ [m])) - 1 =
        Sync.streak (results k before) := by
      simp [Moment.results_concat, hended, Sync.streak_concat, Sync.settled, Sync.retried, haction]
    rw [hstreak]
    rwa [hdelay] at scheduled
  cold := by
    intro m k kind _ hended hopen
    have scheduled := Moment.schedules_of_ended? hended
    rwa [Moment.again?_holding hopen] at scheduled
  settled := by
    intro m k result _ hended hsettled
    have scheduled := Moment.schedules_of_ended? hended
    rwa [Controller.again?, Limiter.due_of_settled hsettled, ite_self] at scheduled
  kept := by
    rintro before m after k fault rfl hended hretryable untaken hopen
    obtain ⟨reached, enabled⟩ := trace.split
    have staffed := (run_iff_exists_trace.mpr ⟨before, reached⟩).staffed
      (staffed_fresh config metrics caches store)
    have staffed' := staffed_next staffed enabled
    -- a queue that is open now was open then
    have hopen' : m.system.controller.queue.keys.closed = false :=
      Bool.eq_false_iff.mpr fun hclosed => Bool.eq_false_iff.mp hopen
        (trace.tail.closed staffed' ((step_work staffed enabled).closed hclosed))
    have hholding := m.closed_holding.trans hopen'
    obtain ⟨delay, hagain⟩ := m.holding.exists_again k hholding hretryable
    have scheduled := Moment.schedules_of_ended? hended
    rw [hagain] at scheduled
    have awaits := scheduled.awaits (m.system.next m.action) hholding
    rw [m.now_holding] at awaits
    exact ⟨delay, scheduled, trace.tail.awaits staffed' awaits untaken hopen⟩

/-- What happens until the pass over a class has failed three times: once because of the store, once
because a cache is said to be cold, and because of the store again. -/
def failing : List Action :=
  [.observe .storageClass (.restarted [sampleClass]), .observe .snapshotClass (.restarted []),
    .observe .provisionerCapability (.restarted [sampleProvisioner]), .start 1,
    .discovered (.ok "v1.29.3"), .turn 0, .fail samplePass (.internal "timeout"), .wait 5,
    .bringBack ⟨5, "fast"⟩, .turn 0,
    .fail samplePass (.cacheNotSynced Kind.classCapability.name), .wait 1005,
    .bringBack ⟨1005, "fast"⟩, .turn 0, .fail samplePass (.internal "timeout")]

/-- The second failure waits twice as long as the first one. -/
theorem retrying_failing : ∃ past s,
    Trace (fresh {} none { capabilities := Cache.markSynced {} } {}) past s ∧
    (results "fast" past).length = 3 ∧ s.controller.queue.failures "fast" = 2 ∧
    s.controller.requeues = [⟨1015, "fast"⟩] ∧ Retrying .standard past s := by
  have computed : ((fresh {} none { capabilities := Cache.markSynced {} } {}).follow failing).map
      (·.controller.requeues) = some [⟨1015, "fast"⟩] := by
    decide +kernel
  have ended : ∀ past,
      past = (fresh {} none { capabilities := Cache.markSynced {} } {}).moments failing →
      (results "fast" past).length = 3 ∧ Sync.streak (results "fast" past) = 2 := by
    rintro _ rfl
    decide +kernel
  obtain ⟨s, hfollow, hrequeues⟩ := Option.map_eq_some_iff.mp computed
  have trace := trace_of_follow hfollow
  have retrying := retrying_of_trace trace
  obtain ⟨hthree, htwo⟩ := ended _ rfl
  exact ⟨_, s, trace, hthree, (retrying.failures "fast").trans htwo, hrequeues, retrying⟩

end System

end StorageFeatures
