import StorageFeatures.Proofs.Controller.Conflicts
import StorageFeatures.Proofs.Controller.Trace
import Mathlib.Algebra.BigOperators.Group.List.Basic
import Mathlib.Algebra.Ring.Nat

/-!
# The accounts of a controller

The metrics of a controller are written in two places: the end of a pass counts how it has ended,
counts whether its key is retried and takes a sample; and an event that adds a key counts it.

`Controller.Books` says what a step does to these counters, given how the pass has ended that ends
in it: nobody else counts. Read along a trace that makes the metrics a record of the verdicts
(`Moment.verdicts`), and of the writes that have landed, since a pass that comes to an outcome has
made the write of that outcome (`System.landed_next`). The main result is
`System.accounted_of_trace`. The gauge of the queue is not accounted for: whoever adds or releases a
key looks at the queue first and sets the gauge later, with no lock around the two.
-/

namespace StorageFeatures

open Resource (displayName)

/-! ### How passes are counted -/

namespace Sync

/-- The label under which a pass is counted. -/
def label : Except Fault Outcome → String
  | .ok outcome => outcome.name
  | .error _ => "error"

/-- The labels of all passes. -/
def labels : List String := Outcome.all.map Outcome.name ++ ["error"]

/-- Whether a pass has failed. -/
def failed : Except Fault Outcome → Bool
  | .ok _ => false
  | .error _ => true

/-- Whether a pass has failed in a way that calls for another one after a growing delay. -/
def retried : Except Fault Outcome → Bool
  | .ok _ => false
  | .error fault => fault.action = .requeueWithBackoff

/-- The write that a pass has made if it comes to an outcome. -/
def Outcome.writeKind? : Outcome → Option WriteKind
  | created => some .createCapability
  | updated => some .updateCapability
  | deleted => some .deleteCapability
  | unchanged | skipped => none

/-- A pass has one label. -/
theorem sum_label (result : Except Fault Outcome) :
    (labels.map fun l => if label result = l then 1 else 0).sum = 1 := by
  cases result with
  | ok outcome => cases outcome <;> decide
  | error fault =>
    show (labels.map fun l => if "error" = l then 1 else 0).sum = 1
    decide

/-- Every pass is counted under one label. -/
theorem sum_labels (results : List (Except Fault Outcome)) :
    (labels.map fun l => results.countP (label · = l)).sum = results.length := by
  induction results with
  | nil => rfl
  | cons result results ih =>
    simp only [List.countP_cons, List.sum_map_add, ih, decide_eq_true_eq, sum_label,
      List.length_cons]

/-- No outcome is called an error. -/
theorem label_eq_error_iff (result : Except Fault Outcome) :
    label result = "error" ↔ failed result = true := by
  cases result with
  | ok outcome => cases outcome <;> decide
  | error fault => exact iff_of_true rfl rfl

variable {call : StoreCall} {k : String} {outcome : Outcome} {kind : WriteKind}

/-- No outcome bears the label of the errors. -/
theorem label_error_ne_name (fault : Fault) (outcome : Outcome) :
    label (.error fault) ≠ outcome.name := by
  show "error" ≠ outcome.name
  cases outcome <;> decide

/-- A pass whose write has succeeded comes to the outcome of that write. -/
theorem label_conclude_ok (concerns : call.Concerns k) (houtcome : outcome.writeKind? = some kind) :
    label (conclude call (.ok ())) = outcome.name ↔ call.writeKind? = some kind := by
  cases outcome <;> cases houtcome <;> cases call <;> first
    | exact concerns.elim
    | simp [conclude, label, Outcome.name, StoreCall.writeKind?]

/-- A pass whose write has failed does not come to the outcome of a write. -/
theorem label_conclude_error (call : StoreCall) (fault : Fault)
    (houtcome : outcome.writeKind? = some kind) :
    label (conclude call (.error fault)) ≠ outcome.name := by
  cases call with
  | deleteCapability n =>
    unfold conclude label
    dsimp only
    split <;> cases outcome <;> cases houtcome <;> decide
  | _ => exact label_error_ne_name fault outcome

/-- A pass that ends at once does not come to the outcome of a write. -/
theorem label_of_verdict? {caches : Caches} {result : Except Fault Outcome}
    (h : verdict? caches k = some result) (houtcome : outcome.writeKind? = some kind) :
    label result ≠ outcome.name := by
  unfold verdict? at h
  split at h
  · obtain rfl := Option.some.inj h
    exact label_error_ne_name _ outcome
  · rename_i d _
    split at h
    · rename_i hcall
      obtain rfl := Option.some.inj h
      cases d <;> cases hcall <;> cases outcome <;> cases houtcome <;>
        simp [label, Decision.outcome, Outcome.name]
    · cases h

/-- Only writes of capabilities of classes are asked for. -/
theorem exists_concerns_of_ask {caches : Caches} (h : ask caches k = some call) :
    ∃ n, call.Concerns n := by
  unfold ask at h
  split at h
  · obtain ⟨_, -, rfl⟩ := Option.map_eq_some_iff.mp h
    exact ⟨k, rfl⟩
  · split at h
    · cases h
    · split at h
      · cases h
      · unfold askServed at h
        split at h
        · cases h
          exact ⟨_, rfl⟩
        · split at h
          · split at h <;> cases h
            exact ⟨_, rfl⟩
          · cases h

end Sync

/-! ### What a step does to the metrics -/

/-- The metrics after some passes have ended. -/
structure Metrics.Counted (m : Metrics) (results : List (Except Fault Sync.Outcome))
    (m' : Metrics) : Prop where
  reconcile : ∀ label, m'.countOf .reconcile label =
    m.countOf .reconcile label + results.countP (Sync.label · = label)
  samples : m'.durations.count = m.durations.count + results.length
  retries : m'.queueRetries = m.queueRetries + results.countP Sync.retried

namespace Metrics.Counted

variable {m m' m'' : Metrics} {results results' : List (Except Fault Sync.Outcome)}

/-- Without a pass nothing is counted. -/
theorem refl (m : Metrics) : m.Counted [] m := ⟨fun _ => rfl, rfl, rfl⟩

/-- What is counted of two stretches is counted of both together. -/
theorem trans (h : m.Counted results m') (h' : m'.Counted results' m'') :
    m.Counted (results ++ results') m'' := by
  refine ⟨fun label => ?_, ?_, ?_⟩
  · rw [h'.reconcile, h.reconcile, List.countP_append, Nat.add_assoc]
  · rw [h'.samples, h.samples, List.length_append, Nat.add_assoc]
  · rw [h'.retries, h.retries, List.countP_append, Nat.add_assoc]

end Metrics.Counted

namespace Controller

variable {c c' c'' : Controller} {results results' : List (Except Fault Sync.Outcome)}

/-- What happens to the metrics while some passes end. -/
def Books (c : Controller) (results : List (Except Fault Sync.Outcome)) (c' : Controller) : Prop :=
  ∀ m, c.metrics = some m → ∃ m', c'.metrics = some m' ∧ m.Counted results m'

theorem metrics_defer (c : Controller) (k : String) (r : WorkQueue Getter × Option Nat) :
    (c.defer k r).metrics = c.metrics := by
  obtain ⟨queue, delay⟩ := r
  cases delay <;> rfl

namespace Books

theorem refl (c : Controller) : c.Books [] c := fun m hm => ⟨m, hm, .refl m⟩

theorem trans (h : c.Books results c') (h' : c'.Books results' c'') :
    c.Books (results ++ results') c'' := by
  intro m hm
  obtain ⟨m', hm', hcounted⟩ := h m hm
  obtain ⟨m'', hm'', hcounted'⟩ := h' m' hm'
  exact ⟨m'', hm'', hcounted.trans hcounted'⟩

/-- A step that does not touch the metrics. -/
theorem of_same (metrics : c'.metrics = c.metrics) : c.Books [] c' :=
  fun m hm => ⟨m, metrics.trans hm, .refl m⟩

/-- What happens after such a step. -/
theorem after_same (metrics : c'.metrics = c.metrics) (h : c'.Books results c'') :
    c.Books results c'' :=
  (of_same metrics).trans h

/-- A key that is added counts for no pass. -/
theorem enqueue (c : Controller) (k : String) : c.Books [] (c.enqueue k) := by
  intro m hm
  simp only [Controller.enqueue, countMetrics, hm, Option.map_some]
  exact ⟨_, rfl, fun _ => rfl, rfl, rfl⟩

/-- Routing events counts no pass, however many keys it adds. -/
theorem routeAll {α : Type} [Watched α] (c : Controller) (events : List (Event α)) :
    c.Books [] (events.foldl Controller.route c) := by
  have enqueued : ∀ (ks : List String) (c : Controller),
      c.Books [] (ks.foldl Controller.enqueue c) := by
    intro ks
    induction ks with
    | nil => exact refl
    | cons k ks ih => exact fun c => (enqueue c k).trans (ih _)
  induction events generalizing c with
  | nil => exact refl c
  | cons e events ih => exact (enqueued _ c).trans (ih _)

/-- A look at the caches counts nothing. -/
theorem pollCaches (c : Controller) (workers : Nat) (deadline : Option Nat) :
    c.Books [] (c.pollCaches workers deadline) := by
  obtain ⟨_, _, _, _, hlook⟩ := c.pollCaches_eq workers deadline
  rw [hlook]
  exact of_same rfl

theorem discovered (c : Controller) (reported : Except Fault String) :
    c.Books [] (c.discovered reported) := by
  unfold Controller.discovered
  split
  · split
    · exact of_same rfl
    · exact pollCaches c _ _
  · exact refl c

theorem poll (c : Controller) : c.Books [] c.poll := by
  unfold Controller.poll
  split
  · exact pollCaches c _ _
  · exact refl c

theorem cancel (c : Controller) : c.Books [] c.cancel := by
  unfold Controller.cancel
  dsimp only
  split
  · exact of_same rfl
  · rw [drain_eq]
    exact of_same rfl
  · exact of_same rfl

/-- **The end of a pass.** It is counted under its label, it is counted again if its key is
retried, and it leaves a sample. -/
theorem finish (c : Controller) (worker : Nat) (k : String) (result : Except Fault Sync.Outcome) :
    c.Books [result] (c.finish worker k result) := by
  -- the label and the retry are counted before the duration is observed
  have recorded : ∀ m, c.metrics = some m → ∃ m', (c.record k result).metrics = some m' ∧
      (∀ label, m'.countOf .reconcile label =
        m.countOf .reconcile label + [result].countP (Sync.label · = label)) ∧
      m'.durations = m.durations ∧
      m'.queueRetries = m.queueRetries + [result].countP Sync.retried := by
    intro m hm
    have one : ∀ label, (m.increment .reconcile (Sync.label result)).countOf .reconcile label =
        m.countOf .reconcile label + [result].countP (Sync.label · = label) := by
      intro label
      rw [Metrics.increment, Metrics.countOf_add]
      simp [List.countP_singleton, eq_comm]
    cases result with
    | ok outcome =>
      simp only [record, countMetrics, hm, Option.map_some]
      exact ⟨_, rfl, one, rfl, rfl⟩
    | error fault =>
      have counted : (c.countMetrics (·.increment .reconcile "error")).metrics =
          some (m.increment .reconcile "error") := congrArg (Option.map _) hm
      unfold record retry
      simp only
      split
      · rename_i haction
        refine ⟨_, congrArg (Option.map _) ((metrics_defer _ k _).trans counted), one, rfl, ?_⟩
        simp [Sync.retried, haction, Metrics.increment, Metrics.add]
      · rename_i haction
        refine ⟨_, (metrics_defer _ k _).trans counted, one, rfl, ?_⟩
        simp [Sync.retried, haction, Metrics.increment, Metrics.add]
      · rename_i haction
        refine ⟨_, counted, one, rfl, ?_⟩
        simp [Sync.retried, haction, Metrics.increment, Metrics.add]
  intro m hm
  obtain ⟨m', hm', hreconcile, hdurations, hretries⟩ := recorded m hm
  simp only [Controller.finish, countMetrics, hm', Option.map_some]
  refine ⟨_, rfl, fun label => ?_, ?_, hretries⟩
  · show (m'.reconcile.get? label).getD 0 = _
    exact hreconcile label
  · rw [Histogram.count_observe, hdurations]
    rfl

/-- The turn of a worker counts the pass that it settles without a write, and no other. -/
theorem turn (c : Controller) (worker : Nat) :
    c.Books ((c.queue.poll (.worker worker)).2.key?.bind (Sync.verdict? c.caches)).toList
      (c.turn (.worker worker)).1 := by
  have turned := c.turn_worker worker
  generalize (c.turn (.worker worker)).1 = c' at turned ⊢
  cases turned with
  | sleeps h =>
    rw [h]
    exact of_same rfl
  | leaves h =>
    rw [h, settleExit_eq]
    exact of_same rfl
  | settles h verdict =>
    rw [h]
    simp only [Polled.key?, Option.bind_some, verdict]
    exact finish (c.polled worker) worker _ _
  | begins h verdict =>
    rw [h]
    simp only [Polled.key?, Option.bind_some, verdict]
    exact of_same rfl

end Books

end Controller

/-! ### What a write does to the capabilities -/

namespace MemoryStore

variable {call : StoreCall} {k : String}

/-- A creation makes room for one more capability, and a deletion takes one away. -/
theorem size_perform (store : MemoryStore) (caches : Caches) (concerns : call.Concerns k) :
    let r := store.perform caches call
    let landed := if r.2.2.toOption.isSome then [call] else []
    r.2.1.capabilities.objects.size + landed.countP (·.writeKind? = some .deleteCapability) =
      caches.capabilities.objects.size +
        landed.countP (·.writeKind? = some .createCapability) := by
  cases call with
  | createCapability a =>
    by_cases hfree : (Watched.cache caches : Cache ClassCapability).peek (displayName a) = none
    · have hsize :=
        NameMap.size_insert caches.capabilities.objects (displayName a) (store.created a)
      rw [show caches.capabilities.objects.get? (displayName a) = none from hfree] at hsize
      rw [perform, create_of_free store hfree]
      exact hsize
    · rw [perform, create_of_taken store hfree]
      rfl
  | updateCapability a =>
    by_cases hfree : (Watched.cache caches : Cache ClassCapability).peek (displayName a) = none
    · rw [perform, update_of_absent store hfree]
      rfl
    · obtain ⟨old, hold⟩ := Option.ne_none_iff_exists'.mp hfree
      have hsize :=
        NameMap.size_insert caches.capabilities.objects (displayName a) (store.updated a)
      rw [show caches.capabilities.objects.get? (displayName a) = some old from hold] at hsize
      rw [perform, update_of_present store hfree]
      exact Nat.succ.inj hsize
  | deleteCapability n =>
    have hsize := NameMap.size_erase caches.capabilities.objects n
    cases hold : caches.capabilities.peek n with
    | none =>
      rw [perform, delete_of_absent store hold]
      rfl
    | some old =>
      rw [show caches.capabilities.objects.get? n = some old from hold] at hsize
      rw [perform, delete_of_present store hold]
      exact hsize
  | _ => exact concerns.elim

/-- A call for which a fault is laid out does not land and changes nothing; any other one changes the
number of capabilities as it should. -/
theorem size_run (store : MemoryStore) (caches : Caches) (concerns : call.Concerns k) :
    let r := store.run caches call
    let landed := if r.2.2.toOption.isSome then [call] else []
    r.2.1.capabilities.objects.size + landed.countP (·.writeKind? = some .deleteCapability) =
      caches.capabilities.objects.size +
        landed.countP (·.writeKind? = some .createCapability) := by
  rcases run_cases caches call store with ⟨_, _, -, hrun⟩ | ⟨store', -, hrun⟩
  · rw [hrun]
    rfl
  · rw [hrun]
    exact size_perform store' caches concerns

end MemoryStore

/-! ### The number of capabilities -/

namespace Work

/-- Open passes write capabilities of classes. -/
def WritesCapabilities (w : Work) : Prop := ∀ pass ∈ w.passes, ∃ k, pass.call.Concerns k

/-- The number of capabilities is the one of the beginning, with those that were created and
without those that were deleted. -/
def Sized (n : Nat) (w : Work) : Prop :=
  w.caches.capabilities.objects.size + w.landed.countP (·.writeKind? = some .deleteCapability) =
    n + w.landed.countP (·.writeKind? = some .createCapability)

variable {w w' : Work} {a : Action} {n : Nat}

/-- Every pass that is begun writes the capability of its key. -/
theorem Step.writesCapabilities (step : Step w a w') (h : w.WritesCapabilities) :
    w'.WritesCapabilities := by
  intro pass hp
  rcases step.passes hp with hold | hask
  · exact h pass hold
  · exact Sync.exists_concerns_of_ask hask

/-- A write that lands changes the number of capabilities by what it is counted for. -/
theorem Step.sized (step : Step w a w') (ok : a.SparesCapabilities)
    (writes : w.WritesCapabilities) (h : w.Sized n) : w'.Sized n := by
  unfold Sized at h ⊢
  cases step with
  | observe k change =>
    cases k with
    | classCapability => exact absurd rfl ok
    | _ => exact h
  | resync | add | bringBack | inject | idle | close | begin => exact h
  | settle take synced ask ended | fail pass mem ended owes =>
    rw [ended.caches, ended.landed]
    exact h
  | land pass mem run ended =>
    obtain ⟨k, concerns⟩ := writes pass mem
    have hsize := MemoryStore.size_run w.store w.caches concerns
    rw [run] at hsize
    rw [ended.caches, ended.landed, List.countP_append, List.countP_append]
    dsimp only at hsize ⊢
    omega

end Work

/-! ### Accounts -/

namespace Moment

/-- How the passes have ended that end in some moments, in order. -/
def verdicts (moments : List Moment) : List (Except Fault Sync.Outcome) :=
  moments.filterMap verdict?

theorem verdicts_concat (moments : List Moment) (m : Moment) :
    verdicts (moments ++ [m]) = verdicts moments ++ m.verdict?.toList := by
  rw [verdicts, List.filterMap_append, List.filterMap_cons]
  cases m.verdict? <;> rfl

end Moment

namespace System

open Moment (verdicts)

variable {s s' : System} {a : Action} {past : List Moment}

/-- **Nothing else is counted.** -/
theorem books_next (s : System) (a : Action) :
    s.controller.Books (Moment.mk s a).verdict?.toList (s.next a).controller := by
  -- a pass ends beside its answer, which does not concern the metrics
  have ended : ∀ {c : Controller} (worker : Nat) (k : String) (result : Except Fault Sync.Outcome),
      c.metrics = s.controller.metrics →
        s.controller.Books [result] (c.finish worker k result) :=
    fun worker k result hmetrics => .after_same hmetrics (.finish _ worker k result)
  cases a with
  | observe k change =>
    refine .after_same ?_ (.routeAll _ _)
    rfl
  | resync k => exact .routeAll _ _
  | add k => exact .enqueue _ k
  | bringBack | wait | inject | start => exact .of_same rfl
  | turn worker => exact .turn _ worker
  | land pass | fail pass fault => exact ended _ _ _ rfl
  | discovered reported => exact .discovered _ reported
  | poll => exact .poll _
  | cancel => exact .cancel _

/-- A run counts the verdicts of its passes and nothing else. -/
theorem Trace.books (trace : Trace s past s') :
    s.controller.Books (verdicts past) s'.controller := by
  induction trace with
  | start => exact .refl _
  | @step past s' a trace enabled ih =>
    rw [Moment.verdicts_concat]
    exact ih.trans (books_next s' a)

/-- The writes of a kind that have landed are the passes that have come to its outcome. -/
theorem landed_next (h : s.work.WritesCapabilities) (enabled : s.Enabled a) {outcome : Sync.Outcome}
    {kind : WriteKind} (houtcome : outcome.writeKind? = some kind) :
    (s.next a).landed.countP (·.writeKind? = some kind) =
      s.landed.countP (·.writeKind? = some kind) +
        (Moment.mk s a).verdict?.toList.countP (Sync.label · = outcome.name) := by
  cases a with
  | turn worker =>
    cases hv : (Moment.mk s (.turn worker)).verdict? with
    | none => rfl
    | some result =>
      obtain ⟨k, -, hverdict⟩ := Option.bind_eq_some_iff.mp hv
      -- a pass that ends at its look bears the label of no write
      have hne := Sync.label_of_verdict? hverdict houtcome
      simp [next, withController, hne]
  | land pass =>
    obtain ⟨n, concerns⟩ := h pass enabled
    show (s.landed ++ if (s.store.run s.controller.caches pass.call).2.2.toOption.isSome
      then [pass.call] else []).countP _ = _ + [_].countP _
    rw [List.countP_append, List.countP_singleton]
    cases (s.store.run s.controller.caches pass.call).2.2 with
    | ok answer =>
      have hlabel := Sync.label_conclude_ok concerns houtcome
      simp [Except.map, Except.toOption, List.countP_singleton, hlabel]
    | error fault =>
      have hlabel := Sync.label_conclude_error pass.call fault houtcome
      simp [Except.map, Except.toOption, hlabel]
  | fail pass fault =>
    have hlabel := Sync.label_conclude_error pass.call fault houtcome
    show s.landed.countP _ = _ + [_].countP _
    simp [hlabel]
  | _ => rfl

variable {config : ControllerConfig} {caches : Caches} {store : MemoryStore}

theorem Trace.writesCapabilities (trace : Trace s past s') (hs : s.controller.Staffed)
    (h : s.work.WritesCapabilities) : s'.work.WritesCapabilities :=
  Run.preserves (run_iff_exists_trace.mpr ⟨past, trace⟩) hs
    (fun _ step hw => step.writesCapabilities hw) h

/-- The writes of a kind that land in a run are as many as the passes with their outcome. -/
theorem Trace.landed (trace : Trace s past s') (hs : s.controller.Staffed)
    (h : s.work.WritesCapabilities) {outcome : Sync.Outcome} {kind : WriteKind}
    (houtcome : outcome.writeKind? = some kind) :
    s'.landed.countP (·.writeKind? = some kind) =
      s.landed.countP (·.writeKind? = some kind) +
        (verdicts past).countP (Sync.label · = outcome.name) := by
  induction trace with
  | start => rfl
  | step trace enabled ih =>
    rw [landed_next (trace.writesCapabilities hs h) enabled houtcome, ih,
      Moment.verdicts_concat, List.countP_append, Nat.add_assoc]

/-- While no watch reports a change of a capability, only passes change how many there are. -/
theorem Trace.sized (trace : Trace s past s') (hs : s.controller.Staffed)
    (h : s.work.WritesCapabilities) {n : Nat} (hn : s.work.Sized n)
    (spared : ∀ m ∈ past, m.action.SparesCapabilities) : s'.work.Sized n := by
  induction trace with
  | start => exact hn
  | @step past s' a trace enabled ih =>
    have hstaffed := Run.staffed (run_iff_exists_trace.mpr ⟨past, trace⟩) hs
    exact (step_work hstaffed enabled).sized (spared ⟨s', a⟩ (by simp))
      (trace.writesCapabilities hs h) (ih fun m hm => spared m (List.mem_append_left _ hm))

/-- What the metrics of a controller say about what has happened since it began with some
caches. -/
structure Accounted (caches : Caches) (past : List Moment) (s : System) (m : Metrics) : Prop where
  /-- Each pass that has ended is counted under one of the six labels. -/
  total : (Sync.labels.map (m.countOf .reconcile)).sum = (verdicts past).length
  samples : m.durations.count = (verdicts past).length
  /-- A pass that was begun has ended or is open. -/
  ended : (verdicts past).length + s.controller.passes.length = (Moment.takenKeys past).length
  created : m.countOf .reconcile "created" =
    s.landed.countP (·.writeKind? = some .createCapability)
  updated : m.countOf .reconcile "updated" =
    s.landed.countP (·.writeKind? = some .updateCapability)
  deleted : m.countOf .reconcile "deleted" =
    s.landed.countP (·.writeKind? = some .deleteCapability)
  errors : m.countOf .reconcile "error" = (verdicts past).countP Sync.failed
  retries : m.queueRetries = (verdicts past).countP Sync.retried
  /-- The capabilities are the first ones and those that were created, without those that were
  deleted. -/
  size : (∀ moment ∈ past, moment.action.SparesCapabilities) →
    s.controller.caches.capabilities.objects.size + m.countOf .reconcile "deleted" =
      caches.capabilities.objects.size + m.countOf .reconcile "created"

/-- **The counters are exact.** Whatever happens to a controller with metrics, they tell how many
passes have ended, how these have ended, and which writes they have made. -/
theorem accounted_of_trace (trace : Trace (fresh config (some .fresh) caches store) past s) :
    ∃ m, s.controller.metrics = some m ∧ Accounted caches past s m := by
  have hs := staffed_fresh config (some .fresh) caches store
  have writes : (fresh config (some .fresh) caches store).work.WritesCapabilities :=
    fun pass hp => absurd hp List.not_mem_nil
  obtain ⟨m, hm, counted⟩ := trace.books .fresh rfl
  have reconcile : ∀ label, m.countOf .reconcile label =
      (verdicts past).countP (Sync.label · = label) :=
    fun label => (counted.reconcile label).trans (Nat.zero_add _)
  have landed : ∀ {outcome : Sync.Outcome} {kind : WriteKind}, outcome.writeKind? = some kind →
      m.countOf .reconcile outcome.name = s.landed.countP (·.writeKind? = some kind) :=
    fun houtcome => (reconcile _).trans
      ((trace.landed hs writes houtcome).trans (Nat.zero_add _)).symm
  have created := @landed .created _ rfl
  have deleted := @landed .deleted _ rfl
  refine ⟨m, hm, ?_, ?_, ?_, created, @landed .updated _ rfl, deleted, ?_, ?_, ?_⟩
  · rw [List.map_congr_left fun label _ => reconcile label]
    exact Sync.sum_labels (verdicts past)
  · exact counted.samples.trans (Nat.zero_add _)
  · rw [verdicts, List.length_filterMap_eq_countP, trace.passes]
    exact Nat.zero_add _
  · rw [reconcile]
    exact List.countP_congr fun result _ => by
      rw [decide_eq_true_iff, Sync.label_eq_error_iff]
  · exact counted.retries.trans (Nat.zero_add _)
  · intro spared
    have sized : s.work.Sized caches.capabilities.objects.size := trace.sized hs writes rfl spared
    exact (congrArg _ deleted).trans (sized.trans (congrArg _ created.symm))

/-- What happens until a capability was created at the second attempt and is deleted. -/
def retrying : List Action :=
  [.observe .storageClass (.restarted [sampleClass]), .observe .snapshotClass (.restarted []),
    .observe .provisionerCapability (.restarted [sampleProvisioner]), .start 1,
    .discovered (.ok "v1.29.3"), .turn 0, .fail samplePass (.internal "timeout"), .wait 5,
    .bringBack ⟨5, "fast"⟩, .turn 0, .land samplePass,
    .observe .storageClass (.deleted sampleClass), .turn 0,
    .land ⟨0, "fast", .deleteCapability "fast"⟩]

/-- In a run whose first write fails, both the error and the creation after it are counted. -/
theorem accounted_retrying : ∃ past s m,
    Trace (fresh {} (some .fresh) { capabilities := Cache.markSynced {} } {}) past s ∧
    s.controller.metrics = some m ∧ m.countOf .reconcile "created" = 1 ∧
    m.countOf .reconcile "deleted" = 1 ∧ m.countOf .reconcile "error" = 1 ∧
    Accounted { capabilities := Cache.markSynced {} } past s m := by
  have computed : ((fresh {} (some .fresh) { capabilities := Cache.markSynced {} } {}).follow
      retrying).map (·.landed.map (·.writeKind?)) =
        some [some .createCapability, some .deleteCapability] := by
    decide +kernel
  have failed : (verdicts ((fresh {} (some .fresh)
      { capabilities := Cache.markSynced {} } {}).moments retrying)).countP Sync.failed = 1 := by
    decide +kernel
  obtain ⟨s, hfollow, hlanded⟩ := Option.map_eq_some_iff.mp computed
  have trace := trace_of_follow hfollow
  obtain ⟨m, hm, accounted⟩ := accounted_of_trace trace
  have landed : ∀ kind, s.landed.countP (·.writeKind? = some kind) =
      [some WriteKind.createCapability, some .deleteCapability].countP (· = some kind) := by
    intro kind
    rw [← hlanded, List.countP_map]
    rfl
  refine ⟨_, s, m, trace, hm, ?_, ?_, accounted.errors.trans failed, accounted⟩
  · exact accounted.created.trans (landed _)
  · exact accounted.deleted.trans (landed _)

end System

end StorageFeatures
