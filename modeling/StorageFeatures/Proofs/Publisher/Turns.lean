import StorageFeatures.Proofs.Store.Frame
import StorageFeatures.Publisher.Basic

/-!
# What a publisher owes

A publisher is asked to publish again and again, of a plugin that answers differently every time
or not at all, into a store that may fail. `Publisher.Faithful` says what it owes at each time, and
`Publisher.faithful_of_turns` that it owes it after any history.

The calls on the store are part of the statement. They are seen by giving the same code a store
that writes them down (`CapabilityStore.traced`), which changes nothing else
(`Publish.sync_traced`). How one publication can go is said once, in `Publisher.Course`; all that
is owed at one time is read off from there.
-/

namespace StorageFeatures

open Csi (Client)
open Resource (displayName)
open Publish (Outcome)

/-! ### What a probe finds -/

namespace Probe

section Finish

variable {client : Client} {p q : Probe}

theorem finish_of_error {fault : Fault} (h : (client p.method).bind p.take = .error fault) :
    finish client p = ([p.method], .error fault) := by
  rw [finish]
  split <;> simp_all

theorem finish_of_done {c : ProvisionerCapability}
    (h : (client p.method).bind p.take = .ok (.done c)) :
    finish client p = ([p.method], .ok c) := by
  rw [finish]
  split <;> simp_all

theorem finish_of_call (h : (client p.method).bind p.take = .ok (.call q)) :
    finish client p = (p.method :: (finish client q).1, (finish client q).2) := by
  rw [finish]
  split <;> simp_all

end Finish

/-- A plugin that has a name and answers all calls is asked all of them. -/
theorem run_eq_of_answers {answers : Csi.Answers} (h : answers.identity.name.isEmpty = false) :
    run (fun m => .ok (answers.get m)) = (Csi.Method.all, .ok (.ofAnswers answers)) := by
  have hinfo : pluginInfo.take answers.identity =
      .ok (.call (.pluginCapabilities answers.identity)) := by
    simp [take, h]
  have hcall : finish (fun m => .ok (answers.get m)) pluginInfo = _ := finish_of_call hinfo
  rw [run, hcall, finish_of_call rfl, finish_of_call rfl, finish_of_done rfl]
  rfl

/-- Then it is probed. -/
theorem run_of_answers {answers : Csi.Answers} (h : answers.identity.name.isEmpty = false) :
    (run fun m => .ok (answers.get m)).2 = .ok (.ofAnswers answers) :=
  congrArg Prod.snd (run_eq_of_answers h)

/-- The last answer completes the capability. -/
theorem eq_ofAnswers_of_take {q : Probe} {answer : q.method.Answer} {c : ProvisionerCapability}
    (h : q.take answer = .ok (.done c)) : ∃ answers, c = .ofAnswers answers := by
  cases q with
  | pluginInfo =>
    simp only [take] at h
    split at h <;> cases h
  | pluginCapabilities | controllerCapabilities => cases h
  | nodeCapabilities =>
    cases h
    exact ⟨_, rfl⟩

/-- A probe that ends well has made its capability from answers. -/
theorem eq_ofAnswers_of_finish {client : Client} {q : Probe} {c : ProvisionerCapability}
    (h : (finish client q).2 = .ok c) : ∃ answers, c = .ofAnswers answers := by
  fun_induction finish client q with
  | case1 => cases h
  | case2 q capability hcall =>
    cases h
    cases hanswer : client q.method with
    | error fault => simp [hanswer, Except.bind] at hcall
    | ok answer => exact eq_ofAnswers_of_take (by simpa [hanswer, Except.bind] using hcall)
  | case3 q q' hcall calls result hfinish ih =>
    rw [hfinish] at ih
    exact ih h

/-- A capability that was probed has the name of its plugin. -/
theorem displayName_of_run {client : Client} {c : ProvisionerCapability}
    (h : (run client).2 = .ok c) : displayName c = c.pluginName := by
  obtain ⟨answers, rfl⟩ := eq_ofAnswers_of_finish h
  rfl

end Probe

/-! ### Calls that are written down -/

/-- A store beside a list of the calls it got. -/
def CapabilityStore.traced {m : Type → Type} [Monad m] (store : CapabilityStore m) :
    CapabilityStore (StateT (List StoreCall) m) := fun call => do
  modify (· ++ [call])
  store call

namespace Publish

/-- Nothing but the list depends on whether calls are written down. -/
theorem sync_traced {m : Type → Type} [Monad m] [LawfulMonad m] (store : CapabilityStore m)
    (expected : Option String) (probed : Except Fault ProvisionerCapability)
    (calls : List StoreCall) :
    Prod.fst <$> (sync store.traced expected probed).run calls = sync store expected probed := by
  cases probed with
  | error fault => simp [sync]
  | ok c =>
    simp only [sync]
    cases check expected c with
    | error fault => simp
    | ok _ =>
      simp only [CapabilityStore.traced, StateT.run_bind, map_bind, StateT.run_modify, pure_bind,
        StateT.run_monadLift, monadLift_self, bind_assoc]
      refine bind_congr fun answer => ?_
      cases answer with
      | error fault => simp
      | ok found =>
        dsimp only
        generalize decide c found.provisioner? = decided
        obtain ⟨outcome, _ | call⟩ := decided <;> simp

/-! ### What is decided -/

/-- Only a plugin that does not have the expected name is refused. -/
theorem check_eq_error {expected : Option String} {probed : ProvisionerCapability} {fault : Fault}
    (h : check expected probed = .error fault) :
    ∃ driver, expected = some driver ∧ driver ≠ probed.pluginName ∧
      fault = .driverNameMismatch driver probed.pluginName := by
  cases expected with
  | none => cases h
  | some driver =>
    simp only [check] at h
    split at h
    · cases h
    · rename_i hne
      cases h
      exact ⟨driver, rfl, hne, rfl⟩

section Decide

variable {probed : ProvisionerCapability} {found : Option ProvisionerCapability}
  {outcome : Outcome} {call : StoreCall}

/-- Nothing is written over what was probed. -/
theorem found_of_decide (h : decide probed found = (outcome, none)) :
    ∃ old, found = some old ∧ old.spec = probed.spec := by
  cases found with
  | none => cases h
  | some old =>
    refine ⟨old, rfl, Decidable.byContradiction fun hspec => ?_⟩
    simp [decide, hspec] at h

/-- Only what differs from the probe is written over. -/
theorem spec_ne_of_decide (h : decide probed found = (outcome, some call)) :
    ∀ old, found = some old → old.spec ≠ probed.spec := by
  rintro old rfl hspec
  simp [decide, hspec] at h

/-- A write is about the capability of the plugin. -/
theorem about_of_decide (h : decide probed found = (outcome, some call))
    (named : ∀ old, found = some old → displayName old = displayName probed) :
    call.isWrite = true ∧ call.kind = .provisionerCapability ∧ call.name = displayName probed := by
  cases found with
  | none =>
    cases h
    exact ⟨rfl, rfl, rfl⟩
  | some old =>
    simp only [decide] at h
    split at h
    · cases h
    · cases h
      exact ⟨rfl, rfl, named old rfl⟩

end Decide

end Publish

namespace MemoryStore

variable {s : MemoryStore} {caches : Caches} {probed : ProvisionerCapability} {outcome : Outcome}
  {call : StoreCall}

/-- A write that was decided on is carried out when it meets no fault: the object that is stored
has the name and the spec of the probe, and of an object that was there the metadata. -/
theorem perform_of_decide
    (h : Publish.decide probed (caches.provisioners.peek (displayName probed)) =
      (outcome, some call))
    (named : ∀ old, caches.provisioners.peek (displayName probed) = some old →
      displayName old = displayName probed) :
    ∃ s' a answer, s.perform caches call =
        (s', { caches with provisioners := (caches.provisioners.apply a).1 }, .ok answer) ∧
      displayName a = displayName probed ∧ a.spec = probed.spec ∧
      ∀ old, caches.provisioners.peek (displayName probed) = some old →
        a.metadata = { old.metadata with resourceVersion := a.metadata.resourceVersion } := by
  cases hfound : caches.provisioners.peek (displayName probed) with
  | none =>
    rw [hfound] at h
    cases h
    have hrun := create_of_free s hfound
    refine ⟨_, s.created probed, .provisioner (s.created probed),
      congrArg (answer .provisioner) hrun, rfl, rfl, ?_⟩
    rintro _ ⟨⟩
  | some old =>
    rw [hfound] at h
    simp only [Publish.decide] at h
    split at h
    · cases h
    · cases h
      -- the new object keeps the name, so it replaces the old one
      have hname : displayName { old with spec := probed.spec } = displayName probed :=
        named old hfound
      have hthere : caches.provisioners.peek
          (displayName { old with spec := probed.spec }) ≠ none := by
        simp [hname, hfound]
      have hrun := update_of_present s hthere
      refine ⟨_, s.updated { old with spec := probed.spec },
        .provisioner (s.updated { old with spec := probed.spec }),
        congrArg (answer .provisioner) hrun, hname, rfl, ?_⟩
      rintro _ ⟨⟩
      rfl

end MemoryStore

namespace Publisher

variable {p : Publisher} {probed : Except Fault ProvisionerCapability}

/-! ### How publishing can go -/

/-- A publication whose calls are written down: its result and its calls, and what is stored
then. -/
def trace (p : Publisher) (probed : Except Fault ProvisionerCapability) :
    (Except Fault Outcome × List StoreCall) × MemoryStore × Caches :=
  ((Publish.sync MemoryStore.serve.traced p.driverName probed).run []).run (p.store, p.caches)

/-- The calls that a publication makes on the store. -/
def calls (p : Publisher) (probed : Except Fault ProvisionerCapability) : List StoreCall :=
  (p.trace probed).1.2

/-- Tracing the calls changes neither the result nor what is stored. -/
theorem trace_eq (p : Publisher) (probed : Except Fault ProvisionerCapability) :
    p.trace probed = (((p.publish probed).2, p.calls probed), (p.publish probed).1.store,
      (p.publish probed).1.caches) := by
  have h := congrFun (Publish.sync_traced MemoryStore.serve p.driverName probed [])
    (p.store, p.caches)
  have hresult : (p.trace probed).1.1 = (p.publish probed).2 := congrArg (·.1) h
  have hstored : (p.trace probed).2 =
      ((p.publish probed).1.store, (p.publish probed).1.caches) := congrArg (·.2) h
  rw [← hresult, ← hstored]
  rfl

private theorem run_run_bind {σ τ α β : Type} (x : StateT σ (StateM τ) α)
    (f : α → StateT σ (StateM τ) β) (s : σ) (t : τ) :
    ((x >>= f).run s).run t =
      ((f ((x.run s).run t).1.1).run ((x.run s).run t).1.2).run ((x.run s).run t).2 :=
  rfl

/-- How publishing can go: what was probed, the calls that are made, the result, and what is
stored then. -/
inductive Course (p : Publisher) : Except Fault ProvisionerCapability → List StoreCall →
    Except Fault Outcome → MemoryStore → Caches → Prop where
  | unprobed (fault : Fault) : Course p (.error fault) [] (.error fault) p.store p.caches
  | mismatched {c : ProvisionerCapability} {driver : String} (expected : p.driverName = some driver)
      (other : driver ≠ c.pluginName) :
      Course p (.ok c) [] (.error (.driverNameMismatch driver c.pluginName)) p.store p.caches
  | current {c : ProvisionerCapability} {outcome : Outcome}
      (accepted : Publish.check p.driverName c = .ok ())
      (decided : Publish.decide c (p.stored (displayName c)) = (outcome, none)) :
      Course p (.ok c) [.getProvisioner (displayName c)] (.ok outcome) p.store p.caches
  | faulted {c : ProvisionerCapability} {outcome : Outcome} {call : StoreCall} {fault : Fault}
      (accepted : Publish.check p.driverName c = .ok ())
      (decided : Publish.decide c (p.stored (displayName c)) = (outcome, some call)) :
      Course p (.ok c) [.getProvisioner (displayName c), call] (.error fault)
        (p.store.run p.caches call).1 p.caches
  | written {c : ProvisionerCapability} {outcome : Outcome} {call : StoreCall}
      (accepted : Publish.check p.driverName c = .ok ())
      (decided : Publish.decide c (p.stored (displayName c)) = (outcome, some call))
      (a : ProvisionerCapability) (name : displayName a = displayName c) (spec : a.spec = c.spec)
      (kept : ∀ old, p.stored (displayName c) = some old →
        a.metadata = { old.metadata with resourceVersion := a.metadata.resourceVersion }) :
      Course p (.ok c) [.getProvisioner (displayName c), call] (.ok outcome)
        (p.store.run p.caches call).1
        { p.caches with provisioners := (p.caches.provisioners.apply a).1 }

/-- A publication of an expected plugin: one look-up, and the write that was decided on. -/
theorem trace_of_accepted {c : ProvisionerCapability}
    (accepted : Publish.check p.driverName c = .ok ()) :
    p.trace (.ok c) =
      match Publish.decide c (p.stored (displayName c)) with
      | (outcome, none) => ((.ok outcome, [.getProvisioner (displayName c)]), p.store, p.caches)
      | (outcome, some call) =>
        let (store, caches, answer) := p.store.run p.caches call
        ((answer.map fun _ => outcome, [.getProvisioner (displayName c), call]), store, caches) := by
  have hfound : (((p.stored (displayName c)).map StoreAnswer.provisioner).getD
      .nothing).provisioner? = p.stored (displayName c) := by
    cases p.stored (displayName c) <;> rfl
  -- the look-up changes nothing and meets no fault
  have hget : ((MemoryStore.serve.traced (.getProvisioner (displayName c))).run []).run
      (p.store, p.caches) =
      ((.ok (((p.stored (displayName c)).map .provisioner).getD .nothing),
        [.getProvisioner (displayName c)]), p.store, p.caches) := rfl
  simp only [trace, Publish.sync, accepted]
  rw [run_run_bind, hget]
  dsimp only
  rw [hfound]
  rcases Publish.decide c (p.stored (displayName c)) with ⟨outcome, _ | call⟩ <;> rfl

/-- Publishing takes one of the known courses, whatever the plugin said. -/
theorem course_of_trace (keyed : p.caches.provisioners.Keyed)
    (probed : Except Fault ProvisionerCapability) :
    p.Course probed (p.trace probed).1.2 (p.trace probed).1.1 (p.trace probed).2.1
      (p.trace probed).2.2 := by
  cases probed with
  | error fault => exact .unprobed fault
  | ok c =>
    cases hcheck : Publish.check p.driverName c with
    | error fault =>
      obtain ⟨driver, hdriver, hother, rfl⟩ := Publish.check_eq_error hcheck
      have htrace : p.trace (.ok c) = ((.error (.driverNameMismatch driver c.pluginName), []),
          p.store, p.caches) := by
        simp only [trace, Publish.sync, hcheck]
        rfl
      rw [htrace]
      exact .mismatched hdriver hother
    | ok _ =>
      rw [trace_of_accepted hcheck]
      cases hdecide : Publish.decide c (p.stored (displayName c)) with
      | mk outcome call? =>
        cases call? with
        | none => exact .current hcheck hdecide
        | some call =>
          -- the one write meets the fault that was laid out, or goes as it was decided
          rcases MemoryStore.run_cases p.caches call p.store with
            ⟨store, fault, -, hrun⟩ | ⟨store, -, hrun⟩
          · have hcourse : p.Course _ _ (.error fault) _ _ := .faulted hcheck hdecide
            rw [hrun] at hcourse
            simpa only [hrun, Except.map] using hcourse
          · obtain ⟨store', a, answer, hperform, hname, hspec, hkept⟩ :=
              MemoryStore.perform_of_decide (s := store) hdecide fun old hold => keyed _ old hold
            have hcourse := Course.written (p := p) hcheck hdecide a hname hspec hkept
            rw [hrun, hperform] at hcourse
            simpa only [hrun, hperform, Except.map] using hcourse

/-- **How publishing goes.** -/
theorem course (keyed : p.caches.provisioners.Keyed)
    (probed : Except Fault ProvisionerCapability) :
    p.Course probed (p.calls probed) (p.publish probed).2 (p.publish probed).1.store
      (p.publish probed).1.caches := by
  have h := course_of_trace keyed probed
  rwa [trace_eq] at h

/-! ### What follows from the course -/

namespace Course

variable {c : ProvisionerCapability} {calls : List StoreCall} {result : Except Fault Outcome}
  {store : MemoryStore} {caches : Caches}

/-- After a success the spec that was probed is stored. -/
theorem published {outcome : Outcome} (h : p.Course probed calls (.ok outcome) store caches)
    (keyed : p.caches.provisioners.Keyed) :
    ∃ c a, probed = .ok c ∧ caches.provisioners.peek (displayName c) = some a ∧
      displayName a = displayName c ∧ a.spec = c.spec ∧
      ∀ old, p.stored (displayName c) = some old →
        a.metadata = { old.metadata with resourceVersion := a.metadata.resourceVersion } := by
  cases h with
  | @current c _ _ decided =>
    obtain ⟨old, hold, hspec⟩ := Publish.found_of_decide decided
    refine ⟨c, old, rfl, hold, keyed _ old hold, hspec, fun old' hold' => ?_⟩
    obtain rfl := Option.some.inj (hold.symm.trans hold')
    rfl
  | @written c _ _ _ _ a name spec kept =>
    refine ⟨c, a, rfl, ?_, name, spec, kept⟩
    exact (Cache.get?_apply _ a _).trans (if_pos name.symm)

/-- Failure changes no cache. -/
theorem unchanged {fault : Fault} (h : p.Course probed calls (.error fault) store caches) :
    caches = p.caches := by
  cases h <;> rfl

theorem unprobed_eq {fault : Fault} (h : p.Course (.error fault) calls result store caches) :
    result = .error fault ∧ calls = [] := by
  cases h
  exact ⟨rfl, rfl⟩

/-- If another plugin answered, nothing is called and the result says so. -/
theorem mismatched_eq {driver : String} (h : p.Course (.ok c) calls result store caches)
    (expected : p.driverName = some driver) (other : driver ≠ c.pluginName) :
    result = .error (.driverNameMismatch driver c.pluginName) ∧ calls = [] := by
  have hcheck : Publish.check p.driverName c ≠ .ok () := by
    simp [Publish.check, expected, other]
  cases h with
  | mismatched hdriver =>
    obtain rfl := Option.some.inj (hdriver.symm.trans expected)
    exact ⟨rfl, rfl⟩
  | current accepted | faulted accepted | written accepted => exact absurd accepted hcheck

/-- The write that was decided on is the only one. -/
theorem filter_isWrite (h : p.Course probed calls result store caches)
    (keyed : p.caches.provisioners.Keyed) :
    calls.filter StoreCall.isWrite = [] ∨ ∃ c outcome call, probed = .ok c ∧
      Publish.decide c (p.stored (displayName c)) = (outcome, some call) ∧
      calls.filter StoreCall.isWrite = [call] := by
  have write {c : ProvisionerCapability} {outcome : Outcome} {call : StoreCall}
      (decided : Publish.decide c (p.stored (displayName c)) = (outcome, some call)) :
      [StoreCall.getProvisioner (displayName c), call].filter StoreCall.isWrite = [call] := by
    have hwrite := (Publish.about_of_decide decided fun old hold => keyed _ old hold).1
    exact List.filter_cons_of_pos (l := []) hwrite
  cases h with
  | unprobed | mismatched | current => exact .inl rfl
  | faulted _ decided => exact .inr ⟨_, _, _, rfl, decided, write decided⟩
  | written _ decided => exact .inr ⟨_, _, _, rfl, decided, write decided⟩

/-- All calls are about the capability of what was probed. -/
theorem about (h : p.Course probed calls result store caches)
    (keyed : p.caches.provisioners.Keyed) :
    ∀ call ∈ calls, call.kind = .provisionerCapability ∧
      ∃ c, probed = .ok c ∧ call.name = displayName c := by
  have both {c : ProvisionerCapability} {outcome : Outcome} {call : StoreCall}
      (decided : Publish.decide c (p.stored (displayName c)) = (outcome, some call)) :
      ∀ call' ∈ [.getProvisioner (displayName c), call], call'.kind = .provisionerCapability ∧
        ∃ c', (.ok c : Except Fault ProvisionerCapability) = .ok c' ∧ call'.name = displayName c' := by
    obtain ⟨-, hkind, hname⟩ := Publish.about_of_decide decided fun old hold => keyed _ old hold
    intro call' hcall
    rcases List.mem_cons.mp hcall with rfl | hcall
    · exact ⟨rfl, c, rfl, rfl⟩
    · obtain rfl := List.mem_singleton.mp hcall
      exact ⟨hkind, c, rfl, hname⟩
  cases h with
  | unprobed | mismatched => exact fun _ hcall => absurd hcall List.not_mem_nil
  | current =>
    intro call hcall
    obtain rfl := List.mem_singleton.mp hcall
    exact ⟨rfl, _, rfl, rfl⟩
  | faulted _ decided => exact both decided
  | written _ decided => exact both decided

/-- No object is stored under another name. -/
protected theorem keyed (h : p.Course probed calls result store caches)
    (keyed : p.caches.provisioners.Keyed) : caches.provisioners.Keyed := by
  cases h with
  | written _ _ a => exact keyed.apply a
  | unprobed | mismatched | current | faulted => exact keyed

/-- Nothing changes but the capability of what was probed. -/
theorem frame (h : p.Course probed calls result store caches) :
    ∃ cache, caches = { p.caches with provisioners := cache } ∧
      ∀ c n, probed = .ok c → n ≠ displayName c → cache.peek n = p.stored n := by
  cases h with
  | written _ _ a name =>
    refine ⟨_, rfl, ?_⟩
    rintro _ n ⟨⟩ hn
    exact (Cache.get?_apply _ a n).trans (if_neg (name ▸ hn))
  | unprobed | mismatched | current | faulted => exact ⟨_, rfl, fun _ _ _ _ => rfl⟩

end Course

/-! ### What is owed at one time -/

/-- Probes a plugin and publishes what was found. -/
def sync (p : Publisher) (client : Client) : Publisher × Except Fault Outcome :=
  p.publish (Probe.run client).2

/-- What a publisher owes when it is asked to publish a plugin. -/
structure Diligent (p : Publisher) (client : Client) : Prop where
  /-- Success leaves the plugin's capability as it was probed, with the metadata that it had. -/
  published : ∀ outcome, (p.sync client).2 = .ok outcome →
    ∃ c a, (Probe.run client).2 = .ok c ∧ (p.sync client).1.stored c.pluginName = some a ∧
      displayName a = c.pluginName ∧ a.spec = c.spec ∧
      ∀ old, p.stored c.pluginName = some old →
        a.metadata = { old.metadata with resourceVersion := a.metadata.resourceVersion }
  /-- Failure changes no cache. -/
  unchanged : ∀ fault, (p.sync client).2 = .error fault → (p.sync client).1.caches = p.caches
  /-- A plugin that cannot be probed is no reason for a call. -/
  unprobed : ∀ fault, (Probe.run client).2 = .error fault →
    (p.sync client).2 = .error fault ∧ p.calls (Probe.run client).2 = []
  /-- Nor is a plugin with another name than the expected one. -/
  mismatched : ∀ c driver, (Probe.run client).2 = .ok c → p.driverName = some driver →
    driver ≠ c.pluginName →
    (p.sync client).2 = .error (.driverNameMismatch driver c.pluginName) ∧
      p.calls (Probe.run client).2 = []
  /-- At most one write is made. -/
  one_write : ((p.calls (Probe.run client).2).filter StoreCall.isWrite).length ≤ 1
  /-- None is made over what was probed. -/
  no_write : ∀ c old, (Probe.run client).2 = .ok c → p.stored c.pluginName = some old →
    old.spec = c.spec → (p.calls (Probe.run client).2).filter StoreCall.isWrite = []
  /-- All calls are about the plugin's capability. -/
  about : ∀ call ∈ p.calls (Probe.run client).2, call.kind = .provisionerCapability ∧
    ∃ c, (Probe.run client).2 = .ok c ∧ call.name = c.pluginName
  /-- No other object changes. -/
  frame : ∃ cache, (p.sync client).1.caches = { p.caches with provisioners := cache } ∧
    ∀ c n, (Probe.run client).2 = .ok c → n ≠ c.pluginName → cache.peek n = p.stored n

/-- **One publication.** -/
theorem diligent (keyed : p.caches.provisioners.Keyed) (client : Client) : p.Diligent client := by
  have hcourse := p.course keyed (Probe.run client).2
  have hname {c : ProvisionerCapability} (h : (Probe.run client).2 = .ok c) :
      displayName c = c.pluginName := Probe.displayName_of_run h
  constructor
  case published =>
    intro outcome houtcome
    have hpublish : (p.publish (Probe.run client).2).2 = .ok outcome := houtcome
    rw [hpublish] at hcourse
    obtain ⟨c, a, hprobe, hstored, hdisplay, hspec, hkept⟩ := hcourse.published keyed
    rw [hname hprobe] at hstored hdisplay hkept
    exact ⟨c, a, hprobe, hstored, hdisplay, hspec, hkept⟩
  case unchanged =>
    intro fault hfault
    have hpublish : (p.publish (Probe.run client).2).2 = .error fault := hfault
    rw [hpublish] at hcourse
    exact hcourse.unchanged
  case unprobed =>
    intro fault hprobe
    simp only [sync]
    rw [hprobe] at hcourse ⊢
    exact hcourse.unprobed_eq
  case mismatched =>
    intro c driver hprobe hdriver hother
    simp only [sync]
    rw [hprobe] at hcourse ⊢
    exact hcourse.mismatched_eq hdriver hother
  case one_write =>
    rcases hcourse.filter_isWrite keyed with hnone | ⟨c, outcome, call, -, -, hone⟩
    · simp [hnone]
    · simp [hone]
  case no_write =>
    intro c old hprobe hold hspec
    rcases hcourse.filter_isWrite keyed with hnone | ⟨c', outcome, call, hprobe', hdecide, -⟩
    · exact hnone
    · obtain rfl := Except.ok.inj (hprobe.symm.trans hprobe')
      rw [← hname hprobe] at hold
      exact absurd hspec (Publish.spec_ne_of_decide hdecide old hold)
  case about =>
    intro call hcall
    obtain ⟨hkind, c, hprobe, hcname⟩ := hcourse.about keyed call hcall
    exact ⟨hkind, c, hprobe, hcname.trans (hname hprobe)⟩
  case frame =>
    obtain ⟨cache, hcache, hother⟩ := hcourse.frame
    exact ⟨cache, hcache, fun c n hprobe hn => hother c n hprobe (hname hprobe ▸ hn)⟩

/-! ### What is owed over time -/

/-- What happens to a publisher and its store. -/
inductive Turn where
  | sync (client : Client)
  /-- The next write is to fail. -/
  | failNext (fault : Fault)

/-- The publisher after a turn. -/
def turn (p : Publisher) : Turn → Publisher
  | .sync client => (p.sync client).1
  | .failNext fault => { p with store := { p.store with failNext := some fault } }

/-- The result of a turn that publishes. -/
def result? (p : Publisher) : Turn → Option (Except Fault Outcome)
  | .sync client => some (p.sync client).2
  | .failNext _ => none

/-- The publisher after some turns. -/
def turns (p : Publisher) (l : List Turn) : Publisher := l.foldl turn p

/-- The results of some turns, in order. -/
def results : Publisher → List Turn → List (Except Fault Outcome)
  | _, [] => []
  | p, t :: l => (p.result? t).toList ++ results (p.turn t) l

/-- No turn stores an object under another name. -/
theorem keyed_turn (keyed : p.caches.provisioners.Keyed) (t : Turn) :
    (p.turn t).caches.provisioners.Keyed := by
  cases t with
  | failNext => exact keyed
  | sync client => exact (p.course keyed _).keyed keyed

theorem keyed_turns (keyed : p.caches.provisioners.Keyed) (l : List Turn) :
    (p.turns l).caches.provisioners.Keyed := by
  induction l generalizing p with
  | nil => exact keyed
  | cons t l ih => exact ih (keyed_turn keyed t)

/-- A turn makes the publisher ready if it publishes and succeeds. -/
theorem ready_turn (p : Publisher) (t : Turn) :
    (p.turn t).ready = true ↔ p.ready = true ∨ ∃ outcome, p.result? t = some (.ok outcome) := by
  cases t with
  | failNext => simp [turn, result?]
  | sync client =>
    show (p.ready || (p.sync client).2.isOk) = true ↔ _
    cases hresult : (p.sync client).2 <;> simp [result?, hresult, Except.isOk, Except.toBool]

/-- Readiness is a success that once was. -/
theorem ready_turns (p : Publisher) (l : List Turn) :
    (p.turns l).ready = true ↔ p.ready = true ∨ ∃ outcome, .ok outcome ∈ p.results l := by
  induction l generalizing p with
  | nil => simp [turns, results]
  | cons t l ih =>
    show ((p.turn t).turns l).ready = true ↔ _
    rw [ih, ready_turn, or_assoc]
    refine or_congr_right ?_
    simp only [results, List.mem_append, Option.mem_toList, exists_or]

/-- What a publisher owes that began without having published. -/
structure Faithful (p : Publisher) (past : List Turn) : Prop where
  /-- It publishes as it should. -/
  diligent : ∀ client, (p.turns past).Diligent client
  /-- It is ready if it has published. -/
  ready_iff : (p.turns past).ready = true ↔ ∃ outcome, .ok outcome ∈ p.results past
  /-- It stays ready. -/
  stays_ready : ∀ future, (p.turns past).ready = true → (p.turns (past ++ future)).ready = true

/-- **A publisher owes the same at any time.** Whatever its turns have come to, the next one
publishes as the first one should have, with one write at most; and readiness means that one of them
has succeeded, which no later failure takes back. -/
theorem faithful_of_turns {p : Publisher} (fresh : p.ready = false)
    (keyed : p.caches.provisioners.Keyed) (past : List Turn) : p.Faithful past where
  diligent := diligent (keyed_turns keyed past)
  ready_iff := by simp [ready_turns, fresh]
  stays_ready := by
    intro future h
    rw [turns, List.foldl_append]
    exact (ready_turns _ future).mpr (.inl h)

/-- Four turns of a publisher: a write that fails, another plugin, a plugin that does not answer,
and the write made up for. -/
theorem faithful_recovering :
    let old : ProvisionerCapability :=
      ⟨{ name := some "disk", uid := some "7" }, ⟨⟨"disk", "1"⟩, {}⟩⟩
    let p : Publisher := { driverName := some "disk",
                           caches := { provisioners := (({} : Cache _).apply old).1 } }
    let disk : Csi.Answers := { identity := { name := "disk", vendorVersion := "2" } }
    let tape : Csi.Answers := { identity := { name := "tape", vendorVersion := "2" } }
    let past : List Turn :=
      [.failNext (.internal "full"), .sync fun m => .ok (disk.get m),
       .sync fun m => .ok (tape.get m), .sync fun m => .error (.rpcTimeout m.name 5),
       .sync fun m => .ok (disk.get m)]
    p.Faithful past ∧
      p.results past = [.error (.internal "full"), .error (.driverNameMismatch "disk" "tape"),
        .error (.rpcTimeout "GetPluginInfo" 5), .ok .updated] ∧
      (p.turns past).ready = true := by
  intro old p disk tape past
  have hdisk : (Probe.run fun m => .ok (disk.get m)).2 = .ok (.ofAnswers disk) :=
    Probe.run_of_answers rfl
  have htape : (Probe.run fun m => .ok (tape.get m)).2 = .ok (.ofAnswers tape) :=
    Probe.run_of_answers rfl
  have hlate : (Probe.run fun m => .error (.rpcTimeout m.name 5)).2 =
      .error (.rpcTimeout "GetPluginInfo" 5) := by
    rw [Probe.run, Probe.finish_of_error rfl]
    rfl
  have hresults : p.results past = [.error (.internal "full"),
      .error (.driverNameMismatch "disk" "tape"), .error (.rpcTimeout "GetPluginInfo" 5),
      .ok .updated] := by
    simp only [results, past, result?, turn, sync, hdisk, htape, hlate]
    rfl
  refine ⟨faithful_of_turns rfl (Cache.keyed_empty.apply old) past, hresults, ?_⟩
  rw [ready_turns, hresults]
  simp

end Publisher

end StorageFeatures
