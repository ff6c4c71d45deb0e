import StorageFeatures.Proofs.Controller.Conflicts
import StorageFeatures.Proofs.Controller.Convergence

/-!
# Which capabilities exist

At rest a capability exists for every class whose provisioner has published, and for no name
without a class. That leaves the classes whose provisioner has not published, or has not published
any more. A pass over such a class waits, so its capability stays as it is:

* a capability is created only while the provisioner of its class is known (lazy creation);
* a capability that exists outlives its provisioner, for as long as the class is there.

So a capability need not have a published provisioner (`System.outlives_abandoned`), and what holds
instead is `System.Maintained`. Parts of it are about a stretch of a run and not about a single
state: which writes the passes make meanwhile, whatever watches report, and what becomes of the
capability of a name unless a watch reports a change of it (`Action.Spares`). They rest on two facts
about a step: what lands is the write of an open pass (`Work.Step.landed`), and otherwise the
capability of a name stays as it is (`Work.Step.capability`).
-/

namespace StorageFeatures

/-! ### Names that are not served -/

namespace Caches

variable {caches : Caches} {n : String}

/-- The class of a name is cached, and its provisioner has published. -/
def Serves (caches : Caches) (n : String) : Prop :=
  ∃ c p, caches.storageClasses.peek n = some c ∧ caches.provisioners.peek c.provisioner = some p

/-- The class of a name is cached, and its provisioner has not published, or not any more. -/
def Strands (caches : Caches) (n : String) : Prop :=
  ∃ c, caches.storageClasses.peek n = some c ∧ caches.provisioners.peek c.provisioner = none

/-- Under a name that is not served nothing is asked for but a deletion. -/
theorem eq_delete_of_ask (h : ¬ caches.Serves n) {call : StoreCall}
    (hask : Sync.ask caches n = some call) : call = .deleteCapability n := by
  cases hclass : caches.storageClasses.peek n with
  | none =>
    rw [Sync.ask_of_absent hclass] at hask
    obtain ⟨a, -, rfl⟩ := Option.map_eq_some_iff.mp hask
    rfl
  | some c =>
    obtain ⟨-, p, hp, -⟩ := Sync.written_of_ask hclass hask
    exact absurd ⟨c, p, hclass, hp⟩ h

/-- Under the name of a stranded class nothing is asked for. -/
theorem Strands.ask_eq_none (h : caches.Strands n) : Sync.ask caches n = none := by
  obtain ⟨c, hclass, hp⟩ := h
  rcases Option.eq_none_or_eq_some (Sync.ask caches n) with hask | ⟨call, hask⟩
  · exact hask
  · obtain ⟨-, p, hp', -⟩ := Sync.written_of_ask hclass hask
    rw [hp] at hp'
    cases hp'

end Caches

/-! ### The capability of one name -/

/-- A deletion leaves nothing under its name, or what was there. -/
theorem MemoryStore.peek_run_delete (store : MemoryStore) (caches : Caches) (n : String) :
    (store.run caches (.deleteCapability n)).2.1.capabilities.peek n = none ∨
      (store.run caches (.deleteCapability n)).2.1.capabilities.peek n =
        caches.capabilities.peek n := by
  rcases run_cases caches (.deleteCapability n) store with ⟨_, _, -, hrun⟩ | ⟨store', -, hrun⟩
  · rw [hrun]
    exact .inr rfl
  · rw [hrun]
    simp only [perform, delete, answer]
    split
    · rename_i heq
      obtain rfl := congrArg Prod.fst heq
      exact .inl (NameMap.get?_erase_self _ _)
    · exact .inr rfl

/-- No watch reports a change of the capability of a name. -/
def Action.Spares (n : String) (caches : Caches) : Action → Prop
  | .observe _ change =>
    (caches.observed change).capabilities.peek n = caches.capabilities.peek n
  | _ => True

/-- A watch that dispatches no event about a capability does not change it. -/
theorem Action.spares_of_events {caches : Caches} {n : String} (keyed : caches.capabilities.Keyed)
    {change : Change ClassCapability}
    (others : ∀ e ∈ (caches.capabilities.observe change).2, Resource.displayName e.object ≠ n) :
    (Action.observe .classCapability change).Spares n caches := by
  by_contra hchanged
  obtain ⟨e, he, hname, -⟩ := keyed.exists_event_of_ne hchanged
  exact others e he hname

namespace Work

variable {w w' : Work} {a : Action} {n : String}

/-- The write of an open pass lands, or none does. -/
theorem Step.landed (step : Step w a w') :
    w'.landed = w.landed ∨ ∃ pass ∈ w.passes, w'.landed = w.landed ++ [pass.call] := by
  cases step with
  | observe | resync | add | bringBack | inject | idle | close | begin => exact .inl rfl
  | settle _ _ _ ended | fail _ _ ended => exact .inl ended.landed
  | @land pass _ _ answer _ mem run ended =>
    have hlanded := ended.landed
    dsimp only at hlanded
    split at hlanded
    · exact .inr ⟨pass, mem, hlanded⟩
    · exact .inl (hlanded.trans (List.append_nil _))

/-- Unless a watch reports a change of it, the capability of a name changes only by the write of a
pass over the name. -/
theorem Step.capability (step : Step w a w') (ok : a.Spares n w.caches) (h : w.Orderly []) :
    w'.caches.capabilities.peek n = w.caches.capabilities.peek n ∨
      ∃ pass ∈ w.passes, pass.key = n ∧ w'.caches.capabilities.peek n =
        (w.store.run w.caches pass.call).2.1.capabilities.peek n := by
  cases step with
  | observe k change => exact .inl ok
  | resync | add | bringBack | inject | idle | close | begin => exact .inl rfl
  | settle take synced ask ended | fail pass mem ended owes =>
    rw [ended.caches]
    exact .inl rfl
  | land pass mem run ended =>
    rw [ended.caches]
    by_cases hn : n = pass.key
    · refine .inr ⟨pass, mem, hn.symm, ?_⟩
      rw [run]
    · obtain ⟨cache, rfl, others⟩ := h.frame_run mem run
      exact .inl (others n hn)

/-! ### While a name is not served -/

/-- Under a name only certain writes are asked for and under way, so only such writes have landed
since some others had. -/
structure Confined (n : String) (certain : StoreCall → Prop) (before : List StoreCall)
    (w : Work) : Prop where
  orderly : w.Orderly []
  asks : ∀ call, Sync.ask w.caches n = some call → certain call
  passes : ∀ pass ∈ w.passes, pass.key = n → certain pass.call
  landed : ∃ later, w.landed = before ++ later ∧ ∀ call ∈ later, call.Concerns n → certain call

variable {certain : StoreCall → Prop} {before : List StoreCall}

/-- A pass that begins makes a write that was asked for, and a write that lands was under way. -/
theorem Step.confined (step : Step w a w')
    (asks : ∀ call, Sync.ask w'.caches n = some call → certain call)
    (h : w.Confined n certain before) : w'.Confined n certain before := by
  refine ⟨step.orderly h.orderly, asks, fun pass hp hkey => ?_, ?_⟩
  · rcases step.passes hp with hold | hask
    · exact h.passes pass hold hkey
    · rw [hkey] at hask
      exact h.asks pass.call hask
  · obtain ⟨later, hlanded, hcertain⟩ := h.landed
    rcases step.landed with hsame | ⟨pass, hp, hlands⟩
    · exact ⟨later, hsame.trans hlanded, hcertain⟩
    · refine ⟨later ++ [pass.call], by rw [hlands, hlanded, List.append_assoc], ?_⟩
      intro call hcall concerns
      rcases List.mem_append.mp hcall with hcall | hcall
      · exact hcertain call hcall concerns
      · obtain rfl := List.mem_singleton.mp hcall
        exact h.passes pass hp ((h.orderly.concerns pass hp).unique concerns)

/-- Where only deletions are under way, a capability stays as it is or goes. -/
theorem Step.capability_of_deletions (step : Step w a w') (ok : a.Spares n w.caches)
    (h : w.Confined n (· = .deleteCapability n) before) :
    w'.caches.capabilities.peek n = none ∨
      w'.caches.capabilities.peek n = w.caches.capabilities.peek n := by
  rcases step.capability ok h.orderly with hsame | ⟨pass, hp, hkey, hlands⟩
  · exact .inr hsame
  · rw [h.passes pass hp hkey] at hlands
    rw [hlands]
    exact MemoryStore.peek_run_delete w.store w.caches n

/-- Where nothing is under way, a capability stays as it is. -/
theorem Step.capability_of_idle (step : Step w a w') (ok : a.Spares n w.caches)
    (h : w.Confined n (fun _ => False) before) :
    w'.caches.capabilities.peek n = w.caches.capabilities.peek n := by
  rcases step.capability ok h.orderly with hsame | ⟨pass, hp, hkey, -⟩
  · exact hsame
  · exact (h.passes pass hp hkey).elim

end Work

/-! ### At rest, and from then on -/

namespace System

/-- A run in which a condition on the caches holds after every action, and every action is allowed
beside the caches that it meets. -/
def RunWhile (condition : Caches → Prop) (allowed : Caches → Action → Prop) :
    System → System → Prop :=
  Relation.ReflTransGen fun s₁ s₂ =>
    Step (allowed s₁.controller.caches) s₁ s₂ ∧ condition s₂.controller.caches

/-- What holds of the existence of capabilities when nothing is left to do. -/
structure Maintained (s : System) : Prop where
  /-- Without a class there is no capability. -/
  absent : ∀ n, n ≠ "" → s.controller.caches.storageClasses.peek n = none →
    s.controller.caches.capabilities.peek n = none
  /-- A class whose provisioner has published has a capability. -/
  served : ∀ n c p, n ≠ "" → s.controller.caches.storageClasses.peek n = some c →
    c.metadata.name = some n → s.controller.caches.provisioners.peek c.provisioner = some p →
    ∃ a, s.controller.caches.capabilities.peek n = some a
  /-- While a name is not served, its capability is neither created nor updated, whatever watches
  report. -/
  unwritten : ∀ n s', n ≠ "" →
    RunWhile (fun caches => ¬ caches.Serves n) (fun _ _ => True) s s' →
    ∃ later, s'.landed = s.landed ++ later ∧
      ∀ call ∈ later, call.Concerns n → call = .deleteCapability n
  /-- So it neither appears nor changes, unless a watch reports a change of it. -/
  lazy : ∀ n s' a, n ≠ "" → RunWhile (fun caches => ¬ caches.Serves n) (Action.Spares n) s s' →
    s'.controller.caches.capabilities.peek n = some a →
    s.controller.caches.capabilities.peek n = some a
  /-- While a class waits for its provisioner, its capability is not written at all, whether or not
  the provisioner had published before. -/
  untouched : ∀ n s', n ≠ "" → RunWhile (Caches.Strands · n) (fun _ _ => True) s s' →
    ∃ later, s'.landed = s.landed ++ later ∧ ∀ call ∈ later, ¬ call.Concerns n
  /-- So it stays, unless a watch reports a change of it. -/
  kept : ∀ n s', n ≠ "" → RunWhile (Caches.Strands · n) (Action.Spares n) s s' →
    s'.controller.caches.capabilities.peek n = s.controller.caches.capabilities.peek n

variable {s s' : System} {h : History} {n : String}

section RunWhile

variable {condition : Caches → Prop} {allowed : Caches → Action → Prop}
variable {certain : StoreCall → Prop} {before : List StoreCall}

/-- A stretch keeps workers away until the caches have synced. -/
theorem RunWhile.staffed (run : RunWhile condition allowed s s') (hs : s.controller.Staffed) :
    s'.controller.Staffed := by
  induction run with
  | refl => exact hs
  | tail _ step ih =>
    obtain ⟨⟨a, -, enabled, rfl⟩, -⟩ := step
    exact staffed_next ih enabled

/-- While a condition rules out other writes under a name, only certain ones are made. -/
theorem RunWhile.confined (run : RunWhile condition allowed s s') (hs : s.controller.Staffed)
    (asks : ∀ caches, condition caches → ∀ call, Sync.ask caches n = some call → certain call)
    (start : s.work.Confined n certain before) : s'.work.Confined n certain before := by
  induction run with
  | refl => exact start
  | tail run step ih =>
    have past : RunWhile condition allowed s _ := run
    obtain ⟨⟨a, -, enabled, rfl⟩, holds⟩ := step
    exact (step_work (past.staffed hs) enabled).confined (asks _ holds) ih

/-- While only deletions are made under a name, its capability stays as it is or goes. -/
theorem RunWhile.capability_of_deletions (run : RunWhile condition (Action.Spares n) s s')
    (hs : s.controller.Staffed)
    (asks : ∀ caches, condition caches → ∀ call, Sync.ask caches n = some call →
      call = .deleteCapability n)
    (start : s.work.Confined n (· = .deleteCapability n) before) :
    s'.work.caches.capabilities.peek n = none ∨
      s'.work.caches.capabilities.peek n = s.work.caches.capabilities.peek n := by
  induction run with
  | refl => exact .inr rfl
  | tail run step ih =>
    have past : RunWhile condition (Action.Spares n) s _ := run
    obtain ⟨⟨a, ok, enabled, rfl⟩, -⟩ := step
    have step := step_work (past.staffed hs) enabled
    rcases step.capability_of_deletions ok (past.confined hs asks start) with hgone | hsame
    · exact .inl hgone
    · rw [hsame]
      exact ih

/-- While no write is made under a name, its capability stays as it is. -/
theorem RunWhile.capability_of_idle (run : RunWhile condition (Action.Spares n) s s')
    (hs : s.controller.Staffed)
    (asks : ∀ caches, condition caches → ∀ call, Sync.ask caches n = some call → False)
    (start : s.work.Confined n (fun _ => False) before) :
    s'.work.caches.capabilities.peek n = s.work.caches.capabilities.peek n := by
  induction run with
  | refl => rfl
  | tail run step ih =>
    have past : RunWhile condition (Action.Spares n) s _ := run
    obtain ⟨⟨a, ok, enabled, rfl⟩, -⟩ := step
    have step := step_work (past.staffed hs) enabled
    exact (step.capability_of_idle ok (past.confined hs asks start)).trans ih

end RunWhile

/-- A quiet system has no open pass. -/
theorem passes_of_quiet (orderly : s.work.Orderly []) (quiet : s.Quiet) : s.work.passes = [] := by
  refine List.eq_nil_iff_forall_not_mem.mpr fun pass hp => ?_
  have hprocessing := orderly.processing_of_mem hp
  rw [show s.work.keys = {} from quiet.1] at hprocessing
  cases hprocessing

/-- **Capabilities come with their provisioner and go with their class.** When nothing is left to
do, a capability exists where the class is served and not where there is no class. From then on
nothing is created or replaced under a name that is not served; and while a class waits for its
provisioner nothing is written under its name at all, so its capability can outlive the
provisioner. -/
theorem maintained_of_run {config : ControllerConfig} {metrics : Option Metrics}
    (run : Run (Action.Heeds h) (fresh config metrics {} {}) s) (quiet : s.Quiet) :
    s.Maintained := by
  have staffed := Run.staffed run (staffed_fresh config metrics {} {})
  have hw : s.work.Heedful h :=
    Run.preserves run (staffed_fresh config metrics {} {})
      (fun ok step hw => step.heedful ok hw) (heedful_fresh config metrics h)
  have free := passes_of_quiet hw.orderly quiet
  have asks : ∀ n, n ≠ "" → Sync.ask s.work.caches n = none := fun n hn => ask_of_quiet hw quiet hn
  have start : ∀ n certain, n ≠ "" → s.work.Confined n certain s.landed := by
    intro n certain hn
    refine ⟨hw.orderly, by simp [asks n hn], by simp [free], [], (List.append_nil _).symm, ?_⟩
    exact fun call hcall => absurd hcall List.not_mem_nil
  -- the conditions rule out what is not a deletion, and every write
  have deletes : ∀ {n} (caches : Caches), ¬ caches.Serves n → ∀ call,
      Sync.ask caches n = some call → call = .deleteCapability n :=
    fun caches hcondition call => Caches.eq_delete_of_ask hcondition
  have nothing : ∀ {n} (caches : Caches), caches.Strands n → ∀ call,
      Sync.ask caches n = some call → False := by
    intro n caches hcondition call hask
    rw [hcondition.ask_eq_none] at hask
    cases hask
  refine ⟨fun n hn hclass => ?_, fun n c p hn hclass hname hp => ?_, fun n s' hn stretch => ?_,
    fun n s' a hn stretch ha => ?_, fun n s' hn stretch => ?_, fun n s' hn stretch => ?_⟩
  · have hask := asks n hn
    rw [show Sync.ask s.work.caches n = _ from Sync.ask_of_absent hclass] at hask
    exact Option.map_eq_none_iff.mp hask
  · have hnamed : c.metadata.name.getD "" ≠ "" := by simpa [hname] using hn
    obtain ⟨a, ha, -⟩ := (Sync.ask_of_served hw.orderly.keyed hclass hnamed hp).mp (asks n hn)
    exact ⟨a, ha⟩
  · exact (stretch.confined staffed deletes (start n _ hn)).landed
  · rcases stretch.capability_of_deletions staffed deletes (start n _ hn) with hgone | hsame
    · rw [show s'.work.caches.capabilities.peek n = some a from ha] at hgone
      cases hgone
    · exact hsame.symm.trans ha
  · exact (stretch.confined staffed nothing (start n _ hn)).landed
  · exact stretch.capability_of_idle staffed nothing (start n _ hn)

/-- What happens until a class was served and its provisioner has vanished. -/
def abandoning : List Action :=
  [.observe .storageClass (.restarted [sampleClass]), .observe .snapshotClass (.restarted []),
    .observe .provisionerCapability (.restarted [sampleProvisioner]),
    .observe .classCapability (.restarted []), .start 1, .discovered (.ok "v1.29.3"), .turn 0,
    .land samplePass, .observe .provisionerCapability (.deleted sampleProvisioner), .turn 0]

/-- Then nothing is left to do, and the capability is still there. -/
theorem exists_abandoned : ∃ s,
    Run (Action.Heeds sampleHistory) (fresh {} none {} {}) s ∧ s.Quiet ∧
    s.controller.phase = .running ∧
    s.controller.caches.storageClasses.peek "fast" = some sampleClass ∧
    s.controller.caches.provisioners.peek "disk" = none ∧
    ∃ a, s.controller.caches.capabilities.peek "fast" = some a := by
  have rests : ((fresh {} none {} {}).follow abandoning).map (fun s =>
      (s.controller.queue.keys, s.controller.requeues, s.controller.phase)) =
        some ({}, [], .running) := by
    decide +kernel
  have holds : ((fresh {} none {} {}).follow abandoning).map (fun s =>
      (s.controller.caches.storageClasses.peek "fast",
        s.controller.caches.provisioners.peek "disk",
        (s.controller.caches.capabilities.peek "fast").isSome)) =
          some (some sampleClass, none, true) := by
    decide +kernel
  obtain ⟨s, hfollow, hs⟩ := Option.map_eq_some_iff.mp rests
  rw [hfollow, Option.map_some, Option.some.injEq] at holds
  simp only [Prod.mk.injEq] at hs holds
  obtain ⟨hkeys, hrequeues, hphase⟩ := hs
  obtain ⟨hclass, hprov, hsome⟩ := holds
  have ok : ∀ a ∈ abandoning, a.Heeds sampleHistory := by
    simp [abandoning, Action.Heeds, History.Knows, Change.present, sampleHistory]
  exact ⟨s, run_of_follow ok hfollow, ⟨hkeys, hrequeues⟩, hphase, hclass, hprov,
    Option.isSome_iff_exists.mp hsome⟩

/-- The run that leaves a capability behind comes to rest, and is maintained all the same. -/
theorem maintained_abandoned : ∃ s,
    Run (Action.Heeds sampleHistory) (fresh {} none {} {}) s ∧ s.Quiet ∧ s.Maintained := by
  obtain ⟨s, run, quiet, -⟩ := exists_abandoned
  exact ⟨s, run, quiet, maintained_of_run run quiet⟩

/-- A capability exists exactly where its class and the capability of its provisioner do. -/
def Paired (s : System) : Prop :=
  ∀ n, n ≠ "" →
    (∀ c, s.controller.caches.storageClasses.peek n = some c → c.metadata.name = some n) →
    ((∃ a, s.controller.caches.capabilities.peek n = some a) ↔ s.controller.caches.Serves n)

/-- **A capability can outlive its provisioner.** -/
theorem outlives_abandoned : ∃ s,
    Run (Action.Heeds sampleHistory) (fresh {} none {} {}) s ∧ s.Quiet ∧
    s.controller.phase = .running ∧ ¬ s.Paired := by
  obtain ⟨s, run, quiet, hphase, hclass, hprov, hexists⟩ := exists_abandoned
  refine ⟨s, run, quiet, hphase, fun hpaired => ?_⟩
  have hname : ∀ c, s.controller.caches.storageClasses.peek "fast" = some c →
      c.metadata.name = some "fast" := by
    intro c hc
    obtain rfl := Option.some.inj (hclass.symm.trans hc)
    rfl
  obtain ⟨c, p, hc, hp⟩ := (hpaired "fast" (by decide) hname).mp hexists
  obtain rfl := Option.some.inj (hclass.symm.trans hc)
  rw [show sampleClass.provisioner = "disk" from rfl, hprov] at hp
  cases hp

end System

end StorageFeatures
