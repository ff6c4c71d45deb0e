import StorageFeatures.Proofs.Controller.Convergence

/-!
# Healing by a resync

Whatever the caches hold, a resync of the provisioners and of the capabilities of classes queues
every name under which a write is asked for:

* a class whose provisioner has published is queued by its provisioner, so a missing or outdated
  capability is found;
* a capability is queued by itself, so one whose class is gone is found, too.

A resync of the classes would add nothing to that, and is dropped by the routing anyway.

From then on every name that asks for a write is dirty or has an open pass, and a name that asked
for none is left alone (`Work.Healing`). The main result is `System.healed_of_resync`: once the
workers have drained the queue, the caches are `Caches.Healed`, however many workers there are and
in whichever order their passes end.
-/

namespace StorageFeatures

open Resource (displayName)

/-! ### What a resync queues -/

namespace Caches

/-- The keys that a resync of a kind queues. -/
def resynced (caches : Caches) (k : Kind) : List String :=
  ((Watched.cache caches : Cache k.Object).resync).flatMap (Event.keys caches.storageClasses)

variable {caches : Caches} {n : String}

/-- A cached object is repeated to those who watch its kind. -/
theorem updated_mem_resync {α : Type} [Resource α] {c : Cache α} (synced : c.synced = true)
    {k : String} {a : α} (h : c.peek k = some a) : Event.updated a a ∈ c.resync := by
  have hmem : a ∈ c.snapshot := NameMap.mem_values_iff.mpr ⟨k, h⟩
  rw [Cache.resync, if_pos synced]
  exact List.mem_map_of_mem hmem

/-- The name of a cached capability is queued. -/
theorem mem_resynced_of_capability (keyed : caches.Keyed) (synced : caches.allSynced = true)
    (hn : n ≠ "") {a : ClassCapability} (h : caches.capabilities.peek n = some a) :
    n ∈ caches.resynced .classCapability := by
  have hsynced : caches.capabilities.synced = true := allSynced_iff.mp synced .classCapability
  have hname : displayName a = n := keyed.capabilities n a h
  refine List.mem_flatMap.mpr ⟨.updated a a, updated_mem_resync hsynced h, ?_⟩
  exact Event.mem_keys_of_affected hn (List.mem_singleton.mpr hname.symm)

/-- The name of a cached class is queued if its provisioner has published. -/
theorem mem_resynced_of_provisioner (keyed : caches.Keyed) (synced : caches.allSynced = true)
    (hn : n ≠ "") {c : StorageClass} {p : ProvisionerCapability}
    (hclass : caches.storageClasses.peek n = some c)
    (hp : caches.provisioners.peek c.provisioner = some p) :
    n ∈ caches.resynced .provisionerCapability := by
  have hclasses : caches.storageClasses.synced = true := allSynced_iff.mp synced .storageClass
  have hprovs : caches.provisioners.synced = true := allSynced_iff.mp synced .provisionerCapability
  have hmem : c ∈ caches.storageClasses.snapshot := NameMap.mem_values_iff.mpr ⟨n, hclass⟩
  have hname : displayName p = c.provisioner := keyed.provisioners _ p hp
  refine List.mem_flatMap.mpr ⟨.updated p p, updated_mem_resync hprovs hp, ?_⟩
  refine Event.mem_keys_of_affected hn (mem_servedBy_iff.mpr ⟨hclasses, c, hmem, ?_, ?_⟩)
  · exact hname.symm
  · exact keyed.storageClasses n c hclass

/-- **A resync finds everything.** A name under which a write is asked for is queued by the resync
of the provisioners or by that of the capabilities. -/
theorem mem_resynced_of_ask (keyed : caches.Keyed) (synced : caches.allSynced = true)
    (hn : n ≠ "") {call : StoreCall} (h : Sync.ask caches n = some call) :
    n ∈ caches.resynced .provisionerCapability ++ caches.resynced .classCapability := by
  cases hclass : caches.storageClasses.peek n with
  | none =>
    rw [Sync.ask_of_absent hclass] at h
    obtain ⟨a, ha, -⟩ := Option.map_eq_some_iff.mp h
    exact List.mem_append_right _ (mem_resynced_of_capability keyed synced hn ha)
  | some c =>
    obtain ⟨-, p, hp, -⟩ := Sync.written_of_ask hclass h
    exact List.mem_append_left _ (mem_resynced_of_provisioner keyed synced hn hclass hp)

end Caches

namespace System

/-- The work after a resync. -/
theorem work_resync (s : System) (k : Kind) :
    (s.next (.resync k)).work = s.work.addAll (s.controller.caches.resynced k) :=
  Controller.work_routeAll s s.controller _

/-- A resync reports what the caches hold and changes nothing in them. -/
theorem caches_resync (s : System) (k : Kind) :
    (s.next (.resync k)).controller.caches = s.controller.caches :=
  congrArg Work.caches (work_resync s k)

end System

/-! ### While the queue is drained -/

/-- No watch reports a change, and no write is made to fail. -/
def Action.Calm : Action → Prop
  | .observe .. | .inject _ | .fail .. => False
  | _ => True

namespace Work

/-- What every step keeps once the names that ask for a write are queued; `before` are the caches
at that time. -/
structure Healing (before : Caches) (w : Work) : Prop where
  orderly : w.Orderly []
  unarmed : w.store.failNext = none
  /-- Only capabilities of classes have changed. -/
  inputs : ∃ capabilities, w.caches = { before with capabilities }
  /-- A name that asked for nothing is left alone. -/
  spared : ∀ n, Sync.ask before n = none →
    w.caches.capabilities.peek n = before.capabilities.peek n
  /-- An open pass makes the write that is asked for. -/
  current : ∀ pass ∈ w.passes, Sync.ask w.caches pass.key = some pass.call
  /-- A name that asks for a write is to be processed, or is being processed. -/
  covered : ∀ n, n ≠ "" → Sync.ask w.caches n = none ∨ w.keys.dirty.contains n = true ∨
    ∃ pass ∈ w.passes, pass.key = n

variable {before : Caches} {w w' : Work} {a : Action}

/-- A name that asked for nothing asks for nothing still. -/
theorem Healing.ask_eq_none (h : w.Healing before) {n : String}
    (hn : Sync.ask before n = none) : Sync.ask w.caches n = none := by
  have hsame := h.spared n hn
  obtain ⟨capabilities, hcaches⟩ := h.inputs
  rw [hcaches] at hsame ⊢
  have hask : Sync.ask { before with capabilities } n = Sync.ask before n :=
    Sync.ask_congr rfl rfl (fun _ _ => rfl) hsame
  exact hask.trans hn

/-- Whatever leaves the caches and the passes alone and forgets no key keeps on healing. -/
theorem Healing.of_dirty (h : w.Healing before) (orderly : w'.Orderly [])
    (caches : w'.caches = w.caches) (passes : w'.passes = w.passes) (store : w'.store = w.store)
    (dirty : ∀ n, Sync.ask w.caches n = none ∨ (w.keys.dirty.contains n = true →
      w'.keys.dirty.contains n = true)) : w'.Healing before := by
  refine ⟨orderly, store ▸ h.unarmed, caches ▸ h.inputs, caches ▸ h.spared, ?_, fun n hn => ?_⟩
  · rw [caches, passes]
    exact h.current
  · rw [caches, passes]
    rcases dirty n with hnone | hdirty
    · exact .inl hnone
    · exact (h.covered n hn).imp_right (Or.imp_left hdirty)

/-- A worker that takes a key opens a pass over it. -/
theorem Healing.begin (h : w.Healing before) (orderly : Orderly w' []) {worker : Nat} {k : String}
    {keys : KeyQueue} {call : StoreCall} (take : w.keys.take? = some (k, keys))
    (ask : Sync.ask w.caches k = some call)
    (hw : w' = { w with keys, passes := w.passes ++ [⟨worker, k, call⟩] }) :
    w'.Healing before := by
  subst hw
  refine ⟨orderly, h.unarmed, h.inputs, h.spared, fun pass hp => ?_, fun n hn => ?_⟩
  · rcases List.mem_append.mp hp with hp | hp
    · exact h.current pass hp
    · obtain rfl := List.mem_singleton.mp hp
      exact ask
  · by_cases hk : n = k
    · subst hk
      exact .inr (.inr ⟨_, List.mem_append_right _ (List.mem_singleton_self _), rfl⟩)
    · have hdirty := dirty_take take hk
      rcases h.covered n hn with hnone | hd | ⟨pass, hp, hpn⟩
      · exact .inl hnone
      · exact .inr (.inl (hdirty.trans hd))
      · exact .inr (.inr ⟨pass, List.mem_append_left _ hp, hpn⟩)

/-- A write that lands settles its own name and concerns no other. -/
theorem Healing.land (h : w.Healing before) (orderly : Orderly w' []) {pass : Pass}
    (mem : pass ∈ w.passes) {store : MemoryStore} {caches : Caches}
    {answer : Except Fault StoreAnswer} {landed : List StoreCall}
    (run : w.store.run w.caches pass.call = (store, caches, answer))
    (ended : Ended { w with store, caches, landed, passes := w.passes.erase pass } pass.key w') :
    w'.Healing before := by
  have hask := h.current pass mem
  have hunarmed := (MemoryStore.run_of_unarmed w.caches pass.call h.unarmed).1
  rw [run] at hunarmed
  obtain ⟨settled, same⟩ := h.orderly.ask_run h.unarmed mem run
  obtain ⟨cache, rfl, others⟩ := h.orderly.frame_run mem run
  refine ⟨orderly, ?_, ?_, fun n hn => ?_, fun p hp => ?_, fun n hn => ?_⟩
  · rw [ended.store]
    exact hunarmed
  · obtain ⟨capabilities, hinputs⟩ := h.inputs
    rw [ended.caches]
    exact ⟨cache, congrArg (fun c : Caches => { c with capabilities := cache }) hinputs⟩
  · -- the name of the pass has asked for a write from the beginning
    have hne : n ≠ pass.key := by
      rintro rfl
      rw [h.ask_eq_none hn] at hask
      cases hask
    rw [ended.caches]
    exact (others n hne).trans (h.spared n hn)
  · rw [ended.passes] at hp
    rw [ended.caches]
    exact (same p.key (h.orderly.key_ne mem hp)).trans (h.current p (List.mem_of_mem_erase hp))
  · rw [ended.caches, ended.passes]
    by_cases hk : n = pass.key
    · subst hk
      exact .inl (settled hask)
    · rcases h.covered n hn with hnone | hd | ⟨p, hp, rfl⟩
      · exact .inl ((same n hk).trans hnone)
      · exact .inr (.inl (ended.dirty hd))
      · have hne : p ≠ pass := fun he => hk (congrArg Pass.key he)
        exact .inr (.inr ⟨p, (List.mem_erase_of_ne hne).mpr hp, rfl⟩)

/-- **Every step heals on.** -/
theorem Step.healing (step : Step w a w') (ok : a.Calm) (h : w.Healing before) :
    w'.Healing before := by
  have orderly := step.orderly h.orderly
  cases step with
  | observe k change | inject fault => exact ok.elim
  | fail pass mem ended owes => exact ok.elim
  | resync | add | bringBack =>
    exact h.of_dirty orderly rfl rfl rfl fun n => .inr (dirty_addAll w _)
  | idle => exact h
  | close => exact h.of_dirty orderly rfl rfl rfl fun n => .inr id
  | begin take synced ask => exact h.begin orderly take ask rfl
  | land pass mem run ended => exact h.land orderly mem run ended
  | @settle worker k keys _ take synced ask ended =>
    refine h.of_dirty orderly ended.caches ended.passes ended.store fun n => ?_
    -- the key that is taken asks for nothing, and the others stay dirty
    by_cases hk : n = k
    · exact .inl (hk ▸ ask)
    · exact .inr fun hd => ended.dirty ((dirty_take take hk).trans hd)

end Work

/-! ### Healed caches -/

/-- What a resync makes of the caches. -/
structure Caches.Healed (before after : Caches) : Prop where
  /-- Without a class there is no capability. -/
  absent : ∀ n, n ≠ "" → before.storageClasses.peek n = none → after.capabilities.peek n = none
  /-- A class whose provisioner has published has the capability that follows. -/
  served : ∀ n c p, n ≠ "" → before.storageClasses.peek n = some c → c.metadata.name = some n →
    before.provisioners.peek c.provisioner = some p →
    ∃ a, after.capabilities.peek n = some a ∧
      a.spec = .derive c (before.snapshotClasses.peek n) p
  /-- Any other capability is what it was. -/
  spared : ∀ n c, n ≠ "" → before.storageClasses.peek n = some c →
    (c.metadata.name ≠ some n ∨ before.provisioners.peek c.provisioner = none) →
    after.capabilities.peek n = before.capabilities.peek n
  storageClasses : after.storageClasses = before.storageClasses
  snapshotClasses : after.snapshotClasses = before.snapshotClasses
  provisioners : after.provisioners = before.provisioners

namespace System

/-- No key can be handed out, and no pass is open. -/
structure Drained (s : System) : Prop where
  pending : s.controller.queue.keys.pending = []
  passes : s.controller.passes = []

variable {s s' : System}

/-- A class that has another name than the one under which it is cached, or whose provisioner has
not published, asks for nothing. -/
theorem ask_of_unserved {caches : Caches} (keyed : caches.Keyed) {n : String} {c : StorageClass}
    (hclass : caches.storageClasses.peek n = some c)
    (h : c.metadata.name ≠ some n ∨ caches.provisioners.peek c.provisioner = none) :
    Sync.ask caches n = none := by
  rcases Option.eq_none_or_eq_some (Sync.ask caches n) with hask | ⟨call, hask⟩
  · exact hask
  · obtain ⟨hname, p, hp, -⟩ := Sync.written_of_ask hclass hask
    rcases h with hother | hnone
    · -- a class with a name of its own is cached under that
      have hkey : c.metadata.displayName = n := keyed.storageClasses n c hclass
      cases hm : c.metadata.name with
      | none => simp [hm] at hname
      | some m =>
        rw [Metadata.displayName_of_name hm] at hkey
        exact absurd (hm.trans (congrArg some hkey)) hother
    · rw [hnone] at hp
      cases hp

/-- When nothing is left to do, nothing is asked for. -/
theorem ask_of_drained {before : Caches} (h : s.work.Healing before) (drained : s.Drained)
    {n : String} (hn : n ≠ "") : Sync.ask s.controller.caches n = none := by
  have hpasses : s.work.passes = [] := drained.passes
  rcases h.covered n hn with hnone | hdirty | ⟨pass, hp, -⟩
  · exact hnone
  · rw [h.orderly.dirty_of_idle hpasses drained.pending] at hdirty
    cases hdirty
  · rw [hpasses] at hp
    cases hp

/-- After a resync of the provisioners and of the capabilities, every name that asks for a write
is queued. -/
theorem healing_of_resync (keyed : s.controller.caches.Keyed)
    (synced : s.controller.caches.allSynced = true) (empty : s.controller.queue.keys = {})
    (idle : s.controller.passes = []) (unarmed : s.store.failNext = none) :
    ((s.next (.resync .provisionerCapability)).next (.resync .classCapability)).work.Healing
      s.controller.caches := by
  have hpasses : s.work.passes = [] := idle
  have horderly : s.work.Orderly [] := by
    refine ⟨keyed, ?_, ?_, fun k => ?_, fun pass hm => ?_⟩
    · rw [show s.work.keys = {} from empty]
      exact KeyQueue.consistent_empty
    · rw [hpasses]
      exact List.nodup_nil
    · rw [hpasses, show s.work.keys = {} from empty]
      exact ⟨fun hm => absurd hm List.not_mem_nil, fun hm => Bool.noConfusion hm⟩
    · rw [hpasses] at hm
      cases hm
  -- the two resyncs add their keys to an empty queue
  have hwork : ((s.next (.resync .provisionerCapability)).next (.resync .classCapability)).work =
      s.work.addAll (s.controller.caches.resynced .provisionerCapability ++
        s.controller.caches.resynced .classCapability) := by
    rw [work_resync, work_resync, caches_resync]
    simp only [Work.addAll, KeyQueue.addAll_append]
  have hopen : s.work.keys.closed = false := congrArg KeyQueue.closed empty
  rw [hwork]
  refine ⟨?_, unarmed, ⟨_, rfl⟩, fun _ _ => rfl, fun pass hm => ?_, fun n hn => ?_⟩
  · exact (Work.Step.resync (w := s.work) .classCapability _).orderly horderly
  · rw [show (s.work.addAll _).passes = [] from hpasses] at hm
    cases hm
  · -- whatever is asked for, its key is among those of the resyncs
    rcases Option.eq_none_or_eq_some (Sync.ask s.controller.caches n) with hask | ⟨call, hask⟩
    · exact .inl hask
    · have hmem := Caches.mem_resynced_of_ask keyed synced hn hask
      exact .inr (.inl (Work.dirty_addAll_of_mem hopen hmem))

/-- **A resync heals.** From any caches, once the provisioners and the capabilities of classes
have been resynced and the workers have drained the queue: a capability without a class is gone, a
class whose provisioner has published has the capability that follows, and nothing else has
changed. -/
theorem healed_of_resync (keyed : s.controller.caches.Keyed)
    (synced : s.controller.caches.allSynced = true) (empty : s.controller.queue.keys = {})
    (idle : s.controller.passes = []) (unarmed : s.store.failNext = none)
    (run : Run Action.Calm
      ((s.next (.resync .provisionerCapability)).next (.resync .classCapability)) s')
    (drained : s'.Drained) : s.controller.caches.Healed s'.controller.caches := by
  have hbefore := healing_of_resync keyed synced empty idle unarmed
  have hstaffed : ((s.next (.resync .provisionerCapability)).next
      (.resync .classCapability)).controller.Staffed := by
    refine .inl ?_
    rw [caches_resync, caches_resync]
    exact synced
  have h : s'.work.Healing s.controller.caches :=
    Run.preserves run hstaffed (fun ok step hw => step.healing ok hw) hbefore
  obtain ⟨capabilities, hinputs⟩ := h.inputs
  replace hinputs : s'.controller.caches = { s.controller.caches with capabilities } := hinputs
  refine ⟨fun n hn hclass => ?_, fun n c p hn hclass hname hp => ?_, fun n c hn hclass hother => ?_,
    ?_, ?_, ?_⟩
  · have hask := ask_of_drained h drained hn
    have hclass' : s'.controller.caches.storageClasses.peek n = none := by
      rw [hinputs]
      exact hclass
    rw [Sync.ask_of_absent hclass'] at hask
    exact Option.map_eq_none_iff.mp hask
  · have hask := ask_of_drained h drained hn
    have hnamed : c.metadata.name.getD "" ≠ "" := by simpa [hname] using hn
    have hkeyed : s'.controller.caches.Keyed := h.orderly.keyed
    rw [hinputs] at hask hkeyed ⊢
    exact (Sync.ask_of_served hkeyed hclass hnamed hp).mp hask
  · exact h.spared n (ask_of_unserved keyed hclass hother)
  all_goals rw [hinputs]

/-- A class whose provisioner has not published. -/
def unservedClass : StorageClass := { metadata := { name := some "slow" }, provisioner := "tape" }

/-- A capability that follows from nothing. -/
def staleCapability (name : String) : ClassCapability :=
  { metadata := { name := some name }, spec := { provisioner := "floppy" } }

/-- Caches in which nothing is right: the class that is served has no capability, the other one
has a stale one, and a third capability has lost its class. -/
def disordered : Caches where
  storageClasses := (Cache.replace {} [sampleClass, unservedClass]).1
  snapshotClasses := (Cache.replace {} []).1
  provisioners := (Cache.replace {} [sampleProvisioner]).1
  capabilities := (Cache.replace {} [staleCapability "gone", staleCapability "slow"]).1

/-- Caches in disorder still have their objects under their names. -/
theorem keyed_disordered : disordered.Keyed :=
  ⟨Cache.keyed_replace {} _, Cache.keyed_replace {} _, Cache.keyed_replace {} _,
    Cache.keyed_replace {} _⟩

/-- How two workers drain the queue after a resync of the disordered caches. -/
def healing : List Action :=
  [.start 2, .discovered (.ok "v1.29.3"), .turn 0, .turn 1,
    .land ⟨1, "gone", .deleteCapability "gone"⟩, .turn 1, .land samplePass]

/-- Two writes heal the disordered caches: a creation where a class is served, a deletion where the
class is gone. The stale capability of the other class stays. -/
theorem healed_disordered : ∃ s',
    Run Action.Calm (((fresh {} none disordered {}).next (.resync .provisionerCapability)).next
      (.resync .classCapability)) s' ∧
    s'.Drained ∧ s'.landed.length = 2 ∧ disordered.Healed s'.controller.caches := by
  have computed : ((((fresh {} none disordered {}).next (.resync .provisionerCapability)).next
      (.resync .classCapability)).follow healing).map
      (fun s => (s.controller.queue.keys.pending, s.controller.passes, s.landed.length)) =
        some ([], [], 2) := by
    decide +kernel
  obtain ⟨s', hfollow, hs⟩ := Option.map_eq_some_iff.mp computed
  obtain ⟨hpending, hs⟩ := Prod.mk.inj hs
  obtain ⟨hpasses, hlanded⟩ := Prod.mk.inj hs
  have ok : ∀ a ∈ healing, a.Calm := by
    simp [healing, Action.Calm]
  have run := run_of_follow ok hfollow
  have synced : disordered.allSynced = true := by decide
  have drained : s'.Drained := ⟨hpending, hpasses⟩
  have healed := healed_of_resync keyed_disordered synced rfl rfl rfl run drained
  exact ⟨s', run, drained, hlanded, healed⟩

end System

end StorageFeatures
