import StorageFeatures.Proofs.Sync.Ask
import Mathlib.Logic.Relation

/-!
# Passes that are repeated

One pass over a key is enough. `Sync.visit` is a pass on the store that keeps its objects in the
caches, with the calls that it makes and their answers written down (`CapabilityStore.logged`,
which changes nothing else by `Sync.pass_logged`). There are three ways for it to go, one lemma
each: it cannot decide, it decides on nothing, or it makes one write.

A name is at rest when a pass over it decides on nothing. A pass without a failure leaves its name
at rest (`Sync.atRest_of_visit`), and a name stays at rest while its inputs are the same
(`Sync.AtRest.uneventful`). `Sync.settles_of_synced` puts this together with what a pass stores.
-/

namespace StorageFeatures

open Resource (displayName)

/-! ### Calls and their answers -/

/-- A store beside a list of the calls it got, each with its answer. -/
def CapabilityStore.logged {m : Type → Type} [Monad m] (store : CapabilityStore m) :
    CapabilityStore (StateT (List (StoreCall × Except Fault StoreAnswer)) m) := fun call => do
  let answer ← store call
  modify (· ++ [(call, answer)])
  return answer

namespace Sync

/-- Nothing but the list depends on whether calls are written down. -/
theorem pass_logged {m : Type → Type} [Monad m] [LawfulMonad m] (store : CapabilityStore m)
    (caches : Caches) (k : String) (log : List (StoreCall × Except Fault StoreAnswer)) :
    Prod.fst <$> (pass store.logged caches k).run log = pass store caches k := by
  cases h : decide caches k with
  | error fault => simp [pass_of_error h]
  | ok d =>
    cases hcall : d.call? with
    | none => simp [pass_of_settled h hcall]
    | some call => simp [pass_of_owed h hcall, CapabilityStore.logged]

/-- What comes of a pass: its result, its calls with their answers, and what is stored then. -/
structure Visit where
  result : Except Fault Outcome
  calls : List (StoreCall × Except Fault StoreAnswer)
  store : MemoryStore
  caches : Caches

/-- The pass succeeds, and so does every call that it makes. -/
def Visit.Smooth (v : Visit) : Prop :=
  (∃ outcome, v.result = .ok outcome) ∧ ∀ e ∈ v.calls, ∃ answer, e.2 = .ok answer

/-- A pass over a key on the store that keeps its objects in the caches. -/
def visit (store : MemoryStore) (caches : Caches) (k : String) : Visit :=
  let r := ((pass MemoryStore.serve.logged caches k).run []).run (store, caches)
  { result := r.1.1, calls := r.1.2, store := r.2.1, caches := r.2.2 }

variable {store : MemoryStore} {caches caches' : Caches} {k : String}

/-- A visit is a pass on the store in the caches. -/
theorem run_pass_eq (store : MemoryStore) (caches : Caches) (k : String) :
    (pass MemoryStore.serve caches k).run (store, caches) =
      ((visit store caches k).result, (visit store caches k).store,
        (visit store caches k).caches) :=
  (congrFun (pass_logged MemoryStore.serve caches k []) (store, caches)).symm

/-! ### How a pass can go -/

theorem visit_of_error {fault : Fault} (h : decide caches k = .error fault) :
    visit store caches k = ⟨.error fault, [], store, caches⟩ := by
  rw [visit, pass_of_error h]
  rfl

theorem visit_of_settled {d : Decision} (h : decide caches k = .ok d) (hcall : d.call? = none) :
    visit store caches k = ⟨.ok d.outcome, [], store, caches⟩ := by
  rw [visit, pass_of_settled h hcall]
  rfl

/-- A decision that needs a write makes that call, and ends as it is answered. -/
theorem visit_of_owed {d : Decision} {call : StoreCall} (h : decide caches k = .ok d)
    (hcall : d.call? = some call) : visit store caches k =
      ⟨conclude call ((store.run caches call).2.2.map fun _ => ()),
        [(call, (store.run caches call).2.2)], (store.run caches call).1,
        (store.run caches call).2.1⟩ := by
  rw [visit, pass_of_owed h hcall]
  rfl

/-- A pass makes the write that is asked for, or nothing happens. -/
theorem visit_cases (store : MemoryStore) (caches : Caches) (k : String) :
    ((visit store caches k).calls = [] ∧ (visit store caches k).store = store ∧
        (visit store caches k).caches = caches) ∨
      ∃ call, ask caches k = some call ∧
        (visit store caches k).calls = [(call, (store.run caches call).2.2)] ∧
        (visit store caches k).store = (store.run caches call).1 ∧
        (visit store caches k).caches = (store.run caches call).2.1 := by
  cases hd : decide caches k with
  | error fault =>
    rw [visit_of_error hd]
    exact .inl ⟨rfl, rfl, rfl⟩
  | ok d =>
    cases hcall : d.call? with
    | none =>
      rw [visit_of_settled hd hcall]
      exact .inl ⟨rfl, rfl, rfl⟩
    | some call =>
      rw [visit_of_owed hd hcall]
      exact .inr ⟨call, (call?_of_decide hd).symm.trans hcall, rfl, rfl, rfl⟩

/-- The calls of a pass are those that the caches ask for. -/
theorem ask_of_mem_calls {e : StoreCall × Except Fault StoreAnswer}
    (h : e ∈ (visit store caches k).calls) : ask caches k = some e.1 := by
  rcases visit_cases store caches k with ⟨hcalls, -, -⟩ | ⟨call, hask, hcalls, -, -⟩
  · rw [hcalls] at h
    cases h
  · rw [hcalls] at h
    obtain rfl := List.mem_singleton.mp h
    exact hask

/-- A visit makes one call at most. -/
theorem length_calls_le_one (store : MemoryStore) (caches : Caches) (k : String) :
    (visit store caches k).calls.length ≤ 1 := by
  rcases visit_cases store caches k with ⟨hcalls, -, -⟩ | ⟨call, -, hcalls, -, -⟩ <;> simp [hcalls]

/-- A write that fits the stored capability of a name is a write about that capability. -/
theorem Fits.about {stored : Option ClassCapability} {call : StoreCall} (h : Fits stored k call) :
    call.isWrite = true ∧ call.kind = .classCapability ∧ call.name = k := by
  cases call <;> first | exact ⟨rfl, rfl, h.1⟩ | exact h.elim

/-- A pass changes the capability of its key at most. -/
theorem frame_visit (store : MemoryStore) (keyed : caches.Keyed) (k : String) :
    ∃ cache, (visit store caches k).caches = { caches with capabilities := cache } ∧
      cache.synced = caches.capabilities.synced ∧
      ∀ n, n ≠ k → cache.peek n = caches.capabilities.peek n := by
  rcases visit_cases store caches k with ⟨-, -, hcaches⟩ | ⟨call, hask, -, -, hcaches⟩
  · rw [hcaches]
    exact ⟨_, rfl, rfl, fun _ _ => rfl⟩
  · have touched := MemoryStore.touched_run caches call store
    obtain ⟨cache, hframe, hothers⟩ := touched.frame (fits_of_ask keyed hask).concerns
    have hsynced := touched.isSynced .classCapability
    rw [hframe] at hsynced
    rw [hcaches]
    exact ⟨cache, hframe, hsynced, hothers⟩

/-- Only a class without a name keeps a pass over synced caches from a decision. -/
theorem unnamed_of_decide (keyed : caches.Keyed) (synced : caches.allSynced = true)
    {fault : Fault} (h : decide caches k = .error fault) : Unnamed caches k := by
  rcases cold_or_unnamed keyed h with ⟨kind, cold, -⟩ | ⟨unnamed, -⟩
  · rw [Caches.allSynced_iff.mp synced kind] at cold
    cases cold
  · exact unnamed

/-! ### Names at rest -/

/-- A pass over the name decides that nothing has to be written. -/
def AtRest (caches : Caches) (k : String) : Prop :=
  ∃ d, decide caches k = .ok d ∧ d.call? = none

/-- A pass over a name at rest makes no call and changes nothing. -/
theorem AtRest.visit_eq (h : AtRest caches k) (store : MemoryStore) :
    ∃ outcome, (outcome = .unchanged ∨ outcome = .skipped) ∧
      visit store caches k = ⟨.ok outcome, [], store, caches⟩ := by
  obtain ⟨d, hd, hcall⟩ := h
  refine ⟨d.outcome, ?_, visit_of_settled hd hcall⟩
  cases d with
  | wait => exact .inr rfl
  | keep | create | update | delete => exact .inl rfl

/-- Two contents of the caches show the same under a name: its class, its snapshot class and the
provisioner of the class. -/
structure SameInputs (caches caches' : Caches) (k : String) : Prop where
  storageClass : caches'.storageClasses.peek k = caches.storageClasses.peek k
  snapshotClass : caches'.snapshotClasses.peek k = caches.snapshotClasses.peek k
  provisioner : ∀ c, caches.storageClasses.peek k = some c →
    caches'.provisioners.peek c.provisioner = caches.provisioners.peek c.provisioner

/-- What can happen while the inputs of a name and its stored capability stay as they are. -/
inductive Uneventful (k : String) : MemoryStore × Caches → MemoryStore × Caches → Prop where
  /-- Another pass over the name. -/
  | again (store : MemoryStore) (caches : Caches) : Uneventful k (store, caches)
      ((visit store caches k).store, (visit store caches k).caches)
  /-- A watch reports the stored capability again. -/
  | redelivered (store : MemoryStore) {caches : Caches} {a : ClassCapability}
      (stored : caches.capabilities.peek k = some a) : Uneventful k (store, caches)
      (store, { caches with capabilities := (caches.capabilities.observe (.applied a)).1 })
  /-- Something happens to the store or to other objects. -/
  | elsewhere (store store' : MemoryStore) {caches caches' : Caches}
      (inputs : SameInputs caches caches' k)
      (capability : caches'.capabilities.peek k = caches.capabilities.peek k)
      (synced : ∀ kind, caches.isSynced kind = true → caches'.isSynced kind = true) :
      Uneventful k (store, caches) (store', caches')

theorem get_eq_of_peek {α : Type} [Resource α] {c c' : Cache α} (hc : c.synced = true)
    (hc' : c'.synced = true) (h : c'.peek k = c.peek k) : c'.get k = c.get k := by
  rw [Cache.get_eq_ok_iff.mpr ⟨hc, rfl⟩]
  exact Cache.get_eq_ok_iff.mpr ⟨hc', h⟩

/-- What is decided under a name depends on its inputs and on its capability. -/
theorem decide_eq_of_sameInputs (synced : caches.allSynced = true)
    (synced' : caches'.allSynced = true) (inputs : SameInputs caches caches' k)
    (capability : caches'.capabilities.peek k = caches.capabilities.peek k) :
    decide caches' k = decide caches k := by
  have hs := Caches.allSynced_iff.mp synced
  have hs' := Caches.allSynced_iff.mp synced'
  have hcapability := get_eq_of_peek (hs .classCapability) (hs' .classCapability) capability
  unfold decide
  rw [get_bind_of_synced (hs .storageClass), get_bind_of_synced (hs' .storageClass),
    inputs.storageClass]
  cases hclass : caches.storageClasses.peek k with
  | none => simp only [decideOrphan, hcapability]
  | some c =>
    simp only [decideServed, hcapability,
      get_eq_of_peek (hs .snapshotClass) (hs' .snapshotClass) inputs.snapshotClass,
      get_eq_of_peek (hs .provisionerCapability) (hs' .provisionerCapability)
        (inputs.provisioner c hclass)]

/-- **A name stays at rest.** -/
theorem AtRest.uneventful {s s' : MemoryStore × Caches} (step : Uneventful k s s')
    (synced : s.2.allSynced = true) (h : AtRest s.2 k) :
    s'.2.allSynced = true ∧ AtRest s'.2 k := by
  -- whatever leaves the inputs and the capability alone keeps the decision
  have kept : ∀ {caches caches' : Caches}, caches.allSynced = true →
      (∀ kind, caches.isSynced kind = true → caches'.isSynced kind = true) →
      SameInputs caches caches' k →
      caches'.capabilities.peek k = caches.capabilities.peek k → AtRest caches k →
      caches'.allSynced = true ∧ AtRest caches' k := by
    intro caches caches' synced hsynced inputs capability h
    have synced' : caches'.allSynced = true :=
      Caches.allSynced_iff.mpr fun kind => hsynced kind (Caches.allSynced_iff.mp synced kind)
    obtain ⟨d, hd, hcall⟩ := h
    exact ⟨synced', d, (decide_eq_of_sameInputs synced synced' inputs capability).trans hd, hcall⟩
  cases step with
  | again store caches =>
    obtain ⟨outcome, -, hvisit⟩ := h.visit_eq store
    rw [hvisit]
    exact ⟨synced, h⟩
  | @redelivered store caches a stored =>
    refine kept synced (fun kind hkind => ?_) ⟨rfl, rfl, fun _ _ => rfl⟩ ?_ h
    · cases kind <;> exact hkind
    · -- the object stands under its own name, be it this one or another
      show (caches.capabilities.apply a).1.objects.get? k = caches.capabilities.peek k
      rw [Cache.get?_apply]
      split
      · exact stored.symm
      · rfl
  | elsewhere store store' inputs capability hsynced =>
    exact kept synced hsynced inputs capability h

/-! ### What a pass leaves behind -/

/-- A pass without a failure has come to a decision. -/
theorem exists_decide_of_smooth (smooth : (visit store caches k).Smooth) :
    ∃ d, decide caches k = .ok d := by
  obtain ⟨outcome, hresult⟩ := smooth.1
  cases hd : decide caches k with
  | error fault =>
    rw [visit_of_error hd] at hresult
    cases hresult
  | ok d => exact ⟨d, rfl⟩

/-- A pass without a failure whose write was asked for has made it. -/
theorem exists_perform_of_smooth {call : StoreCall} (smooth : (visit store caches k).Smooth)
    (hask : ask caches k = some call) :
    ∃ store' : MemoryStore, (visit store caches k).caches = (store'.perform caches call).2.1 := by
  obtain ⟨d, hd⟩ := exists_decide_of_smooth smooth
  have hcall := (call?_of_decide hd).trans hask
  have hanswers := smooth.2
  rw [visit_of_owed hd hcall] at hanswers ⊢
  obtain ⟨answer, hanswer⟩ := hanswers _ (List.mem_singleton_self _)
  rcases MemoryStore.run_cases caches call store with ⟨_, fault, -, hrun⟩ | ⟨store', -, hrun⟩
  · rw [hrun] at hanswer
    cases hanswer
  · exact ⟨store', congrArg (·.2.1) hrun⟩

/-- **One pass is enough.** A pass without a failure leaves its name at rest. -/
theorem atRest_of_visit (keyed : caches.Keyed) (synced : caches.allSynced = true)
    (smooth : (visit store caches k).Smooth) :
    (visit store caches k).caches.allSynced = true ∧ AtRest (visit store caches k).caches k := by
  obtain ⟨d, hd⟩ := exists_decide_of_smooth smooth
  cases hask : ask caches k with
  | none =>
    have hcall := (call?_of_decide hd).trans hask
    rw [visit_of_settled hd hcall]
    exact ⟨synced, d, hd, hcall⟩
  | some call =>
    obtain ⟨store', hcaches⟩ := exists_perform_of_smooth smooth hask
    have touched := (MemoryStore.touched_perform caches call store').1
    have synced' : (store'.perform caches call).2.1.allSynced = true :=
      Caches.allSynced_iff.mpr fun kind =>
        (touched.isSynced kind).trans (Caches.allSynced_iff.mp synced kind)
    have hrest := ask_perform store' keyed hask
    rw [hcaches]
    refine ⟨synced', ?_⟩
    cases hd' : decide (store'.perform caches call).2.1 k with
    | ok d' => exact ⟨d', hd', (call?_of_decide hd').trans hrest⟩
    | error fault =>
      -- the class is the one that the first pass found, and that one has a name
      obtain ⟨c, hclass, hname⟩ := unnamed_of_decide (touched.keyed keyed) synced' hd'
      obtain ⟨cache, hframe, -⟩ := touched.frame (fits_of_ask keyed hask).concerns
      have hclass : caches.storageClasses.peek k = some c := by
        rw [hframe] at hclass
        exact hclass
      exact absurd hname (written_of_ask hclass hask).1

/-- An update that is asked for keeps the metadata of the stored object. -/
theorem metadata_of_ask {a : ClassCapability}
    (h : ask caches k = some (.updateCapability a)) :
    ∃ old, caches.capabilities.peek k = some old ∧ a.metadata = old.metadata := by
  unfold ask at h
  split at h
  · obtain ⟨_, -, hcall⟩ := Option.map_eq_some_iff.mp h
    cases hcall
  · split at h
    · cases h
    · split at h
      · cases h
      · unfold askServed at h
        split at h
        · cases h
        · rename_i old hold
          split at h
          · rename_i merged hmerge
            split at h
            · cases h
            · cases h
              exact ⟨old, hold, (ClassCapability.merge_eq_ok.mp hmerge).2.1⟩
          · cases h

/-- A write under the name of a class that has a capability changes the spec of the capability and
the revision in its metadata. -/
theorem metadata_perform_of_ask (store' : MemoryStore) (keyed : caches.Keyed) {c : StorageClass}
    {call : StoreCall} {old a : ClassCapability} (hclass : caches.storageClasses.peek k = some c)
    (hask : ask caches k = some call) (hold : caches.capabilities.peek k = some old)
    (ha : (store'.perform caches call).2.1.capabilities.peek k = some a) :
    a.metadata = { old.metadata with resourceVersion := a.metadata.resourceVersion } := by
  obtain ⟨-, p, -, hwritten⟩ := written_of_ask hclass hask
  have hfits := fits_of_ask keyed hask
  rw [hold] at hfits
  cases call with
  | createCapability b => cases hfits.2
  | updateCapability b =>
    obtain ⟨rfl, -⟩ := hfits
    obtain ⟨old', hold', hmeta⟩ := metadata_of_ask hask
    obtain rfl := Option.some.inj (hold.symm.trans hold')
    have hthere : caches.capabilities.peek (displayName b) ≠ none := by simp [hold]
    rw [perform_update store' hthere] at ha
    obtain rfl := Option.some.inj ((NameMap.get?_insert_self _ _ _).symm.trans ha)
    rw [← hmeta]
    rfl
  | deleteCapability n => cases hwritten
  | getProvisioner | getCapability | createProvisioner | updateProvisioner => exact hfits.elim

/-- What a pass over a key does, and what is left to do after it. -/
structure Settles (store : MemoryStore) (caches : Caches) (k : String) : Prop where
  /-- The pass is the one that nobody writes down. -/
  pass_eq : (pass MemoryStore.serve caches k).run (store, caches) =
    ((visit store caches k).result, (visit store caches k).store, (visit store caches k).caches)
  /-- One call is made at most. -/
  one_call : (visit store caches k).calls.length ≤ 1
  /-- It is a write of the capability with the name of the key. -/
  about : ∀ e ∈ (visit store caches k).calls,
    e.1.isWrite = true ∧ e.1.kind = .classCapability ∧ e.1.name = k
  /-- Nothing else changes. -/
  frame : ∃ cache, (visit store caches k).caches = { caches with capabilities := cache } ∧
    cache.synced = caches.capabilities.synced ∧
    ∀ n, n ≠ k → cache.peek n = caches.capabilities.peek n
  /-- Only a class without a name or a store that was told to fail can spoil it. -/
  smooth : store.failNext = none →
    (∀ c, caches.storageClasses.peek k = some c → c.metadata.name.getD "" ≠ "") →
    (visit store caches k).Smooth
  /-- After a pass without a failure, whatever happens that leaves the inputs alone, further passes
  find nothing to do. -/
  stable : (visit store caches k).Smooth → ∀ s,
    Relation.ReflTransGen (Uneventful k)
      ((visit store caches k).store, (visit store caches k).caches) s →
    ∃ outcome, (outcome = .unchanged ∨ outcome = .skipped) ∧
      visit s.1 s.2 k = ⟨.ok outcome, [], s.1, s.2⟩
  /-- The capability of a class that has a name and a published provisioner has the spec that
  follows from them. Of an older one it keeps the metadata, up to the revision. -/
  derived : (visit store caches k).Smooth → ∀ c p, caches.storageClasses.peek k = some c →
    c.metadata.name.getD "" ≠ "" → caches.provisioners.peek c.provisioner = some p →
    ∃ a, (visit store caches k).caches.capabilities.peek k = some a ∧
      a.spec = .derive c (caches.snapshotClasses.peek k) p ∧
      ∀ old, caches.capabilities.peek k = some old →
        a.metadata = { old.metadata with resourceVersion := a.metadata.resourceVersion }

/-- **A pass settles its key.** It writes one capability at most and nothing else; and unless it
fails, further passes find nothing to do until something changes by which it was decided. -/
theorem settles_of_synced (keyed : caches.Keyed) (synced : caches.allSynced = true)
    (store : MemoryStore) (k : String) : Settles store caches k where
  pass_eq := run_pass_eq store caches k
  one_call := length_calls_le_one store caches k
  about e he := (fits_of_ask keyed (ask_of_mem_calls he)).about
  frame := frame_visit store keyed k
  smooth unarmed named := by
    cases hd : decide caches k with
    | error fault =>
      obtain ⟨c, hclass, hname⟩ := unnamed_of_decide keyed synced hd
      exact absurd hname (named c hclass)
    | ok d =>
      cases hcall : d.call? with
      | none =>
        rw [visit_of_settled hd hcall]
        exact ⟨⟨_, rfl⟩, fun e he => absurd he List.not_mem_nil⟩
      | some call =>
        have hfits := fits_of_ask keyed ((call?_of_decide hd).symm.trans hcall)
        obtain ⟨-, store', hrun⟩ := MemoryStore.run_of_unarmed caches call unarmed
        obtain ⟨⟨answer, hanswer⟩, -⟩ := perform_of_fits store' hfits
        rw [← hrun] at hanswer
        rw [visit_of_owed hd hcall, hanswer]
        refine ⟨?_, fun e he => ⟨answer, ?_⟩⟩
        · cases call <;> exact ⟨_, rfl⟩
        · exact congrArg Prod.snd (List.mem_singleton.mp he)
  stable smooth s run := by
    have h : s.2.allSynced = true ∧ AtRest s.2 k := by
      induction run with
      | refl => exact atRest_of_visit keyed synced smooth
      | tail _ step ih => exact ih.2.uneventful step ih.1
    exact h.2.visit_eq s.1
  derived smooth c p hclass hname hp := by
    cases hask : ask caches k with
    | none =>
      obtain ⟨a, ha, hspec⟩ := (ask_of_served keyed hclass hname hp).mp hask
      obtain ⟨d, hd⟩ := exists_decide_of_smooth smooth
      rw [visit_of_settled hd ((call?_of_decide hd).trans hask)]
      refine ⟨a, ha, hspec, fun old hold => ?_⟩
      obtain rfl := Option.some.inj (ha.symm.trans hold)
      rfl
    | some call =>
      obtain ⟨store', hcaches⟩ := exists_perform_of_smooth smooth hask
      obtain ⟨-, p', hp', hwritten⟩ := written_of_ask hclass hask
      obtain rfl := Option.some.inj (hp.symm.trans hp')
      have hstored := (perform_of_fits store' (fits_of_ask keyed hask)).2
      obtain ⟨a, ha, hspec⟩ := Option.map_eq_some_iff.mp (hstored.trans hwritten)
      rw [hcaches]
      exact ⟨a, ha, hspec, fun old hold =>
        metadata_perform_of_ask store' keyed hclass hask hold ha⟩

/-- A capability that follows from nothing is put right by one pass, and keeps its metadata. -/
theorem settles_stale :
    let stale : ClassCapability :=
      { metadata := { generateName := some "fast", uid := some "fast-3", labels := some ∅,
                      resourceVersion := some "5" }
        spec := { provisioner := "floppy" } }
    let caches : Caches :=
      { storageClasses := (Cache.replace {} [{ metadata := { name := some "fast" },
                                               provisioner := "disk" }]).1
        snapshotClasses := (Cache.replace {} [{ metadata := { name := some "fast" },
                                                driver := "disk" }]).1
        provisioners := (Cache.replace {} [{ metadata := { name := some "disk" },
                                             spec := { plugin := ⟨"disk", "1"⟩ } }]).1
        capabilities := (Cache.replace {} [stale]).1 }
    caches.Keyed ∧ caches.allSynced = true ∧ Settles { revision := 6 } caches "fast" ∧
      (visit { revision := 6 } caches "fast").result = .ok .updated ∧
      (visit { revision := 6 } caches "fast").Smooth ∧
      (visit { revision := 6 } caches "fast").caches.capabilities.peek "fast" =
        some { metadata := { stale.metadata with resourceVersion := some "7" }
               spec := { provisioner := "disk" } } := by
  intro stale caches
  have keyed : caches.Keyed :=
    ⟨Cache.keyed_replace {} _, Cache.keyed_replace {} _, Cache.keyed_replace {} _,
      Cache.keyed_replace {} _⟩
  have settles := settles_of_synced keyed rfl { revision := 6 } "fast"
  refine ⟨keyed, rfl, settles, rfl, settles.smooth rfl ?_, by decide +kernel⟩
  intro c hc
  have hsome : (caches.storageClasses.peek "fast").map (·.metadata.name.getD "") = some "fast" := by
    decide +kernel
  rw [hc] at hsome
  exact fun hnone => by simp [hnone] at hsome

end Sync

end StorageFeatures
