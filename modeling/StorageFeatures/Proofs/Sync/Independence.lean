import StorageFeatures.Proofs.Sync.Repetition

/-!
# Keys are independent

A pass reads the class of its key, the snapshot class of the same name, the provisioner of the class
and the stored capability, and it writes that capability at most. So a pass over another key in
between is of no consequence for it (`Sync.alike_visit`), apart from the number that the store gives
to what it writes: all keys share one counter. Objects that differ in such numbers only are twins
(`ClassCapability.Twin`).

`Sync.drain` makes passes over some keys, one after the other. Each ends as if it were the only one
(`Sync.drained_of_ready`), and therefore the order of the keys does not matter, which is
`Sync.independent_of_synced`. Workers rely on that when they make passes over different keys.
-/

namespace StorageFeatures

open Resource (displayName)

/-! ### Objects up to the numbers of a store -/

/-- Two values are the same, or a store may have given both of them. -/
def SameOrGiven {α : Type} (given : α → Prop) (x y : α) : Prop := x = y ∨ given x ∧ given y

namespace SameOrGiven

variable {α : Type} {given : α → Prop} {x y z : α}

theorem symm (h : SameOrGiven given x y) : SameOrGiven given y x :=
  h.imp Eq.symm And.symm

/-- What a store may have given stays so along equal values. -/
theorem trans (h : SameOrGiven given x y) (h' : SameOrGiven given y z) :
    SameOrGiven given x z := by
  rcases h with rfl | ⟨hx, hy⟩
  · exact h'
  · rcases h' with rfl | ⟨-, hz⟩
    · exact .inr ⟨hx, hy⟩
    · exact .inr ⟨hx, hz⟩

end SameOrGiven

namespace ClassCapability

/-- A store identifies a new object by its name and a number. -/
def GivenUid (name : String) (uid : Option String) : Prop :=
  ∃ revision : Nat, uid = some (name ++ "-" ++ toString revision)

/-- A store numbers the versions of its objects. -/
def GivenVersion (version : Option String) : Prop :=
  ∃ revision : Nat, version = some (toString revision)

/-- Two objects are the same apart from the numbers that a store has given them. -/
structure Twin (a b : ClassCapability) : Prop where
  spec : b.spec = a.spec
  metadata : b.metadata = { a.metadata with
    uid := b.metadata.uid, resourceVersion := b.metadata.resourceVersion }
  uid : SameOrGiven (GivenUid (displayName a)) a.metadata.uid b.metadata.uid
  version : SameOrGiven GivenVersion a.metadata.resourceVersion b.metadata.resourceVersion

namespace Twin

variable {a b c : ClassCapability}

theorem refl (a : ClassCapability) : Twin a a := ⟨rfl, rfl, .inl rfl, .inl rfl⟩

theorem displayName_eq (h : Twin a b) : displayName b = displayName a := by
  show b.metadata.displayName = a.metadata.displayName
  rw [h.metadata]
  rfl

theorem symm (h : Twin a b) : Twin b a where
  spec := h.spec.symm
  metadata := by rw [h.metadata]
  uid := h.displayName_eq ▸ h.uid.symm
  version := h.version.symm

theorem trans (h : Twin a b) (h' : Twin b c) : Twin a c where
  spec := h'.spec.trans h.spec
  metadata := h'.metadata.trans (by rw [h.metadata])
  uid := h.uid.trans (h.displayName_eq ▸ h'.uid)
  version := h.version.trans h'.version

/-- However far the counters of two stores are, they store twins. -/
theorem created (store store' : MemoryStore) (a : ClassCapability) :
    Twin (store.created a) (store'.created a) :=
  ⟨rfl, rfl, .inr ⟨⟨_, rfl⟩, ⟨_, rfl⟩⟩, .inr ⟨⟨_, rfl⟩, ⟨_, rfl⟩⟩⟩

/-- Replacing an object gives twins on two stores, for only the versions differ. -/
theorem updated (store store' : MemoryStore) (a : ClassCapability) :
    Twin (store.updated a) (store'.updated a) :=
  ⟨rfl, rfl, .inl rfl, .inr ⟨⟨_, rfl⟩, ⟨_, rfl⟩⟩⟩

end Twin

/-- Both objects are absent, or they are twins. -/
def Twins : Option ClassCapability → Option ClassCapability → Prop := Option.Rel Twin

namespace Twins

variable {a b c : Option ClassCapability}

theorem of_eq (h : a = b) : Twins a b := by
  subst h
  cases a with
  | none => exact .none
  | some a => exact .some (.refl a)

theorem symm (h : Twins a b) : Twins b a := by
  cases h with
  | none => exact .none
  | some h => exact .some h.symm

theorem trans (h : Twins a b) (h' : Twins b c) : Twins a c := by
  cases h with
  | none => exact h'
  | some h =>
    cases h' with
    | some h' => exact .some (h.trans h')

end Twins

/-- Twins that are stored are found as twins. -/
theorem Twin.applied {a b : ClassCapability} (h : Twin a b) (cache cache' : Cache ClassCapability) :
    Twins ((cache.apply a).1.peek (displayName a)) ((cache'.apply b).1.peek (displayName a)) := by
  have hfound : (cache.apply a).1.peek (displayName a) = some a := NameMap.get?_insert_self _ _ _
  have hfound' : (cache'.apply b).1.peek (displayName b) = some b := NameMap.get?_insert_self _ _ _
  rw [hfound, ← h.displayName_eq, hfound']
  exact .some h

end ClassCapability

open ClassCapability (Twin Twins)

namespace Sync

variable {store store' : MemoryStore} {caches caches' : Caches} {k : String}

/-! ### Two passes over a key -/

/-- A fitting write stores twins, wherever it is made. -/
theorem twins_perform {call : StoreCall} (fits : Fits (caches.capabilities.peek k) k call)
    (fits' : Fits (caches'.capabilities.peek k) k call) (store store' : MemoryStore) :
    Twins ((store.perform caches call).2.1.capabilities.peek k)
      ((store'.perform caches' call).2.1.capabilities.peek k) := by
  cases call with
  | createCapability a =>
    obtain ⟨rfl, hfree⟩ := fits
    obtain ⟨-, hfree'⟩ := fits'
    rw [perform_create store hfree, perform_create store' hfree']
    exact (Twin.created store store' a).applied _ _
  | updateCapability a =>
    obtain ⟨rfl, old, hold, -⟩ := fits
    obtain ⟨-, old', hold', -⟩ := fits'
    rw [perform_update store (by simp [hold]), perform_update store' (by simp [hold'])]
    exact (Twin.updated store store' a).applied _ _
  | deleteCapability n =>
    have hgone := Option.map_eq_none_iff.mp (perform_of_fits store fits).2
    have hgone' := Option.map_eq_none_iff.mp (perform_of_fits store' fits').2
    exact .of_eq (hgone.trans hgone'.symm)
  | getProvisioner | getCapability | createProvisioner | updateProvisioner => exact fits.elim

/-- A pass can go as it should: the store was not told to fail, and the caches can be relied on. -/
structure Ready (store : MemoryStore) (caches : Caches) : Prop where
  unarmed : store.failNext = none
  keyed : caches.Keyed
  synced : caches.allSynced = true

/-- After a pass another one can go as it should. -/
protected theorem Ready.visit (h : Ready store caches) (k : String) :
    Ready (visit store caches k).store (visit store caches k).caches := by
  rcases visit_cases store caches k with ⟨-, hstore, hcaches⟩ | ⟨call, -, -, hstore, hcaches⟩
  · rwa [hstore, hcaches]
  · have touched := MemoryStore.touched_run caches call store
    rw [hstore, hcaches]
    exact ⟨(MemoryStore.run_of_unarmed caches call h.unarmed).1, touched.keyed h.keyed,
      Caches.allSynced_iff.mpr fun kind =>
        (touched.isSynced kind).trans (Caches.allSynced_iff.mp h.synced kind)⟩

/-- **The same inputs, the same pass.** -/
theorem alike_visit (ready : Ready store caches) (ready' : Ready store' caches')
    (inputs : SameInputs caches caches' k)
    (capability : caches'.capabilities.peek k = caches.capabilities.peek k) :
    (visit store' caches' k).result = (visit store caches k).result ∧
      Twins ((visit store caches k).caches.capabilities.peek k)
        ((visit store' caches' k).caches.capabilities.peek k) := by
  have hd' := decide_eq_of_sameInputs ready.synced ready'.synced inputs capability
  cases hd : decide caches k with
  | error fault =>
    rw [visit_of_error hd, visit_of_error (hd'.trans hd)]
    exact ⟨rfl, .of_eq capability.symm⟩
  | ok d =>
    cases hcall : d.call? with
    | none =>
      rw [visit_of_settled hd hcall, visit_of_settled (hd'.trans hd) hcall]
      exact ⟨rfl, .of_eq capability.symm⟩
    | some call =>
      have fits := fits_of_ask ready.keyed ((call?_of_decide hd).symm.trans hcall)
      have fits' : Fits (caches'.capabilities.peek k) k call := capability ▸ fits
      -- neither store fails, and the write fits on both, so both answer it
      obtain ⟨-, s, hrun⟩ := MemoryStore.run_of_unarmed caches call ready.unarmed
      obtain ⟨-, s', hrun'⟩ := MemoryStore.run_of_unarmed caches' call ready'.unarmed
      obtain ⟨⟨answer, hanswer⟩, -⟩ := perform_of_fits s fits
      obtain ⟨⟨answer', hanswer'⟩, -⟩ := perform_of_fits s' fits'
      rw [visit_of_owed hd hcall, visit_of_owed (hd'.trans hd) hcall, hrun, hrun', hanswer,
        hanswer']
      exact ⟨rfl, twins_perform fits fits' s s'⟩

/-- A pass over another key is of no consequence. -/
theorem alike_visit_of_ne (ready : Ready store caches) {n : String} (hn : n ≠ k) :
    let v := visit store caches k
    (visit v.store v.caches n).result = (visit store caches n).result ∧
      Twins ((visit store caches n).caches.capabilities.peek n)
        ((visit v.store v.caches n).caches.capabilities.peek n) := by
  intro v
  obtain ⟨cache, hcaches, -, hothers⟩ := frame_visit store ready.keyed k
  refine alike_visit ready (ready.visit k) ?_ ?_
  · rw [hcaches]
    exact ⟨rfl, rfl, fun _ _ => rfl⟩
  · rw [hcaches]
    exact hothers n hn

/-! ### Passes over many keys -/

/-- Passes over some keys, one after the other, each with the caches that it finds. -/
def drain (ks : List String) :
    StateM (MemoryStore × Caches) (List (String × Except Fault Outcome)) :=
  ks.mapM fun k => do
    let (_, caches) ← get
    return (k, ← pass MemoryStore.serve caches k)

/-- The first key is visited, then the others on what it leaves. -/
theorem run_drain_cons (store : MemoryStore) (caches : Caches) (k : String) (ks : List String) :
    (drain (k :: ks)).run (store, caches) =
      ((drain ks).run ((visit store caches k).store, (visit store caches k).caches)).map
        ((k, (visit store caches k).result) :: ·) id := by
  have hpass := run_pass_eq store caches k
  simp only [drain, List.mapM_cons, StateT.run_bind, StateT.run_get, StateT.run_pure, bind_assoc,
    pure_bind, hpass]
  rfl

/-- How passes over some keys have ended, and what they have left behind. -/
structure Drained (store : MemoryStore) (caches : Caches) (ks : List String)
    (e : List (String × Except Fault Outcome) × MemoryStore × Caches) : Prop where
  /-- Each has ended as if it were the only one. -/
  results : e.1 = ks.map fun k => (k, (visit store caches k).result)
  /-- Each has left behind what it would have left behind alone. -/
  capabilities : ∀ k ∈ ks, Twins ((visit store caches k).caches.capabilities.peek k)
    (e.2.2.capabilities.peek k)
  others : ∀ n, n ∉ ks → e.2.2.capabilities.peek n = caches.capabilities.peek n
  rest : ∃ cache, e.2.2 = { caches with capabilities := cache }

/-- **Every key for itself.** -/
theorem drained_of_ready {ks : List String} (ready : Ready store caches) (nodup : ks.Nodup) :
    Drained store caches ks ((drain ks).run (store, caches)) := by
  induction ks generalizing store caches with
  | nil => exact ⟨rfl, fun k hk => absurd hk List.not_mem_nil, fun _ _ => rfl, _, rfl⟩
  | cons k ks ih =>
    obtain ⟨hk, nodup⟩ := List.nodup_cons.mp nodup
    have drained := ih (ready.visit k) nodup
    obtain ⟨cache, hcaches, -, hothers⟩ := frame_visit store ready.keyed k
    -- the passes that follow are about other keys
    have alike := fun n (hn : n ∈ ks) =>
      alike_visit_of_ne (k := k) ready (ne_of_mem_of_not_mem hn hk)
    rw [run_drain_cons]
    refine ⟨?_, fun n hn => ?_, fun n hn => ?_, ?_⟩
    · rw [List.map_cons, Prod.map_fst, drained.results]
      exact congrArg _ (List.map_congr_left fun n hn => congrArg (n, ·) (alike n hn).1)
    · rcases List.mem_cons.mp hn with rfl | hn
      · exact .of_eq (drained.others n hk).symm
      · exact (alike n hn).2.trans (drained.capabilities n hn)
    · obtain ⟨hne, hn⟩ := List.ne_and_not_mem_of_not_mem_cons hn
      refine (drained.others n hn).trans ?_
      rw [hcaches]
      exact hothers n hne
    · obtain ⟨cache', hrest⟩ := drained.rest
      exact ⟨cache', hrest.trans (by rw [hcaches])⟩

/-- Two series of passes end alike: every key with the same result, and with the same capabilities
apart from the numbers that the store has given. -/
structure Alike (e e' : List (String × Except Fault Outcome) × MemoryStore × Caches) : Prop where
  results : ∀ k result, (k, result) ∈ e.1 ↔ (k, result) ∈ e'.1
  capabilities : ∀ n, Twins (e.2.2.capabilities.peek n) (e'.2.2.capabilities.peek n)
  storageClasses : e'.2.2.storageClasses = e.2.2.storageClasses
  snapshotClasses : e'.2.2.snapshotClasses = e.2.2.snapshotClasses
  provisioners : e'.2.2.provisioners = e.2.2.provisioners

/-- Passes over the same keys in another order end alike. -/
theorem Drained.alike {ks ks' : List String}
    {e e' : List (String × Except Fault Outcome) × MemoryStore × Caches}
    (h : Drained store caches ks e) (h' : Drained store caches ks' e') (perm : ks.Perm ks') :
    Alike e e' := by
  obtain ⟨cache, hrest⟩ := h.rest
  obtain ⟨cache', hrest'⟩ := h'.rest
  refine ⟨fun k result => ?_, fun n => ?_, by rw [hrest, hrest'], by rw [hrest, hrest'],
    by rw [hrest, hrest']⟩
  · rw [h.results, h'.results]
    exact (perm.map _).mem_iff
  · by_cases hn : n ∈ ks
    · exact (h.capabilities n hn).symm.trans (h'.capabilities n (perm.mem_iff.mp hn))
    · have hn' : n ∉ ks' := fun hmem => hn (perm.mem_iff.mpr hmem)
      exact .of_eq ((h.others n hn).trans (h'.others n hn').symm)

/-- Passes over different keys do not concern each other. -/
structure Independent (store : MemoryStore) (caches : Caches) : Prop where
  /-- A pass ends as it would have ended before a pass over another key. -/
  results : ∀ {a b}, a ≠ b →
    (visit (visit store caches b).store (visit store caches b).caches a).result =
      (visit store caches a).result
  /-- Passes over two keys end alike in either order. -/
  swap : ∀ {a b}, a ≠ b →
    Alike ((drain [a, b]).run (store, caches)) ((drain [b, a]).run (store, caches))
  /-- So do passes over any keys in any order. -/
  orders : ∀ {ks ks'}, ks.Nodup → ks.Perm ks' →
    Alike ((drain ks).run (store, caches)) ((drain ks').run (store, caches))

/-- **Keys are independent.** Passes over any keys, each taken once, end alike in every order, and
leave the same objects up to the numbers that the store gives out. -/
theorem independent_of_synced (reached : caches.Reached) (synced : caches.allSynced = true)
    (unarmed : store.failNext = none) : Independent store caches := by
  have ready : Ready store caches := ⟨unarmed, reached.keyed, synced⟩
  have orders : ∀ {ks ks' : List String}, ks.Nodup → ks.Perm ks' →
      Alike ((drain ks).run (store, caches)) ((drain ks').run (store, caches)) :=
    fun nodup perm => (drained_of_ready ready nodup).alike
      (drained_of_ready ready (perm.nodup_iff.mp nodup)) perm
  refine ⟨fun hab => (alike_visit_of_ne ready hab).1, fun {a b} hab => ?_, orders⟩
  exact orders (by simpa using hab) (.swap b a [])

/-- The capability of one class is created, that of another one is put right, and a third class is
gone. In the two orders the store counts differently. -/
theorem independent_mixed :
    let capability (n : String) : ClassCapability :=
      { metadata := { name := some n, uid := some (n ++ "-1") }, spec := { provisioner := "tape" } }
    let caches : Caches :=
      { storageClasses := (Cache.replace {}
          [{ metadata := { name := some "fast" }, provisioner := "disk" },
           { metadata := { name := some "slow" }, provisioner := "disk" }]).1
        snapshotClasses := (Cache.replace {} []).1
        provisioners := (Cache.replace {} [{ metadata := { name := some "disk" },
                                             spec := { plugin := ⟨"disk", "1"⟩ } }]).1
        capabilities := (Cache.replace {} [capability "slow", capability "old"]).1 }
    let version (ks : List String) (n : String) : Option String :=
      (((drain ks).run ({}, caches)).2.2.capabilities.peek n).bind (·.metadata.resourceVersion)
    caches.Reached ∧ caches.allSynced = true ∧ ({} : MemoryStore).failNext = none ∧
      Independent {} caches ∧
      ((drain ["fast", "old", "slow"]).run ({}, caches)).1.map (fun e => (e.1, e.2.toOption)) =
        [("fast", some .created), ("old", some .deleted), ("slow", some .updated)] ∧
      version ["fast", "old", "slow"] "fast" = some "1" ∧
      version ["slow", "fast", "old"] "fast" = some "2" := by
  intro capability caches version
  have reached : caches.Reached :=
    ⟨.replace .empty _, .replace .empty _, .replace .empty _, .replace .empty _⟩
  have independent : Independent {} caches := independent_of_synced reached rfl rfl
  exact ⟨reached, rfl, rfl, independent, by decide +kernel, by decide +kernel, by decide +kernel⟩

end Sync

end StorageFeatures
