import StorageFeatures.Proofs.Sync.Repetition

/-!
# How a pass fails

A cold cache that was taken for an empty one would have capabilities deleted whose classes exist.
`Sync.cautious_of_reached` says of every pass, whichever caches have synced, whatever is in them and
however the store answers, that it writes only what it has seen a reason for, and it classifies the
faults of the pass:

* a cold cache and a class without a name are found before anything is written;
* every other fault is the answer to the one capability that was to be created or replaced, and it
  is relayed as it is. A store that answers in the words of a cold cache is relayed, too
  (`Sync.relays_cold`);
* a deletion that fails is no fault.

Two things carry the argument. A pass makes the write of its decision and no other call, on any
store (`Sync.attempt_of_owed`), and a write is decided on only after the caches that speak for it
were found synced (`Sync.grounds_of_decide`).
-/

namespace StorageFeatures

/-- Whether a call creates or replaces the capability of a class. -/
def StoreCall.Puts (call : StoreCall) : Prop :=
  ∃ a, call = .createCapability a ∨ call = .updateCapability a

namespace Sync

/-! ### Passes on any store -/

/-- What a pass comes to, and the calls that it has made with their answers. -/
structure Attempt where
  result : Except Fault Outcome
  calls : List (StoreCall × Except Fault StoreAnswer)

/-- The pass was to create or replace a capability, and failed for the answer to that. -/
def Attempt.Relays (a : Attempt) (fault : Fault) : Prop :=
  ∃ call : StoreCall, call.Puts ∧ a.calls = [(call, .error fault)]

/-- A pass over a key on a store in some state. -/
def attempt {σ : Type} (store : CapabilityStore (StateM σ)) (s : σ) (caches : Caches) (k : String) :
    Attempt :=
  let r := (((pass store.logged caches k).run []).run s).1
  ⟨r.1, r.2⟩

section Attempt

variable {σ : Type} {store : CapabilityStore (StateM σ)} {s : σ} {caches : Caches} {k : String}
  {d : Decision} {call : StoreCall}

theorem attempt_of_error {fault : Fault} (h : decide caches k = .error fault) :
    attempt store s caches k = ⟨.error fault, []⟩ := by
  rw [attempt, pass_of_error h]
  rfl

theorem attempt_of_settled (h : decide caches k = .ok d) (hcall : d.call? = none) :
    attempt store s caches k = ⟨.ok d.outcome, []⟩ := by
  rw [attempt, pass_of_settled h hcall]
  rfl

/-- A decision that needs a write makes that call, and ends as it is answered. -/
theorem attempt_of_owed (h : decide caches k = .ok d) (hcall : d.call? = some call) :
    attempt store s caches k = ⟨conclude call (((store call).run s).1.map fun _ => ()),
      [(call, ((store call).run s).1)]⟩ := by
  rw [attempt, pass_of_owed h hcall]
  rfl

/-! ### The grounds of a write -/

/-- What has been seen before a write is made: the class is gone and its capability is not, or
nothing is cold. -/
inductive Grounds (caches : Caches) (k : String) : StoreCall → Prop where
  | orphan {stored : ClassCapability} (classes : caches.isSynced .storageClass = true)
      (capabilities : caches.isSynced .classCapability = true)
      (hclass : caches.storageClasses.peek k = none)
      (hstored : caches.capabilities.peek k = some stored) : Grounds caches k (.deleteCapability k)
  | served {call : StoreCall} (puts : call.Puts) (synced : caches.allSynced = true) :
      Grounds caches k call

/-- A deletion is made only of a capability that is there and whose class is gone. -/
theorem Grounds.of_delete {n : String} (h : Grounds caches k (.deleteCapability n)) :
    n = k ∧ caches.isSynced .storageClass = true ∧ caches.isSynced .classCapability = true ∧
      caches.storageClasses.peek k = none ∧
      ∃ stored, caches.capabilities.peek k = some stored := by
  cases h with
  | orphan classes capabilities hclass hstored =>
    exact ⟨rfl, classes, capabilities, hclass, _, hstored⟩
  | served puts => obtain ⟨_, h | h⟩ := puts <;> cases h

/-- An object is put only when all caches have synced. -/
theorem Grounds.synced_of_puts (h : Grounds caches k call) (puts : call.Puts) :
    caches.allSynced = true := by
  cases h with
  | orphan => obtain ⟨_, h | h⟩ := puts <;> cases h
  | served _ synced => exact synced

/-- What is served is created or replaced. -/
theorem puts_of_serve {stored : Option ClassCapability} {c : StorageClass}
    {snapshots : Option SnapshotClass} {p : ProvisionerCapability}
    (h : serve stored c snapshots p = .ok d) (hcall : d.call? = some call) : call.Puts := by
  unfold serve at h
  split at h
  · cases h
    cases hcall
    exact ⟨_, .inl rfl⟩
  · rename_i stored
    cases hmerge : stored.merge c snapshots p with
    | error fault =>
      rw [hmerge] at h
      cases h
    | ok merged =>
      rw [hmerge] at h
      cases h
      dsimp only at hcall
      split at hcall
      · cases hcall
      · cases hcall
        exact ⟨_, .inr rfl⟩

/-- **Every write has its grounds.** -/
theorem grounds_of_decide (h : decide caches k = .ok d) (hcall : d.call? = some call) :
    Grounds caches k call := by
  have ways := decides caches k
  generalize decide caches k = r at h ways
  cases ways with
  | cold | unnamed => cases h
  | absent | unserved =>
    cases h
    cases hcall
  | orphan classes capabilities hclass hstored =>
    cases h
    cases hcall
    exact .orphan classes capabilities hclass hstored
  | served synced => exact .served (puts_of_serve h hcall) synced

/-- A call of a pass is its only one, has its grounds, and its answer is what the pass comes to. -/
theorem grounds_of_mem {e : StoreCall × Except Fault StoreAnswer}
    (h : e ∈ (attempt store s caches k).calls) :
    (attempt store s caches k).calls = [e] ∧ Grounds caches k e.1 ∧
      (attempt store s caches k).result = conclude e.1 (e.2.map fun _ => ()) := by
  cases hd : decide caches k with
  | error fault =>
    rw [attempt_of_error hd] at h
    cases h
  | ok d =>
    cases hcall : d.call? with
    | none =>
      rw [attempt_of_settled hd hcall] at h
      cases h
    | some call =>
      rw [attempt_of_owed hd hcall] at h ⊢
      obtain rfl := List.mem_singleton.mp h
      exact ⟨rfl, grounds_of_decide hd hcall, rfl⟩

end Attempt

/-! ### The faults of a pass -/

variable {caches : Caches} {k : String}

/-- A capability that cannot be created or replaced is a failed pass. -/
theorem conclude_of_puts {call : StoreCall} (puts : call.Puts) (fault : Fault) :
    conclude call (.error fault) = .error fault := by
  obtain ⟨a, rfl | rfl⟩ := puts <;> rfl

/-- A pass that has made a call fails only if it was to create or replace a capability, with the
fault that was answered. -/
theorem relays_of_mem {σ : Type} {store : CapabilityStore (StateM σ)} {s : σ} {fault : Fault}
    {e : StoreCall × Except Fault StoreAnswer} (h : e ∈ (attempt store s caches k).calls)
    (failed : (attempt store s caches k).result = .error fault) :
    (attempt store s caches k).Relays fault := by
  obtain ⟨honly, grounds, hresult⟩ := grounds_of_mem h
  obtain ⟨call, answer⟩ := e
  rw [hresult] at failed
  cases grounds with
  | orphan =>
    obtain ⟨outcome, hok⟩ := conclude_delete k (answer.map fun _ => ())
    rw [hok] at failed
    cases failed
  | served puts =>
    cases answer with
    | ok a =>
      obtain ⟨_, rfl | rfl⟩ := puts <;> cases failed
    | error fault' =>
      obtain rfl := Except.error.inj ((conclude_of_puts puts fault').symm.trans failed)
      exact ⟨call, puts, honly⟩

/-- What can be said of a pass whichever caches have synced and however the store answers. -/
structure Cautious (caches : Caches) (k : String) (a : Attempt) : Prop where
  /-- One call is made at most, and it is a write of a capability. -/
  one_call : a.calls.length ≤ 1
  writes : ∀ e ∈ a.calls, e.1.Puts ∨ ∃ n, e.1 = .deleteCapability n
  /-- What is deleted is the capability of a class that was looked for and not found. -/
  deletes : ∀ e ∈ a.calls, ∀ n, e.1 = .deleteCapability n → n = k ∧
    caches.isSynced .storageClass = true ∧ caches.isSynced .classCapability = true ∧
    caches.storageClasses.peek k = none ∧ ∃ stored, caches.capabilities.peek k = some stored
  puts : ∀ e ∈ a.calls, e.1.Puts → caches.allSynced = true
  /-- A deletion that fails is no failed pass. -/
  deleted : ∀ e ∈ a.calls, ∀ n, e.1 = .deleteCapability n → ∃ outcome, a.result = .ok outcome
  /-- A capability that cannot be created or replaced is a failed pass, with the same fault. -/
  answered : ∀ e ∈ a.calls, e.1.Puts → ∀ fault, e.2 = .error fault → a.result = .error fault
  /-- A pass that finds a cache cold has made no call. -/
  cold : ∀ kind, a.result = .error (.cacheNotSynced kind) →
    a.calls = [] ∨ a.Relays (.cacheNotSynced kind)
  /-- No pass finds a capability of another name under its key. -/
  mismatch : ∀ n n', a.result = .error (.nameMismatch n n') → a.Relays (.nameMismatch n n')
  /-- Over synced caches only a class without a name keeps a pass from its write. -/
  faults : caches.allSynced = true → ∀ fault, a.result = .error fault →
    a.Relays fault ∨ a.calls = [] ∧ Unnamed caches k ∧ fault = unnamedFault k
  unnamed : caches.allSynced = true → Unnamed caches k → a = ⟨.error (unnamedFault k), []⟩

/-- A pass that fails has found the fault in the caches, or relays it. -/
theorem relays_or_of_failed (keyed : caches.Keyed) {σ : Type}
    {store : CapabilityStore (StateM σ)} {s : σ} {fault : Fault}
    (failed : (attempt store s caches k).result = .error fault) :
    (attempt store s caches k).Relays fault ∨ (attempt store s caches k).calls = [] ∧
      ((∃ kind, caches.isSynced kind = false ∧ fault = .cacheNotSynced kind.name) ∨
        Unnamed caches k ∧ fault = unnamedFault k) := by
  cases hcalls : (attempt store s caches k).calls with
  | cons e es =>
    have he : e ∈ (attempt store s caches k).calls := hcalls ▸ List.mem_cons_self
    exact .inl (relays_of_mem he failed)
  | nil =>
    cases hd : decide caches k with
    | error fault' =>
      rw [attempt_of_error hd] at failed
      obtain rfl := Except.error.inj failed
      exact .inr ⟨rfl, cold_or_unnamed keyed hd⟩
    | ok d =>
      cases hcall : d.call? with
      | none =>
        rw [attempt_of_settled hd hcall] at failed
        cases failed
      | some call =>
        rw [attempt_of_owed hd hcall] at hcalls
        cases hcalls

/-- **A cold cache is never taken for an empty one**, and the faults of a pass are classified: each
was found in the caches before any call, or is the answer of the store to the one call that was
made. -/
theorem cautious_of_reached (reached : caches.Reached) {σ : Type}
    (store : CapabilityStore (StateM σ)) (s : σ) (k : String) :
    Cautious caches k (attempt store s caches k) where
  one_call := by
    cases hcalls : (attempt store s caches k).calls with
    | nil => exact Nat.zero_le 1
    | cons e es =>
      have he : e ∈ (attempt store s caches k).calls := hcalls ▸ List.mem_cons_self
      rw [← hcalls, (grounds_of_mem he).1]
      exact Nat.le_refl 1
  writes e he := by
    have grounds := (grounds_of_mem he).2.1
    generalize e.1 = call at grounds
    cases grounds with
    | orphan => exact .inr ⟨k, rfl⟩
    | served puts => exact .inl puts
  deletes e he n hn := by
    have grounds := (grounds_of_mem he).2.1
    rw [hn] at grounds
    exact grounds.of_delete
  puts e he hputs := (grounds_of_mem he).2.1.synced_of_puts hputs
  deleted e he n hn := by
    rw [(grounds_of_mem he).2.2, hn]
    exact conclude_delete n _
  answered e he hputs fault hfault := by
    rw [(grounds_of_mem he).2.2, hfault]
    exact conclude_of_puts hputs fault
  cold kind failed := (relays_or_of_failed reached.keyed failed).symm.imp_left And.left
  mismatch n n' failed := by
    rcases relays_or_of_failed reached.keyed failed with relays | ⟨-, ⟨_, -, h⟩ | ⟨-, h⟩⟩
    · exact relays
    · cases h
    · cases h
  faults synced fault failed := by
    rcases relays_or_of_failed reached.keyed failed with relays | ⟨hcalls, ⟨kind, cold, -⟩ | h⟩
    · exact .inl relays
    · rw [Caches.allSynced_iff.mp synced kind] at cold
      cases cold
    · exact .inr ⟨hcalls, h⟩
  unnamed synced h :=
    attempt_of_error (decide_of_unnamed (Caches.allSynced_iff.mp synced .storageClass) h)

/-- The capability of a class is left over in a synced cache while the classes are cold. Nothing is
deleted. -/
theorem cautious_cold :
    let caches : Caches :=
      { capabilities := (Cache.replace {} [{ metadata := { name := some "fast" },
                                             spec := { provisioner := "disk" } }]).1 }
    caches.Reached ∧ caches.isSynced .classCapability = true ∧
      Cautious caches "fast" (attempt MemoryStore.serve ({}, caches) caches "fast") ∧
      attempt MemoryStore.serve ({}, caches) caches "fast" =
        ⟨.error (.cacheNotSynced "StorageClass"), []⟩ := by
  intro caches
  have reached : caches.Reached := ⟨.empty, .empty, .empty, .replace .empty _⟩
  exact ⟨reached, rfl, cautious_of_reached reached _ _ _, rfl⟩

/-- A store that answers in the words of a cold cache: the pass fails as if a cache had been cold,
though all have synced and it has made its call. -/
theorem relays_cold :
    let c : StorageClass := { metadata := { name := some "fast" }, provisioner := "disk" }
    let p : ProvisionerCapability :=
      { metadata := { name := some "disk" }, spec := { plugin := ⟨"disk", "1"⟩ } }
    let caches : Caches :=
      { storageClasses := (Cache.replace {} [c]).1
        snapshotClasses := (Cache.replace {} []).1
        provisioners := (Cache.replace {} [p]).1
        capabilities := (Cache.replace {} []).1 }
    let fault : Fault := .cacheNotSynced "StorageClass"
    let a := attempt MemoryStore.serve ({ failNext := some fault }, caches) caches "fast"
    caches.Reached ∧ caches.allSynced = true ∧ a.result = .error fault ∧
      a.calls = [(.createCapability (.derive c none p), .error fault)] := by
  intro c p caches fault a
  exact ⟨⟨.replace .empty _, .replace .empty _, .replace .empty _, .replace .empty _⟩,
    rfl, rfl, rfl⟩

end Sync

end StorageFeatures
