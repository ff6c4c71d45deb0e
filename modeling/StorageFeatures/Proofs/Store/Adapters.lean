import Mathlib.Data.List.Forall2
import StorageFeatures.Proofs.Api.Archive
import StorageFeatures.Proofs.Store.Passes

/-!
# Two stores that cannot be told apart

The store of an object server and the store in the caches answer alike for as long as they are
used, if they hold the same objects to begin with (`interchangeable_of_paired`). Both implement the
operations on contents, so neither is compared with the other: an answer of either means the
verdict of the operation, and two answers that mean the same are `Alike`. What is alike is the name
and the spec of an object; identities and versions are each store's own.
-/

namespace StorageFeatures

/-- Answers to a call that nobody has to tell apart. -/
inductive Alike : Except Fault StoreAnswer → Except Fault StoreAnswer → Prop where
  | provisioner {p q : ProvisionerCapability} (name : p.metadata.name = q.metadata.name)
      (spec : p.spec = q.spec) : Alike (.ok (.provisioner p)) (.ok (.provisioner q))
  | capability {c d : ClassCapability} (name : c.metadata.name = d.metadata.name)
      (spec : c.spec = d.spec) : Alike (.ok (.capability c)) (.ok (.capability d))
  | nothing : Alike (.ok .nothing) (.ok .nothing)
  | taken (kind name : String) :
      Alike (.error (.alreadyExists kind name)) (.error (.alreadyExists kind name))
  | missing {fault fault' : Fault} (h : fault.isNotFound = true) (h' : fault'.isNotFound = true) :
      Alike (.error fault) (.error fault')

/-- Answers that mean the same are alike. -/
theorem Conveys.alike {a b : Except Fault StoreAnswer} {v : Verdict} (ha : Conveys a v)
    (hb : Conveys b v) : Alike a b := by
  generalize hv : v = w at hb
  cases ha with
  | provisioner hp =>
    cases hb with
    | provisioner hq =>
      obtain ⟨rfl, hspec⟩ := Verdict.object.inj hv
      exact .provisioner (hp.name.trans hq.name.symm) (Content.provisioner.inj hspec)
    | capability | nothing | taken | missing => cases hv
  | capability hc =>
    cases hb with
    | capability hd =>
      obtain ⟨rfl, hspec⟩ := Verdict.object.inj hv
      exact .capability (hc.name.trans hd.name.symm) (Content.capability.inj hspec)
    | provisioner | nothing | taken | missing => cases hv
  | nothing =>
    cases hb with
    | nothing => exact .nothing
    | provisioner | capability | taken | missing => cases hv
  | taken k n =>
    cases hb with
    | taken k' n' =>
      cases hv
      exact .taken _ _
    | provisioner | capability | nothing | missing => cases hv
  | missing h =>
    cases hb with
    | missing h' => exact .missing h h'
    | provisioner | capability | nothing | taken => cases hv

/-! ### Sequences of calls -/

section Calls

variable {σ τ : Type} {store : CapabilityStore (StateM σ)} {store' : CapabilityStore (StateM τ)}
  {Holds : σ → Shelf Content → Prop} {Holds' : τ → Shelf Content → Prop}

theorem run_mapM_cons (store : CapabilityStore (StateM σ)) (call : StoreCall)
    (calls : List StoreCall) (s : σ) : ((call :: calls).mapM store).run s =
      (((store call).run s).1 :: ((calls.mapM store).run ((store call).run s).2).1,
        ((calls.mapM store).run ((store call).run s).2).2) := by
  rw [List.mapM_cons]
  rfl

/-- Two stores that implement the operations answer all calls alike, and hold the same contents
afterwards. -/
theorem alike_mapM (implements : Implements store Holds) (implements' : Implements store' Holds')
    {calls : List StoreCall} (valid : ∀ call ∈ calls, call.Valid) {s : σ} {t : τ}
    {contents : Shelf Content} (holds : Holds s contents) (holds' : Holds' t contents) :
    List.Forall₂ Alike ((calls.mapM store).run s).1 ((calls.mapM store').run t).1 ∧
      ∃ contents, Holds ((calls.mapM store).run s).2 contents ∧
        Holds' ((calls.mapM store').run t).2 contents := by
  induction calls generalizing s t contents with
  | nil => exact ⟨.nil, contents, holds, holds'⟩
  | cons call calls ih =>
    obtain ⟨hcall, hcalls⟩ := List.forall_mem_cons.mp valid
    obtain ⟨hanswer, hholds⟩ := implements hcall holds
    obtain ⟨hanswer', hholds'⟩ := implements' hcall holds'
    obtain ⟨hanswers, hlast⟩ := ih hcalls hholds hholds'
    rw [run_mapM_cons, run_mapM_cons]
    exact ⟨.cons (hanswer.alike hanswer') hanswers, hlast⟩

end Calls

/-! ### The two stores -/

/-- A server and a store in the caches that hold the same objects, by name and spec. The objects in
the caches stand under their names, and the store was not told to fail. -/
structure Paired (server : Api.ObjectServer) (s : server.State) (memory : MemoryStore × Caches) :
    Prop where
  keeps : server.Keeps s memory.2.contents
  proper : memory.2.Proper
  keyed : memory.2.Keyed
  unarmed : memory.1.failNext = none

theorem paired_of_holds {server : Api.ObjectServer} {s : server.State}
    {memory : MemoryStore × Caches} {contents : Shelf Content} (keeps : server.Keeps s contents)
    (holds : MemoryStore.Holds memory contents) : Paired server s memory := by
  obtain ⟨⟨rfl, proper⟩, keyed, unarmed⟩ := holds
  exact ⟨keeps, proper, keyed, unarmed⟩

/-- The store of a pair holds its contents. -/
theorem Paired.holds {server : Api.ObjectServer} {s : server.State} {memory : MemoryStore × Caches}
    (h : Paired server s memory) : MemoryStore.Holds memory memory.2.contents :=
  ⟨⟨rfl, h.proper⟩, h.keyed, h.unarmed⟩

/-- What two programs came to on the two stores: their results compare, and the stores still hold
the same objects. -/
structure Corresponds {ρ : Type} (server : Api.ObjectServer) (compare : ρ → ρ → Prop)
    (r : ρ × server.State) (r' : ρ × MemoryStore × Caches) : Prop where
  result : compare r.1 r'.1
  paired : Paired server r.2 r'.2

/-- Two stores that nobody can tell apart, and that stay so. -/
structure Interchangeable (server : Api.ObjectServer) (s : server.State)
    (memory : MemoryStore × Caches) : Prop where
  /-- All calls on valid names are answered alike. -/
  calls (calls : List StoreCall) (valid : ∀ call ∈ calls, call.Valid) :
    Corresponds server (List.Forall₂ Alike)
      ((calls.mapM (StoreCall.run server.transport)).run s)
      ((calls.mapM MemoryStore.serve).run memory)
  /-- A pass comes to the same, if the caches that feed it show what the store holds. -/
  pass (fed : Caches) (k : String) (agree : fed.Agree memory.2) (proper : fed.Proper)
    (keyed : fed.Keyed) (valid : isValidName k = true) :
    Corresponds server (· = ·) ((Sync.pass (StoreCall.run server.transport) fed k).run s)
      ((Sync.pass MemoryStore.serve memory.2 k).run memory)
  /-- A publication comes to the same. -/
  publish (expected : Option String) (probed : Except Fault ProvisionerCapability)
    (valid : ∀ p, probed = .ok p → (StoreCall.createProvisioner p).Valid) :
    Corresponds server (· = ·)
      ((Publish.sync (StoreCall.run server.transport) expected probed).run s)
      ((Publish.sync MemoryStore.serve expected probed).run memory)

section Paired

variable {server : Api.ObjectServer} {s : server.State} {memory : MemoryStore × Caches}

/-- A pass leaves a pair that it found, and comes to the same on both sides. -/
theorem Paired.pass (h : Paired server s memory) {fed : Caches} {k : String}
    (agree : fed.Agree memory.2) (proper : fed.Proper) (keyed : fed.Keyed)
    (valid : isValidName k = true) :
    Corresponds server (· = ·) ((Sync.pass (StoreCall.run server.transport) fed k).run s)
      ((Sync.pass MemoryStore.serve memory.2 k).run memory) := by
  have hdecide := Sync.decide_congr agree proper h.proper k
  have hfed : server.Keeps s fed.contents := agree.contents ▸ h.keeps
  cases hmemory : Sync.decide memory.2 k with
  | error fault =>
    have herror := Sync.decide_eq_error_of_congr hdecide hmemory
    rw [Sync.pass_of_error herror, Sync.pass_of_error hmemory]
    exact ⟨rfl, h⟩
  | ok d =>
    obtain ⟨d', hok, hgist⟩ := Sync.exists_decide_of_congr hdecide hmemory
    obtain ⟨hsettled, hoperation⟩ := Prod.mk.inj hgist
    -- decisions of one gist do the same to the contents
    have hserve : d'.serve fed.contents = d.serve memory.2.contents := by
      rw [Sync.Decision.serve, hoperation, agree.contents]
      rfl
    obtain ⟨hresult, hkeeps⟩ := Sync.refines_pass server.implements_run hfed keyed proper valid hok
    obtain ⟨hresult', hholds⟩ :=
      Sync.refines_pass MemoryStore.implements_serve h.holds h.keyed h.proper valid hmemory
    rw [hserve] at hkeeps
    exact ⟨hresult.trans ((congrArg _ hsettled).trans hresult'.symm),
      paired_of_holds hkeeps hholds⟩

/-- A publication leaves a pair that it found, and comes to the same on both sides. -/
theorem Paired.publish (h : Paired server s memory) (expected : Option String)
    {probed : Except Fault ProvisionerCapability}
    (valid : ∀ p, probed = .ok p → (StoreCall.createProvisioner p).Valid) :
    Corresponds server (· = ·)
      ((Publish.sync (StoreCall.run server.transport) expected probed).run s)
      ((Publish.sync MemoryStore.serve expected probed).run memory) := by
  cases probed with
  | error fault => exact ⟨rfl, h⟩
  | ok p =>
    cases hcheck : Publish.check expected p with
    | error fault =>
      simp only [Publish.sync, hcheck]
      exact ⟨rfl, h⟩
    | ok _ =>
      have sorted (n : String) (c : Content)
          (hc : memory.2.contents .provisionerCapability n = some c) :
          ∃ spec, c = .provisioner spec := by
        obtain ⟨q, -, rfl⟩ := Option.map_eq_some_iff.mp hc
        exact ⟨q.spec, rfl⟩
      obtain ⟨hresult, hkeeps⟩ :=
        Publish.refines_sync server.implements_run h.keeps sorted (valid p rfl) hcheck
      obtain ⟨hresult', hholds⟩ :=
        Publish.refines_sync MemoryStore.implements_serve h.holds sorted (valid p rfl) hcheck
      exact ⟨hresult.trans hresult'.symm, paired_of_holds hkeeps hholds⟩

/-- **Two stores that cannot be told apart.** A server and the caches that hold the same objects
answer all calls alike from then on, and neither a pass nor a publication comes to anything else
on the one than on the other. -/
theorem interchangeable_of_paired (h : Paired server s memory) :
    Interchangeable server s memory where
  calls calls valid := by
    obtain ⟨halike, contents, hkeeps, hholds⟩ :=
      alike_mapM server.implements_run MemoryStore.implements_serve valid h.keeps h.holds
    exact ⟨halike, paired_of_holds hkeeps hholds⟩
  pass fed k agree proper keyed valid := h.pass agree proper keyed valid
  publish expected probed valid := h.publish expected valid

/-- Stores that correspond still do when an object was created in both. -/
theorem Paired.create (h : Paired server s memory) {p : ProvisionerCapability}
    (valid : (StoreCall.createProvisioner p).Valid) :
    Paired server (((StoreCall.createProvisioner p).run server.transport).run s).2
      ((MemoryStore.serve (.createProvisioner p)).run memory).2 :=
  paired_of_holds (server.implements_run valid h.keeps).holds
    (MemoryStore.implements_serve valid h.holds).holds

end Paired

theorem paired_empty : Paired Archive.server ({} : Archive) ({}, {}) where
  keeps k n _ _ := by
    rw [Caches.contents_empty]
    exact .absent
  proper := ⟨Cache.proper_empty, Cache.proper_empty⟩
  keyed := Caches.keyed_empty
  unarmed := rfl

/-- The server that keeps texts and the caches, after an object was created in both. -/
theorem interchangeable_created :
    let p : ProvisionerCapability :=
      ⟨{ name := some "csi.example.org" }, ⟨⟨"csi.example.org", "1.0"⟩, {}⟩⟩
    let s := (((StoreCall.createProvisioner p).run Archive.server.transport).run ({} : Archive)).2
    let memory := ((MemoryStore.serve (.createProvisioner p)).run ({}, {})).2
    memory.2.provisioners.peek "csi.example.org" ≠ none ∧ Paired Archive.server s memory ∧
      Interchangeable Archive.server s memory := by
  intro p s memory
  have proper : p.metadata.Proper "csi.example.org" := ⟨rfl, fun _ h => nomatch h⟩
  have hpaired : Paired Archive.server s memory := paired_empty.create ⟨by decide, proper⟩
  exact ⟨by decide, hpaired, interchangeable_of_paired hpaired⟩

end StorageFeatures
