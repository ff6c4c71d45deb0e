import StorageFeatures.Proofs.Store.Contents
import StorageFeatures.Proofs.Sync.Ask
import StorageFeatures.Publisher.Basic

/-!
# Publications and passes on any store

A store that implements the operations leaves nothing open about those who use it.

* A **publication** comes to what follows from the contents and from what was probed
  (`Publish.refines_sync`).
* A **pass** over caches that show the contents comes to what it has decided: no write fails that
  the caches ask for (`Sync.refines_pass`). What is decided depends on the specs in the caches and
  not on the metadata beside them (`Sync.decide_congr`).
-/

namespace StorageFeatures

open Resource (displayName)

/-! ### Verdicts that are conveyed -/

namespace Conveys

variable {a : Except Fault StoreAnswer} {n : String}

theorem eq_nothing (h : Conveys a .nothing) : a = .ok .nothing := by
  cases h
  rfl

theorem exists_object {c : Content} (h : Conveys a (.object n c)) : ∃ answer, a = .ok answer := by
  cases h <;> exact ⟨_, rfl⟩

/-- The capability of a provisioner is conveyed by one with its name and its spec. -/
theorem exists_provisioner {spec : ProvisionerSpec}
    (h : Conveys a (.object n (.provisioner spec))) :
    ∃ p : ProvisionerCapability, a = .ok (.provisioner p) ∧ p.metadata.Proper n ∧
      p.spec = spec := by
  generalize hv : Verdict.object n (.provisioner spec) = v at h
  cases h with
  | provisioner proper =>
    cases hv
    exact ⟨_, rfl, proper, rfl⟩
  | capability | nothing | taken | missing => cases hv

end Conveys

variable {σ : Type} {store : CapabilityStore (StateM σ)} {Holds : σ → Shelf Content → Prop} {s : σ}

/-! ### Publications -/

namespace Publish

/-- What a publication comes to on contents. -/
def serve (contents : Shelf Content) (probed : ProvisionerCapability) : Outcome × Shelf Content :=
  let published :=
    contents.put .provisionerCapability (displayName probed) (some (.provisioner probed.spec))
  match contents .provisionerCapability (displayName probed) with
  | none => (.created, published)
  | some c => if c = .provisioner probed.spec then (.unchanged, contents) else (.updated, published)

section Run

variable {expected : Option String} {probed : ProvisionerCapability} {found : StoreAnswer} {s' : σ}
  {outcome : Outcome}

/-- A publication that needs no write is a look-up. -/
theorem run_sync_of_settled (checked : check expected probed = .ok ())
    (hget : (store (.getProvisioner (displayName probed))).run s = (.ok found, s'))
    (h : decide probed found.provisioner? = (outcome, none)) :
    (sync store expected (.ok probed)).run s = (.ok outcome, s') := by
  simp only [sync, checked, StateT.run_bind]
  rw [hget]
  show StateT.run (match decide probed found.provisioner? with | (outcome, call) => _) s' = _
  rw [h]
  rfl

/-- A publication that needs a write is a look-up and that write. -/
theorem run_sync_of_owed {call : StoreCall} (checked : check expected probed = .ok ())
    (hget : (store (.getProvisioner (displayName probed))).run s = (.ok found, s'))
    (h : decide probed found.provisioner? = (outcome, some call)) :
    (sync store expected (.ok probed)).run s =
      (((store call).run s').1.map fun _ => outcome, ((store call).run s').2) := by
  simp only [sync, checked, StateT.run_bind]
  rw [hget]
  show StateT.run (match decide probed found.provisioner? with | (outcome, call) => _) s' = _
  rw [h]
  rfl

end Run

/-- **A publication on any store.** -/
theorem refines_sync (implements : Implements store Holds) {contents : Shelf Content}
    (holds : Holds s contents)
    (sorted : ∀ n c, contents .provisionerCapability n = some c → ∃ spec, c = .provisioner spec)
    {expected : Option String} {probed : ProvisionerCapability}
    (valid : (StoreCall.createProvisioner probed).Valid) (checked : check expected probed = .ok ()) :
    ((sync store expected (.ok probed)).run s).1 = .ok (serve contents probed).1 ∧
      Holds ((sync store expected (.ok probed)).run s).2 (serve contents probed).2 := by
  have hvalid : (StoreCall.getProvisioner (displayName probed)).Valid := ⟨valid.name, trivial⟩
  obtain ⟨hanswer, hholds⟩ := implements hvalid holds
  generalize hget : (store (.getProvisioner (displayName probed))).run s = r at hanswer hholds
  obtain ⟨answer, s'⟩ := r
  dsimp only [StoreCall.operation] at hanswer hholds
  cases hcontents : contents .provisionerCapability (displayName probed) with
  | none =>
    rw [Operation.serve_get_of_none hcontents] at hanswer hholds
    obtain rfl := hanswer.eq_nothing
    obtain ⟨hcreated, hholds⟩ := implements valid hholds
    rw [StoreCall.operation, Operation.serve_create_of_none hcontents] at hcreated hholds
    obtain ⟨created, hcreated⟩ := hcreated.exists_object
    rw [run_sync_of_owed checked hget rfl, hcreated, serve, hcontents]
    exact ⟨rfl, hholds⟩
  | some c =>
    rw [Operation.serve_get_of_some hcontents] at hanswer hholds
    obtain ⟨spec, rfl⟩ := sorted _ c hcontents
    obtain ⟨p, rfl, proper, rfl⟩ := hanswer.exists_provisioner
    by_cases hspec : p.spec = probed.spec
    · rw [run_sync_of_settled checked hget (if_pos hspec), serve, hcontents]
      dsimp only
      rw [hspec, if_pos rfl]
      exact ⟨rfl, hholds⟩
    · have hne : ¬ Content.provisioner p.spec = .provisioner probed.spec :=
        fun h => hspec (Content.provisioner.inj h)
      -- the stored object with the new spec still has its name
      have hname : displayName { p with spec := probed.spec } = displayName probed :=
        proper.displayName
      have hvalid : (StoreCall.updateProvisioner { p with spec := probed.spec }).Valid :=
        ⟨(congrArg isValidName hname).trans valid.name, by rwa [StoreCall.Proper, hname]⟩
      obtain ⟨hupdated, hholds⟩ := implements hvalid hholds
      rw [StoreCall.operation, hname, Operation.serve_update_of_some hcontents] at hupdated hholds
      obtain ⟨updated, hupdated⟩ := hupdated.exists_object
      rw [run_sync_of_owed checked hget (if_neg hspec), hupdated, serve, hcontents]
      dsimp only
      rw [if_neg hne]
      exact ⟨rfl, hholds⟩

end Publish

/-! ### Passes -/

namespace Sync

variable {caches fed : Caches} {k : String}

/-- What a pass comes to whose write, if there is one, succeeds. -/
def Decision.settled : Decision → Outcome
  | keep => .unchanged
  | wait => .skipped
  | create _ => .created
  | update _ => .updated
  | delete _ => .deleted

/-- The operation that a decision asks for. -/
def Decision.operation? (d : Decision) : Option Operation := d.call?.map StoreCall.operation

/-- The contents after the write of a decision. -/
def Decision.serve (contents : Shelf Content) (d : Decision) : Shelf Content :=
  match d.operation? with
  | none => contents
  | some op => (op.serve contents).2

/-- What is asked for can be stored under its name. -/
theorem proper_of_ask (proper : caches.Proper) {call : StoreCall} (h : ask caches k = some call) :
    call.Proper := by
  unfold ask at h
  split at h
  · obtain ⟨stored, -, rfl⟩ := Option.map_eq_some_iff.mp h
    trivial
  · split at h
    · cases h
    · split at h
      · cases h
      · rename_i c _ _ p _
        unfold askServed at h
        split at h
        · cases h
          exact ⟨rfl, nofun⟩
        · rename_i stored hstored
          split at h
          · rename_i merged hmerge
            split at h
            · cases h
            · cases h
              -- the metadata is that of the stored object
              obtain ⟨-, hmetadata, -⟩ := ClassCapability.merge_eq_ok.mp hmerge
              have hproper := proper.capabilities k stored hstored
              have hname : displayName merged = k :=
                (congrArg Metadata.displayName hmetadata).trans hproper.displayName
              show merged.metadata.Proper (displayName merged)
              rw [hname, hmetadata]
              exact hproper
          · cases h

/-- A write that fits what is stored is not refused by a store that holds the same. -/
theorem exists_answer_of_fits {call : StoreCall} (fits : Fits (caches.capabilities.peek k) k call)
    {a : Except Fault StoreAnswer} (h : Conveys a (call.operation.serve caches.contents).1) :
    ∃ answer, a = .ok answer := by
  have hcontents : caches.contents .classCapability k =
      (caches.capabilities.peek k).map fun c => .capability c.spec := rfl
  cases call with
  | createCapability c =>
    obtain ⟨rfl, hnone⟩ := fits
    rw [hnone] at hcontents
    rw [StoreCall.operation, Operation.serve_create_of_none hcontents] at h
    exact h.exists_object
  | updateCapability c =>
    obtain ⟨rfl, old, hold, -⟩ := fits
    rw [hold] at hcontents
    rw [StoreCall.operation, Operation.serve_update_of_some hcontents] at h
    exact h.exists_object
  | deleteCapability n =>
    obtain ⟨rfl, hsome⟩ := fits
    obtain ⟨old, hold⟩ := Option.ne_none_iff_exists'.mp hsome
    rw [hold] at hcontents
    rw [StoreCall.operation, Operation.serve_delete_of_some hcontents] at h
    exact ⟨_, h.eq_nothing⟩
  | getProvisioner | getCapability | createProvisioner | updateProvisioner => exact fits.elim

/-- **A pass on any store.** What has been decided comes true. -/
theorem refines_pass (implements : Implements store Holds) (holds : Holds s caches.contents)
    (keyed : caches.Keyed) (proper : caches.Proper) (valid : isValidName k = true) {d : Decision}
    (h : decide caches k = .ok d) :
    ((pass store caches k).run s).1 = .ok d.settled ∧
      Holds ((pass store caches k).run s).2 (d.serve caches.contents) := by
  have hask := call?_of_decide h
  cases hcall : d.call? with
  | none =>
    have hsettled : d.outcome = d.settled := by
      cases d with
      | keep | wait => rfl
      | create | update | delete => cases hcall
    rw [pass_of_settled h hcall, hsettled, Decision.serve, Decision.operation?, hcall]
    exact ⟨rfl, holds⟩
  | some call =>
    rw [hcall] at hask
    have hfits := fits_of_ask keyed hask.symm
    have hvalid : call.Valid :=
      ⟨hfits.concerns.name_eq.symm ▸ valid, proper_of_ask proper hask.symm⟩
    obtain ⟨hanswer, hholds⟩ := implements hvalid holds
    -- a write that fits what is stored is not refused
    obtain ⟨answer, hok⟩ := exists_answer_of_fits hfits hanswer
    rw [pass_of_owed h hcall, Decision.serve, Decision.operation?, hcall]
    refine ⟨?_, hholds⟩
    show conclude call (((store call).run s).1.map fun _ => ()) = _
    rw [hok]
    cases d with
    | keep | wait => cases hcall
    | create | update | delete =>
      cases hcall
      rfl

/-! ### Caches that agree -/

/-- What a decision comes to and which operation it asks for. -/
def Decision.gist (d : Decision) : Outcome × Option Operation :=
  (d.settled, d.operation?)

end Sync

/-- Caches with the same classes and the same specs, which have synced as far as each other. -/
structure Caches.Agree (fed caches : Caches) : Prop where
  storageClasses : fed.storageClasses = caches.storageClasses
  snapshotClasses : fed.snapshotClasses = caches.snapshotClasses
  synced : ∀ k, fed.isSynced k = caches.isSynced k
  contents : fed.contents = caches.contents

/-- Two look-ups of a name that fail alike, or find nothing or objects with one content. -/
inductive SameFind {α : Type} [Storable α] (n : String) :
    Except Fault (Option α) → Except Fault (Option α) → Prop where
  | failed (fault : Fault) : SameFind n (.error fault) (.error fault)
  | absent : SameFind n (.ok none) (.ok none)
  | present {a b : α} (ha : (Resource.metadata a).Proper n) (hb : (Resource.metadata b).Proper n)
      (same : Storable.content a = Storable.content b) : SameFind n (.ok (some a)) (.ok (some b))

namespace Caches.Agree

variable {fed caches : Caches} (agree : fed.Agree caches) (proper : fed.Proper)
  (proper' : caches.Proper)

include agree proper proper' in
/-- Caches that agree are looked into with the same outcome. -/
theorem sameFind {α : Type} [Storable α] (n : String) :
    SameFind n ((Watched.cache fed : Cache α).get n) ((Watched.cache caches : Cache α).get n) := by
  have hsynced : (Watched.cache fed : Cache α).synced = (Watched.cache caches : Cache α).synced := by
    rw [Storable.synced_cache, Storable.synced_cache, agree.synced]
  have hcontents := congrFun (congrFun agree.contents (Resource.kind α)) n
  rw [Storable.contents_cache, Storable.contents_cache] at hcontents
  simp only [Cache.get, Cache.ensureSynced, hsynced]
  cases (Watched.cache caches : Cache α).synced with
  | false => exact .failed _
  | true =>
    show SameFind n (.ok _) (.ok _)
    cases hfed : (Watched.cache fed : Cache α).peek n with
    | none =>
      rw [hfed] at hcontents
      rw [Option.map_eq_none_iff.mp hcontents.symm]
      exact .absent
    | some a =>
      rw [hfed] at hcontents
      obtain ⟨b, hb, hsame⟩ := Option.map_eq_some_iff.mp hcontents.symm
      rw [hb]
      exact .present (Storable.proper_cache proper n a hfed) (Storable.proper_cache proper' n b hb)
        hsame.symm

end Caches.Agree

theorem ClassSpec.derive_congr (c : StorageClass) (snapshots : Option SnapshotClass)
    {p q : ProvisionerCapability} (hspec : p.spec = q.spec)
    (hname : displayName p = displayName q) : derive c snapshots p = derive c snapshots q := by
  have hpairs (s : SnapshotClass) : s.pairsWith c p = s.pairsWith c q := by
    rw [SnapshotClass.pairsWith, hname]
    rfl
  unfold derive
  rw [hspec, funext hpairs]

namespace Sync

variable {caches fed : Caches} (agree : fed.Agree caches) (proper : fed.Proper)
  (proper' : caches.Proper)

include agree proper proper'

/-- Caches that agree decide alike about a capability without its class. -/
theorem decideOrphan_congr (k : String) :
    (decideOrphan fed k).map Decision.gist = (decideOrphan caches k).map Decision.gist := by
  have hfind := agree.sameFind (α := ClassCapability) proper proper' k
  change SameFind k (fed.capabilities.get k) (caches.capabilities.get k) at hfind
  unfold decideOrphan
  generalize fed.capabilities.get k = found at hfind
  generalize caches.capabilities.get k = found' at hfind
  cases hfind <;> rfl

/-- Caches that agree decide alike about a class that is served. The stored objects may differ in
their metadata, but the decision compares only specs, and a merge fails only on names. -/
theorem decideServed_congr (k : String) (c : StorageClass) {p q : ProvisionerCapability}
    (hspec : p.spec = q.spec) (hname : displayName p = displayName q) :
    (decideServed fed k c p).map Decision.gist =
      (decideServed caches k c q).map Decision.gist := by
  have hfind := agree.sameFind (α := ClassCapability) proper proper' k
  change SameFind k (fed.capabilities.get k) (caches.capabilities.get k) at hfind
  unfold decideServed
  rw [agree.snapshotClasses]
  generalize fed.capabilities.get k = found at hfind
  generalize caches.capabilities.get k = found' at hfind
  cases caches.snapshotClasses.get k with
  | error fault => rfl
  | ok snapshots =>
    have hderive := ClassSpec.derive_congr c snapshots hspec hname
    cases hfind with
    | failed fault => rfl
    | absent =>
      show Except.ok (Outcome.created, some (Operation.create _ _ (.capability _))) =
        Except.ok (Outcome.created, some (Operation.create _ _ (.capability _)))
      rw [ClassCapability.spec_derive, ClassCapability.spec_derive, hderive]
      rfl
    | @present a b ha hb same =>
      have hsame : a.spec = b.spec := Content.capability.inj same
      have hna : displayName a = k := ha.displayName
      have hnb : displayName b = k := hb.displayName
      show Except.map _ (do
          let merged ← a.merge c snapshots p
          return if merged.spec = a.spec then Decision.keep else .update merged) =
        Except.map _ (do
          let merged ← b.merge c snapshots q
          return if merged.spec = b.spec then Decision.keep else .update merged)
      -- both merges check the name of the class and take over the same spec
      rw [ClassCapability.merge, ClassCapability.merge, hna, hnb, hderive]
      split
      · show Except.ok (Decision.gist (if _ then _ else _)) =
          Except.ok (Decision.gist (if _ then _ else _))
        by_cases hspec' : ClassSpec.derive c snapshots q = b.spec
        · rw [if_pos (hspec'.trans hsame.symm), if_pos hspec']
        · rw [if_neg fun h => hspec' (h.trans hsame), if_neg hspec']
          exact congrArg (fun n => Except.ok (Outcome.updated, some (Operation.update
            .classCapability n (.capability (.derive c snapshots q))))) (hna.trans hnb.symm)
      · rfl

/-- **The same specs, the same decision.** -/
theorem decide_congr (k : String) :
    (decide fed k).map Decision.gist = (decide caches k).map Decision.gist := by
  have hfind (c : StorageClass) :=
    agree.sameFind (α := ProvisionerCapability) proper proper' c.provisioner
  unfold decide
  rw [agree.storageClasses]
  cases caches.storageClasses.get k with
  | error fault => rfl
  | ok found =>
    cases found with
    | none => exact decideOrphan_congr agree proper proper' k
    | some c =>
      specialize hfind c
      change SameFind _ (fed.provisioners.get c.provisioner) (caches.provisioners.get c.provisioner)
        at hfind
      show Except.map _ (if _ then _ else _) = Except.map _ (if _ then _ else _)
      split
      · rfl
      · generalize fed.provisioners.get c.provisioner = found at hfind
        generalize caches.provisioners.get c.provisioner = found' at hfind
        cases hfind with
        | failed fault => rfl
        | absent => rfl
        | present ha hb same =>
          exact decideServed_congr agree proper proper' k c (Content.provisioner.inj same)
            (ha.displayName.trans hb.displayName.symm)

omit agree proper proper'

/-- A decision that fails on one side fails on the other. -/
theorem decide_eq_error_of_congr {k : String} {fault : Fault}
    (h : (decide fed k).map Decision.gist = (decide caches k).map Decision.gist)
    (hdecide : decide caches k = .error fault) : decide fed k = .error fault := by
  rw [hdecide] at h
  cases hfed : decide fed k with
  | error fault' =>
    rw [hfed] at h
    exact congrArg _ (Except.error.inj h)
  | ok d =>
    rw [hfed] at h
    cases h

/-- A decision on one side has one of the same gist on the other. -/
theorem exists_decide_of_congr {k : String} {d : Decision}
    (h : (decide fed k).map Decision.gist = (decide caches k).map Decision.gist)
    (hdecide : decide caches k = .ok d) : ∃ d', decide fed k = .ok d' ∧ d'.gist = d.gist := by
  rw [hdecide] at h
  cases hfed : decide fed k with
  | error fault =>
    rw [hfed] at h
    cases h
  | ok d' =>
    rw [hfed] at h
    exact ⟨d', rfl, Except.ok.inj h⟩

end Sync

end StorageFeatures
