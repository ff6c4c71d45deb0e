import StorageFeatures.Cache
import StorageFeatures.Derive
import StorageFeatures.Store.Call

/-!
# One pass over a key

A pass reads the caches, decides what has to happen to the capability of one storage class, and
makes at most one write. `decide` is the decision, a function of the caches alone, and `conclude`
is what the pass comes to once its write is answered. A write that fails is a failed pass, except
that a failed deletion never is. `pass` does all of it on any store.
-/

namespace StorageFeatures

open Resource (displayName)

namespace Sync

/-- What a pass comes to. -/
inductive Outcome where
  | created
  | updated
  | unchanged
  | deleted
  | skipped
  deriving DecidableEq, Repr

/-- What a pass decides to do. -/
inductive Decision where
  /-- The capability matches already, or there is none and there has to be none. -/
  | keep
  /-- The provisioner has not published its capability. -/
  | wait
  | create (object : ClassCapability)
  | update (object : ClassCapability)
  /-- The class is gone. -/
  | delete (name : String)
  deriving DecidableEq

namespace Outcome

def all : List Outcome := [created, updated, unchanged, deleted, skipped]

def name : Outcome → String
  | created => "created"
  | updated => "updated"
  | unchanged => "unchanged"
  | deleted => "deleted"
  | skipped => "skipped"

end Outcome

/-- The write that a decision asks for. -/
def Decision.call? : Decision → Option StoreCall
  | keep | wait => none
  | create c => some (.createCapability c)
  | update c => some (.updateCapability c)
  | delete name => some (.deleteCapability name)

/-- What happens to the capability of a class that does not exist. -/
def decideOrphan (caches : Caches) (name : String) : Except Fault Decision := do
  match ← caches.capabilities.get name with
  | none => return .keep
  | some _ => return .delete name

/-- What happens to the capability of a class whose provisioner has published. -/
def decideServed (caches : Caches) (name : String) (c : StorageClass)
    (p : ProvisionerCapability) : Except Fault Decision := do
  let snapshots ← caches.snapshotClasses.get name
  match ← caches.capabilities.get name with
  | none => return .create (.derive c snapshots p)
  | some stored =>
    let merged ← stored.merge c snapshots p
    return if merged.spec = stored.spec then .keep else .update merged

/-- What the caches ask for under a name. -/
def decide (caches : Caches) (name : String) : Except Fault Decision := do
  match ← caches.storageClasses.get name with
  | none => decideOrphan caches name
  | some c =>
    if (c.metadata.name.getD "").isEmpty then
      .error (.invalidObject Kind.storageClass.name
        (name ++ ": storageclass name must be specified"))
    else
      match ← caches.provisioners.get c.provisioner with
      | none => return .wait
      | some p => decideServed caches name c p

/-- What a pass comes to that makes no write. -/
def Decision.outcome : Decision → Outcome
  | wait => .skipped
  | _ => .unchanged

/-- What a pass comes to when its write is answered. -/
def conclude (call : StoreCall) (answer : Except Fault Unit) : Except Fault Outcome :=
  match call, answer with
  | .deleteCapability _, .ok _ => .ok .deleted
  | .deleteCapability _, .error fault => .ok (if fault.isNotFound then .unchanged else .skipped)
  | .createCapability _, .ok _ => .ok .created
  | _, .ok _ => .ok .updated
  | _, .error fault => .error fault

/-- One pass over a key. -/
def pass {m : Type → Type} [Monad m] (store : CapabilityStore m) (caches : Caches)
    (name : String) : m (Except Fault Outcome) :=
  match decide caches name with
  | .error fault => return .error fault
  | .ok decision =>
    match decision.call? with
    | none => return .ok decision.outcome
    | some call => return conclude call ((← store call).map fun _ => ())

section Pass

variable {m : Type → Type} [Monad m] {store : CapabilityStore m} {caches : Caches} {name : String}

/-- A pass that cannot decide fails without a call. -/
theorem pass_of_error {fault : Fault} (h : decide caches name = .error fault) :
    pass store caches name = pure (.error fault) := by
  simp only [pass, h]

/-- A pass that decides on no write makes no call. -/
theorem pass_of_settled {d : Decision} (h : decide caches name = .ok d) (hcall : d.call? = none) :
    pass store caches name = pure (.ok d.outcome) := by
  simp only [pass, h, hcall]

/-- A pass that decides on a write makes that call and no other. -/
theorem pass_of_owed {d : Decision} {call : StoreCall} (h : decide caches name = .ok d)
    (hcall : d.call? = some call) : pass store caches name =
      (do return conclude call ((← store call).map fun _ => ())) := by
  simp only [pass, h, hcall]

end Pass

/-- A failed deletion is no failed pass. -/
theorem conclude_delete (name : String) (answer : Except Fault Unit) :
    ∃ outcome, conclude (.deleteCapability name) answer = .ok outcome := by
  cases answer <;> exact ⟨_, rfl⟩

end Sync

end StorageFeatures
