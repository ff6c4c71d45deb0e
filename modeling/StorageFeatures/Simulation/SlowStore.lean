import StorageFeatures.Store.Memory

/-!
# A slow store

`SlowStore` stands in front of a store in memory. It notes when a write enters, lets the writes of
a name take their time, and fails them with the faults that were laid out for the name before it
passes the others on. Reads are passed on at once.
-/

namespace StorageFeatures

/-- A write that entered a store. -/
structure LoggedWrite where
  time : Nat
  kind : WriteKind
  name : String
  deriving DecidableEq, Repr

structure SlowStore where
  inner : MemoryStore := {}
  delays : NameMap Nat := ∅
  /-- The faults that the next writes of a name meet. -/
  failures : NameMap (List Fault) := ∅
  log : List LoggedWrite := []

namespace SlowStore

/-- Lays out faults for the writes of a name, after those laid out before. -/
def failWrites (s : SlowStore) (name : String) (faults : List Fault) : SlowStore :=
  { s with failures := s.failures.insert name ((s.failures.get? name).getD [] ++ faults) }

/-- Notes that a call enters; answers how long it takes. -/
def enter (s : SlowStore) (now : Nat) (call : StoreCall) : SlowStore × Nat :=
  match call.writeKind? with
  | some kind => ({ s with log := s.log ++ [⟨now, kind, call.name⟩] },
      (s.delays.get? call.name).getD 0)
  | none => (s, 0)

/-- Takes the fault that is laid out next for a name. -/
def takeFault (s : SlowStore) (name : String) : SlowStore × Option Fault :=
  match s.failures.get? name with
  | some (fault :: rest) => ({ s with failures := s.failures.insert name rest }, some fault)
  | _ => (s, none)

/-- Carries out a call whose time is over. -/
def land (s : SlowStore) (caches : Caches) (call : StoreCall) :
    SlowStore × Caches × Except Fault StoreAnswer :=
  match if call.isWrite then s.takeFault call.name else (s, none) with
  | (s, some fault) => (s, caches, .error fault)
  | (s, none) =>
    let (inner, caches, answer) := s.inner.run caches call
    ({ s with inner }, caches, answer)

end SlowStore

end StorageFeatures
