import StorageFeatures.Decimal.Binary64
import StorageFeatures.NameMap

/-!
# Metrics

The counters, the gauge and the histogram that the controller and the publisher keep. Counters
with a label hold one count per value of the label; a value that was never counted is absent,
which is not the same as a count of zero.
-/

namespace StorageFeatures

/-- The counters that have a label. -/
inductive Labelled where
  | reconcile
  | probe
  | publish
  deriving DecidableEq, Repr

/-- Samples sorted into buckets by upper bounds. -/
structure Histogram where
  /-- The samples in each bucket, the last one without a bound. -/
  buckets : List Nat
  sum : Binary64
  count : Nat
  deriving DecidableEq

structure Metrics where
  reconcile : NameMap Nat := ∅
  probe : NameMap Nat := ∅
  publish : NameMap Nat := ∅
  /-- How long passes took, in seconds. -/
  durations : Histogram
  queueAdds : Nat := 0
  queueRetries : Nat := 0
  queueDepth : Int := 0

namespace Histogram

/-- The bounds in thousandths, ascending. -/
def bounds : List Nat := [1, 5, 10, 25, 50, 100, 250, 500, 1000, 5000]

/-- A bound in seconds. -/
def bound (thousandths : Nat) : Binary64 := .ofRatio false thousandths 1000

def empty : Histogram := ⟨List.replicate (bounds.length + 1) 0, .zero, 0⟩

/-- The place of the first bound that a sample does not pass. -/
def place (x : Binary64) : Nat :=
  (bounds.findIdx? fun b => x.le (bound b)).getD bounds.length

/-- Adds a sample. -/
def observe (h : Histogram) (x : Binary64) : Histogram :=
  ⟨h.buckets.modify (place x) (· + 1), h.sum.add x, h.count + 1⟩

/-- The samples up to each bound. -/
def cumulative (h : Histogram) : List Nat := go 0 h.buckets
where
  go (n : Nat) : List Nat → List Nat
    | [] => []
    | b :: r => (n + b) :: go (n + b) r

/-- Every observation is counted once, in whichever bucket it falls. -/
@[simp] theorem count_observe (h : Histogram) (x : Binary64) :
    (h.observe x).count = h.count + 1 := rfl

end Histogram

namespace Metrics

def fresh : Metrics := { durations := .empty }

instance : Inhabited Metrics := ⟨fresh⟩

/-- The counts of a labelled counter. -/
def counts (m : Metrics) : Labelled → NameMap Nat
  | .reconcile => m.reconcile
  | .probe => m.probe
  | .publish => m.publish

/-- The count of a label; zero if it was never counted. -/
def countOf (m : Metrics) (family : Labelled) (label : String) : Nat :=
  ((m.counts family).get? label).getD 0

private def bump (counts : NameMap Nat) (label : String) (n : Nat) : NameMap Nat :=
  counts.insert label ((counts.get? label).getD 0 + n)

/-- Adds to the count of a label. -/
def add (m : Metrics) (family : Labelled) (label : String) (n : Nat) : Metrics :=
  match family with
  | .reconcile => { m with reconcile := bump m.reconcile label n }
  | .probe => { m with probe := bump m.probe label n }
  | .publish => { m with publish := bump m.publish label n }

/-- Counts one more event. -/
def increment (m : Metrics) (family : Labelled) (label : String) : Metrics :=
  m.add family label 1

/-- Counting touches one label of one family. -/
theorem countOf_add (m : Metrics) (family family' : Labelled) (label label' : String) (n : Nat) :
    (m.add family label n).countOf family' label' =
      m.countOf family' label' + if family' = family ∧ label' = label then n else 0 := by
  cases family <;> cases family' <;>
    simp [countOf, counts, add, bump, NameMap.get?_insert] <;>
    by_cases h : label' = label <;> simp [h]

end Metrics

end StorageFeatures
