import StorageFeatures.Api.Watch
import StorageFeatures.Watch.Event

/-!
# Following a kind

A `Follower` turns lists and watches into the changes that a cache needs. It lists the kind part
by part, reports the full list as a restart, and then watches from the revision of the list on. A
watch that ends is opened again at the last revision that was seen. If the server has forgotten
that revision, or an object comes without one, the kind is listed anew. After a fault the follower
pauses, longer and longer until the next change gets through.
-/

namespace StorageFeatures

open Api

/-- What a follower asks for next, or is waiting for. -/
inductive FollowPhase (α : Type) where
  /-- A part of a list, after the objects of the parts that have arrived. -/
  | listing (continuation : Option String) (objects : List α)
  /-- The changes after a revision. -/
  | watching (revision : String)

/-- What an answer comes to. -/
inductive Report (α : Type) where
  | nothing
  | change (change : Change α)
  | fault

structure Follower (α : Type) where
  phase : FollowPhase α := .listing none []
  /-- The number of faults since the last change. -/
  faults : Nat := 0

namespace Follower

variable {α : Type}

instance : Inhabited (Follower α) := ⟨{}⟩

/-- The pause after the first fault. -/
def basePause : Nat := 800

/-- The longest pause. -/
def maxPause : Nat := 30000

/-- The pause after a number of faults. -/
def pause (faults : Nat) : Nat := min (basePause <<< (faults - 1)) maxPause

/-- A change gets through. -/
def report (f : Follower α) (phase : FollowPhase α) (c : Change α) : Follower α × Report α :=
  ({ f with phase, faults := 0 }, .change c)

/-- Something goes wrong. -/
def fail (f : Follower α) (phase : FollowPhase α) : Follower α × Report α :=
  ({ f with phase, faults := f.faults + 1 }, .fault)

/-- Begins anew with a list. -/
def anew : FollowPhase α := .listing none []

variable [Resource α]

/-- The request that the phase asks for. -/
def request (f : Follower α) : Except Fault Http.Request :=
  match f.phase with
  | .listing continuation _ => listPartRequest (Resource.kind α) continuation
  | .watching revision => watchRequest (Resource.kind α) revision

omit [Resource α] in
/-- A part of a list arrives after some objects. -/
def takePart (f : Follower α) (before : List α) (part : Listing α) : Follower α × Report α :=
  let objects := before ++ part.items
  match part.continuation.getD "", part.resourceVersion.getD "" with
  | "", "" => f.fail anew
  | "", revision => f.report (.watching revision) (.restarted objects)
  | token, _ => ({ f with phase := .listing (some token) objects }, .nothing)

/-- The answer to a request for a list arrives. -/
def takeAnswer (f : Follower α) (before : List α) (r : Http.Response) : Follower α × Report α :=
  match read (readListing Resource.ofJson) r with
  | .ok part => f.takePart before part
  | .error _ => f.fail anew

/-- An object of a watch arrives; without a revision the watch has lost its place. -/
def takeObject (f : Follower α) (a : α) (c : Change α) : Follower α × Report α :=
  match (Resource.resourceVersion a).getD "" with
  | "" => f.fail anew
  | revision => f.report (.watching revision) c

/-- A line of a watch arrives. -/
def takeLine (f : Follower α) (line : String) : Follower α × Report α :=
  match watchLine Resource.ofJson line with
  | .applied a => f.takeObject a (.applied a)
  | .deleted a => f.takeObject a (.deleted a)
  | .bookmark revision => ({ f with phase := .watching revision }, .nothing)
  | .failed response => f.fail (if response.code = 410 then anew else f.phase)
  | .unreadable => f.fail f.phase
  | .cutOff => (f, .nothing)

/-- A change that gets through is followed by a watch. -/
theorem watching_of_takeAnswer {f g : Follower α} {before : List α} {r : Http.Response}
    {c : Change α} (h : f.takeAnswer before r = (g, .change c)) :
    ∃ revision, g.phase = .watching revision := by
  unfold takeAnswer at h
  split at h
  · unfold takePart at h
    split at h
    · simp [fail] at h
    · simp only [report, Prod.mk.injEq] at h
      exact ⟨_, by rw [← h.1]⟩
    · simp at h
  · simp [fail] at h

end Follower

end StorageFeatures
