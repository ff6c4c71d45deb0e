import StorageFeatures.Simulation.ReplyBook
import StorageFeatures.Watch.Follower
import StorageFeatures.Watch.Route

/-!
# Followers on a virtual clock

`Feed` is a follower together with what is on its way to it. While the follower pauses after a
fault nothing is read; a watch that stays open keeps what arrives in the meantime.
-/

namespace StorageFeatures

/-- What arrives at a follower. -/
inductive Inflow where
  /-- The answer to a request for a list. -/
  | answer (response : Http.Response)
  | line (text : String)
  /-- A watch ends. -/
  | close

structure Feed (α : Type) where
  follower : Follower α := {}
  /-- What is on its way, with the times of its arrival; `none` if nothing was asked for. -/
  inflow : Option (List (Nat × Inflow)) := none
  /-- The end of a pause. -/
  resumesAt : Nat := 0

namespace Feed

variable {α : Type}

/-- When the feed goes on; `none` if it waits for something that never arrives. -/
def due? (f : Feed α) : Option Nat :=
  match f.inflow with
  | none => some f.resumesAt
  | some [] => none
  | some ((time, _) :: _) => some (max time f.resumesAt)

/-- The lines of a part of a watch. -/
def linesOf (part : String) : List String :=
  let pieces := part.splitOn "\n"
  let lines := if pieces.getLast? = some "" then pieces.dropLast else pieces
  lines.map fun line =>
    match line.toList.reverse with
    | '\r' :: r => String.ofList r.reverse
    | _ => line

/-- What a reply brings to a follower that has asked for a list or for a watch. -/
def inflowOf (phase : FollowPhase α) (now : Nat) (reply : Reply) : List (Nat × Inflow) :=
  match phase with
  | .listing .. => (reply.whole? now).toList.map fun (time, r) => (time, .answer r)
  | .watching _ =>
    ((reply.arrivals now).flatMap fun (time, part) =>
      (linesOf part).map fun line => (time, .line line)) ++
    if reply.ends then [(reply.completion now, .close)] else []

/-- The follower goes on from an answer; a fault makes it pause. -/
def goOn (f : Feed α) (now : Nat) (inflow : Option (List (Nat × Inflow))) :
    Follower α × Report α → Feed α × Option (Change α)
  | (follower, .nothing) => ({ f with follower, inflow }, none)
  | (follower, .change c) => ({ f with follower, inflow }, some c)
  | (follower, .fault) =>
    ({ follower, inflow, resumesAt := now + Follower.pause follower.faults }, none)

variable [Resource α]

/-- Asks for what the follower needs. -/
def ask (f : Feed α) (now : Nat) (book : ReplyBook) : Feed α × ReplyBook :=
  match f.follower.request with
  | .error _ => ({ f with inflow := some [] }, book)
  | .ok request =>
    let (book, reply) := book.take request
    ({ f with inflow := some ((reply.map (inflowOf f.follower.phase now)).getD []) }, book)

/-- The first thing on its way arrives. A list that comes in one answer, a watch that ends and a
watch that is given up leave nothing on its way. -/
def takeFirst (f : Feed α) (now : Nat) (first : Inflow) (rest : List (Nat × Inflow)) :
    Feed α × Option (Change α) :=
  match f.follower.phase, first with
  | .listing _ before, .answer r => f.goOn now none (f.follower.takeAnswer before r)
  | .watching _, .line text =>
    let (follower, report) := f.follower.takeLine text
    let inflow := match follower.phase with
      | .watching _ => some rest
      | .listing .. => none
    f.goOn now inflow (follower, report)
  | _, _ => ({ f with inflow := none }, none)

/-- The feed goes on by one step, which asks for something or takes something in. -/
def step (f : Feed α) (now : Nat) (book : ReplyBook) :
    Feed α × ReplyBook × Option (Change α) :=
  match f.inflow with
  | some ((_, first) :: rest) =>
    let (f, change) := f.takeFirst now first rest
    (f, book, change)
  | _ =>
    let (f, book) := f.ask now book
    (f, book, none)

end Feed

/-- The type of the objects of a kind. -/
abbrev Kind.Object : Kind → Type
  | .storageClass => StorageClass
  | .snapshotClass => SnapshotClass
  | .provisionerCapability => ProvisionerCapability
  | .classCapability => ClassCapability

instance (k : Kind) : Watched k.Object :=
  match k with
  | .storageClass => inferInstanceAs (Watched StorageClass)
  | .snapshotClass => inferInstanceAs (Watched SnapshotClass)
  | .provisionerCapability => inferInstanceAs (Watched ProvisionerCapability)
  | .classCapability => inferInstanceAs (Watched ClassCapability)

/-- A feed for each kind. -/
structure Feeds where
  storageClasses : Feed StorageClass := {}
  snapshotClasses : Feed SnapshotClass := {}
  provisioners : Feed ProvisionerCapability := {}
  capabilities : Feed ClassCapability := {}

namespace Feeds

/-- The feed of a kind. -/
def get (fs : Feeds) : (k : Kind) → Feed k.Object
  | .storageClass => fs.storageClasses
  | .snapshotClass => fs.snapshotClasses
  | .provisionerCapability => fs.provisioners
  | .classCapability => fs.capabilities

/-- Puts the feed of a kind in place of the one that is there. -/
def set (fs : Feeds) : (k : Kind) → Feed k.Object → Feeds
  | .storageClass, storageClasses => { fs with storageClasses }
  | .snapshotClass, snapshotClasses => { fs with snapshotClasses }
  | .provisionerCapability, provisioners => { fs with provisioners }
  | .classCapability, capabilities => { fs with capabilities }

@[simp] theorem get_set (fs : Feeds) (k : Kind) (f : Feed k.Object) : (fs.set k f).get k = f := by
  cases k <;> rfl

/-- The feeds of other kinds stay as they are. -/
theorem get_set_of_ne (fs : Feeds) {k k' : Kind} (h : k' ≠ k) (f : Feed k.Object) :
    (fs.set k f).get k' = fs.get k' := by
  cases k <;> cases k' <;> first | rfl | exact absurd rfl h

end Feeds

end StorageFeatures
