import StorageFeatures.Http.Uri
import StorageFeatures.NameMap

/-!
# Replies laid out by target

`ReplyBook` is a server whose replies are laid out for each method and path. A reply takes its
time, and its body may arrive in parts and never end. A request for which no reply is left is
never answered.
-/

namespace StorageFeatures

structure Reply where
  /-- How long the reply takes to begin. -/
  delay : Nat := 0
  status : Nat := 200
  /-- The parts of the body, each with the time since the one before. -/
  parts : List (Nat × String)
  /-- Whether the body ends after its parts. -/
  ends : Bool := true

namespace Reply

/-- The parts with the times of their arrival, counted from some time. -/
def schedule : Nat → List (Nat × String) → List (Nat × String)
  | _, [] => []
  | time, (wait, part) :: r => (time + wait, part) :: schedule (time + wait) r

/-- When the parts arrive if the request is made at some time. -/
def arrivals (r : Reply) (now : Nat) : List (Nat × String) := schedule (now + r.delay) r.parts

/-- When the last part arrives if the request is made at some time. -/
def completion (r : Reply) (now : Nat) : Nat :=
  now + r.delay + (r.parts.map (·.1)).foldl (· + ·) 0

/-- The complete answer and when it is there. -/
def whole? (r : Reply) (now : Nat) : Option (Nat × Http.Response) :=
  if r.ends then
    some (r.completion now, ⟨r.status, String.join (r.parts.map (·.2))⟩)
  else none

/-- Every part of a reply is scheduled, none twice. -/
@[simp] theorem length_schedule (time : Nat) (parts : List (Nat × String)) :
    (schedule time parts).length = parts.length := by
  induction parts generalizing time with
  | nil => rfl
  | cons p r ih => simp [schedule, ih]

/-- No part arrives before the request is made. -/
theorem le_of_mem_schedule {time : Nat} {parts : List (Nat × String)} {p : Nat × String}
    (h : p ∈ schedule time parts) : time ≤ p.1 := by
  induction parts generalizing time with
  | nil => simp [schedule] at h
  | cons q r ih =>
    rcases List.mem_cons.1 h with rfl | h
    · exact Nat.le_add_right _ _
    · exact Nat.le_trans (Nat.le_add_right _ _) (ih h)

end Reply

structure ReplyBook where
  replies : NameMap (List Reply) := ∅
  received : List Http.Request := []

namespace ReplyBook

/-- Under which a request's replies are laid out. -/
def key (r : Http.Request) : String := r.method ++ " " ++ r.path

/-- Receives a request; answers with the next reply that is laid out for it. -/
def take (b : ReplyBook) (r : Http.Request) : ReplyBook × Option Reply :=
  let b := { b with received := b.received ++ [r] }
  match b.replies.get? (key r) with
  | some (reply :: rest) => ({ b with replies := b.replies.insert (key r) rest }, some reply)
  | _ => (b, none)

/-- How much can still arrive: a count of the replies that are left and of their parts. -/
def size (b : ReplyBook) : Nat :=
  (b.replies.values.map fun l => (l.map fun r => r.parts.length + 2).foldl (· + ·) 0).foldl
    (· + ·) 0

end ReplyBook

end StorageFeatures
