import StorageFeatures.Api.Call

/-!
# A scripted server

`ScriptedServer` answers requests from a list, one after the other, and keeps what it was asked.
Once the list is used up nothing is found any more.
-/

namespace StorageFeatures

structure ScriptedServer where
  replies : List Http.Response := []
  received : List Http.Request := []

namespace ScriptedServer

/-- What is answered when the list is used up. -/
def unscripted : Http.Response := ⟨404, "unscripted"⟩

/-- Answers a request. -/
def serve : Api.Transport (StateM ScriptedServer) := fun request => do
  let s ← get
  match s.replies with
  | [] =>
    set { s with received := s.received ++ [request] }
    return .ok unscripted
  | r :: rest =>
    set { s with replies := rest, received := s.received ++ [request] }
    return .ok r

end ScriptedServer

end StorageFeatures
