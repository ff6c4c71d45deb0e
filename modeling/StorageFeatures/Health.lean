import StorageFeatures.Metrics.Text

/-!
# Health and metrics over HTTP

What the health server answers: whether the process lives, whether it is ready, and its metrics.
Only the path of a request counts. `Health.serveOffline` is the server on a host whose network is
down, where it can be started and stopped but not asked.
-/

namespace StorageFeatures.Health

structure Reply where
  status : Nat
  contentType : Option String
  body : String
  deriving DecidableEq, Repr

/-- A reply of plain words. -/
def words (status : Nat) (body : String) : Reply := ⟨status, none, body⟩

/-- Answers a request for a path. -/
def reply (ready : Bool) (m : Metrics) (path : String) : Reply :=
  if path = "/healthz" ∨ path = "/livez" then words 200 "ok"
  else if path = "/readyz" then if ready then words 200 "ok" else words 503 "not ready"
  else if path = "/metrics" then ⟨200, some Metrics.mediaType, m.text⟩
  else words 404 "not found"

/-- How a server ends to which requests were sent. -/
inductive Ending where
  | portTaken
  /-- A request found no way to the server. -/
  | unreached
  | stopped
  deriving DecidableEq, Repr

/-- A server on a host whose network is down, and the paths it is asked for. -/
def serveOffline (portTaken : Bool) (paths : List String) : Ending :=
  if portTaken then .portTaken
  else if paths.isEmpty then .stopped
  else .unreached

end StorageFeatures.Health
