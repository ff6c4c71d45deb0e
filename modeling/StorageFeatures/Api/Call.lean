import StorageFeatures.Api.Answer
import StorageFeatures.Inventory
import StorageFeatures.Store.Call

/-!
# The store of an API server

Each call on the store is one request to the API server. A missing object is no fault of a read,
and a conflict on creation means that the object exists already; every other error of the server
is passed on. The inventory of a cluster needs one list of each of three kinds; the first list that
fails ends the collection.
-/

namespace StorageFeatures

namespace Kind

/-- The target of one object. -/
def target (k : Kind) (name : String) : String := k.path ++ "/" ++ name

end Kind

namespace Api

def makeRequest (method target : String) (body : Option Json) : Except Fault Http.Request :=
  match Http.Request.make method target body with
  | .ok r => .ok r
  | .error cause => .error (.api (.badTarget cause))

/-- The request for the version of the cluster. -/
def versionRequest : Except Fault Http.Request := makeRequest "GET" "/version" none

/-- The version that an answer reports. -/
def readVersionAnswer (r : Http.Response) : Except Fault String :=
  (read readVersion r).mapError .api

/-- The request for all objects of a kind. -/
def listRequest (k : Kind) : Except Fault Http.Request := makeRequest "GET" (k.path ++ "?") none

/-- The objects that an answer lists. -/
def readListAnswer (α : Type) [Resource α] (r : Http.Response) : Except Fault (List α) :=
  ((read (readListing Resource.ofJson) r).map Listing.items).mapError .api

/-- Whoever carries a request to the server and its answer back, which may fail. -/
abbrev Transport (m : Type → Type) := Http.Request → m (Except Fault Http.Response)

/-- The transport to a server that cannot be reached. -/
def unreachable (text : String) : Transport Id := fun _ => .error (.api (.unreachable text))

/-- A host whose network is down. -/
def offline : Transport Id :=
  unreachable "tcp connect error: Network is unreachable (os error 101)"

/-- Sends a request, if it can be made, and reads its answer. -/
def exchange {m : Type → Type} [Monad m] (send : Transport m) (request : Except Fault Http.Request)
    (readAnswer : Http.Response → Except Fault α) : m (Except Fault α) := do
  match request with
  | .error fault => return .error fault
  | .ok request => return (← send request).bind readAnswer

end Api

namespace StoreCall

/-- The request that makes a call. -/
def request (call : StoreCall) : Except Fault Http.Request :=
  let one := call.kind.target call.name
  match call with
  | getProvisioner _ | getCapability _ => Api.makeRequest "GET" one none
  | createProvisioner p => Api.makeRequest "POST" (call.kind.path ++ "?") (some p.toJson)
  | createCapability c => Api.makeRequest "POST" (call.kind.path ++ "?") (some c.toJson)
  | updateProvisioner p => Api.makeRequest "PUT" (one ++ "?") (some p.toJson)
  | updateCapability c => Api.makeRequest "PUT" (one ++ "?") (some c.toJson)
  | deleteCapability _ => Api.makeRequest "DELETE" (one ++ "?") (some (.object []))

/-- What the document of a successful answer says. -/
def readDocument : StoreCall → Json.Reads StoreAnswer
  | getProvisioner _ | createProvisioner _ | updateProvisioner _ =>
    fun j => (ProvisionerCapability.ofJson j).map .provisioner
  | getCapability _ | createCapability _ | updateCapability _ =>
    fun j => (ClassCapability.ofJson j).map .capability
  | deleteCapability _ => fun j =>
    (Api.readStatusOr ClassCapability.ofJson j).map fun _ => .nothing

/-- What an error of the server means for a call. -/
def refused (call : StoreCall) (e : ErrorResponse) : Except Fault StoreAnswer :=
  match call with
  | getProvisioner _ | getCapability _ =>
    if e.reason = "NotFound" then .ok .nothing else .error (.api (.refused e))
  | createProvisioner _ | createCapability _ =>
    .error (if e.code = 409 then .alreadyExists call.kind.name call.name else .api (.refused e))
  | _ => .error (.api (.refused e))

/-- What an answer means for a call. -/
def readAnswer (call : StoreCall) (r : Http.Response) : Except Fault StoreAnswer :=
  match Api.read call.readDocument r with
  | .ok answer => .ok answer
  | .error (.refused e) => call.refused e
  | .error cause => .error (.api cause)

/-- Makes a call. -/
def run {m : Type → Type} [Monad m] (send : Api.Transport m) (call : StoreCall) :
    m (Except Fault StoreAnswer) :=
  Api.exchange send call.request call.readAnswer

end StoreCall

/-! ### Collecting an inventory -/

namespace Api

variable {m : Type → Type} [Monad m]

/-- Lists all objects of a kind. -/
def list (α : Type) [Resource α] (send : Transport m) : m (Except Fault (List α)) :=
  exchange send (listRequest (Resource.kind α)) (readListAnswer α)

/-- Asks for the version of the cluster. -/
def serverVersion (send : Transport m) : m (Except Fault String) :=
  exchange send versionRequest readVersionAnswer

/-- Lists the three kinds and puts them together. -/
def collect (send : Transport m) : ExceptT Fault m Inventory := do
  let classes ← ExceptT.mk (list StorageClass send)
  let provisioners ← ExceptT.mk (list ProvisionerCapability send)
  let capabilities ← ExceptT.mk (list ClassCapability send)
  return .ofObjects classes provisioners capabilities

end Api

end StorageFeatures
