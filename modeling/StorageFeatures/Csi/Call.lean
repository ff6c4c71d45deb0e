import StorageFeatures.Csi.Codec
import StorageFeatures.Csi.Message

/-!
# Remote calls to a plugin

A call sends an empty message and gets back at most one message and a status. Only a message that
can be read and comes with the status zero is an answer. A message travels in a frame: a byte that
says that it is not compressed, its length in four bytes with the highest first, and the message.
-/

namespace StorageFeatures.Wire

/-- The length of a message in four bytes. -/
def lengthBytes (n : Nat) : List UInt8 :=
  [UInt8.ofNat (n >>> 24), UInt8.ofNat (n >>> 16), UInt8.ofNat (n >>> 8), UInt8.ofNat n]

/-- The frame of a message. -/
def frame (message : List UInt8) : List UInt8 := 0 :: lengthBytes message.length ++ message

/-- A frame is five bytes longer than its message. -/
@[simp] theorem length_frame (message : List UInt8) :
    (frame message).length = message.length + 5 := by
  simp [frame, lengthBytes]

end StorageFeatures.Wire

namespace StorageFeatures.Csi

/-- What comes back from a call. -/
structure CallReply where
  message : Option (List UInt8) := none
  status : RpcStatus := ⟨0, ""⟩

/-- The code for a fault inside of the transport. -/
def internalCode : Nat := 13

/-- A call that succeeds without a message. -/
def missingMessage : RpcStatus := ⟨internalCode, "Missing response message."⟩

/-- A message that cannot be read. -/
def unreadableMessage : RpcStatus := ⟨internalCode, "failed to decode Protobuf message"⟩

/-- Reads the message that answers a call. -/
def Method.decode : (m : Method) → List UInt8 → Option m.Answer
  | .pluginInfo => decodeIdentity
  | .pluginCapabilities => decodePluginEntries
  | .controllerCapabilities | .nodeCapabilities => decodeRpcEntries

/-- The body of every call: the frame of a message without fields. -/
def callBody : List UInt8 := Wire.frame []

namespace CallReply

/-- The answer to a call. -/
def read (r : CallReply) (m : Method) : Except Fault m.Answer :=
  if r.status.code ≠ 0 then .error (.rpc m.name r.status)
  else
    match r.message with
    | none => .error (.rpc m.name missingMessage)
    | some bytes =>
      match m.decode bytes with
      | some answer => .ok answer
      | none => .error (.rpc m.name unreadableMessage)

/-- An answer is a readable message that comes with the status zero. -/
theorem read_eq_ok_iff {r : CallReply} {m : Method} {a : m.Answer} :
    r.read m = .ok a ↔
      r.status.code = 0 ∧ ∃ bytes, r.message = some bytes ∧ m.decode bytes = some a := by
  unfold read
  split
  · simp_all
  · cases h : r.message with
    | none => simp
    | some bytes => cases h' : m.decode bytes <;> simp_all

end CallReply

/-- A plugin that gives certain replies. -/
def Client.ofReplies (replies : Method → CallReply) : Client := fun m => (replies m).read m

end StorageFeatures.Csi
