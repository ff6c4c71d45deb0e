import StorageFeatures.Decimal.Word

/-!
# Socket addresses

Where a server listens: an IPv4 address of four decimal parts or an IPv6 address in brackets, and
a port. In an IPv6 address one run of zero groups may be left out, the last two groups may be
written as an IPv4 address, and a scope may follow.
-/

namespace StorageFeatures.Http

structure SocketAddress where
  /-- The address in groups: four of 8 bits or eight of 16 bits. -/
  groups : List Nat
  port : Nat
  deriving DecidableEq, Repr

namespace SocketAddress

/-- The pieces between a separator. -/
def pieces (separator : Char) : List Char → List (List Char)
  | [] => [[]]
  | c :: r =>
    if c = separator then [] :: pieces separator r
    else match pieces separator r with
      | p :: ps => (c :: p) :: ps
      | [] => [[c]]

/-- Decimal digits below a bound, however many. -/
def decimal? (bound : Nat) (cs : List Char) : Option Nat :=
  if cs.isEmpty then none
  else match Word.digits 0 cs with
    | .ok n => if n < bound then some n else none
    | .error _ => none

/-- A part of an IPv4 address has no leading zero. -/
def part? (cs : List Char) : Option Nat :=
  match cs with
  | '0' :: _ :: _ => none
  | _ => decimal? 256 cs

def ipv4? (cs : List Char) : Option (List Nat) :=
  let parts := pieces '.' cs
  if parts.length = 4 then parts.mapM part? else none

def hexDigit? (c : Char) : Option Nat :=
  if c.isDigit then some (c.toNat - 48)
  else if 'a' ≤ c ∧ c ≤ 'f' then some (c.toNat - 87)
  else if 'A' ≤ c ∧ c ≤ 'F' then some (c.toNat - 55)
  else none

/-- A group of an IPv6 address has one to four hexadecimal digits. -/
def group? (cs : List Char) : Option Nat :=
  if cs.isEmpty || 4 < cs.length then none
  else cs.foldlM (fun n c => (hexDigit? c).map (n * 16 + ·)) 0

/-- Groups between colons, the last two perhaps as an IPv4 address. -/
def groups? : List (List Char) → Option (List Nat)
  | [] => some []
  | [last] =>
    match ipv4? last with
    | some [a, b, c, d] => some [a * 256 + b, c * 256 + d]
    | _ => (group? last).map ([·])
  | p :: ps => do return (← group? p) :: (← groups? ps)

/-- The groups of a text that may be empty. -/
def groupsOf? (cs : List Char) : Option (List Nat) :=
  if cs.isEmpty then some [] else groups? (pieces ':' cs)

/-- Cuts a text at the first pair of colons. -/
def cutGap : List Char → Option (List Char × List Char)
  | ':' :: ':' :: r => some ([], r)
  | c :: r => (cutGap r).map fun (before, after) => (c :: before, after)
  | [] => none

def ipv6? (cs : List Char) : Option (List Nat) :=
  match cutGap cs with
  | none => (groupsOf? cs).filter fun l => l.length = 8
  | some (before, after) => do
    if before.contains '.' then none
    let head ← groupsOf? before
    let tail ← groupsOf? after
    if head.length + tail.length ≤ 7 then
      some (head ++ List.replicate (8 - head.length - tail.length) 0 ++ tail)
    else none

def port? (cs : List Char) : Option Nat := decimal? 65536 cs

/-- Reads an address in brackets with its port. -/
def bracketed? (cs : List Char) : Option SocketAddress :=
  let inside := cs.takeWhile (· ≠ ']')
  match cs.drop inside.length with
  | ']' :: ':' :: port => do
    let address := inside.takeWhile (· ≠ '%')
    match inside.drop address.length with
    | '%' :: scope =>
      let _ ← decimal? UInt32.size scope
    | _ => pure ()
    return ⟨← ipv6? address, ← port? port⟩
  | _ => none

def parse? (s : String) : Option SocketAddress :=
  match s.toList with
  | '[' :: r => bracketed? r
  | cs =>
    let address := cs.takeWhile (· ≠ ':')
    match cs.drop address.length with
    | ':' :: port => do return ⟨← ipv4? address, ← port? port⟩
    | _ => none

end SocketAddress

end StorageFeatures.Http
