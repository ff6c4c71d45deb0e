import StorageFeatures.Controller.Config
import StorageFeatures.Decimal.Word
import StorageFeatures.Http.SocketAddress

/-!
# Parameters of the command line

A parameter has a long name, perhaps a letter, perhaps a variable of the environment that is
asked when the command line does not say, and perhaps a default. Its values are checked as they
are read.
-/

namespace StorageFeatures.Cli

/-- Why a value does not fit a parameter. -/
inductive ValueFault where
  /-- It is none of the words to choose from. -/
  | notListed
  | unreadable (reason : String)
  deriving DecidableEq, Repr

structure Parameter where
  long : String
  letter : Option Char := none
  /-- The variable of the environment. -/
  env : Option String := none
  default : Option String := none
  help : String
  /-- A flag takes no value on the command line. -/
  isFlag : Bool := false
  /-- The words to choose from, if the values are listed. -/
  choices : List String := []
  check : String → Option ValueFault := fun _ => none

namespace Parameter

/-- How messages name the parameter. -/
def label (p : Parameter) : String :=
  let name := "--" ++ p.long
  if p.isFlag then name
  else
    let upper (c : Char) : Char := if c = '-' then '_' else c.toUpper
    name ++ " <" ++ String.ofList (p.long.toList.map upper) ++ ">"

/-- Checks a word against those to choose from. -/
def oneOf (words : List String) (s : String) : Option ValueFault :=
  if words.contains s then none else some .notListed

/-- Checks that a value can be read. -/
def readable (read : String → Except String α) (s : String) : Option ValueFault :=
  match read s with
  | .ok _ => none
  | .error reason => some (.unreadable reason)

end Parameter

/-! ### Readers -/

def readWord (s : String) : Except String Nat := (Word.parse s).mapError Word.Malformed.message

def readVersion (s : String) : Except String Version := (Version.read s).mapError Fault.message

def readSocketAddress (s : String) : Except String Http.SocketAddress :=
  match Http.SocketAddress.parse? s with
  | some a => .ok a
  | none => .error "invalid socket address syntax"

end StorageFeatures.Cli
