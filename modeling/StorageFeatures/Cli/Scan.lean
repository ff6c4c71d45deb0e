import StorageFeatures.Cli.Parameter
import StorageFeatures.NameMap

/-!
# Reading a command line

`Level.scan` reads arguments until they end or name a command. A parameter that needs a value
takes the next argument, unless that one looks like a parameter; its value is checked when the
next parameter begins or the arguments end. After `--` no argument is a parameter or a command.
-/

namespace StorageFeatures.Cli

/-- Why a command line cannot be used. -/
inductive UsageFault where
  | unexpected (argument : String)
  | unknownCommand (name : String)
  | noCommand
  /-- The parameter with a label has no value. -/
  | noValue (label : String)
  | badValue (label value : String) (fault : ValueFault)
  /-- A flag is given a value. -/
  | surplusValue (label value : String)
  | repeated (label : String)
  deriving DecidableEq, Repr

namespace UsageFault

/-- The message; `program` is the name of the program. -/
def message (program : String) : UsageFault → String
  | unexpected argument => "unexpected argument '" ++ argument ++ "' found"
  | unknownCommand name => "unrecognized subcommand '" ++ name ++ "'"
  | noCommand => "'" ++ program ++ "' requires a subcommand but one was not provided"
  | noValue label | badValue label "" .notListed =>
    "a value is required for '" ++ label ++ "' but none was supplied"
  | badValue label value .notListed => "invalid value '" ++ value ++ "' for '" ++ label ++ "'"
  | badValue label value (.unreadable reason) =>
    "invalid value '" ++ value ++ "' for '" ++ label ++ "': " ++ reason
  | surplusValue label value =>
    "unexpected value '" ++ value ++ "' for '" ++ label ++ "' found; no more were expected"
  | repeated label => "the argument '" ++ label ++ "' cannot be used multiple times"

end UsageFault

/-- Why reading arguments ends before a command is known. -/
inductive Stop where
  | usage (fault : UsageFault)
  /-- The help of the level is asked for. -/
  | help
  /-- The version of the program is asked for. -/
  | version
  deriving DecidableEq, Repr

/-- What can be said at one level of the command line. -/
structure Level where
  parameters : List Parameter
  /-- The commands that may follow. -/
  commands : List String := []
  /-- Whether the version can be asked for. -/
  hasVersion : Bool := false

/-- What has been read. -/
structure Scan where
  /-- Values that were read and checked, by long names. -/
  values : NameMap String := ∅
  /-- The last parameter, whose value has not been checked or not even been read. -/
  pending : Option (Parameter × Option String) := none
  /-- Whether only plain arguments may follow. -/
  trailing : Bool := false

namespace Scan

/-- Stores a value; a parameter is given only once. -/
def store (s : Scan) (p : Parameter) (value : String) : Except Stop Scan :=
  if s.values.contains p.long then .error (.usage (.repeated p.label))
  else
    match p.check value with
    | some fault => .error (.usage (.badValue p.label value fault))
    | none => .ok { s with values := s.values.insert p.long value }

/-- Is done with the last parameter. -/
def settle (s : Scan) : Except Stop Scan :=
  match s.pending with
  | none => .ok s
  | some (p, none) => .error (.usage (.noValue p.label))
  | some (p, some value) => { s with pending := none }.store p value

/-- Whether the next argument is the value of a parameter. -/
def awaitsValue (s : Scan) : Bool :=
  match s.pending with
  | some (_, none) => true
  | _ => false

/-- A parameter begins, perhaps with a value attached. -/
def begin (s : Scan) (p : Parameter) (attached : Option String) : Except Stop Scan := do
  let s ← s.settle
  match p.isFlag, attached with
  | true, _ => s.store p "true"
  | false, some value => s.store p value
  | false, none => return { s with pending := some (p, none) }

/-- A value that the environment gives to a parameter that the command line leaves out. -/
def fallBack (environment : String → Option String) (s : Scan) (p : Parameter) :
    Except Stop Scan :=
  if s.values.contains p.long then .ok s
  else
    match p.env.bind environment with
    | some value => s.store p value
    | none => .ok s

end Scan

namespace Level

variable (level : Level)

/-- What an argument is that is neither a parameter nor a value. -/
def stray (trailing : Bool) (argument : String) : UsageFault :=
  if level.commands.isEmpty || (trailing && level.commands.contains argument) then
    .unexpected argument
  else .unknownCommand argument

/-- Reads the name of a parameter, which stood after `--`, and the value attached to it. -/
def takeLong (s : Scan) (name : String) (attached : Option String) : Except Stop Scan :=
  let ask (stop : Stop) : Except Stop Scan :=
    match attached with
    | some value => .error (.usage (.surplusValue ("--" ++ name) value))
    | none => do
      let _ ← s.settle
      .error stop
  match level.parameters.find? fun p => p.long = name with
  | some p =>
    match p.isFlag, attached with
    | true, some value => .error (.usage (.surplusValue p.label value))
    | _, _ => s.begin p attached
  | none =>
    if name = "help" then ask .help
    else if name = "version" && level.hasVersion then ask .version
    else .error (.usage (.unexpected ("--" ++ name)))

/-- Reads letters of parameters, which stood after `-`. What follows the letter of a parameter
that takes a value is the value, with or without `=`. -/
def takeLetters (s : Scan) : List Char → Except Stop Scan
  | [] => .ok s
  | c :: r =>
    match level.parameters.find? fun p => p.letter = some c with
    | some p =>
      if p.isFlag then do takeLetters (← s.begin p none) r
      else s.begin p (match r with
        | [] => none
        | '=' :: value => some (String.ofList value)
        | value => some (String.ofList value))
    | none =>
      if c = 'h' then do
        let _ ← s.settle
        .error .help
      else if c = 'V' && level.hasVersion then do
        let _ ← s.settle
        .error .version
      else .error (.usage (.unexpected ("-" ++ String.singleton c)))

/-- Reads one argument that is no command. -/
def take (s : Scan) (argument : String) : Except Stop Scan :=
  match argument.toList, s.pending with
  | ['-', '-'], _ => .ok { s with trailing := true }
  | '-' :: '-' :: cs, _ =>
    let name := cs.takeWhile (· ≠ '=')
    level.takeLong s (String.ofList name) (match cs.drop name.length with
      | '=' :: value => some (String.ofList value)
      | _ => none)
  | '-' :: c :: cs, _ => level.takeLetters s (c :: cs)
  | _, some (p, none) => .ok { s with pending := some (p, some argument) }
  | _, _ => .error (.usage (level.stray false argument))

/-- Reads arguments until they end or name a command; answers also the command and what follows
it. -/
def scan (s : Scan) : List String → Except Stop (Scan × Option (String × List String))
  | [] => .ok (s, none)
  | argument :: rest =>
    if s.trailing then .error (.usage (level.stray true argument))
    else if !s.awaitsValue && level.commands.contains argument then .ok (s, some (argument, rest))
    else do scan (← level.take s argument) rest

/-- Is done with the arguments and asks the environment. -/
def complete (environment : String → Option String) (s : Scan) : Except Stop Scan := do
  level.parameters.foldlM (Scan.fallBack environment) (← s.settle)

end Level

end StorageFeatures.Cli
