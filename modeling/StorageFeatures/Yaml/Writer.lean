import StorageFeatures.Json.Writer
import StorageFeatures.Yaml.Scalar

/-!
# Writing YAML

`Yaml.document` writes a value in block style with an indentation of two. A list inside of an
object stands at the indentation of its key. A document whose last block keeps the line ends at
its end is closed by a line of dots.
-/

namespace StorageFeatures.Yaml

/-- Text written so far. -/
structure Output where
  text : String := ""
  /-- Whether the next character begins a line. -/
  atLineStart : Bool := true
  /-- Whether the last block keeps all line ends at its end. -/
  openEnded : Bool := false

namespace Output

/-- Adds text that does not end a line. -/
def add (o : Output) (s : String) : Output := { o with text := o.text ++ s, atLineStart := false }

/-- Begins a line, unless one has just begun. -/
def newLine (o : Output) (indent : Nat) : Output :=
  let o := if o.atLineStart then o else { o with text := o.text ++ "\n" }
  { o with text := o.text ++ String.ofList (spaces indent), atLineStart := true }

/-- Adds a text as a scalar. -/
def scalar (o : Output) (indent : Nat) (s : String) : Output :=
  let cs := s.toList
  let o := o.add (scalarText indent s)
  if styleOf s = .literal then
    { o with
      atLineStart := cs.getLast?.any isBreak
      openEnded := chomping cs = ['+'] }
  else o

end Output

mutual

/-- Writes a value that follows on the line; `indent` is the indentation of its further lines. -/
def node (indent : Nat) (o : Output) : Json → Output
  | .null => o.add "null"
  | .bool b => o.add (if b then "true" else "false")
  | .number n => o.add (Json.numberLiteral n)
  | .string s => o.scalar indent s
  | .array [] => o.add "[]"
  | .array (j :: r) => items indent (node (indent + 2) (o.add "- ") j) r
  | .object [] => o.add "\x7b\x7d"
  | .object ((k, j) :: r) => members indent (member indent (o.scalar indent k) j) r

/-- Writes the items after the first one. -/
def items (indent : Nat) (o : Output) : List Json → Output
  | [] => o
  | j :: r => items indent (node (indent + 2) ((o.newLine indent).add "- ") j) r

/-- Writes the members after the first one. -/
def members (indent : Nat) (o : Output) : List (String × Json) → Output
  | [] => o
  | (k, j) :: r =>
    members indent (member indent ((o.newLine indent).scalar indent k) j) r

/-- Writes the value of a member behind its key. -/
def member (indent : Nat) (o : Output) : Json → Output
  | .array (j :: r) =>
    items indent (node (indent + 2) (((o.add ":").newLine indent).add "- ") j) r
  | .object ((k, j) :: r) =>
    let inner := indent + 2
    members inner (member inner (((o.add ":").newLine inner).scalar inner k) j) r
  | .array [] => (o.add ": ").add "[]"
  | .object [] => (o.add ": ").add "\x7b\x7d"
  | .null => (o.add ": ").add "null"
  | .bool b => (o.add ": ").add (if b then "true" else "false")
  | .number n => (o.add ": ").add (Json.numberLiteral n)
  | .string s => (o.add ": ").scalar (indent + 2) s

end

/-- The text of a document that holds a value. -/
def document (j : Json) : String :=
  let o := (node 0 {} j).newLine 0
  if o.openEnded then o.text ++ "...\n" else o.text

end StorageFeatures.Yaml
