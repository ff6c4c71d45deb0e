import StorageFeatures.Cli.Command

/-!
# Help

The pages of help. Lines are filled up to a width. What a parameter is for stands beside it; if
the parameters of a page are long and a text would not fit, every text of the page stands below.
-/

namespace StorageFeatures.Cli

namespace Page

/-- The number of characters in a line. -/
def width : Nat := 100

/-- Characters between a parameter and its text, and around its letter. -/
def margin : Nat := 8

/-- Where texts begin that stand below their parameters. -/
def textColumn : Nat := 10

def blanks (n : Nat) : String := String.ofList (List.replicate n ' ')

/-! ### Filling lines -/

/-- Adds words to a line that is not full; answers the lines before the last. -/
def fillWords (width : Nat) : String → List String → List String
  | line, [] => [line]
  | line, word :: r =>
    if width < line.length + 1 + word.length then line :: fillWords width word r
    else fillWords width (line ++ " " ++ word) r

/-- Breaks a text between words into lines. -/
def fill (width : Nat) (text : String) : List String :=
  match text.splitOn " " with
  | [] => []
  | word :: r => fillWords width word r

/-- Lines of which all but the first are indented. -/
def hanging (indent : Nat) (lines : List String) : String :=
  ("\n" ++ blanks indent).intercalate lines

/-! ### Entries -/

/-- One line of a list of parameters. -/
structure Entry where
  /-- Where the entry stands in the list. -/
  position : Nat × String
  letter : Option Char
  label : String
  text : String

/-- What is said about the values of a parameter. -/
def valueNotes (environment : String → Option String) (p : Parameter) : List String :=
  (p.env.map fun name => "[env: " ++ name ++ "=" ++ (environment name).getD "" ++ "]").toList ++
  (p.default.map fun value => "[default: " ++ value ++ "]").toList ++
  if p.choices.isEmpty then [] else ["[possible values: " ++ ", ".intercalate p.choices ++ "]"]

/-- The entries of parameters, by their order and then by name; one with a letter stands under
its letter. -/
def entriesOf (environment : String → Option String) (l : List Parameter) : List Entry :=
  l.zipIdx.map fun (p, i) =>
    { position := (i, (p.letter.map fun c => c.toString ++ "0").getD p.long)
      letter := p.letter
      label := p.label
      text := " ".intercalate (p.help :: valueNotes environment p) }

/-- The entries that come last. -/
def closingEntries (hasVersion : Bool) : List Entry :=
  ⟨(0, "h"), some 'h', "--help", "Print help"⟩ ::
    if hasVersion then [⟨(0, "v"), some 'V', "--version", "Print version"⟩] else []

/-- Whether an entry stands before another one. -/
def Entry.le (a b : Entry) : Bool :=
  a.position.1 < b.position.1 || (a.position.1 = b.position.1 && a.position.2 ≤ b.position.2)

/-- Whether the text of an entry calls for a line of its own. -/
def Entry.overflows (longest : Nat) (e : Entry) : Bool :=
  let taken := longest + margin + 4
  taken ≤ width && 2 * width < 5 * taken && width - taken < e.text.length

/-- The beginning of an entry. -/
def Entry.lead (e : Entry) : String :=
  "  " ++ (match e.letter with
    | some c => "-" ++ c.toString ++ ", "
    | none => "    ") ++ e.label

/-- The entry with its text beside or below it. -/
def Entry.render (below : Bool) (longest : Nat) (e : Entry) : String :=
  if below then
    e.lead ++ "\n" ++ blanks textColumn ++ hanging textColumn (fill (width - textColumn) e.text)
  else
    let column := longest + margin
    e.lead ++ blanks (column - e.lead.length) ++ hanging column (fill (width - column) e.text)

def renderEntries (l : List Entry) : String :=
  let longest := (l.map fun e => e.label.length).foldl max 0
  let below := l.any (Entry.overflows longest)
  String.join (l.map fun e => e.render below longest ++ "\n")

/-! ### Pages -/

/-- The list of parameters of a page. -/
def options (environment : String → Option String) (own : List Parameter) (hasVersion : Bool) :
    String :=
  let listed := entriesOf environment own ++ entriesOf environment Parameter.common
  "Options:\n" ++ renderEntries (listed.mergeSort Entry.le ++ closingEntries hasVersion)

/-- A page: what something is for, how it is used, and more. -/
def render (about usage : String) (rest : String) : String :=
  about ++ "\n\nUsage: " ++ programName ++ " " ++ usage ++ "\n\n" ++ rest

/-- The list of commands. -/
def commands : String :=
  let listed := CommandName.all.map (fun c => (c.name, c.about)) ++
    [(helpCommand, "Print this message or the help of the given subcommand(s)")]
  let longest := (listed.map fun c => c.1.length).foldl max 0
  "Commands:\n" ++ String.join (listed.map fun (name, about) =>
    "  " ++ name ++ blanks (longest + 2 - name.length) ++ about ++ "\n")

end Page

/-- The help about a topic. -/
def HelpTopic.page (environment : String → Option String) : HelpTopic → String
  | program => Page.render purpose "[OPTIONS] <COMMAND>"
      (Page.commands ++ "\n" ++ Page.options environment [] true)
  | command c => Page.render c.about (c.name ++ " [OPTIONS]")
      (Page.options environment c.parameters false)
  | help => Page.render "Print this message or the help of the given subcommand(s)"
      (helpCommand ++ " [COMMAND]...")
      "Arguments:\n  [COMMAND]...  Print help for the subcommand(s)\n"

end StorageFeatures.Cli
