/-
# Commands

A command names the files it works on. What it leaves open is decided by the
settings.
-/
import NoteLinks.Command.Arguments
import NoteLinks.Name

namespace NoteLinks

/-- What is said about the insertion of links. -/
structure ApplyFlags where
  format : Option LinkFormat := none
  floor : Option Confidence := none
  dryRun : Bool := false
  backup : Bool := false

/-- A command. -/
inductive Command
  /-- Writes the snapshot of a vault to a file. -/
  | analyze (vault output : Text)
  /-- Writes suggestions for the snapshot in a file to another file. -/
  | suggest (vault analysis output : Text) (eagerness : Option Eagerness)
  /-- Inserts the suggestions in a file into the notes of a vault. -/
  | apply (vault suggestions : Text) (flags : ApplyFlags)
  /-- Does all three, one after another. -/
  | run (vault analysis suggestions : Text) (eagerness : Option Eagerness) (flags : ApplyFlags)
  /-- Shows the suggestions in a file. -/
  | review (suggestions : Text) (format : OutputFormat) (floor : Option Confidence)

namespace Command

/-- What is asked for on the command line. -/
inductive Request
  | version
  /-- A command, and the path of the file with settings if it is told. -/
  | command (settings : Option Text) (command : Command)

/-- The file that a snapshot is kept in by default. -/
def defaultAnalysis : Text := "vault_analysis.json".toList

/-- The file that suggestions are kept in by default. -/
def defaultSuggestions : Text := "link_suggestions.json".toList

/-! ## The options of the commands -/

/-- The option for the file with settings, which every command knows. -/
def settingsOption : OptionSpec := { name := "config" }

/-- The options for the insertion of links. -/
def applyOptions : List OptionSpec :=
  [{ name := "format", letter := some 'f' }, { name := "confidence", letter := some 'c' },
    { name := "dry-run", letter := some 'd', takesValue := false },
    { name := "backup", takesValue := false }]

/-- The insertion of links as the arguments have it. -/
def applyFlags? (a : Arguments) : Option ApplyFlags := do
  some { format := ← a.choice? "format" LinkFormat.ofName
         floor := ← a.choice? "confidence" Confidence.ofName
         dryRun := a.flag "dry-run"
         backup := a.flag "backup" }

/-- The options of a command, and what its arguments make of it. -/
structure Form where
  options : List OptionSpec
  make? : Arguments → Option Command

/-- The form of the command that makes a snapshot. -/
def analyzeForm : Form where
  options := [{ name := "output", letter := some 'o' }]
  make? a := do some (.analyze (← a.operand?) (← a.pathOr? "output" defaultAnalysis))

/-- The form of the command that makes suggestions. -/
def suggestForm : Form where
  options := [{ name := "analysis", letter := some 'a' }, { name := "output", letter := some 'o' },
    { name := "strategy", letter := some 's' }]
  make? a := do
    some (.suggest (← a.operand?) (← a.pathOr? "analysis" defaultAnalysis)
      (← a.pathOr? "output" defaultSuggestions) (← a.choice? "strategy" Eagerness.ofName))

/-- The form of the command that inserts links. -/
def applyForm : Form where
  options := { name := "suggestions", letter := some 's' } :: applyOptions
  make? a := do
    some (.apply (← a.operand?) (← a.pathOr? "suggestions" defaultSuggestions) (← applyFlags? a))

/-- The form of the command that does all three. -/
def runForm : Form where
  options := { name := "strategy", letter := some 's' } :: { name := "analysis" }
    :: { name := "suggestions" } :: applyOptions
  make? a := do
    some (.run (← a.operand?) (← a.pathOr? "analysis" defaultAnalysis)
      (← a.pathOr? "suggestions" defaultSuggestions) (← a.choice? "strategy" Eagerness.ofName)
      (← applyFlags? a))

/-- The form of the command that shows suggestions. -/
def reviewForm : Form where
  options := [{ name := "format" }, { name := "confidence", letter := some 'c' }]
  make? a := do
    let format ← a.choice? "format" OutputFormat.ofName
    some (.review (← a.operand?) (format.getD .table) (← a.choice? "confidence" Confidence.ofName))

/-- The forms of all commands under their names. -/
def forms : List (String × Form) :=
  [("analyze", analyzeForm), ("suggest", suggestForm), ("apply", applyForm), ("run", runForm),
    ("review", reviewForm)]

/-! ## The command line -/

/-- A command with its arguments. Settings that its own arguments name come before
those that are named in front of it. -/
def ofArguments? (settings : Option Text) (form : Form) (args : List Text) : Option Request := do
  let a ← readArguments (settingsOption :: form.options) none args
  if a.nothingTwice then
    let own ← a.path? settingsOption.name
    some (.command (own.or settings) (← form.make? a))
  else none

/-- Whether the argument asks for the version. -/
def asksVersion (arg : Text) : Bool :=
  arg = "--version".toList || Text.startsWith ['-', 'V'] arg

/-- What is asked for by arguments, of which those in front of the command may name
the file with settings once. `pending` tells whether its path must come next. -/
def readLine? (settings : Option Text) : (pending : Bool) → List Text → Option Request
  | _, [] => none
  | true, path :: rest =>
    if isOption path || path.isEmpty || settings.isSome then none
    else readLine? (some path) false rest
  | false, arg :: rest =>
    if asksVersion arg then some .version
    else if arg = ['-', '-'] then none
    else if isOption arg then
      match readOption [settingsOption] arg with
      | some (_, some _) => readLine? settings true rest
      | some ((_, path) :: _, none) =>
        if path.isEmpty || settings.isSome then none else readLine? (some path) false rest
      | _ => none
    else (forms.find? fun form => form.1.toList == arg).bind fun form =>
      ofArguments? settings form.2 rest

/-- What is asked for on the command line, if it makes sense. -/
def ofLine? (args : List Text) : Option Request := readLine? none false args

end Command

end NoteLinks
