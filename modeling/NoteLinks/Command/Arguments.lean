/-
# Arguments of a command

Arguments are operands, options with values, and flags. A value follows its option
as the next argument, or in the same argument behind a sign of equality; behind
the letter of an option it may also follow at once. Flags may share an argument
as letters. Nothing behind two dashes is an option.
-/
import NoteLinks.Text.Basic

namespace NoteLinks.Command

/-- An option that a command knows. -/
structure OptionSpec where
  name : String
  letter : Option Char := none
  takesValue : Bool := true
  deriving DecidableEq, Repr

/-- What arguments say. A flag has an empty value. -/
structure Arguments where
  operands : List Text := []
  options : List (String × Text) := []
  deriving DecidableEq, Repr

/-- Whether the argument is an option. A single dash is none. -/
def isOption (arg : Text) : Bool := arg.head? == some '-' && arg != ['-']

/-- Options in an argument, and the one whose value is the next argument. -/
abbrev Reading := Option (List (String × Text) × Option String)

/-- What is read of an option with the text that is attached to it, if any. -/
def OptionSpec.read (spec : OptionSpec) : Option Text → Reading
  | some value => if spec.takesValue then some ([(spec.name, value)], none) else none
  | none => if spec.takesValue then some ([], some spec.name) else some ([(spec.name, [])], none)

/-- The options that the letters in an argument stand for. -/
def readLetters (specs : List OptionSpec) : Text → Reading
  | [] => some ([], none)
  | c :: rest => do
    let spec ← specs.find? fun s => s.letter == some c
    if spec.takesValue then
      spec.read (match rest with
        | [] => none
        | '=' :: value => some value
        | value => some value)
    else
      let (options, pending) ← readLetters specs rest
      some ((spec.name, []) :: options, pending)

/-- The options in an argument that is one. -/
def readOption (specs : List OptionSpec) (arg : Text) : Reading :=
  match arg with
  | '-' :: '-' :: rest =>
    let (name, value) := match Text.cutAt? ['='] rest with
      | some (name, value) => (name, some value)
      | none => (rest, none)
    (specs.find? fun s => s.name.toList == name).bind fun spec => spec.read value
  | _ :: rest => readLetters specs rest
  | [] => none

/-- What arguments say to a command with these options, if they are well formed.
`pending` is the option whose value must come next. -/
def readArguments (specs : List OptionSpec) : (pending : Option String) → List Text →
    Option Arguments
  | none, [] => some {}
  | some _, [] => none
  | some name, value :: rest =>
    if isOption value then none
    else (readArguments specs none rest).map fun a => { a with options := (name, value) :: a.options }
  | none, arg :: rest =>
    if arg = ['-', '-'] then some { operands := rest }
    else if isOption arg then do
      let (options, pending) ← readOption specs arg
      let a ← readArguments specs pending rest
      some { a with options := options ++ a.options }
    else (readArguments specs none rest).map fun a => { a with operands := arg :: a.operands }

namespace Arguments

/-- Whether no option is given twice. -/
def nothingTwice (a : Arguments) : Bool := (a.options.map (·.1)).Nodup

/-- The only operand. -/
def operand? (a : Arguments) : Option Text :=
  match a.operands with
  | [operand] => if operand.isEmpty then none else some operand
  | _ => none

/-- Whether a flag is given. -/
def flag (a : Arguments) (name : String) : Bool := (a.options.lookup name).isSome

/-- The path that an option gives, if it is given. The path must not be empty. -/
def path? (a : Arguments) (name : String) : Option (Option Text) :=
  match a.options.lookup name with
  | none => some none
  | some path => if path.isEmpty then none else some (some path)

/-- The path that an option gives, or else a default. -/
def pathOr? (a : Arguments) (name : String) (default : Text) : Option Text :=
  (a.path? name).map fun path => path.getD default

/-- What an option chooses by name, if it is given. The name must be known. -/
def choice? {ε α : Type} (a : Arguments) (name : String) (ofName : Text → Except ε α) :
    Option (Option α) :=
  match a.options.lookup name with
  | none => some none
  | some chosen =>
    match ofName chosen with
    | .ok value => some (some value)
    | .error _ => none

end Arguments

end NoteLinks.Command
