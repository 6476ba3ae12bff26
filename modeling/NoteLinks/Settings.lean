/-
# Settings

Settings come from a file. It is named on the command line or by the environment,
or else it lies in the vault; only there it may be missing. Everything in it is
optional. Names in it are not looked at before they are needed, so that a choice
on the command line can stand in for a wrong one.
-/
import NoteLinks.Insertion.Listing
import NoteLinks.Name
import NoteLinks.Toml.Decode
import NoteLinks.Toml.Reader
import NoteLinks.Tree.Paths

namespace NoteLinks

/-- Thresholds that take the place of those that go with a degree of eagerness. -/
structure Override where
  minScore : Option Float := none
  maxLinks : Option Nat := none

/-- What is set in a file. -/
structure Settings where
  /-- The names of directories that are passed over. -/
  excluded : List Text := []
  eagerness : Option Text := none
  /-- Other thresholds, under the names of degrees of eagerness. -/
  overrides : KeyMap Text Override := KeyMap.empty
  format : Option Text := none
  floor : Option Text := none
  backup : Bool := false
  /-- The heading of the section of related notes. -/
  heading : Text := Insertion.defaultHeading

/-- What can be wrong with settings. -/
inductive SettingsError
  /-- The file that is asked for is not there. -/
  | missing (path : Text)
  | unreadable (path : Text) (e : DiskError)
  | malformed (path : Text)
  /-- Thresholds are given for something else than a degree of eagerness. -/
  | unknownOverride (key : Text) (e : Error)
  | scoreOutOfRange (eagerness : Eagerness) (score : Float)
  | unknownName (e : Error)

namespace SettingsError

/-- The messages for what is wrong, from the outermost to the innermost. -/
def messages : SettingsError → List Text
  | missing path => ["config file not found: ".toList ++ path]
  | unreadable path e => ["reading ".toList ++ path, e.message]
  | malformed path => ["parsing ".toList ++ path]
  | unknownOverride key e => ["unknown profile [suggest.profiles.".toList ++ key ++ [']'], e.message]
  | scoreOutOfRange eagerness score =>
    ["min_score for profile '".toList ++ eagerness.name ++ "' must be within 0.0..=1.0, got ".toList
      ++ Float.messageText score]
  | unknownName e => [e.message]

end SettingsError

namespace Override

/-- The thresholds in a value. -/
def ofToml? (v : Toml) : Option Override := do
  match ← Toml.fields? ["min_score", "max_links"] v with
  | [minScore, maxLinks] =>
    some { minScore := ← Toml.field? Toml.number? minScore
           maxLinks := ← Toml.field? Toml.count? maxLinks }
  | _ => none

end Override

namespace Settings

/-- Settings with those for the scan taken from a value. -/
def readAnalyze? (v : Toml) (s : Settings) : Option Settings := do
  match ← Toml.fields? ["exclude_dirs"] v with
  | [excluded] =>
    some { s with excluded := ← Toml.fieldOr s.excluded (Toml.list? Toml.text?) excluded }
  | _ => none

/-- Settings with those for suggestions taken from a value. -/
def readSuggest? (v : Toml) (s : Settings) : Option Settings := do
  match ← Toml.fields? ["strategy", "profiles"] v with
  | [eagerness, overrides] =>
    some { s with
      eagerness := ← Toml.field? Toml.text? eagerness
      overrides := ← Toml.fieldOr s.overrides (Toml.map? Override.ofToml?) overrides }
  | _ => none

/-- Settings with those for the insertion of links taken from a value. -/
def readApply? (v : Toml) (s : Settings) : Option Settings := do
  match ← Toml.fields? ["format", "min_confidence", "backup", "related_heading"] v with
  | [format, floor, backup, heading] =>
    some { s with
      format := ← Toml.field? Toml.text? format
      floor := ← Toml.field? Toml.text? floor
      backup := ← Toml.fieldOr s.backup Toml.bool? backup
      heading := ← Toml.fieldOr s.heading Toml.text? heading }
  | _ => none

/-- Settings with one member of a document taken over. -/
def readMember? (s : Settings) (member : Text × Toml) : Option Settings :=
  let (key, value) := member
  if key = "analyze".toList then readAnalyze? value s
  else if key = "suggest".toList then readSuggest? value s
  else if key = "apply".toList then readApply? value s
  else none

/-- The settings in the text of a file. -/
def ofText? (t : Text) : Option Settings := do
  (← Toml.document? t).foldlM readMember? {}

/-! ## Where settings come from -/

/-- The name of the file with settings in a vault. -/
def fileName : Text := ".vlb.toml".toList

/-- The path of the file with settings, and whether it must be there. -/
def source? (flag env vault : Option Text) : Option (Text × Bool) :=
  match flag, env.filter (!·.isEmpty), vault with
  | some path, _, _ => some (path, true)
  | none, some path, _ => some (path, true)
  | none, none, some path => some (Path.below path fileName, false)
  | none, none, none => none

/-- The settings in a file. -/
def read (t : Tree) (here : Place) (path : Text) : Except SettingsError Settings :=
  match t.readText here path with
  | .error e => .error (.unreadable path e)
  | .ok text =>
    match ofText? text with
    | some s => .ok s
    | none => .error (.malformed path)

/-- The settings for a vault. The path of their file may be given by a flag or by the
environment. -/
def load (t : Tree) (here : Place) (flag env vault : Option Text) : Except SettingsError Settings :=
  match source? flag env vault with
  | none => .ok {}
  | some (path, required) =>
    if t.leads here path then read t here path
    else if required then .error (.missing path)
    else .ok {}

/-! ## What is chosen -/

/-- What is chosen by a flag, or else by a name in the settings, or else by default. -/
def choose {α : Type} (flag : Option α) (name : Option Text) (ofName : Text → Except Error α)
    (default : α) : Except SettingsError α :=
  match flag, name with
  | some a, _ => .ok a
  | none, some name => (ofName name).mapError .unknownName
  | none, none => .ok default

/-- How eager the search for links is. -/
def chosenEagerness (s : Settings) (flag : Option Eagerness) : Except SettingsError Eagerness :=
  choose flag s.eagerness Eagerness.ofName .balanced

/-- How links are written. -/
def chosenFormat (s : Settings) (flag : Option LinkFormat) : Except SettingsError LinkFormat :=
  choose flag s.format LinkFormat.ofName .markdown

/-- The least confidence of suggestions that are applied. -/
def chosenFloor (s : Settings) (flag : Option Confidence) : Except SettingsError Confidence :=
  choose flag s.floor Confidence.ofName .medium

/-- Checks that overrides are given for degrees of eagerness only. -/
def checkOverrides : List Text → Except SettingsError Unit
  | [] => .ok ()
  | key :: rest =>
    match Eagerness.ofName key with
    | .ok _ => checkOverrides rest
    | .error e => .error (.unknownOverride key e)

/-- The least score that an override sets, which must be a part of one. -/
def overriddenScore (eagerness : Eagerness) (o : Override) : Except SettingsError Float :=
  match o.minScore with
  | none => .ok eagerness.thresholds.minScore
  | some score =>
    if 0.0 ≤ score && score ≤ 1.0 then .ok score else .error (.scoreOutOfRange eagerness score)

/-- The thresholds that go with a degree of eagerness, as far as they are not
overridden under its name. -/
def thresholds (s : Settings) (eagerness : Eagerness) : Except SettingsError Thresholds := do
  checkOverrides s.overrides.keys
  match s.overrides.find? eagerness.name with
  | none => .ok eagerness.thresholds
  | some o =>
    let minScore ← overriddenScore eagerness o
    .ok { minScore, maxLinks := o.maxLinks.getD eagerness.thresholds.maxLinks }

end Settings

end NoteLinks
