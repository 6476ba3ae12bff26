/-
# Running commands

A command is run in a session, which has the tree of files and what has been
printed so far. When a command fails, what it has done before stays done.
-/
import NoteLinks.Command.Basic
import NoteLinks.Command.Report
import NoteLinks.Settings
import NoteLinks.Suggestion.Ranking

namespace NoteLinks.Command

/-- What a command finds when it is run. -/
structure Context where
  /-- The directory that one works in. -/
  here : Place
  /-- The path of the file with settings as the environment tells it. -/
  settingsPath : Option Text
  /-- Tells the time, in the names of copies. -/
  stamp : Clock

/-- What a command works on. -/
structure Session where
  tree : Tree
  printed : Text := []

/-- Why a command fails. -/
inductive Failure
  | settings (e : SettingsError)
  | analyzing (vault : Text) (e : Error)
  | writing (path : Text) (e : DiskError)
  | loading (path : Text) (e : Error)
  | inconsistent (reference : DanglingReference)
  | opening (vault : Text) (e : Error)
  | reading (path : Text) (e : DiskError)
  | decoding (path : Text)

/-- The messages for a failure, from the outermost to the innermost. -/
def Failure.messages : Failure → List Text
  | settings e => e.messages
  | analyzing vault e => ["cannot analyze vault ".toList ++ vault, e.message]
  | writing path e => ["cannot write ".toList ++ path, (Error.disk e).message, e.message]
  | loading path e => ["cannot load analysis ".toList ++ path, e.message]
  | inconsistent reference =>
    ["analysis snapshot is inconsistent".toList, (Error.dangling reference).message,
      reference.message]
  | opening vault e => ["cannot open vault ".toList ++ vault, e.message]
  | reading path e => ["cannot read suggestions ".toList ++ path, e.message]
  | decoding path => ["invalid suggestions JSON in ".toList ++ path]

/-- Something that is done in a session. -/
abbrev Action := EStateM Failure Session

/-- The result, or else the failure that an error leads to. -/
def orFail {ε α : Type} (failure : ε → Failure) : Except ε α → Action α
  | .ok a => pure a
  | .error e => throw (failure e)

/-- Prints a text. -/
def print (t : Text) : Action Unit := modify fun s => { s with printed := s.printed ++ t }

/-- Changes the tree, unless that leads to an error. -/
def change {ε : Type} (failure : ε → Failure) (f : Tree → Except ε Tree) : Action Unit := do
  let tree ← orFail failure (f (← get).tree)
  modify fun s => { s with tree }

/-- The settings for a vault. -/
def loadSettings (ctx : Context) (flag : Option Text) (vault : Text) : Action Settings := do
  orFail .settings (Settings.load (← get).tree ctx.here flag ctx.settingsPath (some vault))

/-! ## The stages -/

/-- Makes the snapshot of a vault and writes it to a file. -/
def analyzeVault (ctx : Context) (s : Settings) (vault output : Text) : Action Snapshot := do
  let tree := (← get).tree
  let v ← orFail (.analyzing vault) (Vault.find tree ctx.here vault)
  let snapshot := v.analyze tree s.excluded
  change (.writing output) fun t => snapshot.save t ctx.here output
  print (snapshot.summary output)
  return snapshot

/-- Makes suggestions for a snapshot and writes them to a file. -/
def makeSuggestions (ctx : Context) (s : Settings) (snapshot : Snapshot) (output : Text)
    (flag : Option Eagerness) : Action SuggestionMap := do
  let eagerness ← orFail .settings (s.chosenEagerness flag)
  let thresholds ← orFail .settings (s.thresholds eagerness)
  match snapshot.dangling? with
  | some reference => throw (.inconsistent reference)
  | none =>
    let m := snapshot.suggestions thresholds
    change (.writing output) fun t => m.save t ctx.here output
    print (m.summary eagerness output)
    return m

/-- Inserts suggestions into the notes of a vault. -/
def applySuggestions (ctx : Context) (s : Settings) (vault : Text) (m : SuggestionMap)
    (flags : ApplyFlags) : Action Unit := do
  let floor ← orFail .settings (s.chosenFloor flags.floor)
  let format ← orFail .settings (s.chosenFormat flags.format)
  let options : ApplyOptions :=
    { floor, style := { format, heading := s.heading }, dryRun := flags.dryRun
      backup := flags.backup || s.backup }
  let tree := (← get).tree
  let v ← orFail (.opening vault) (Vault.find tree ctx.here vault)
  let (tree, report) := v.apply tree options ctx.stamp m
  modify fun s => { s with tree }
  print report.summary

/-- The suggestions that a file holds. -/
def readSuggestions (ctx : Context) (path : Text) : Action SuggestionMap := do
  let text ← orFail (.reading path) ((← get).tree.readText ctx.here path)
  match SuggestionMap.ofText? text with
  | some m => return m
  | none => throw (.decoding path)

/-! ## The commands -/

/-- Runs a command. The file with settings may be named. -/
def perform (ctx : Context) (flag : Option Text) : Command → Action Unit
  | .analyze vault output => do
    let s ← loadSettings ctx flag vault
    let _ ← analyzeVault ctx s vault output
  | .suggest vault analysis output eagerness => do
    let s ← loadSettings ctx flag vault
    let snapshot ← orFail (.loading analysis) (Snapshot.load (← get).tree ctx.here analysis)
    let _ ← makeSuggestions ctx s snapshot output eagerness
  | .apply vault suggestions flags => do
    let s ← loadSettings ctx flag vault
    let m ← readSuggestions ctx suggestions
    applySuggestions ctx s vault m flags
  | .run vault analysis suggestions eagerness flags => do
    let s ← loadSettings ctx flag vault
    let snapshot ← analyzeVault ctx s vault analysis
    print ['\n']
    let m ← makeSuggestions ctx s snapshot suggestions eagerness
    print ['\n']
    applySuggestions ctx s vault m flags
  | .review suggestions format floor => do
    let m ← readSuggestions ctx suggestions
    let m := match floor with
      | some floor => m.atLeast floor
      | none => m
    let text := m.review format
    print (if text.getLast? == some '\n' then text else text ++ ['\n'])

/-- How a command line ends. -/
inductive Ending
  | done
  | failed (f : Failure)
  /-- The command line makes no sense. -/
  | misused

/-- The exit code that tells of an ending. -/
def Ending.exitCode : Ending → Nat
  | done => 0
  | failed _ => 1
  | misused => 2

/-- The version of the program. -/
def version : Text := "vlb 0.1.0".toList

/-- What a session becomes when a command line is carried out, and how that ends. -/
def execute (ctx : Context) (args : List Text) (session : Session) : Session × Ending :=
  match ofLine? args with
  | none => (session, .misused)
  | some .version => ({ session with printed := session.printed ++ version ++ ['\n'] }, .done)
  | some (.command flag command) =>
    match perform ctx flag command session with
    | .ok _ session => (session, .done)
    | .error f session => (session, .failed f)

end NoteLinks.Command
