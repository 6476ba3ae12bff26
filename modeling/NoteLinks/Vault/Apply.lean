/-
# Applying suggestions

The suggestions of each note that are not below a floor are inserted into it, one
note after another in ascending order of their keys. A key that leads out of the
vault is refused, and so is a note that is no text; a note that is not there is
reported as missing. What becomes of one note does not keep the others from being
treated.
-/
import NoteLinks.Insertion.Plan
import NoteLinks.Vault.Notes

namespace NoteLinks

/-- How suggestions are applied. -/
structure ApplyOptions where
  /-- The least confidence of suggestions that are applied. -/
  floor : Confidence := .medium
  style : Insertion.Style := {}
  /-- Nothing is written, it is only reported what would be. -/
  dryRun : Bool := false
  /-- A copy is kept of every note that is changed. -/
  backup : Bool := false

/-- What becomes of a note. -/
inductive Outcome
  /-- Links are inserted, so many in all, behind mentions and into the section of related notes.
  The path of the copy comes last, if one is made. -/
  | changed (links mentions listings : Nat) (backup : Option Text)
  | unchanged
  | missing
  | failed (e : Error)

/-! ## Reports -/

/-- A note that has been changed. -/
structure Report.Change where
  key : Text
  /-- The number of links that have been inserted. -/
  links : Nat
  /-- The number of links behind mentions. -/
  mentions : Nat
  /-- The number of links in the section of related notes. -/
  listings : Nat
  /-- The path of the copy, if one has been made. -/
  backup : Option Text
  deriving DecidableEq, Repr

/-- What is reported of the notes with accepted suggestions. The numbers and the lists are kept
up one beside the other. -/
structure Report where
  /-- The number of notes that have been changed. -/
  filesModified : Nat := 0
  /-- The number of links that have been inserted. -/
  linksAdded : Nat := 0
  /-- The notes that have been changed. -/
  changes : List Report.Change := []
  /-- The keys of notes that are not there. -/
  missing : List Text := []
  /-- The keys that are refused and the notes that cannot be read or written. -/
  failed : List (Text × Error) := []
  dryRun : Bool

/-- The report with what has become of one more note. -/
def Report.record (r : Report) (key : Text) : Outcome → Report
  | .changed links mentions listings backup =>
    { r with
      filesModified := r.filesModified + 1
      linksAdded := r.linksAdded + links
      changes := r.changes ++ [{ key, links, mentions, listings, backup }] }
  | .unchanged => r
  | .missing => { r with missing := r.missing ++ [key] }
  | .failed e => { r with failed := r.failed ++ [(key, e)] }

/-! ## Clocks -/

/-- What a clock shows in the course of a run: for each key, the stamp of the time at which the
copy of its note is made. All stamps are of the same length. -/
structure Clock where
  stamp : Text → Text
  length_stamp : ∀ key key', (stamp key).length = (stamp key').length

/-- A clock that stands still. -/
def Clock.still (stamp : Text) : Clock := ⟨fun _ => stamp, fun _ _ => rfl⟩

/-- A stamp is what a clock shows that stands still. -/
instance : Coe Text Clock := ⟨Clock.still⟩

/-! ## Runs -/

namespace Vault

/-- Whether a key stays in the vault: it leads on from its directory, never back and
never from the root. -/
def admits (key : Text) : Bool :=
  !key.isEmpty && (Path.components key).all fun
    | .name _ | .here => true
    | .root | .up => false

/-- The place that a key leads to. -/
def locate (t : Tree) (v : Vault) (key : Text) : Except DiskError Place :=
  t.follow v.place (Path.segments key)

/-- The name of the copy of a file that is made at a time, of which the stamp
tells. -/
def backupName (stamp name : Text) : Text :=
  Path.nameStem name ++ '.' :: stamp ++ ".bak".toList

/-- The tree with a note's new content, and what becomes of the note. The copy of the
old one is made before. -/
def replace (t : Tree) (v : Vault) (o : ApplyOptions) (stamp key : Text) (place : Place)
    (old : ByteArray) (plan : Insertion.Plan) : Tree × Outcome :=
  let new := Text.encode plan.content
  if o.dryRun then (t, .changed plan.links plan.mentions plan.listings none)
  else if o.backup then
    let name := backupName stamp (place.getLast?.getD [])
    match t.writeAt place.dropLast name old with
    | .ok t =>
      let backup := Path.sibling (Path.below v.path key) name
      (t.overwrite place new, .changed plan.links plan.mentions plan.listings (some backup))
    | .error e => (t, .failed (.disk e))
  else (t.overwrite place new, .changed plan.links plan.mentions plan.listings none)

/-- The tree with the accepted suggestions of a note inserted, and what becomes of
the note. -/
def update (t : Tree) (v : Vault) (o : ApplyOptions) (stamp key : Text)
    (accepted : List Suggestion) : Tree × Outcome :=
  if !admits key then (t, .failed (.outsideVault key))
  else match v.locate t key with
    | .error _ => (t, .missing)
    | .ok place =>
      match t.find? place with
      | some (.file bytes) =>
        match Text.decode? bytes with
        | some content =>
          let plan := Insertion.Plan.make o.style content accepted
          if plan.content = content then (t, .unchanged)
          else v.replace t o stamp key place bytes plan
        | none => (t, .failed (.disk .notText))
      | _ => (t, .missing)

/-- The tree with suggestions inserted, and the report with what becomes of the notes for which
any are accepted. -/
def applyAll (t : Tree) (v : Vault) (o : ApplyOptions) (clock : Clock) (r : Report) :
    List (Text × List Suggestion) → Tree × Report
  | [] => (t, r)
  | (key, suggestions) :: rest =>
    let accepted := suggestions.filter fun s => s.confidence.atLeast o.floor
    if accepted.isEmpty then applyAll t v o clock r rest
    else
      let (t, outcome) := v.update t o (clock.stamp key) key accepted
      applyAll t v o clock (r.record key outcome) rest

/-- The tree with suggestions applied to a vault, and the report. -/
def apply (t : Tree) (v : Vault) (o : ApplyOptions) (clock : Clock) (m : SuggestionMap) :
    Tree × Report :=
  v.applyAll t o clock { dryRun := o.dryRun } m.entries

end Vault

end NoteLinks
