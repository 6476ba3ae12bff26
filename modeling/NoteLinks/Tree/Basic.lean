/-
# Directory trees

A tree says what stands at each of its places, and a place is the list of the
names that lead to it from the root. So a change at one place is a change of one
entry of a map, and nothing else can be touched by it. In the order of places a
directory comes in front of what is in it.
-/
import NoteLinks.Ordered.KeyMap
import NoteLinks.Path

namespace NoteLinks

/-- What stands at a place. -/
inductive Entry
  | file (bytes : ByteArray)
  | directory

instance : DecidableEq Entry
  | .file a, .file b =>
    match ByteArray.instDecidableEq a b with
    | isTrue h => isTrue (congrArg Entry.file h)
    | isFalse h => isFalse fun heq => h (Entry.file.inj heq)
  | .directory, .directory => isTrue rfl
  | .file _, .directory | .directory, .file _ => isFalse nofun

/-- A place: the names on the way to it from the root. -/
abbrev Place := List Text

/-- Whether a text can be the name of a file or directory. -/
def isName (t : Text) : Bool := !t.isEmpty && t != ['.'] && t != ['.', '.'] && t.all (· != '/')

/-- A tree of directories and files. What is in a directory has a name, and only
directories have something in them. -/
structure Tree where
  entries : KeyMap Place Entry
  root : entries.find? [] = some .directory
  named : ∀ place, (entries.find? place).isSome → place.all isName
  rooted : ∀ place name, (entries.find? (place ++ [name])).isSome →
    entries.find? place = some .directory

namespace Tree

/-- The tree with nothing but its root. -/
def empty : Tree where
  entries := KeyMap.empty.insert [] .directory
  root := by simp [KeyMap.find?_insert]
  named place h := by
    rw [KeyMap.find?_insert] at h
    split at h
    · rename_i hp
      simp [hp]
    · simp [KeyMap.empty, KeyMap.find?] at h
  rooted place name h := by
    rw [KeyMap.find?_insert, if_neg (by simp)] at h
    simp [KeyMap.empty, KeyMap.find?] at h

instance : Inhabited Tree := ⟨empty⟩

/-- What stands at a place, if anything. -/
def find? (t : Tree) (place : Place) : Option Entry := t.entries.find? place

/-- Whether a directory stands at a place. -/
def isDirectory (t : Tree) (place : Place) : Bool := t.find? place = some .directory

/-- Whether a file stands at a place. -/
def isFile (t : Tree) (place : Place) : Bool :=
  match t.find? place with
  | some (.file _) => true
  | _ => false

/-- Whether something can be put under a name in a directory, in place of the file
that may be there. -/
def HasRoom (t : Tree) (dir : Place) (name : Text) : Prop :=
  t.find? dir = some .directory ∧ isName name = true ∧ t.find? (dir ++ [name]) ≠ some .directory

instance (t : Tree) (dir : Place) (name : Text) : Decidable (t.HasRoom dir name) :=
  inferInstanceAs (Decidable (_ ∧ _ ∧ _))

/-- The tree with something put under a name in a directory. -/
def put (t : Tree) (dir : Place) (name : Text) (e : Entry) (h : t.HasRoom dir name) : Tree where
  entries := t.entries.insert (dir ++ [name]) e
  root := by rw [KeyMap.find?_insert, if_neg (by simp), t.root]
  named place hp := by
    rw [KeyMap.find?_insert] at hp
    split at hp
    · rename_i heq
      have hdir := t.named dir (by rw [show t.entries.find? dir = _ from h.1]; rfl)
      simp [heq, hdir, h.2.1]
    · exact t.named place hp
  rooted place other hp := by
    have hne {p : Place} (hp : t.entries.find? p = some .directory) : p ≠ dir ++ [name] := by
      rintro rfl
      exact h.2.2 hp
    rw [KeyMap.find?_insert] at hp
    have hplace : t.entries.find? place = some .directory := by
      split at hp
      · rename_i heq
        obtain ⟨rfl, -⟩ := List.append_inj' heq rfl
        exact h.1
      · exact t.rooted place other hp
    rw [KeyMap.find?_insert, if_neg (hne hplace), hplace]

theorem find?_put {t : Tree} {dir : Place} {name : Text} {e : Entry} {h : t.HasRoom dir name}
    (place : Place) :
    (t.put dir name e h).find? place = if place = dir ++ [name] then some e else t.find? place :=
  KeyMap.find?_insert ..

/-- The tree in which the file at a place has these bytes. Where no file is, nothing
happens. -/
def overwrite (t : Tree) (place : Place) (bytes : ByteArray) : Tree :=
  if h : t.isFile place then
    { entries := t.entries.insert place (.file bytes)
      root := by
        rw [KeyMap.find?_insert, if_neg, t.root]
        rintro rfl
        simp [isFile, find?, t.root] at h
      named := fun p hp => by
        rw [KeyMap.find?_insert] at hp
        split at hp
        · rename_i heq
          refine heq ▸ t.named place ?_
          change (t.find? place).isSome
          simp only [isFile] at h
          split at h
          · simp [*]
          · simp at h
        · exact t.named p hp
      rooted := fun p name hp => by
        rw [KeyMap.find?_insert] at hp
        have hdir : t.entries.find? p = some .directory := by
          refine t.rooted p name ?_
          split at hp
          · rename_i heq
            rw [heq]
            change (t.find? place).isSome
            simp only [isFile] at h
            split at h
            · simp [*]
            · simp at h
          · exact hp
        rw [KeyMap.find?_insert, if_neg, hdir]
        rintro rfl
        simp [isFile, find?, hdir] at h }
  else t

theorem find?_overwrite {t : Tree} {place : Place} {bytes : ByteArray}
    (h : t.isFile place = true) (p : Place) :
    (t.overwrite place bytes).find? p = if p = place then some (.file bytes) else t.find? p := by
  rw [overwrite, dif_pos h]
  exact KeyMap.find?_insert ..

/-- The tree without the file at a place. A directory stays. -/
def removeFile (t : Tree) (place : Place) : Tree :=
  if h : t.find? place = some .directory then t
  else
    { entries := t.entries.erase place
      root := by
        rw [KeyMap.find?_erase, if_neg, t.root]
        rintro rfl
        exact h t.root
      named := fun p hp => by
        rw [KeyMap.find?_erase] at hp
        split at hp
        · simp at hp
        · exact t.named p hp
      rooted := fun p name hp => by
        rw [KeyMap.find?_erase] at hp
        split at hp
        · simp at hp
        · have hdir := t.rooted p name hp
          rw [KeyMap.find?_erase, if_neg, hdir]
          rintro rfl
          exact h hdir }

/-- The tree with directories on a way that leads on from a directory, unless
something else is in the way. -/
def addDirectories? (t : Tree) (dir : Place) : Place → Option Tree
  | [] => some t
  | name :: rest =>
    if t.isDirectory (dir ++ [name]) then t.addDirectories? (dir ++ [name]) rest
    else if h : t.find? (dir ++ [name]) = none ∧ t.HasRoom dir name then
      (t.put dir name .directory h.2).addDirectories? (dir ++ [name]) rest
    else none

/-- What stands below a directory, each under the names that lead to it from there. -/
def below (t : Tree) (dir : Place) : List (Place × Entry) :=
  t.entries.entries.filterMap fun (place, e) =>
    if dir.isPrefixOf place && dir.length < place.length then some (place.drop dir.length, e)
    else none

end Tree

end NoteLinks
