/-
# Keys of notes and copies of notes

A scan knows notes by keys that end in the extension of notes and hide nothing. What such a key
names is a note by its name, and the copy of a note is none: it has another extension. Two notes
have different copies, because the name of a note can be read off that of its copy. So writing
to one note and its copy touches neither another note nor the copy of another note.
-/
import NoteLinks.Proofs.Path
import NoteLinks.Proofs.Vault.Footprint

namespace NoteLinks

namespace Path

/-- What is a name among the segments is a name among the components. -/
theorem mem_components {path segment : Text} (hmem : segment ∈ segments path)
    (hidle : isIdle segment = false) (hup : segment ≠ ['.', '.']) :
    .name segment ∈ components path := by
  have hsome : Component.ofSegment? segment = some (.name segment) := by
    rw [isIdle] at hidle
    simp [Component.ofSegment?, hidle, hup]
  have hrest : .name segment ∈ (segments path).filterMap Component.ofSegment? :=
    List.mem_filterMap.mpr ⟨segment, hmem, hsome⟩
  unfold components
  split
  · exact List.mem_cons_of_mem _ hrest
  · exact List.mem_cons_of_mem _ hrest
  · exact List.mem_cons_of_mem _ hrest
  · exact hrest

end Path

namespace Vault

variable {t : Tree} {v : Vault} {o : ApplyOptions} {stamp stamp' key key' name stem : Text}
  {place place' names : Place} {keys : List Text} {excluded : List Text}

/-! ## Names of notes -/

theorem isNoteName_iff :
    isNoteName name = true ↔ ∃ stem, stem ≠ [] ∧ name = stem ++ '.' :: Path.noteExtension := by
  rw [isNoteName, Path.extension?, beq_iff_eq]
  constructor
  · intro h
    split at h
    next stem extension hcut =>
      obtain ⟨rfl, -⟩ := Text.cutLast?_eq_some_iff.mp hcut
      split at h
      next => cases h
      next hne =>
        obtain rfl := Option.some.inj h
        exact ⟨stem, by simpa using hne, rfl⟩
    next => cases h
  · rintro ⟨stem, hne, rfl⟩
    have hcut : Text.cutLast? '.' (stem ++ '.' :: Path.noteExtension) =
        some (stem, Path.noteExtension) := Text.cutLast?_eq_some_iff.mpr ⟨rfl, by decide⟩
    rw [hcut]
    simp [hne]

theorem backupName_note (hne : stem ≠ []) :
    backupName stamp (stem ++ '.' :: Path.noteExtension) =
      stem ++ '.' :: stamp ++ ".bak".toList := by
  rw [backupName, Path.nameStem_append_dot hne (by decide)]

/-- A copy is no note. -/
theorem isNoteName_backupName (stamp name : Text) : isNoteName (backupName stamp name) = false := by
  have hcut : Text.cutLast? '.' (backupName stamp name) =
      some (Path.nameStem name ++ '.' :: stamp, "bak".toList) :=
    Text.cutLast?_eq_some_iff.mpr ⟨by simp [backupName], by decide⟩
  rw [isNoteName, Path.extension?, hcut]
  simp [Path.noteExtension]

/-! ## Places of notes -/

/-- The last name of a place is that of a note. -/
def NamesNote (place : Place) : Prop :=
  ∃ dir name, place = dir ++ [name] ∧ isNoteName name = true

theorem not_namesNote_copyPlace (stamp : Text) (place : Place) :
    ¬ NamesNote (copyPlace stamp place) := by
  rintro ⟨dir, name, heq, hname⟩
  obtain ⟨-, hlast⟩ := List.append_inj' heq rfl
  rw [← (List.cons.inj hlast).1, isNoteName_backupName] at hname
  cases hname

/-- Different notes have different copies, also if these are made at different times. -/
theorem copyPlace_inj (h : NamesNote place) (h' : NamesNote place')
    (hlength : stamp.length = stamp'.length)
    (heq : copyPlace stamp place = copyPlace stamp' place') : place = place' := by
  obtain ⟨dir, name, rfl, hname⟩ := h
  obtain ⟨dir', name', rfl, hname'⟩ := h'
  obtain ⟨stem, hne, rfl⟩ := isNoteName_iff.mp hname
  obtain ⟨stem', hne', rfl⟩ := isNoteName_iff.mp hname'
  simp only [copyPlace, List.dropLast_concat, List.getLast?_concat, Option.getD_some,
    backupName_note hne, backupName_note hne'] at heq
  obtain ⟨rfl, hlast⟩ := List.append_inj' heq rfl
  have hstems := (List.cons.inj hlast).1
  rw [List.append_assoc, List.append_assoc] at hstems
  rw [(List.append_inj' hstems (by simp [hlength])).1]

/-! ## Keys of notes -/

/-- A key as a scan gives it: it ends in the extension of notes, and nothing in it is hidden. -/
structure IsNoteKey (key : Text) : Prop where
  extension : '.' :: Path.noteExtension <:+ key
  visible : ∀ name, .name name ∈ Path.components key → isHidden name = false

theorem IsNoteKey.isNoteName_fileName (h : IsNoteKey key) :
    isNoteName (Path.fileName key) = true := by
  obtain ⟨stem, hstem⟩ := Path.suffix_fileName h.extension (by decide)
  refine isNoteName_iff.mpr ⟨stem, ?_, hstem.symm⟩
  rintro rfl
  obtain ⟨before, last, hsegments⟩ : ∃ before last, Path.segments key = before ++ [last] :=
    Text.exists_splitOn_eq_concat '/' key
  have hlast := Path.fileName_of_segments hsegments
  rw [← hstem] at hlast
  subst hlast
  have hmem : '.' :: Path.noteExtension ∈ Path.segments key := by
    rw [hsegments]
    exact List.mem_append_right _ List.mem_cons_self
  cases h.visible _ (Path.mem_components hmem (by decide) (by decide))

theorem Targets.eq_concat (h : Targets v key place) :
    ∃ dir, place = dir ++ [Path.fileName key] := by
  obtain ⟨-, before, last, hsegments, -, rfl⟩ := h
  exact ⟨v.place ++ Path.names before, by rw [Path.fileName_of_segments hsegments]⟩

theorem IsNoteKey.namesNote (h : IsNoteKey key) (htargets : Targets v key place) :
    NamesNote place := by
  obtain ⟨dir, rfl⟩ := htargets.eq_concat
  exact ⟨dir, _, rfl, h.isNoteName_fileName⟩

/-! ## Paths of copies -/

theorem locate_of_find {here : Place} {path : Text} (h : find t here path = .ok v) :
    v.path = path ∧ t.locate here path = .ok v.place := by
  rw [find] at h
  split at h
  next place hlocate =>
    split at h
    next =>
      cases h
      exact ⟨rfl, hlocate⟩
    next => cases h
  next => cases h

/-- In a vault the path of a file ends as its key does. -/
theorem exists_segments_below (hpath : v.path ≠ []) (h : Targets v key place) :
    ∃ above last, above ≠ [] ∧ Path.segments (Path.below v.path key) = above ++ [last] ∧
      place.getLast? = some last := by
  obtain ⟨hadmits, before, last, hsegments, -, rfl⟩ := h
  obtain ⟨front, slash, hfront, -, -, hbelow, -⟩ :=
    Path.exists_segments_below hpath (admits_iff.mp hadmits).2.1
  refine ⟨front ++ before, last, List.append_ne_nil_of_left_ne_nil hfront _, ?_,
    List.getLast?_concat⟩
  rw [hbelow, hsegments, List.append_assoc]

theorem fileName_copyPath (hpath : v.path ≠ []) (h : Targets v key place)
    (hname : isName (Path.fileName key) = true) (hstamp : '/' ∉ stamp) :
    Path.fileName (v.copyPath stamp key place) = backupName stamp (Path.fileName key) := by
  obtain ⟨above, last, hne, hsegments, -⟩ := exists_segments_below hpath h
  obtain ⟨dir, rfl⟩ := h.eq_concat
  have hslash := not_mem_of_isName (isName_backupName hstamp hname)
  rw [copyPath, List.getLast?_concat, Option.getD_some]
  obtain ⟨kept, idle, -, -, -, hsibling⟩ := Path.segments_sibling hsegments hne hslash
  exact Path.fileName_of_segments hsibling

/-- The path of a copy leads to the copy. -/
theorem locate_copyPath {here : Place} (hvault : t.locate here v.path = .ok v.place)
    (hfile : t.isFile place = true) (hleads : v.leadsTo t key place = true)
    (hstamp : '/' ∉ stamp) (hthere : (t.find? (copyPlace stamp place)).isSome) :
    t.locate here (v.copyPath stamp key place) = .ok (copyPlace stamp place) := by
  have htargets := (leadsTo_iff_targets hfile).mp hleads
  obtain ⟨hadmits, hlocate⟩ := leadsTo_iff.mp hleads
  obtain ⟨above, last, hne, hsegments, hlast⟩ :=
    exists_segments_below (Tree.ne_nil_of_locate hvault) htargets
  obtain ⟨dir, rfl⟩ := List.getLast?_eq_some_iff.mp hlast
  have hname : isName last = true := by
    obtain ⟨bytes, hfind⟩ := Tree.isFile_iff.mp hfile
    have hsome : (t.find? (dir ++ [last])).isSome := by
      rw [hfind]
      rfl
    exact Tree.isName_of_isSome hsome last List.mem_cons_self
  have hplace : t.locate here (Path.below v.path key) = .ok (dir ++ [last]) := by
    rw [Tree.locate_below hvault (admits_iff.mp hadmits).2.1]
    exact hlocate
  simp only [copyPath, copyPlace, List.getLast?_concat, Option.getD_some,
    List.dropLast_concat] at hthere ⊢
  exact Tree.locate_sibling hplace hsegments hne hname (isName_backupName hstamp hname) hthere

/-! ## Keys of several notes -/

/-- Keys of notes, of which no two name the same file. -/
structure AreNoteKeys (v : Vault) (keys : List Text) : Prop where
  note : ∀ key ∈ keys, IsNoteKey key
  apart : ∀ key ∈ keys, ∀ key' ∈ keys, ∀ place,
    Targets v key place → Targets v key' place → key = key'

/-- Writing to a note and its copy touches no other note. -/
theorem AreNoteKeys.not_touches (h : AreNoteKeys v keys) (hmem : key ∈ keys) (hmem' : key' ∈ keys)
    (hne : key ≠ key') (htargets : Targets v key place) (htargets' : Targets v key' place') :
    ¬ Touches o stamp place' place := by
  rintro (rfl | ⟨-, rfl⟩)
  · exact hne (h.apart key hmem key' hmem' _ htargets htargets')
  · exact not_namesNote_copyPlace stamp place' ((h.note key hmem).namesNote htargets)

/-- Writing to a note and its copy touches no copy of another note. -/
theorem AreNoteKeys.not_touches_copyPlace (h : AreNoteKeys v keys) (hmem : key ∈ keys)
    (hmem' : key' ∈ keys) (hne : key ≠ key') (htargets : Targets v key place)
    (htargets' : Targets v key' place') (hlength : stamp'.length = stamp.length) :
    ¬ Touches o stamp' place' (copyPlace stamp place) := by
  have hnote := (h.note key hmem).namesNote htargets
  have hnote' := (h.note key' hmem').namesNote htargets'
  rintro (heq | ⟨-, heq⟩)
  · rw [← heq] at hnote'
    exact not_namesNote_copyPlace stamp place hnote'
  · obtain rfl := copyPlace_inj hnote hnote' hlength.symm heq
    exact hne (h.apart key hmem key' hmem' _ htargets htargets')

/-! ## Keys that a scan gives -/

theorem isHidden_of_reaches (h : reaches excluded names = true) :
    ∀ name ∈ names, isHidden name = false := by
  fun_induction reaches excluded names with
  | case1 => cases h
  | case2 name => simpa using h
  | case3 name rest hrest ih =>
      rw [Bool.and_eq_true, Bool.and_eq_true, Bool.not_eq_true'] at h
      exact List.forall_mem_cons.mpr ⟨h.1.1, ih h.2⟩

theorem targets_keyOf (v : Vault) (hne : names ≠ []) (h : ∀ name ∈ names, isName name = true) :
    Targets v (keyOf names) (v.place ++ names) := by
  obtain ⟨above, last, rfl⟩ : ∃ above last, names = above ++ [last] :=
    ⟨_, _, (List.dropLast_append_getLast hne).symm⟩
  have hidle : ∀ name ∈ above ++ [last], Path.isIdle name = false := fun name hmem =>
    Path.isIdle_of_isName (h name hmem)
  refine ⟨admits_keyOf hne h, above, last, segments_keyOf hne h,
    hidle last (List.mem_append_right _ List.mem_cons_self), ?_⟩
  have habove : Path.names above = above := by
    rw [Path.names, List.filter_eq_self]
    intro name hmem
    rw [hidle name (List.mem_append_left _ hmem)]
    rfl
  rw [habove, List.append_assoc]

theorem isNoteKey_keyOf (hplace : IsNotePlace excluded names)
    (h : ∀ name ∈ names, isName name = true) : IsNoteKey (keyOf names) where
  extension := by
    obtain ⟨-, name, hlast, hname⟩ := hplace
    obtain ⟨above, rfl⟩ := List.getLast?_eq_some_iff.mp hlast
    obtain ⟨stem, -, rfl⟩ := isNoteName_iff.mp hname
    have hsegments := segments_keyOf (by simp) h
    have hname := Path.fileName_suffix (keyOf (above ++ [stem ++ '.' :: Path.noteExtension]))
    rw [Path.fileName_of_segments hsegments] at hname
    exact (List.suffix_append stem _).trans hname
  visible name hmem := by
    rw [Path.components_keyOf hplace.ne_nil h] at hmem
    obtain ⟨name', hname', heq⟩ := List.mem_map.mp hmem
    cases heq
    exact isHidden_of_reaches hplace.1 _ hname'

/-- The keys that a scan gives are keys of different notes. -/
theorem areNoteKeys_of_notes (h : ∀ key ∈ keys, ∃ names, IsNotePlace excluded names ∧
    (∀ name ∈ names, isName name = true) ∧ keyOf names = key) : AreNoteKeys v keys where
  note key hmem := by
    obtain ⟨names, hplace, hnames, rfl⟩ := h key hmem
    exact isNoteKey_keyOf hplace hnames
  apart key hmem key' hmem' place htargets htargets' := by
    obtain ⟨names, hplace, hnames, rfl⟩ := h key hmem
    obtain ⟨names', hplace', hnames', rfl⟩ := h key' hmem'
    have heq := (targets_keyOf v hplace.ne_nil hnames).unique htargets
    have heq' := (targets_keyOf v hplace'.ne_nil hnames').unique htargets'
    rw [List.append_cancel_left (heq.trans heq'.symm)]

end Vault

end NoteLinks
