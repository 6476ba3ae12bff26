/-
# Notes that are linked already

A note is no candidate if a link names it: by its path, by its path without the extension, by its
file name without the extension, or by its title, apart from case. The link and the title are put
into lower case by themselves. But the path is put into lower case first and taken apart then. So
the parts of the path are compared in the form that they have within the path, and this is another
one if the file name ends a word with a capital sigma and the extension goes on with a letter: a
link with just this file name is not known as one.
-/
import NoteLinks.Proofs.Path
import NoteLinks.Suggestion.Candidate

namespace NoteLinks.Candidate

variable {source target name : Text} {links : List Text} {title : Option Text}

/-! ## Names -/

/-- What a link refers to: the part in front of the first hash, without the blanks around it. -/
def linkedNote (link : Text) : Text := Text.trim (link.takeWhile (· != '#'))

/-- A text is one of the names of a note, apart from case: its path, its path without the
extension, its file name without the extension, or its title without the blanks around it. -/
def IsNameOf (target : Text) (title : Option Text) (name : Text) : Prop :=
  Text.lower name = Text.lower target ∨
    Text.lower name = Text.lower (Path.withoutExtension target) ∨
    Text.lower name = Text.lower (Path.stem target) ∨
    ∃ t ∈ title, Text.lower name = Text.lower (Text.trim t)

/-- A text is one of the names of a note in the forms that they have in lower case, where the parts
of the path have the forms that they have within the path. -/
def IsNameInLower (target : Text) (title : Option Text) (name : Text) : Prop :=
  name = Text.lower target ∨
    name = Text.lowerBefore (Path.extensionEnd target) (Path.withoutExtension target) ∨
    name = Text.lowerBefore (Path.stemEnd target) (Path.stem target) ∨
    ∃ t ∈ title, name = Text.lower (Text.trim t)

theorem linkedName_eq (link : Text) : linkedName link = Text.lower (linkedNote link) := by
  rw [linkedName, linkedNote]
  cases hcut : Text.cutAt? ['#'] link with
  | none =>
      have hhash : '#' ∉ link := by
        rwa [Text.cutAt?_eq_none_iff, List.singleton_infix_iff] at hcut
      have hall : link.takeWhile (· != '#') = link := by
        rw [List.takeWhile_eq_self_iff]
        exact fun c hc => bne_iff_ne.mpr fun heq => hhash (heq ▸ hc)
      rw [hall]
  | some cut =>
      obtain ⟨before, after⟩ := cut
      obtain ⟨rfl, hbefore⟩ := Text.cutAt?_char_eq_some_iff.mp hcut
      rw [Text.takeWhile_ne_append hbefore]

theorem linkedName_eq_nil_iff {link : Text} : linkedName link = [] ↔ linkedNote link = [] := by
  rw [linkedName_eq]
  constructor
  · intro h
    by_contra hne
    exact Text.lower_ne_nil hne h
  · intro h
    rw [h]
    rfl

theorem mem_namesOf_iff : name ∈ namesOf target title ↔ IsNameInLower target title name := by
  simp only [namesOf, IsNameInLower, List.mem_cons, Path.dropSuffix?_lower, Path.stem_lower]
  cases title <;> simp

/-- A note is no candidate exactly if one of its names is linked. -/
theorem accepts_eq_false_iff (hne : target ≠ source) :
    accepts source links target title = false ↔
      ∃ link ∈ links, linkedName link ≠ [] ∧ linkedName link ∈ namesOf target title := by
  simp only [accepts, hne, ne_eq, not_false_eq_true, decide_true, Bool.true_and,
    Bool.not_eq_false', List.any_eq_true, List.contains_iff_mem, List.mem_filter, List.mem_map,
    Bool.not_eq_true', List.isEmpty_eq_false_iff]
  constructor
  · rintro ⟨name, hname, ⟨link, hlink, rfl⟩, hnil⟩
    exact ⟨link, hlink, hnil, hname⟩
  · rintro ⟨link, hlink, hnil, hname⟩
    exact ⟨_, hname, ⟨link, hlink, rfl⟩, hnil⟩

/-- The names in lower case are the lower-case forms of the names, unless the file name ends a word
with a sigma. -/
theorem isNameInLower_iff (h : ¬ Path.EndsInSigma target) :
    IsNameInLower target title (Text.lower name) ↔ IsNameOf target title name := by
  have hstem : Text.lowerBefore (Path.stemEnd target) (Path.stem target) =
      Text.lower (Path.stem target) := Text.lowerBefore_eq_lower_iff.mpr h
  have hbare : Text.lowerBefore (Path.extensionEnd target) (Path.withoutExtension target) =
      Text.lower (Path.withoutExtension target) :=
    Text.lowerBefore_eq_lower_iff.mpr fun hsigma =>
      h (Path.endsInSigma_of_withoutExtension hsigma.1 hsigma.2)
  rw [IsNameInLower, IsNameOf, hstem, hbare]

/-- A file name that ends a word with a sigma is not among the names in lower case. -/
theorem not_isNameInLower_stem (h : Path.EndsInSigma target) :
    ¬ IsNameInLower target none (Text.lower (Path.stem target)) := by
  rintro (hname | hname | hname | ⟨t, ht, -⟩)
  · obtain ⟨x, y, heq⟩ := Path.exists_lower_eq_append target
    exact h.append_ne_lower_stem x y (heq.symm.trans hname.symm)
  · obtain ⟨x, y, heq⟩ := h.exists_withoutExtension_eq_append
    exact h.append_ne_lower_stem x y (heq.symm.trans hname.symm)
  · exact h.append_ne_lower_stem [] [] (by simpa using hname.symm)
  · cases ht

/-! ## What links withhold -/

/-- A note is no candidate exactly if a link has one of its names, in the form that this has in
lower case. If the file name does not end a word with a sigma, these forms are those that the names
have by themselves, so that it is enough that a link has a name apart from case. But if it does, a
link with the file name alone does not count. -/
theorem accepts_eq_false_iff_linked (hne : target ≠ source) :
    (accepts source links target title = false ↔ ∃ link ∈ links, linkedNote link ≠ [] ∧
        IsNameInLower target title (Text.lower (linkedNote link))) ∧
      (¬ Path.EndsInSigma target →
        (accepts source links target title = false ↔ ∃ link ∈ links, linkedNote link ≠ [] ∧
          IsNameOf target title (linkedNote link))) ∧
      (Path.EndsInSigma target → linkedNote (Path.stem target) = Path.stem target →
        accepts source [Path.stem target] target none = true) := by
  have hexact (links : List Text) (title : Option Text) :
      accepts source links target title = false ↔ ∃ link ∈ links, linkedNote link ≠ [] ∧
        IsNameInLower target title (Text.lower (linkedNote link)) := by
    rw [accepts_eq_false_iff hne]
    refine exists_congr fun link => and_congr_right fun _ => ?_
    rw [ne_eq, linkedName_eq_nil_iff, linkedName_eq, mem_namesOf_iff]
  refine ⟨hexact links title, ?_, ?_⟩
  · intro hsigma
    simp only [hexact, isNameInLower_iff hsigma]
  · intro hsigma hstem
    rw [← Bool.not_eq_false, hexact]
    rintro ⟨link, hlink, -, hname⟩
    rw [List.mem_singleton.mp hlink, hstem] at hname
    exact not_isNameInLower_stem hsigma hname

/-- A link has the file name in another case and goes on to a heading, and the path has the
extension in capitals. But a file name in a sigma is not linked by itself. -/
theorem linked_by_file_name :
    (("x/Delta.MD".toList ≠ "a.md".toList ∧ ¬ Path.EndsInSigma "x/Delta.MD".toList) ∧
      accepts "a.md".toList ["dELTA #Top".toList] "x/Delta.MD".toList none = false) ∧
    ("ΑΣ.md".toList ≠ "a.md".toList ∧ Path.EndsInSigma "ΑΣ.md".toList ∧
      linkedNote (Path.stem "ΑΣ.md".toList) = Path.stem "ΑΣ.md".toList) ∧
      accepts "a.md".toList [Path.stem "ΑΣ.md".toList] "ΑΣ.md".toList none = true := by
  have hne : "x/Delta.MD".toList ≠ "a.md".toList := by decide
  have hplain : ¬ Path.EndsInSigma "x/Delta.MD".toList := by
    rintro ⟨⟨u, v, heq, -, -⟩, -⟩
    have hmem : 'Σ' ∈ Path.stem "x/Delta.MD".toList := by
      rw [heq]
      exact List.mem_append_right u List.mem_cons_self
    revert hmem
    decide
  have hne' : "ΑΣ.md".toList ≠ "a.md".toList := by decide
  have hsigma : Path.EndsInSigma "ΑΣ.md".toList :=
    ⟨⟨"Α".toList, [], by decide, by decide +kernel, rfl⟩, by decide +kernel⟩
  have hstem : linkedNote (Path.stem "ΑΣ.md".toList) = Path.stem "ΑΣ.md".toList := by decide
  refine ⟨⟨⟨hne, hplain⟩, ?_⟩, ⟨hne', hsigma, hstem⟩, ?_⟩
  · refine ((accepts_eq_false_iff_linked hne).2.1 hplain).mpr ⟨_, List.mem_singleton_self _, ?_, ?_⟩
    · decide
    · exact .inr (.inr (.inl (by decide +kernel)))
  · have hlinked : (accepts "a.md".toList [] "ΑΣ.md".toList none = false ↔ _) ∧ _ :=
      accepts_eq_false_iff_linked hne'
    exact hlinked.2.2 hsigma hstem

/-- A note is proposed although a link has its file name letter by letter, as the name ends a word
with a capital sigma. A link with a form that the name has only within the path withholds it,
although this is none of its names. -/
theorem file_name_in_sigma_not_linked :
    (accepts "a.md".toList ["ΑΣ".toList] "ΑΣ.md".toList none = true ∧
      linkedNote "ΑΣ".toList ≠ [] ∧ IsNameOf "ΑΣ.md".toList none (linkedNote "ΑΣ".toList)) ∧
    (accepts "a.md".toList ["ασ".toList] "ΑΣ.md".toList none = false ∧
      ¬ IsNameOf "ΑΣ.md".toList none (linkedNote "ασ".toList)) := by
  refine ⟨⟨?_, ?_, ?_⟩, ?_, ?_⟩
  · decide +kernel
  · decide +kernel
  · exact .inr (.inr (.inl (by decide +kernel)))
  · decide +kernel
  · rintro (hname | hname | hname | ⟨t, ht, -⟩)
    · exact absurd hname (by decide +kernel)
    · exact absurd hname (by decide +kernel)
    · exact absurd hname (by decide +kernel)
    · cases ht

end NoteLinks.Candidate
