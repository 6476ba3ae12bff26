/-
# The fields of front matter

A title that is declared is not empty, and neither is any tag, whether the block is a YAML mapping
or is read line by line: everything that becomes a tag is cleaned first, and what is empty then is
left out. A block that is read line by line keeps this from one line to the next.
-/
import NoteLinks.FrontMatter

namespace NoteLinks.FrontMatter

variable {fields : FrontMatter}

/-- Front matter in which nothing that is declared is empty. -/
structure IsNormal (fields : FrontMatter) : Prop where
  title : fields.title ≠ some []
  tags : [] ∉ fields.tags

theorem isNormal_empty : IsNormal {} := ⟨nofun, List.not_mem_nil⟩

/-! ## What is written in a field -/

theorem nil_not_mem_cleanTags (ts : List Text) : [] ∉ cleanTags ts := by
  simp [cleanTags]

theorem nil_not_mem_inlineList (t : Text) : [] ∉ inlineList t := nil_not_mem_cleanTags _

theorem nil_not_mem_tagsOf (value : Yaml.Value) : [] ∉ tagsOf value := by
  unfold tagsOf
  split
  next => exact nil_not_mem_cleanTags _
  next => exact nil_not_mem_inlineList _
  next => exact List.not_mem_nil

theorem titleOf?_ne_some_nil (value : Yaml.Value) : titleOf? value ≠ some [] := by
  rw [titleOf?]
  split
  next t _ =>
    dsimp only
    split
    next => exact nofun
    next hempty => simpa using hempty
  next => exact nofun

/-! ## Whole blocks -/

/-- One more line does not bring in anything empty. -/
theorem IsNormal.addLine (h : IsNormal fields) (line : Text) : IsNormal (addLine fields line) := by
  rw [FrontMatter.addLine]
  split
  next => exact h
  next key value _ =>
    dsimp only
    split
    next =>
      split
      next => exact h
      next hempty => exact ⟨by simpa using hempty, h.tags⟩
    next =>
      split
      next => exact ⟨h.title, nil_not_mem_inlineList _⟩
      next => exact h

theorem IsNormal.foldl_addLine (h : IsNormal fields) (lines : List Text) :
    IsNormal (lines.foldl FrontMatter.addLine fields) := by
  induction lines generalizing fields with
  | nil => exact h
  | cons line lines ih => exact ih (h.addLine line)

theorem isNormal_ofLines (yaml : Text) : IsNormal (ofLines yaml) := isNormal_empty.foldl_addLine _

theorem isNormal_ofYaml (yaml : Text) : IsNormal (ofYaml yaml) := by
  unfold ofYaml
  split
  next entries _ =>
    constructor
    · intro htitle
      obtain ⟨value, -, hvalue⟩ := Option.bind_eq_some_iff.mp htitle
      exact titleOf?_ne_some_nil value hvalue
    · dsimp only
      cases Yaml.Value.at? "tags".toList entries with
      | none => exact List.not_mem_nil
      | some value => exact nil_not_mem_tagsOf value
  next => exact isNormal_empty
  next => exact isNormal_ofLines yaml

theorem isNormal_read (content : Text) : IsNormal (read content) := by
  rw [read]
  split
  next yaml _ _ => exact isNormal_ofYaml yaml
  next => exact isNormal_empty

end NoteLinks.FrontMatter
