/-
# What concepts a note has

Phrases are cleaned before they become concepts, so a concept is a single line without blanks
other than spaces. In a text without stars and backquotes there are no phrases but the
headings, and then the concepts of a note are known as soon as its headings are.
-/
import NoteLinks.Note.Concept
import NoteLinks.Proofs.Text.Scan
import NoteLinks.Proofs.Text.Words

namespace NoteLinks

namespace Concept

variable {body concept : Text} {headings : List Heading}

/-- In a concept there are no blanks but spaces. -/
theorem isBlank_eq_false_of_mem (h : concept ∈ all body headings) :
    ∀ c ∈ concept, c = ' ' ∨ Text.isBlank c = false := by
  rw [all, KeySet.mem_toList_ofList] at h
  obtain ⟨phrase, -, rfl⟩ := List.mem_map.mp (List.mem_filter.mp h).1
  intro c hc
  cases hblank : Text.isBlank c with
  | true => exact .inl ((Text.isSingleSpaced_join_words _).eq_space c hc hblank)
  | false => exact .inr rfl

/-! ## Phrases -/

theorem recogniseBold_cons_of_ne {c : Char} (hc : c ≠ '*') (t : Text) :
    recogniseBold (c :: t) = none := by
  unfold recogniseBold
  split
  next heq => exact absurd (List.cons.inj heq).1 hc
  next => rfl

theorem recogniseCode_cons_of_ne {c : Char} (hc : c ≠ '`') (t : Text) :
    recogniseCode (c :: t) = none := by
  unfold recogniseCode
  split
  next heq => exact absurd (List.cons.inj heq).1 hc
  next => rfl

/-- Without markup the concepts come from the headings. -/
theorem mem_all_iff (hstar : '*' ∉ body) (hquote : '`' ∉ body) :
    concept ∈ all body headings ↔
      ∃ h ∈ headings, clean h.text = concept ∧ minLength ≤ concept.length := by
  have hbold : Text.hits recogniseBold body = [] := by
    rw [← List.append_nil body]
    exact Text.hits_append_of_none fun _ v hc =>
      recogniseBold_cons_of_ne (fun heq => hstar (heq ▸ hc)) v
  have hcode : Text.hits recogniseCode body = [] := by
    rw [← List.append_nil body]
    exact Text.hits_append_of_none fun _ v hc =>
      recogniseCode_cons_of_ne (fun heq => hquote (heq ▸ hc)) v
  rw [all, KeySet.mem_toList_ofList, List.mem_filter, phrases, hbold, hcode]
  simp only [List.filter_nil, List.append_nil, List.map_map, List.mem_map, Function.comp_apply,
    decide_eq_true_eq]
  constructor
  · rintro ⟨⟨h, hmem, hclean⟩, hlength⟩
    exact ⟨h, hmem, hclean, hlength⟩
  · rintro ⟨h, hmem, hclean, hlength⟩
    exact ⟨⟨h, hmem, hclean⟩, hlength⟩

end Concept

end NoteLinks
