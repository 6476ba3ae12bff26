/-
# Links as they are rendered

A link begins with an opening bracket and ends with a character that is no blank.
It is plain if neither the path nor the title in it has a bracket, a parenthesis
or a line feed. Then the end of the link is the only place in it where a link can
end, whatever stands in front of it.
-/
import Mathlib.Data.List.Infix
import NoteLinks.LinkFormat

namespace NoteLinks

/-- A text without brackets, parentheses and line feeds. -/
def IsPlain (t : Text) : Prop := ∀ c ∈ t, c ∉ ['[', ']', '(', ')', '\n']

instance (t : Text) : Decidable (IsPlain t) :=
  List.decidableBAll (· ∉ ['[', ']', '(', ')', '\n']) t

theorem IsPlain.not_mem {t : Text} (h : IsPlain t) {c : Char}
    (hc : c ∈ ['[', ']', '(', ')', '\n']) : c ∉ t := fun hmem => h c hmem hc

/-- A path and a title that make a plain link, in whatever format. -/
structure PlainNames (path title : Text) : Prop where
  title_ne : title ≠ []
  title : IsPlain title
  path : IsPlain path

theorem PlainNames.title_append_ne {path title : Text} (h : PlainNames path title) (t u : Text) :
    title ++ t ≠ '[' :: u := by
  intro heq
  obtain ⟨c, rest, rfl⟩ := List.exists_cons_of_ne_nil h.title_ne
  obtain rfl : c = '[' := (List.cons.inj heq).1
  exact h.title.not_mem (c := '[') (by decide) List.mem_cons_self

namespace LinkFormat

variable {format : LinkFormat} {path title : Text}

/-! ## The ends of a link -/

theorem exists_render_eq_cons (format : LinkFormat) (path title : Text) :
    ∃ rest, format.render path title = '[' :: rest := by
  cases format with
  | markdown => exact ⟨_, rfl⟩
  | wikilink => exact ⟨_, rfl⟩

theorem exists_getLast?_render (format : LinkFormat) (path title : Text) :
    ∃ c, (format.render path title).getLast? = some c ∧ Text.isBlank c = false := by
  cases format with
  | markdown =>
      refine ⟨')', ?_, rfl⟩
      rw [render, List.getLast?_concat]
  | wikilink =>
      refine ⟨']', ?_, rfl⟩
      rw [render, List.getLast?_append_of_ne_nil _ (by simp)]
      rfl

theorem render_ne_nil (format : LinkFormat) (path title : Text) :
    format.render path title ≠ [] := by
  obtain ⟨rest, hrest⟩ := exists_render_eq_cons format path title
  rw [hrest]
  exact List.cons_ne_nil _ _

theorem exists_getLast?_space_render (format : LinkFormat) (path title : Text) :
    ∃ c, (' ' :: format.render path title).getLast? = some c ∧ Text.isBlank c = false := by
  obtain ⟨c, hlast, hc⟩ := exists_getLast?_render format path title
  refine ⟨c, ?_, hc⟩
  rw [← List.singleton_append, List.getLast?_append_of_ne_nil _ (render_ne_nil format path title),
    hlast]

/-- A link has no characters but its brackets and those of the path and the title. -/
theorem not_mem_render {c : Char} (hc : c ∉ ['[', ']', '(', ')']) (hpath : c ∉ path)
    (htitle : c ∉ title) : c ∉ format.render path title := by
  simp only [List.mem_cons, List.not_mem_nil, not_or] at hc
  cases format with
  | markdown => simp [render, hc, hpath, htitle]
  | wikilink => simp [render, hc, htitle]

theorem newline_not_mem_render (h : PlainNames path title) :
    '\n' ∉ format.render path title :=
  not_mem_render (by decide) (h.path.not_mem (by decide)) (h.title.not_mem (by decide))

theorem newline_not_mem_space_render (h : PlainNames path title) :
    '\n' ∉ ' ' :: format.render path title :=
  List.not_mem_cons_of_ne_of_not_mem (by decide) (newline_not_mem_render h)

/-! ## Where links end -/

/-- A text that ends like a link. -/
def IsClosed (t : Text) : Prop := [')'] <:+ t ∨ [']', ']'] <:+ t

/-- An opening bracket is not part of what ends a link. -/
theorem IsClosed.of_append {t u : Text} (h : IsClosed (t ++ '[' :: u)) : IsClosed ('[' :: u) := by
  have hsuffix : '[' :: u <:+ t ++ '[' :: u := List.suffix_append t ('[' :: u)
  rcases h with h | h
  · rcases List.suffix_or_suffix_of_suffix h hsuffix with hclosed | hshort
    · exact .inl hclosed
    · exact absurd (hshort.subset List.mem_cons_self) (by decide)
  · rcases List.suffix_or_suffix_of_suffix h hsuffix with hclosed | hshort
    · exact .inr hclosed
    · exact absurd (hshort.subset List.mem_cons_self) (by decide)

/-- A plain link ends like a link only at its end. -/
theorem not_isClosed_of_render_eq_append (h : PlainNames path title) {u v : Text}
    (hsplit : format.render path title = u ++ v) (hv : v ≠ []) : ¬ IsClosed u := by
  have htitle (c : Char) (hc : c ∈ ['[', ']', '(', ')', '\n']) : title.count c = 0 :=
    List.count_eq_zero_of_not_mem (h.title.not_mem hc)
  have hpath (c : Char) (hc : c ∈ ['[', ']', '(', ')', '\n']) : path.count c = 0 :=
    List.count_eq_zero_of_not_mem (h.path.not_mem hc)
  -- In front of the last character there is one closing bracket and no parenthesis.
  have hcount : ∃ stem c, format.render path title = stem ++ [c] ∧
      stem.count ')' = 0 ∧ stem.count ']' = 1 := by
    cases format with
    | markdown =>
        refine ⟨'[' :: title ++ ']' :: '(' :: path, ')', by simp [render], ?_, ?_⟩
        · simp [htitle, hpath]
        · simp [htitle, hpath]
    | wikilink =>
        refine ⟨'[' :: '[' :: title ++ [']'], ']', by simp [render], ?_, ?_⟩
        · simp [htitle]
        · simp [htitle]
  obtain ⟨stem, c, hstem, hparen, hbracket⟩ := hcount
  have hu : u <+: stem := by
    have hconcat : u <+: stem ++ [c] := ⟨v, by rw [← hsplit, hstem]⟩
    rcases List.prefix_concat_iff.mp hconcat with rfl | hu
    · have hnil : v = [] := by simpa [hsplit] using hstem
      exact absurd hnil hv
    · exact hu
  rintro (hclosed | hclosed)
  · have := (hclosed.sublist.trans hu.sublist).count_le ')'
    simp [hparen] at this
  · have := (hclosed.sublist.trans hu.sublist).count_le ']'
    simp [hbracket] at this

end LinkFormat

end NoteLinks
