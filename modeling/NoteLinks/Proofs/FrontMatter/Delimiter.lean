/-
# Where front matter begins

A text opens with front matter exactly if its first line is a delimiter and another
line starts with one. So a text without front matter gets none as long as no line
is made that starts with a delimiter: by a line feed with such lines behind it only
as there have been, or by something put into a line.
-/
import NoteLinks.Proofs.FrontMatter.Block

namespace NoteLinks.FrontMatter

/-- Some line of the text starts with the delimiter. -/
def HasDelimiter (t : Text) : Prop := '\n' :: delimiter <:+: '\n' :: t

variable {t u front back line : Text}

/-! ## Lines that start with the delimiter -/

theorem not_hasDelimiter_nil : ¬ HasDelimiter [] := fun h => absurd h.length_le (by decide)

theorem HasDelimiter.append_right (h : HasDelimiter t) (u : Text) : HasDelimiter (t ++ u) :=
  h.trans ⟨[], u, rfl⟩

/-- Behind a line feed a line starts. -/
theorem hasDelimiter_append_newline :
    HasDelimiter (t ++ '\n' :: u) ↔ HasDelimiter t ∨ HasDelimiter u := by
  constructor
  · rintro ⟨x, y, h⟩
    have hsplit : '\n' :: t ++ '\n' :: u = x ++ '\n' :: delimiter ++ y := h.symm
    rcases Text.occurrence_cases hsplit with ⟨z, hz⟩ | ⟨z, hz⟩ | ⟨v, w, hv, hw, hword, -, hback⟩
    · exact .inl ⟨x, z, hz.symm⟩
    · exact .inr ⟨z, y, hz.symm⟩
    · -- No line feed is in the dashes.
      exfalso
      obtain ⟨c, v, rfl⟩ := List.exists_cons_of_ne_nil hv
      obtain ⟨d, w, rfl⟩ := List.exists_cons_of_ne_nil hw
      obtain rfl : d = '\n' := (List.cons.inj hback).1.symm
      have hmem : '\n' ∈ delimiter := by
        rw [(List.cons.inj hword).2]
        simp
      exact absurd hmem (by decide)
  · rintro (h | h)
    · exact h.append_right _
    · exact h.trans ⟨'\n' :: t, [], by simp⟩

theorem hasDelimiter_newline_cons : HasDelimiter ('\n' :: u) ↔ HasDelimiter u := by
  have h : HasDelimiter ([] ++ '\n' :: u) ↔ HasDelimiter [] ∨ HasDelimiter u :=
    hasDelimiter_append_newline
  simpa only [List.nil_append, not_hasDelimiter_nil, false_or] using h

/-- A line that does not start with the delimiter. -/
theorem not_hasDelimiter_line (hline : '\n' ∉ line) (hstart : ¬ delimiter <+: line) :
    ¬ HasDelimiter line := by
  rintro ⟨x, y, h⟩
  cases x with
  | nil => exact hstart ⟨y, (List.cons.inj h).2⟩
  | cons c x =>
      apply hline
      rw [← (List.cons.inj h).2]
      simp

/-- Something on one line that does not begin with a dash makes no delimiter. -/
theorem HasDelimiter.of_inline {m : Text} {c : Char} (hline : '\n' ∉ c :: m) (hc : c ≠ '-')
    (h : HasDelimiter (t ++ (c :: m ++ u))) : HasDelimiter (t ++ u) := by
  obtain ⟨x, y, h⟩ := h
  have hsplit : '\n' :: t ++ (c :: m ++ u) = x ++ '\n' :: delimiter ++ y := h.symm
  rcases Text.occurrence_cases hsplit with ⟨z, hz⟩ | ⟨z, hz⟩ | ⟨v, w, -, hw, hword, -, hback⟩
  · have hfront : HasDelimiter t := ⟨x, z, hz.symm⟩
    exact hfront.append_right u
  · have hback : c :: m ++ u = z ++ '\n' :: (delimiter ++ y) := by rw [hz, List.append_assoc]; rfl
    obtain ⟨z, -, rfl⟩ := Text.exists_eq_append_of_not_mem hline hback
    exact ⟨'\n' :: t ++ z, y, by simp⟩
  · exfalso
    obtain ⟨d, w, rfl⟩ := List.exists_cons_of_ne_nil hw
    obtain rfl : c = d := (List.cons.inj hback).1
    have hmem : c ∈ '\n' :: delimiter := by
      rw [hword]
      simp
    have hfeed : c ≠ '\n' := fun hfeed => hline (hfeed ▸ List.mem_cons_self)
    simp [delimiter, hc, hfeed] at hmem

/-! ## Front matter -/

/-- A line that opens front matter, without its line feed. -/
def IsOpening (line : Text) : Prop :=
  ∃ blanks, Text.isBlankText blanks = true ∧ '\n' ∉ blanks ∧ line = delimiter ++ blanks

theorem IsOpening.newline_not_mem (h : IsOpening line) : '\n' ∉ line := by
  obtain ⟨blanks, -, hline, rfl⟩ := h
  simp [delimiter, hline]

theorem IsOpening.bracket_not_mem (h : IsOpening line) : '[' ∉ line := by
  obtain ⟨blanks, hblank, -, rfl⟩ := h
  have hblanks : '[' ∉ blanks := fun hmem => by
    cases List.all_eq_true.mp hblank '[' hmem
  simp [delimiter, hblanks]

/-- Front matter is an opening line with a line behind it that starts with the
delimiter. -/
theorem split?_isSome_iff :
    (split? t).isSome = true ↔
      ∃ first rest, IsOpening first ∧ t = first ++ '\n' :: rest ∧ HasDelimiter rest := by
  constructor
  · intro h
    obtain ⟨⟨yaml, body⟩, hsplit⟩ := Option.isSome_iff_exists.mp h
    obtain ⟨block, tail, hblock, rfl, -⟩ := exists_block_of_split? hsplit
    cases hblock with
    | @empty blanks hblank hline =>
        exact ⟨_, delimiter ++ tail, ⟨blanks, hblank, hline, rfl⟩, by simp, [], tail, rfl⟩
    | @filled blanks yaml hblank hline _ _ =>
        refine ⟨_, yaml ++ '\n' :: (delimiter ++ tail), ⟨blanks, hblank, hline, rfl⟩, by simp, ?_⟩
        exact hasDelimiter_append_newline.mpr (.inr ⟨[], tail, rfl⟩)
  · rintro ⟨_, rest, ⟨blanks, hblank, hline, rfl⟩, rfl, hrest⟩
    rw [split?_of_opening hblank hline]
    split
    next => rfl
    next hnone =>
      rw [Option.isSome_map, Option.isSome_iff_ne_none, ne_eq, Text.cutAt?_eq_none_iff, not_not]
      rcases List.infix_cons_iff.mp hrest with hstart | hlater
      · rw [List.cons_prefix_cons] at hstart
        exact absurd hstart.2 (Text.dropPrefix?_eq_none_iff.mp hnone)
      · exact hlater

/-- Where the opening line may end in a text with a line feed at a known place. -/
theorem split?_append_newline_isSome_iff :
    (split? (t ++ '\n' :: u)).isSome = true ↔
      IsOpening t ∧ HasDelimiter u ∨
        ∃ first rest, IsOpening first ∧ t = first ++ '\n' :: rest ∧
          (HasDelimiter rest ∨ HasDelimiter u) := by
  rw [split?_isSome_iff]
  constructor
  · rintro ⟨first, rest, hfirst, heq, hrest⟩
    by_cases hfeed : '\n' ∈ t
    · obtain ⟨line, t, rfl, hline⟩ := List.eq_append_cons_of_mem hfeed
      rw [List.append_assoc, List.cons_append] at heq
      obtain ⟨rfl, rfl⟩ := Text.eq_of_append_cons_eq hline hfirst.newline_not_mem heq
      exact .inr ⟨line, t, hfirst, rfl, hasDelimiter_append_newline.mp hrest⟩
    · obtain ⟨rfl, rfl⟩ := Text.eq_of_append_cons_eq hfeed hfirst.newline_not_mem heq
      exact .inl ⟨hfirst, hrest⟩
  · rintro (⟨hfirst, hrest⟩ | ⟨first, rest, hfirst, rfl, hrest⟩)
    · exact ⟨t, u, hfirst, rfl, hrest⟩
    · exact ⟨first, rest ++ '\n' :: u, hfirst, by simp, hasDelimiter_append_newline.mpr hrest⟩

/-! ## Edits that make no front matter -/

/-- Something with an opening bracket that is put into a line, behind a blank. -/
theorem split?_eq_none_of_inline {m : Text} (hline : '\n' ∉ m) (hbracket : '[' ∈ m)
    (h : split? (front ++ back) = none) : split? (front ++ (' ' :: m ++ back)) = none := by
  rw [← Option.not_isSome_iff_eq_none] at h ⊢
  intro hsome
  apply h
  obtain ⟨first, rest, hfirst, heq, hrest⟩ := split?_isSome_iff.mp hsome
  have hm : '\n' ∉ ' ' :: m := List.not_mem_cons_of_ne_of_not_mem (by decide) hline
  rcases List.append_eq_append_iff.mp heq with ⟨z, rfl, hz⟩ | ⟨z, rfl, hz⟩
  · -- The first line would have the bracket.
    exfalso
    obtain ⟨z, rfl, -⟩ := Text.exists_eq_append_of_not_mem hm hz
    exact hfirst.bracket_not_mem (by simp [hbracket])
  · cases z with
    | nil => cases (List.cons.inj hz).1
    | cons c z =>
        obtain ⟨rfl, rfl⟩ := List.cons.inj hz
        exact split?_isSome_iff.mpr
          ⟨first, z ++ back, hfirst, by simp, hrest.of_inline hm (by decide)⟩

/-- Lines without delimiter behind a line feed. -/
theorem split?_eq_none_of_newline (hu : ¬ HasDelimiter u) (h : split? (front ++ back) = none) :
    split? (front ++ '\n' :: u) = none := by
  rw [← Option.not_isSome_iff_eq_none] at h ⊢
  intro hsome
  rcases split?_append_newline_isSome_iff.mp hsome with ⟨-, hu'⟩ | ⟨first, rest, hfirst, rfl, hrest⟩
  · exact hu hu'
  · refine h (split?_isSome_iff.mpr ⟨first, rest ++ back, hfirst, by simp, ?_⟩)
    exact (hrest.resolve_right hu).append_right back

/-- Lines behind a line feed that have no other delimiters than those that have stood
there. -/
theorem split?_eq_none_of_lines (hu : HasDelimiter u → HasDelimiter back)
    (h : split? (front ++ '\n' :: back) = none) : split? (front ++ '\n' :: u) = none := by
  rw [← Option.not_isSome_iff_eq_none] at h ⊢
  intro hsome
  apply h
  rw [split?_append_newline_isSome_iff] at hsome ⊢
  rcases hsome with ⟨hfirst, hu'⟩ | ⟨first, rest, hfirst, rfl, hrest⟩
  · exact .inl ⟨hfirst, hu hu'⟩
  · exact .inr ⟨first, rest, hfirst, rfl, hrest.imp_right hu⟩

end NoteLinks.FrontMatter
