/-
# Edits of the body

An insertion leaves the front matter as it is: the body of the note after it is made
from the body before it by an edit. A note without front matter gets none, unless the
heading of the section of related notes starts with the delimiter.
-/
import NoteLinks.Proofs.FrontMatter.Delimiter
import NoteLinks.Proofs.Insertion.Covering

namespace NoteLinks.Insertion

/-- An edit of the body that does the same as an edit of the note. -/
structure IsBodyEdit (e part : Edit) : Prop where
  before_eq : part.before = FrontMatter.body e.before
  after_eq : part.after = FrontMatter.body e.after
  link_eq : part.link = e.link
  around : '[' ∉ part.lead ∧ '[' ∉ part.tail
  uncut : ∀ w, Text.Uncut w e.front e.back → Text.Uncut w part.front part.back

/-! ## Edits behind the front matter -/

/-- What an edit of the note that leaves the front matter does to the body. -/
theorem body_of_front {content rest : Text} {e : Edit} (hbefore : e.before = content)
    (hfront : e.front = FrontMatter.front content ++ rest)
    (hnone : FrontMatter.split? content = none → FrontMatter.split? e.after = none)
    (hne : (FrontMatter.split? content).isSome = true → FrontMatter.body content ≠ []) :
    FrontMatter.body content = rest ++ e.back ∧
      FrontMatter.body e.after = rest ++ e.inserted ++ e.kept := by
  have hafter : e.after = FrontMatter.front content ++ (rest ++ e.inserted ++ e.kept) := by
    rw [Edit.after, hfront]
    simp
  have hparts : FrontMatter.front content ++ (rest ++ e.back) =
      FrontMatter.front content ++ FrontMatter.body content := by
    rw [FrontMatter.front_append_body, ← List.append_assoc, ← hfront, ← hbefore, Edit.before]
  refine ⟨(List.append_cancel_left hparts).symm, ?_⟩
  cases hsplit : FrontMatter.split? content with
  | none =>
      rw [FrontMatter.body_of_split?_eq_none (hnone hsplit), hafter,
        FrontMatter.front_of_split?_eq_none hsplit, List.nil_append]
  | some parts =>
      have hsome : (FrontMatter.split? content).isSome = true := by rw [hsplit]; rfl
      rw [hafter, FrontMatter.body_front_append hsome (hne hsome)]

/-- A new section behind a body of blanks. The line of the closing delimiter ends with
the first line feed of the section. -/
theorem body_after_newSection_of_blank {content heading link : Text}
    (hsome : (FrontMatter.split? content).isSome = true)
    (hblank : Text.isBlankText (FrontMatter.body content) = true) :
    FrontMatter.body (Edit.newSection content heading link).after =
      '\n' :: heading ++ ['\n', '\n', '-'] ++ ' ' :: link ++ ['\n'] := by
  obtain ⟨⟨yaml, rest⟩, hsplit⟩ := Option.isSome_iff_exists.mp hsome
  obtain ⟨block, tail, hblock, rfl, rfl⟩ := FrontMatter.exists_block_of_split? hsplit
  have htrim : Text.trimEnd (block ++ tail) = block ++ Text.trimEnd tail :=
    Text.trimEnd_append_of_getLast? hblock.getLast? rfl tail
  have hline : '\n' ∉ Text.trimEnd tail := by
    rw [FrontMatter.body_of_split? hsplit] at hblank
    rcases FrontMatter.afterLine_cases tail with ⟨line, hline, htail⟩ | ⟨hline, -⟩
    · have hrest : Text.isBlankText ('\n' :: FrontMatter.afterLine tail) = true := hblank
      rw [htail, Text.trimEnd_append, hrest, if_pos rfl]
      intro hmem
      exact hline ((Text.trimEnd_isPrefix line).subset hmem)
    · intro hmem
      exact hline ((Text.trimEnd_isPrefix tail).subset hmem)
  have hfull : block ≠ [] := by
    rintro rfl
    cases hblock.getLast?
  have hafter : (Edit.newSection (block ++ tail) heading link).after =
      block ++ (Text.trimEnd tail ++
        '\n' :: ('\n' :: heading ++ ['\n', '\n', '-'] ++ ' ' :: link ++ ['\n'])) := by
    simp [Edit.after, Edit.inserted, Edit.newSection, hfull, htrim]
  rw [hafter, FrontMatter.body_of_split? (hblock.split?_append _),
    FrontMatter.afterLine_append hline]

/-! ## Notes with front matter -/

/-- An edit that leaves the front matter and has a body to work on. -/
theorem exists_bodyEdit_of_front {content rest : Text} {e : Edit} (hbefore : e.before = content)
    (hsome : (FrontMatter.split? content).isSome = true) (hne : FrontMatter.body content ≠ [])
    (hfront : e.front = FrontMatter.front content ++ rest)
    (haround : '[' ∉ e.lead ∧ '[' ∉ e.tail) : ∃ part, IsBodyEdit e part := by
  have hnone : FrontMatter.split? content = none → FrontMatter.split? e.after = none := by
    intro hsplit
    rw [hsplit] at hsome
    cases hsome
  obtain ⟨hbody, hafter⟩ := body_of_front hbefore hfront hnone fun _ => hne
  refine ⟨{ e with front := rest }, ?_, hafter.symm, rfl, haround, ?_⟩
  · rw [hbefore, hbody]
    rfl
  · intro w hcut
    rw [hfront] at hcut
    exact hcut.of_append

theorem exists_bodyEdit_of_linkPosition? {content : Text} {anchors : List Text}
    {position : Nat} (hsome : (FrontMatter.split? content).isSome = true)
    (hposition : linkPosition? content anchors = some position) (link : Text) :
    ∃ part, IsBodyEdit (.mention content position link) part := by
  obtain ⟨_, _, before, written, after, hm, -⟩ := exists_mention_of_linkPosition? hposition
  have hne : FrontMatter.body content ≠ [] := by
    rw [hm.body_eq]
    simp [hm.written_ne]
  have hshort : FrontMatter.front content <+: content.take position := by
    have hle := front_le_of_linkPosition? hposition
    rw [FrontMatter.length_front] at hle
    exact List.take_prefix_take_left hle
  obtain ⟨rest, hrest⟩ := hshort
  exact exists_bodyEdit_of_front (Edit.before_mention content position link) hsome hne hrest.symm
    ⟨List.not_mem_nil, List.not_mem_nil⟩

theorem exists_bodyEdit_of_item {content heading link last : Text} {e : Edit}
    {upper rest : List Text} (hsome : (FrontMatter.split? content).isSome = true)
    (h : Edit.IsItemBehind content heading link e upper last rest)
    (haround : '[' ∉ e.lead ∧ '[' ∉ e.tail) : ∃ part, IsBodyEdit e part := by
  have hne : FrontMatter.body content ≠ [] := by
    intro hnil
    have hlines := h.lines_eq
    rw [hnil] at hlines
    simp [Text.lines] at hlines
  have hfront : e.front = FrontMatter.front content ++ (upper.flatten ++ last) := by
    rw [h.front_eq, List.append_assoc]
  exact exists_bodyEdit_of_front h.before_eq hsome hne hfront haround

/-- A new section behind a body with something in it. -/
theorem exists_bodyEdit_of_filled {content heading link : Text}
    (hsome : (FrontMatter.split? content).isSome = true)
    (hfilled : Text.isBlankText (FrontMatter.body content) = false)
    (haround : '[' ∉ (Edit.newSection content heading link).lead ∧
      '[' ∉ (Edit.newSection content heading link).tail) :
    ∃ part, IsBodyEdit (.newSection content heading link) part := by
  have hne : FrontMatter.body content ≠ [] := by
    intro hnil
    rw [hnil] at hfilled
    cases hfilled
  have hfront : Text.trimEnd content =
      FrontMatter.front content ++ Text.trimEnd (FrontMatter.body content) := by
    conv_lhs => rw [← FrontMatter.front_append_body content, Text.trimEnd_append, hfilled]
    rfl
  exact exists_bodyEdit_of_front (Edit.before_newSection content heading link) hsome hne hfront
    haround

theorem exists_bodyEdit_of_blank {content heading link : Text}
    (hsome : (FrontMatter.split? content).isSome = true)
    (hblank : Text.isBlankText (FrontMatter.body content) = true) (hheading : '[' ∉ heading) :
    ∃ part, IsBodyEdit (.newSection content heading link) part := by
  refine ⟨⟨[], '\n' :: heading ++ ['\n', '\n', '-'], link, ['\n'],
    FrontMatter.body content, [], .inr ⟨rfl, hblank⟩⟩, ?_, ?_, rfl, ?_, ?_⟩
  · rw [Edit.before_newSection]
    rfl
  · rw [body_after_newSection_of_blank hsome hblank]
    simp [Edit.after, Edit.inserted]
  · simp [hheading]
  · intro w _ x y heq
    exact .inr ⟨x, heq⟩

/-! ## Notes without front matter -/

section NoFrontMatter

open FrontMatter (HasDelimiter delimiter split?)

variable {content heading link : Text}

theorem not_hasDelimiter_item (hlink : '\n' ∉ link) : ¬ HasDelimiter ('-' :: ' ' :: link) :=
  FrontMatter.not_hasDelimiter_line (by simp [hlink]) (by simp [delimiter])

/-- The lines around an item bring no delimiter. -/
theorem hasDelimiter_of_item {gap tail rest : Text} (hlink : '\n' ∉ link)
    (hgap : gap = [] ∨ gap = ['\n']) (htail : tail = ['\n'] ∨ tail = ['\n', '\n'])
    (h : HasDelimiter (gap ++ ('-' :: ' ' :: link ++ (tail ++ rest)))) : HasDelimiter rest := by
  have hitem (t : Text) (ht : HasDelimiter ('-' :: ' ' :: link ++ '\n' :: t)) : HasDelimiter t :=
    (FrontMatter.hasDelimiter_append_newline.mp ht).resolve_left (not_hasDelimiter_item hlink)
  have hline : HasDelimiter ('-' :: ' ' :: link ++ (tail ++ rest)) := by
    rcases hgap with rfl | rfl
    · exact h
    · exact FrontMatter.hasDelimiter_newline_cons.mp h
  rcases htail with rfl | rfl
  · exact hitem _ hline
  · exact FrontMatter.hasDelimiter_newline_cons.mp (hitem _ hline)

theorem split?_after_mention (hlink : '\n' ∉ link) (hbracket : '[' ∈ link) (position : Nat)
    (h : split? content = none) : split? (Edit.mention content position link).after = none := by
  rw [← List.take_append_drop position content] at h
  have hnone := FrontMatter.split?_eq_none_of_inline hlink hbracket h
  simpa [Edit.after, Edit.inserted, Edit.mention] using hnone

theorem split?_after_newSection (hlink : '\n' ∉ link) (hheading : '\n' ∉ heading)
    (hstart : ¬ delimiter <+: heading) (h : split? content = none) :
    split? (Edit.newSection content heading link).after = none := by
  have hitem : ¬ HasDelimiter (['\n'] ++ ('-' :: ' ' :: link ++ (['\n'] ++ []))) := fun hlines =>
    FrontMatter.not_hasDelimiter_nil (hasDelimiter_of_item hlink (.inr rfl) (.inl rfl) hlines)
  have hsection : ¬ HasDelimiter ('\n' :: (heading ++ '\n' ::
      (['\n'] ++ ('-' :: ' ' :: link ++ (['\n'] ++ []))))) := by
    rw [FrontMatter.hasDelimiter_newline_cons, FrontMatter.hasDelimiter_append_newline, not_or]
    exact ⟨FrontMatter.not_hasDelimiter_line hheading hstart, hitem⟩
  cases hfull : (Text.trimEnd content).isEmpty with
  | false =>
      rw [← Text.trimEnd_append_drop content] at h
      have hnone := FrontMatter.split?_eq_none_of_newline hsection h
      simpa [Edit.after, Edit.inserted, Edit.newSection, hfull] using hnone
  | true =>
      -- The first line is the heading.
      have hnil : Text.trimEnd content = [] := List.isEmpty_iff.mp hfull
      have hnone : split? (heading ++ '\n' ::
          (['\n'] ++ ('-' :: ' ' :: link ++ (['\n'] ++ [])))) = none := by
        rw [← Option.not_isSome_iff_eq_none, FrontMatter.split?_append_newline_isSome_iff]
        rintro (⟨⟨blanks, -, -, rfl⟩, -⟩ | ⟨first, rest, -, rfl, -⟩)
        · exact hstart ⟨blanks, rfl⟩
        · simp at hheading
      simpa [Edit.after, Edit.inserted, Edit.newSection, hnil] using hnone

theorem split?_after_item {e : Edit} {last : Text} {upper rest : List Text}
    (hlink : '\n' ∉ e.link) (hitem : Edit.IsItemBehind content heading link e upper last rest)
    (h : split? content = none) : split? e.after = none := by
  obtain ⟨gap, hgap, hlead⟩ := hitem.lead_eq
  have hlast : last ≠ [] := Text.ne_nil_of_mem_lines (t := FrontMatter.body content)
    (by rw [hitem.lines_eq]; simp)
  rw [← hitem.before_eq, Edit.before] at h
  by_cases hfeed : last.getLast? = some '\n'
  · have hfront : e.front.getLast? = some '\n' := by
      rw [hitem.front_eq, List.getLast?_append_of_ne_nil _ hlast, hfeed]
    obtain ⟨start, hstart⟩ := List.getLast?_eq_some_iff.mp hfront
    have hback : HasDelimiter (gap ++ ('-' :: ' ' :: e.link ++ (e.tail ++ e.kept))) →
        HasDelimiter e.back := by
      intro hlines
      have hkept := hasDelimiter_of_item hlink hgap hitem.tail_eq hlines
      rcases e.kept_back with heq | ⟨heq, -⟩
      · rwa [heq] at hkept
      · rw [heq] at hkept
        exact absurd hkept FrontMatter.not_hasDelimiter_nil
    rw [hstart, List.append_assoc] at h
    have hnone := FrontMatter.split?_eq_none_of_lines hback h
    simpa [Edit.after, Edit.inserted, hlead, hstart, missingLineFeed, hfeed] using hnone
  · -- The last line of the note gets its line feed.
    have hrest : rest = [] := by
      by_contra hne
      exact hfeed (Text.getLast?_line hitem.lines_eq hne)
    have hkept : e.kept = [] := by
      have hback : e.back = [] := by rw [hitem.back_eq, hrest]; rfl
      rcases e.kept_back with heq | ⟨heq, -⟩
      · rw [heq, hback]
      · exact heq
    have hlines : ¬ HasDelimiter (gap ++ ('-' :: ' ' :: e.link ++ (e.tail ++ []))) := fun hlines =>
      FrontMatter.not_hasDelimiter_nil (hasDelimiter_of_item hlink hgap hitem.tail_eq hlines)
    have hnone := FrontMatter.split?_eq_none_of_newline hlines h
    simpa [Edit.after, Edit.inserted, hlead, missingLineFeed, hfeed, hkept] using hnone

/-- A note without front matter gets none. -/
theorem split?_after_of_edit? {style : Style} {s : Suggestion} {e : Edit} {placement : Placement}
    (hlink : '\n' ∉ style.format.render s.target s.targetTitle)
    (hline : '\n' ∉ Text.trim style.heading) (hstart : ¬ delimiter <+: Text.trim style.heading)
    (hedit : edit? style content s = some (e, placement)) (h : split? content = none) :
    split? e.after = none := by
  have hbracket : '[' ∈ style.format.render s.target s.targetTitle := by
    obtain ⟨rest, hrest⟩ :=
      LinkFormat.exists_render_eq_cons style.format s.target s.targetTitle
    rw [hrest]
    exact List.mem_cons_self
  rcases (edit?_eq_some_iff.mp hedit).2 with ⟨position, -, rfl, -⟩ | ⟨-, rfl, -⟩
  · exact split?_after_mention hlink hbracket position h
  · rcases Edit.listing_cases content style.heading
      (style.format.render s.target s.targetTitle) with ⟨-, hnew⟩ | ⟨upper, last, rest, hitem⟩
    · rw [hnew]
      exact split?_after_newSection hlink hline hstart h
    · exact split?_after_item (by rwa [hitem.link_eq]) hitem h

end NoFrontMatter

/-! ## Every insertion -/

/-- What an insertion does to the body of a note is an edit. -/
theorem exists_bodyEdit {style : Style} {content : Text} {s : Suggestion} {e : Edit}
    {placement : Placement} (hplain : PlainNames s.target s.targetTitle)
    (hheading : '[' ∉ style.heading) (hline : '\n' ∉ Text.trim style.heading)
    (hstart : ¬ FrontMatter.delimiter <+: Text.trim style.heading)
    (hedit : edit? style content s = some (e, placement)) : ∃ part, IsBodyEdit e part := by
  have haround := not_mem_around_of_edit? hedit (c := '[') (by decide) hheading
  cases hsplit : FrontMatter.split? content with
  | none =>
      have hafter : FrontMatter.split? e.after = none :=
        split?_after_of_edit? (LinkFormat.newline_not_mem_render hplain) hline hstart hedit hsplit
      rw [← before_eq_of_edit? hedit] at hsplit
      exact ⟨e, (FrontMatter.body_of_split?_eq_none hsplit).symm,
        (FrontMatter.body_of_split?_eq_none hafter).symm, rfl, haround, fun _ hcut => hcut⟩
  | some parts =>
      have hsome : (FrontMatter.split? content).isSome = true := by rw [hsplit]; rfl
      rcases (edit?_eq_some_iff.mp hedit).2 with ⟨position, hposition, rfl, -⟩ | ⟨-, rfl, -⟩
      · exact exists_bodyEdit_of_linkPosition? hsome hposition _
      · rcases Edit.listing_cases content style.heading
          (style.format.render s.target s.targetTitle) with ⟨-, hnew⟩ | ⟨upper, last, rest, hitem⟩
        · rw [hnew] at haround ⊢
          cases hblank : Text.isBlankText (FrontMatter.body content) with
          | true => exact exists_bodyEdit_of_blank hsome hblank (Text.not_mem_trim hheading)
          | false => exact exists_bodyEdit_of_filled hsome hblank haround
        · exact exists_bodyEdit_of_item hsome hitem haround

end NoteLinks.Insertion
