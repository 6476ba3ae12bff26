/-
# Finding a link that has been written

Links are written with the title and the path as they are, but they are read with
patterns. A wikilink is always found again. In a markdown link the label may not
have a closing bracket: the link is found if behind some opening bracket, its own
or one of the title, the title goes on to its end without one. Otherwise the same
suggestion is inserted again and again.
-/
import NoteLinks.Proofs.Insertion.Edit
import NoteLinks.Proofs.Insertion.Spelling

namespace NoteLinks.Insertion

/-- A link with this title is found again when it has been written. -/
def IsReadable (format : LinkFormat) (title : Text) : Prop :=
  format = .wikilink ∨
    ∃ start label, '[' :: title = start ++ '[' :: label ∧ label ≠ [] ∧ ']' ∉ label

/-! ## Readable links are found -/

theorem exists_isLinkTo_of_isReadable {format : LinkFormat} {title : Text} (htitle : title ≠ [])
    (h : IsReadable format title) (path : Text) :
    ∃ w, IsLinkTo path title w ∧ w <:+: format.render path title := by
  cases format with
  | wikilink =>
      have hlink : IsLinkTo path title ('[' :: '[' :: title ++ [] ++ [']', ']']) :=
        .wikilink htitle .none
      rw [List.append_nil] at hlink
      exact ⟨_, hlink, List.infix_refl _⟩
  | markdown =>
      rcases h with hformat | ⟨start, label, hsplit, hne, hclosed⟩
      · cases hformat
      · refine ⟨_, .markdown hne hclosed (.refl path), start, [], ?_⟩
        rw [LinkFormat.render, hsplit]
        simp

/-- A readable link is found after its insertion, wherever it is put. -/
theorem linkExists_of_isReadable {style : Style} {content content' : Text} {s : Suggestion}
    {placement : Placement} (htitle : s.targetTitle ≠ [])
    (hreadable : IsReadable style.format s.targetTitle)
    (h : insert? style content s = some (content', placement)) :
    linkExists content' s.target s.targetTitle = true := by
  obtain ⟨e, hedit, rfl⟩ := exists_edit_of_insert? h
  obtain ⟨w, hw, hpart⟩ := exists_isLinkTo_of_isReadable htitle hreadable s.target
  rw [← link_eq_of_edit? hedit] at hpart
  have hafter : w <:+: e.after :=
    (hpart.trans (List.suffix_cons ' ' e.link).isInfix).trans e.isInfix_after_link
  exact hw.linkExists_of_isInfix hafter

/-! ## Other links are not -/

/-- The note that an empty note becomes when a link is listed in it under an empty
heading. -/
def emptyNoteWith (title path : Text) : Text :=
  ['\n', '\n', '-', ' '] ++ ('[' :: title ++ [']']) ++ '(' :: path ++ [')', '\n']

theorem insert?_empty (target title : Text) :
    insert? ⟨.markdown, []⟩ [] (suggestionOf target title []) =
      some (emptyNoteWith title target, .listing) := by
  have hnone : linkExists [] target title = false := by
    simp [linkExists, anySuffix, isWikilinkTo, isMarkdownLinkTo, Text.dropPrefix?, Link.dropLabel?]
  have hposition : linkPosition? [] (suggestionOf target title []).anchors = none := rfl
  have htext : listLink [] [] (LinkFormat.markdown.render target title) =
      emptyNoteWith title target := by
    have hsection : listLink [] [] (LinkFormat.markdown.render target title) =
        startSection [] [] (LinkFormat.markdown.render target title) := rfl
    rw [hsection]
    simp [startSection, item, Text.trimEnd, LinkFormat.render, emptyNoteWith]
  simp only [insert?, suggestionOf] at hposition ⊢
  simp only [hnone, hposition, htext, Bool.false_eq_true, if_false]

/-- A word that begins with an opening and ends with a closing bracket keeps within the
stretch outside of which there are none. -/
theorem brackets_within {a b d x w y : Text} (ha : '[' ∉ a) (hd : ']' ∉ d)
    (h : a ++ b ++ d = x ++ ('[' :: w ++ [']']) ++ y) : '[' :: w ++ [']'] <:+: b := by
  have hleft : a ++ (b ++ d) = x ++ '[' :: (w ++ ']' :: y) := by simpa using h
  obtain ⟨x, rfl, hright⟩ := Text.exists_eq_append_of_not_mem ha hleft
  have hright : b ++ d = x ++ '[' :: w ++ ']' :: y := by simpa using hright
  rcases List.append_eq_append_iff.mp hright with ⟨u, -, rfl⟩ | ⟨u, rfl, hu⟩
  · simp at hd
  · cases u with
    | nil =>
        rw [List.nil_append] at hu
        exact absurd (hu ▸ List.mem_cons_self) hd
    | cons c u =>
        obtain rfl : c = ']' := (List.cons.inj hu).1.symm
        exact ⟨x, u, by simp⟩

/-- In front of the last line feed but one there is the end of the label. -/
theorem label_of_emptyNoteWith {title x label y : Text} (hline : '\n' ∉ title)
    (h : emptyNoteWith title ['\n'] = x ++ ('[' :: label ++ ']' :: '(' :: ['\n'] ++ [')']) ++ y) :
    ∃ start, '[' :: title = start ++ '[' :: label := by
  have hleft : ['\n', '\n', '-', ' '] ++ ('[' :: title ++ [']', '('] ++ '\n' :: [')', '\n']) =
      x ++ '[' :: (label ++ ']' :: '(' :: '\n' :: ')' :: y) := by
    simpa [emptyNoteWith] using h
  obtain ⟨start, -, hlink⟩ := Text.exists_eq_append_of_not_mem (by decide) hleft
  have hlink : '[' :: title ++ [']', '('] ++ '\n' :: [')', '\n'] =
      start ++ '[' :: label ++ [']', '('] ++ '\n' :: ')' :: y := by
    simpa using hlink
  have hfront : '\n' ∉ '[' :: title ++ [']', '('] := by simp [hline]
  have hback : '\n' ∉ start ++ '[' :: label ++ [']', '('] := by
    intro hmem
    obtain ⟨p, q, hpq, hp⟩ := List.eq_append_cons_of_mem hmem
    have hsplit : '[' :: title ++ [']', '('] ++ '\n' :: [')', '\n'] =
        p ++ '\n' :: (q ++ '\n' :: ')' :: y) := by
      rw [hlink, hpq]
      simp
    obtain ⟨-, hrest⟩ := Text.eq_of_append_cons_eq hfront hp hsplit
    cases q with
    | nil => cases (List.cons.inj hrest).1
    | cons c q =>
        have hlen := congrArg List.length hrest
        simp only [List.length_append, List.length_cons, List.length_nil] at hlen
        omega
  obtain ⟨hlabel, -⟩ := Text.eq_of_append_cons_eq hfront hback hlink
  exact ⟨start, List.append_cancel_right hlabel⟩

/-- A link that is not readable is not found in an empty note with nothing else. -/
theorem isReadable_of_linkExists {title : Text} (hline : '\n' ∉ title)
    (h : linkExists (emptyNoteWith title ['\n']) ['\n'] title = true) :
    IsReadable .markdown title := by
  obtain ⟨x, w, y, hnote, hw⟩ := linkExists_iff.mp h
  cases hw with
  | @wikilink added htitle hadded =>
      exfalso
      have hwithin := brackets_within (a := ['\n', '\n', '-', ' ']) (b := '[' :: title ++ [']'])
        (d := '(' :: ['\n'] ++ [')', '\n']) (x := x) (w := '[' :: title ++ added ++ [']'])
        (y := y) (by decide) (by decide) (by simpa [emptyNoteWith] using hnote)
      have hlen := hwithin.length_le
      simp only [List.length_append, List.length_cons, List.length_nil] at hlen
      omega
  | @markdown label written hlabel hclosed hwritten =>
      obtain rfl : written = ['\n'] := by
        cases hwritten with
        | char _ hwritten =>
            cases hwritten
            rfl
      obtain ⟨start, hstart⟩ := label_of_emptyNoteWith hline hnote
      exact .inr ⟨start, label, hstart, hlabel, hclosed⟩

/-- A link is found again after its insertion, in every note and under every heading,
exactly if it is readable. -/
theorem recognised_iff_isReadable (format : LinkFormat) (title : Text) (htitle : title ≠ [])
    (hline : '\n' ∉ title) :
    (∀ heading content content' s placement, s.targetTitle = title → s.target ≠ [] →
        insert? ⟨format, heading⟩ content s = some (content', placement) →
        linkExists content' s.target s.targetTitle = true ∧
          insert? ⟨format, heading⟩ content' s = none) ↔
      IsReadable format title := by
  constructor
  · intro h
    cases format with
    | wikilink => exact .inl rfl
    | markdown =>
        have hlink := h [] [] _ (suggestionOf ['\n'] title []) .listing rfl (by simp [suggestionOf])
          (insert?_empty ['\n'] title)
        exact isReadable_of_linkExists hline hlink.1
  · rintro hreadable heading content content' s placement rfl - hinsert
    have hlink := linkExists_of_isReadable htitle hreadable hinsert
    exact ⟨hlink, insert?_eq_none_iff.mpr hlink⟩

/-- The title has a closing bracket, but an opening one behind it. -/
theorem recognised_behind_inner_bracket :
    insert? ⟨.markdown, defaultHeading⟩ "Body.\n".toList
        (suggestionOf "t.md".toList "a]b[c".toList []) =
        some ("Body.\n\n## Related Notes\n\n- [a]b[c](t.md)\n".toList, .listing) ∧
      linkExists "Body.\n\n## Related Notes\n\n- [a]b[c](t.md)\n".toList "t.md".toList
        "a]b[c".toList = true := by
  refine ⟨rfl, ?_⟩
  have hfound := (recognised_iff_isReadable .markdown "a]b[c".toList (by decide) (by decide)).mpr
    (.inr ⟨"[a]b".toList, "c".toList, rfl, by decide, by decide⟩)
  exact (hfound defaultHeading "Body.\n".toList _
    (suggestionOf "t.md".toList "a]b[c".toList []) .listing rfl (by decide) rfl).1

/-- A markdown link whose title has a closing bracket and no opening one behind it is not
found, and inserted once more. -/
theorem markdown_link_not_recognised :
    insert? ⟨.markdown, defaultHeading⟩ "Body.\n".toList
        (suggestionOf "t.md".toList "a]b".toList []) =
        some ("Body.\n\n## Related Notes\n\n- [a]b](t.md)\n".toList, .listing) ∧
      linkExists "Body.\n\n## Related Notes\n\n- [a]b](t.md)\n".toList "t.md".toList
        "a]b".toList = false ∧
      insert? ⟨.markdown, defaultHeading⟩
        "Body.\n\n## Related Notes\n\n- [a]b](t.md)\n".toList
        (suggestionOf "t.md".toList "a]b".toList []) =
        some ("Body.\n\n## Related Notes\n\n- [a]b](t.md)\n- [a]b](t.md)\n".toList,
          .listing) := by
  exact ⟨rfl, rfl, rfl⟩

end NoteLinks.Insertion
