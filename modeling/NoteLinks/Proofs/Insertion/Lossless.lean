/-
# Nothing is lost

An insertion takes nothing away from a note but blanks at its very end. What it puts in
is the link with blanks around it and, in a list, the marker of an item; the heading is put
in only if no line of the body is the heading yet. So a pass keeps the text of the note in
its order, and it changes the note exactly if it inserts a link.

That a note changes with every link is seen by its opening brackets: a link brings one, and
blanks are no brackets.
-/
import NoteLinks.Proofs.Insertion.Pass

namespace NoteLinks.Insertion

/-- What is put into a body with these lines, for a link in its place. -/
inductive IsAddition (heading : Text) (lines : List Text) (link : Text) : Placement → Text → Prop
  /-- A link behind a mention. -/
  | mention : IsAddition heading lines link .mention (' ' :: link)
  /-- An item of a section that is there. -/
  | item {before behind : Text} (hheading : ∃ line ∈ lines, Text.trimEnd line = heading)
      (hbefore : Text.isBlankText before = true) (hbehind : Text.isBlankText behind = true) :
      IsAddition heading lines link .listing (before ++ '-' :: ' ' :: link ++ behind)
  /-- The first item of a section under a heading that was not there. -/
  | headed {before between behind : Text} (hheading : ∀ line ∈ lines, Text.trimEnd line ≠ heading)
      (hbefore : Text.isBlankText before = true) (hbetween : Text.isBlankText between = true)
      (hbehind : Text.isBlankText behind = true) :
      IsAddition heading lines link .listing
        (before ++ heading ++ between ++ '-' :: ' ' :: link ++ behind)

/-! ## One insertion -/

section Edits

variable {style : Style} {content : Text} {s : Suggestion} {e : Edit} {placement : Placement}

theorem isAddition_of_edit? (hedit : edit? style content s = some (e, placement)) :
    IsAddition (Text.trim style.heading) (Text.lines (FrontMatter.body content))
      (style.format.render s.target s.targetTitle) placement e.inserted := by
  rcases (edit?_eq_some_iff.mp hedit).2 with ⟨position, -, rfl, rfl⟩ | ⟨-, rfl, rfl⟩
  · have hinserted : (Edit.mention content position
        (style.format.render s.target s.targetTitle)).inserted =
          ' ' :: style.format.render s.target s.targetTitle := by
      simp [Edit.inserted, Edit.mention]
    rw [hinserted]
    exact .mention
  · rcases Edit.listing_cases content style.heading
      (style.format.render s.target s.targetTitle) with ⟨hnone, hnew⟩ | ⟨upper, last, rest, hitem⟩
    · have hheaded : IsAddition (Text.trim style.heading) (Text.lines (FrontMatter.body content))
          (style.format.render s.target s.targetTitle) .listing
          ((if (Text.trimEnd content).isEmpty then [] else ['\n', '\n']) ++
            Text.trim style.heading ++ ['\n', '\n'] ++
            '-' :: ' ' :: style.format.render s.target s.targetTitle ++ ['\n']) :=
        .headed hnone (by split <;> rfl) rfl rfl
      rw [hnew]
      simpa [Edit.inserted, Edit.newSection] using hheaded
    · obtain ⟨line, hmem, hline⟩ := hitem.heading_mem
      obtain ⟨gap, hgap, hlead⟩ := hitem.lead_eq
      have hlines : line ∈ Text.lines (FrontMatter.body content) := by
        rw [hitem.lines_eq, ← List.singleton_append, ← List.append_assoc]
        exact List.mem_append_left rest hmem
      have hbefore : Text.isBlankText (missingLineFeed last ++ gap) = true := by
        rw [missingLineFeed]
        rcases hgap with rfl | rfl <;> split <;> rfl
      have hbehind : Text.isBlankText
          (Edit.listing content style.heading
            (style.format.render s.target s.targetTitle)).tail = true := by
        rcases hitem.tail_eq with htail | htail <;> rw [htail] <;> rfl
      have hadded : IsAddition (Text.trim style.heading) (Text.lines (FrontMatter.body content))
          (style.format.render s.target s.targetTitle) .listing
          (missingLineFeed last ++ gap ++
            '-' :: ' ' :: style.format.render s.target s.targetTitle ++
            (Edit.listing content style.heading
              (style.format.render s.target s.targetTitle)).tail) :=
        .item ⟨line, hlines, hline⟩ hbefore hbehind
      simpa [Edit.inserted, hlead, hitem.link_eq] using hadded

/-- What an edit drops are blanks at the end. -/
theorem Edit.trimEnd_front_append_kept (e : Edit) :
    Text.trimEnd (e.front ++ e.kept) = Text.trimEnd e.before := by
  rcases e.kept_back with hkept | ⟨hkept, hblank⟩
  · rw [hkept, Edit.before]
  · rw [hkept, List.append_nil, Edit.before, Text.trimEnd_append, hblank, if_pos rfl]

theorem kept_eq_of_mention (hedit : edit? style content s = some (e, .mention)) :
    e.front ++ e.kept = content := by
  rcases (edit?_eq_some_iff.mp hedit).2 with ⟨position, -, rfl, -⟩ | ⟨-, -, hplacement⟩
  · exact List.take_append_drop position content
  · cases hplacement

/-- What is in a note, apart from blanks at its end, is there in its order afterwards. -/
theorem Edit.trimEnd_before_sublist (e : Edit) : (Text.trimEnd e.before).Sublist e.after := by
  have hparts : (e.front ++ e.kept).Sublist e.after :=
    (List.sublist_append_left e.front e.inserted).append_right e.kept
  rw [← e.trimEnd_front_append_kept]
  exact (Text.trimEnd_isPrefix _).sublist.trans hparts

/-- A link brings an opening bracket. -/
theorem count_lt_of_edit? (hedit : edit? style content s = some (e, placement)) :
    content.count '[' < e.after.count '[' := by
  have hlink : 0 < e.link.count '[' := by
    obtain ⟨rest, hrest⟩ := LinkFormat.exists_render_eq_cons style.format s.target s.targetTitle
    rw [link_eq_of_edit? hedit, hrest, List.count_cons_self]
    exact Nat.succ_pos _
  have hkept : e.kept.count '[' = e.back.count '[' := by
    rcases e.kept_back with hkept | ⟨hkept, hblank⟩
    · rw [hkept]
    · have hback : '[' ∉ e.back := fun hmem => by
        cases List.all_eq_true.mp hblank '[' hmem
      rw [hkept, List.count_eq_zero_of_not_mem hback, List.count_nil]
  have hspace : (' ' :: e.link).count '[' = e.link.count '[' := List.count_cons_of_ne (by decide)
  rw [← before_eq_of_edit? hedit, Edit.before, Edit.after, Edit.inserted]
  simp only [List.count_append]
  omega

end Edits

/-! ## Passes -/

namespace Pass

variable {style : Style} {content final : Text} {suggestions links : List Suggestion}

theorem trimEnd_sublist (hpass : Pass style content suggestions links final) :
    (Text.trimEnd content).Sublist (Text.trimEnd final) := by
  induction hpass with
  | done => exact List.Sublist.refl _
  | keep _ _ ih => exact ih
  | @insert _ _ _ _ _ e _ hedit _ ih =>
      have hstep := Text.trimEnd_sublist e.trimEnd_before_sublist
      rw [Text.trimEnd_trimEnd, before_eq_of_edit? hedit] at hstep
      exact hstep.trans ih

/-- A pass brings at least one opening bracket for each link. -/
theorem count_add_le (hpass : Pass style content suggestions links final) :
    content.count '[' + links.length ≤ final.count '[' := by
  induction hpass with
  | done => exact Nat.le_refl _
  | keep _ _ ih => exact ih
  | insert hedit _ ih =>
      have hstep := count_lt_of_edit? hedit
      rw [List.length_cons]
      omega

/-- A pass changes nothing exactly if it inserts nothing. -/
theorem eq_iff (hpass : Pass style content suggestions links final) :
    final = content ↔ links.length = 0 := by
  constructor
  · rintro rfl
    have := hpass.count_add_le
    omega
  · intro hlinks
    induction hpass with
    | done => rfl
    | keep _ _ ih => exact ih hlinks
    | insert => cases hlinks

end Pass

/-- An insertion divides the note after it into what it has put in and two parts that make up
the note before it, apart from blanks at the end if the link is listed. So a pass keeps the
text of a note, and it leaves a note as it is only if it inserts no link. -/
theorem insertions_lose_no_text (style : Style) (content : Text) :
    (∀ s content' placement, insert? style content s = some (content', placement) →
        ∃ front added back, content' = front ++ added ++ back ∧
          Text.trimEnd (front ++ back) = Text.trimEnd content ∧
          (placement = .mention → front ++ back = content) ∧
          IsAddition (Text.trim style.heading) (Text.lines (FrontMatter.body content))
            (style.format.render s.target s.targetTitle) placement added) ∧
      ∀ suggestions,
        (Text.trimEnd content).Sublist (Plan.make style content suggestions).content ∧
          ((Plan.make style content suggestions).content = content ↔
            (Plan.make style content suggestions).links = 0) := by
  constructor
  · intro s content' placement hinsert
    obtain ⟨e, hedit, rfl⟩ := exists_edit_of_insert? hinsert
    refine ⟨e.front, e.inserted, e.kept, rfl, ?_, ?_, isAddition_of_edit? hedit⟩
    · rw [e.trimEnd_front_append_kept, before_eq_of_edit? hedit]
    · rintro rfl
      exact kept_eq_of_mention hedit
  · intro suggestions
    have hpass := pass_make style content suggestions
    refine ⟨hpass.trimEnd_sublist.trans (Text.trimEnd_isPrefix _).sublist, ?_⟩
    rw [Plan.links_make, hpass.eq_iff]

/-- The blank line behind an empty section is dropped. -/
theorem blank_line_behind_empty_section :
    insert? ⟨.wikilink, defaultHeading⟩ "## Related Notes\n \n".toList
        (suggestionOf "b.md".toList "B".toList []) =
          some ("## Related Notes\n\n- [[B]]\n".toList, .listing) ∧
      ∃ front added back,
        "## Related Notes\n\n- [[B]]\n".toList = front ++ added ++ back ∧
          Text.trimEnd (front ++ back) = "## Related Notes".toList ∧
          IsAddition "## Related Notes".toList ["## Related Notes\n".toList, " \n".toList]
            "[[B]]".toList .listing added := by
  refine ⟨rfl, ?_⟩
  obtain ⟨front, added, back, hcontent, hkept, -, hadded⟩ :=
    (insertions_lose_no_text ⟨.wikilink, defaultHeading⟩ "## Related Notes\n \n".toList).1
      (suggestionOf "b.md".toList "B".toList []) _ .listing rfl
  exact ⟨front, added, back, hcontent, hkept, hadded⟩

end NoteLinks.Insertion
