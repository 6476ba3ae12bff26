/-
# What a note is stays

The links that a pass inserts do not change what a note is: its title, its tags and its
directory stay, and so do its headings, but for one that the section of related notes brings
if it is new. The body is looked at row by row. A mention never stands on a heading line, so
its row is no heading line, with or without the link. Items are rows of their own. And once
there is a row that is the heading of the section, every other link is listed below it.

The tags stay since links are put in where no tag goes on, and have no hash.
-/
import NoteLinks.Note.Reading
import NoteLinks.Proofs.Insertion.Change
import NoteLinks.Proofs.Insertion.FrontMatter
import NoteLinks.Proofs.Note.Heading
import NoteLinks.Proofs.Note.Tag

namespace NoteLinks.Insertion

open Text (HasRow rows)

/-- A line that is a heading when it is written as the heading of a section, and has no
hashes but those in front of it. -/
structure IsSectionHeading (line : Text) (h : Heading) : Prop where
  single : '\n' ∉ line
  trimmed : Text.trimEnd line = line
  read : Heading.read? line = some h
  clear : '#' ∉ h.text

/-- An anchor is looked for within a line, and it is not made of hashes alone. -/
def IsLineAnchor (anchor : Text) : Prop :=
  '\n' ∉ Text.trim anchor ∧ ∃ c ∈ Text.trim anchor, c ≠ '#'

instance (anchor : Text) : Decidable (IsLineAnchor anchor) :=
  have : Decidable (∃ c ∈ Text.trim anchor, c ≠ '#') :=
    List.decidableBEx (· ≠ '#') (Text.trim anchor)
  inferInstanceAs (Decidable (_ ∧ _))

/-! ## The heading of a section -/

namespace IsSectionHeading

variable {line : Text} {h : Heading}

/-- A section heading begins with a hash, and other characters come behind it. -/
theorem exists_eq_replicate_append (hline : IsSectionHeading line h) :
    ∃ c rest, (c = ' ' ∨ c = '\t') ∧ '#' ∉ c :: rest ∧
      line = List.replicate h.level '#' ++ c :: rest := by
  obtain ⟨c, rest, hc, hrow, htext⟩ := Heading.exists_row_of_read? hline.read
  refine ⟨c, rest, hc, fun hmem => hline.clear ?_, hrow⟩
  rw [htext]
  exact Text.mem_trim_of_mem hmem rfl

theorem exists_ne (hline : IsSectionHeading line h) : ∃ c ∈ line, c ≠ '#' := by
  obtain ⟨c, rest, hc, -, hrow⟩ := hline.exists_eq_replicate_append
  refine ⟨c, by rw [hrow]; simp, ?_⟩
  rcases hc with rfl | rfl <;> decide

theorem ne_nil (hline : IsSectionHeading line h) : line ≠ [] := by
  obtain ⟨c, hmem, -⟩ := hline.exists_ne
  exact List.ne_nil_of_mem hmem

theorem level?_ne_none (hline : IsSectionHeading line h) : Heading.level? line ≠ none := by
  intro hnone
  have hread := hline.read
  rw [Heading.read?_eq_none_of_level? hnone] at hread
  cases hread

/-- A row that is the heading, apart from blanks at its end, is a heading line. -/
theorem level?_ne_none_of_trimEnd (hline : IsSectionHeading line h) {row : Text}
    (hrow : Text.trimEnd row = line) : Heading.level? row ≠ none := by
  obtain ⟨blanks, hparts, -⟩ := Text.exists_trimEnd_append row
  rw [hparts, hrow, Heading.level?_append hline.exists_ne]
  exact hline.level?_ne_none

theorem delimiter_not_prefix (hline : IsSectionHeading line h) :
    ¬ FrontMatter.delimiter <+: line := by
  rintro ⟨rest, rfl⟩
  exact hline.level?_ne_none (Heading.level?_cons_of_ne (by decide) _)

theorem hits_tags (hline : IsSectionHeading line h) : Text.hits Tag.recognise line = [] := by
  obtain ⟨c, rest, hc, hclear, rfl⟩ := hline.exists_eq_replicate_append
  have hblank : Tag.isTagChar c = false := by
    apply Tag.isTagChar_eq_false_of_isBlank
    rcases hc with rfl | rfl <;> rfl
  rw [Tag.hits_replicate_append _ hblank, Tag.hits_of_not_mem hclear]

end IsSectionHeading

/-! ## Rows that are put in -/

section Rows

variable {link : Text}

theorem not_mem_item {c : Char} (hc : c ≠ '-') (hspace : c ≠ ' ') (hlink : c ∉ link) :
    c ∉ '-' :: ' ' :: link := by
  simp [hc, hspace, hlink]

theorem headings_newline_cons (t : Text) : Heading.all ('\n' :: t) = Heading.all t :=
  Heading.all_append_newline [] t

theorem headings_item (hlink : '\n' ∉ link) (t : Text) :
    Heading.all ('-' :: ' ' :: link ++ '\n' :: t) = Heading.all t := by
  have hnone : Heading.read? ('-' :: ' ' :: link) = none :=
    Heading.read?_eq_none_of_level? (Heading.level?_cons_of_ne (by decide) _)
  rw [Heading.all_append_newline,
    Heading.all_of_not_mem (not_mem_item (by decide) (by decide) hlink), hnone]
  rfl

/-- The row of a mention changes, but it is no heading line before and after. -/
theorem exists_rows_of_mention {body anchor before written phrase rest : Text}
    (hanchor : IsLineAnchor anchor)
    (hmention : IsMention body (Text.trim anchor) before written (phrase ++ rest))
    (hphrase : ∀ c ∈ phrase, endsPhrase c = false) (hlink : '\n' ∉ link) :
    ∃ above row row' below, rows body = above ++ row :: below ∧
      rows (before ++ (written ++ phrase ++ ' ' :: link ++ rest)) = above ++ row' :: below ∧
      Heading.level? row = none ∧ Heading.level? row' = none := by
  obtain ⟨above, start, hbefore⟩ := Text.exists_rows_eq_concat before
  obtain ⟨stop, below, hrest⟩ := Text.exists_rows_eq_cons rest
  have hwritten : '\n' ∉ written := hmention.not_mem_written (by decide) (by decide) hanchor.1
  have hphrase : '\n' ∉ phrase := fun hmem => by
    cases hphrase '\n' hmem
  have hbehind : rows (phrase ++ rest) = (phrase ++ stop) :: below :=
    Text.rows_append_of_not_mem hphrase hrest
  have hrow := hmention.level?_row hwritten hbefore hbehind
  -- The mention has a character that is no hash, and it stands in front of the link.
  obtain ⟨c, hc, hne⟩ := hmention.exists_ne_written (c := '#') (by decide) (by decide) hanchor.2
  have hfront : ∃ d ∈ start ++ written, d ≠ '#' := ⟨c, List.mem_append_right start hc, hne⟩
  refine ⟨above, start ++ (written ++ (phrase ++ stop)),
    start ++ (written ++ phrase ++ ' ' :: link ++ stop), below, ?_, ?_, hrow, ?_⟩
  · rw [hmention.body_eq, List.append_assoc, Text.rows_append_append hwritten hbefore hbehind]
  · apply Text.rows_append_append _ hbefore hrest
    simp [hwritten, hphrase, hlink]
  · rw [← List.append_assoc, Heading.level?_append hfront] at hrow
    rw [List.append_assoc written, List.append_assoc written, ← List.append_assoc,
      Heading.level?_append hfront, hrow]

end Rows

theorem isTagChar_eq_false_of_endsPhrase {c : Char} (h : endsPhrase c = true) :
    Tag.isTagChar c = false := by
  simp only [endsPhrase, Bool.or_eq_true, beq_iff_eq] at h
  rcases h with (((((hblank | rfl) | rfl) | rfl) | rfl) | rfl) | rfl
  · exact Tag.isTagChar_eq_false_of_isBlank hblank
  all_goals decide +kernel

/-! ## One insertion -/

namespace BodyChange

variable {anchors : List Text} {line link body body' : Text} {h : Heading}

/-- The headings stay, or the heading of the section is new and comes behind them. -/
theorem headings_cases (hchange : BodyChange anchors line link body body')
    (hline : IsSectionHeading line h) (hlink : '\n' ∉ link)
    (hanchors : ∀ anchor ∈ anchors, IsLineAnchor anchor) :
    Heading.all body' = Heading.all body ∨
      ¬ HasRow line body ∧ HasRow line body' ∧ Heading.all body' = Heading.all body ++ [h] := by
  cases hchange with
  | mention hanchor hmention hphrase _ =>
      obtain ⟨above, row, row', below, hrows, hrows', hrow, hrow'⟩ :=
        exists_rows_of_mention (hanchors _ hanchor) hmention hphrase hlink
      refine .inl ?_
      rw [Heading.all_eq_filterMap_rows, Heading.all_eq_filterMap_rows, hrows, hrows']
      simp only [List.filterMap_append, List.filterMap_cons,
        Heading.read?_eq_none_of_level? hrow, Heading.read?_eq_none_of_level? hrow']
  | @item front feed gap spare back kept _ hfeed hgap hspare hkept =>
      refine .inl ?_
      have hbefore :
          Heading.all (front ++ feed ++ back) = Heading.all front ++ Heading.all back := by
        rcases hfeed with rfl | ⟨rfl, rfl⟩
        · rw [List.append_assoc]
          exact Heading.all_append_newline front back
        · have hnil : Heading.all [] = [] := rfl
          simp [hnil]
      have hbehind : Heading.all (spare ++ kept) = Heading.all back := by
        have hkeep : Heading.all kept = Heading.all back := by
          rcases hkept with rfl | ⟨rfl, hblank⟩
          · rfl
          · rw [Heading.all_of_isBlankText hblank]
            rfl
        rcases hspare with rfl | rfl
        · exact hkeep
        · exact (headings_newline_cons kept).trans hkeep
      have hitem : Heading.all (gap ++ ('-' :: ' ' :: link ++ '\n' :: (spare ++ kept))) =
          Heading.all back := by
        rw [← hbehind, ← headings_item hlink (spare ++ kept)]
        rcases hgap with rfl | rfl
        · rfl
        · exact headings_newline_cons _
      rw [Heading.all_append_newline, hbefore, hitem]
  | @headed front blanks gap hheading hblanks hgap =>
      refine .inr ⟨?_, ?_, ?_⟩
      · rw [Text.hasRow_iff_exists_line hline.ne_nil]
        rintro ⟨l, hmem, heq⟩
        exact hheading l hmem heq
      · have hfirst : HasRow line line := by
          refine ⟨line, ?_, hline.trimmed⟩
          rw [Text.rows_of_not_mem hline.single]
          exact List.mem_singleton_self line
        have hsection : HasRow line (line ++ '\n' :: '\n' :: ('-' :: ' ' :: link ++ ['\n'])) :=
          Text.hasRow_append_newline.mpr (.inl hfirst)
        rcases hgap with rfl | ⟨rfl, rfl | rfl⟩
        · exact Text.hasRow_append_newline.mpr
            (.inr ((Text.hasRow_newline_cons hline.ne_nil).mpr hsection))
        · exact hsection
        · exact (Text.hasRow_newline_cons hline.ne_nil).mpr hsection
      · have hsection : Heading.all (line ++ '\n' :: '\n' :: ('-' :: ' ' :: link ++ ['\n'])) =
            [h] := by
          rw [Heading.all_append_newline, headings_newline_cons, headings_item hlink,
            Heading.all_of_not_mem hline.single, hline.read]
          rfl
        rw [Heading.all_append_blank front hblanks, ← hsection]
        rcases hgap with rfl | ⟨rfl, rfl | rfl⟩
        · exact (Heading.all_append_newline front _).trans
            (congrArg _ (headings_newline_cons _))
        · rfl
        · exact headings_newline_cons _

/-- The heading of a section stays a row. -/
theorem hasRow (hchange : BodyChange anchors line link body body') (hline : IsSectionHeading line h)
    (hlink : '\n' ∉ link) (hanchors : ∀ anchor ∈ anchors, IsLineAnchor anchor)
    (hrow : HasRow line body) : HasRow line body' := by
  cases hchange with
  | mention hanchor hmention hphrase _ =>
      obtain ⟨above, row, row', below, hrows, hrows', hlevel, -⟩ :=
        exists_rows_of_mention (hanchors _ hanchor) hmention hphrase hlink
      obtain ⟨found, hfound, heq⟩ := hrow
      have hne : found ≠ row := by
        rintro rfl
        exact hline.level?_ne_none_of_trimEnd heq hlevel
      refine ⟨found, ?_, heq⟩
      rw [hrows, List.mem_append, List.mem_cons] at hfound
      rw [hrows', List.mem_append, List.mem_cons]
      exact hfound.imp_right fun hmem => .inr (hmem.resolve_left hne)
  | @item front feed gap spare back kept _ hfeed hgap hspare hkept =>
      have hparts : HasRow line front ∨ HasRow line back := by
        rcases hfeed with rfl | ⟨rfl, rfl⟩
        · rw [List.append_assoc] at hrow
          exact Text.hasRow_append_newline.mp hrow
        · rw [List.append_nil, List.append_nil] at hrow
          exact .inl hrow
      refine Text.hasRow_append_newline.mpr (hparts.imp_right fun hback => ?_)
      have hkeep : HasRow line kept := by
        rcases hkept with rfl | ⟨-, hblank⟩
        · exact hback
        · exact absurd hback (Text.not_hasRow_of_isBlankText hline.ne_nil hblank)
      have hspared : HasRow line (spare ++ kept) := by
        rcases hspare with rfl | rfl
        · exact hkeep
        · exact (Text.hasRow_newline_cons hline.ne_nil).mpr hkeep
      have hitem : HasRow line ('-' :: ' ' :: link ++ '\n' :: (spare ++ kept)) :=
        Text.hasRow_append_newline.mpr (.inr hspared)
      rcases hgap with rfl | rfl
      · exact hitem
      · exact (Text.hasRow_newline_cons hline.ne_nil).mpr hitem
  | headed hheading =>
      obtain ⟨l, hmem, heq⟩ := (Text.hasRow_iff_exists_line hline.ne_nil).mp hrow
      exact absurd heq (hheading l hmem)

/-- The tags in the text stay. -/
theorem hits_tags (hchange : BodyChange anchors line link body body')
    (hline : IsSectionHeading line h) (hlink : '#' ∉ link) :
    Text.hits Tag.recognise body' = Text.hits Tag.recognise body := by
  have hitem : '#' ∉ '-' :: ' ' :: link := not_mem_item (by decide) (by decide) hlink
  cases hchange with
  | @mention body anchor before written phrase rest _ hmention _ hrest =>
      have hbreak : ∀ c, rest.head? = some c → Tag.isTagChar c = false :=
        fun c hc => isTagChar_eq_false_of_endsPhrase (hrest c hc)
      have hbefore : Text.hits Tag.recognise body =
          Text.hits Tag.recognise (before ++ (written ++ phrase)) ++
            Text.hits Tag.recognise rest := by
        rw [← Tag.hits_append hbreak, hmention.body_eq]
        simp
      have hspace : ∀ c, (' ' :: link ++ rest).head? = some c → Tag.isTagChar c = false := by
        rintro c ⟨⟩
        exact Tag.isTagChar_eq_false_of_isBlank rfl
      have hadded : '#' ∉ ' ' :: link := by simp [hlink]
      have hafter := Tag.hits_append (t := before ++ (written ++ phrase)) hspace
      rw [Tag.hits_append_of_not_mem hadded] at hafter
      rw [hbefore, ← hafter]
      simp
  | @item front feed gap spare back kept _ hfeed hgap hspare hkept =>
      have hbefore : Text.hits Tag.recognise (front ++ feed ++ back) =
          Text.hits Tag.recognise front ++ Text.hits Tag.recognise back := by
        rcases hfeed with rfl | ⟨rfl, rfl⟩
        · rw [List.append_assoc]
          exact Tag.hits_append_newline front back
        · simp
      have hkeep : Text.hits Tag.recognise kept = Text.hits Tag.recognise back := by
        rcases hkept with rfl | ⟨rfl, hblank⟩
        · rfl
        · exact (Tag.hits_append_blank [] hblank).symm
      have hadded : '#' ∉ gap ++ ('-' :: ' ' :: link ++ '\n' :: spare) := by
        rcases hgap with rfl | rfl <;> rcases hspare with rfl | rfl <;> simpa using hitem
      have hafter := Tag.hits_append_of_not_mem hadded kept
      rw [hbefore, ← hkeep, ← hafter, Tag.hits_append_newline]
      simp
  | @headed front blanks gap _ hblanks hgap =>
      have hbehind : Text.hits Tag.recognise ('\n' :: ('-' :: ' ' :: link ++ ['\n'])) = [] :=
        Tag.hits_of_not_mem (by simpa using hitem)
      have hsection : Text.hits Tag.recognise
          (line ++ '\n' :: '\n' :: ('-' :: ' ' :: link ++ ['\n'])) = [] := by
        rw [Tag.hits_append_newline, hline.hits_tags, hbehind]
        rfl
      rw [Tag.hits_append_blank front hblanks]
      rcases hgap with rfl | ⟨rfl, rfl | rfl⟩
      · have hgap := Tag.hits_append_of_not_mem (t := ['\n']) (by decide)
          (line ++ '\n' :: '\n' :: ('-' :: ' ' :: link ++ ['\n']))
        have hafter := Tag.hits_append_newline front
          ('\n' :: (line ++ '\n' :: '\n' :: ('-' :: ' ' :: link ++ ['\n'])))
        rw [hsection] at hgap
        rw [List.singleton_append] at hgap
        rw [hgap, List.append_nil] at hafter
        exact hafter
      · exact hsection
      · have hgap := Tag.hits_append_of_not_mem (t := ['\n']) (by decide)
          (line ++ '\n' :: '\n' :: ('-' :: ' ' :: link ++ ['\n']))
        exact hgap.trans hsection

end BodyChange

/-! ## Passes -/

namespace Pass

variable {style : Style} {content final : Text} {suggestions links : List Suggestion} {h : Heading}

/-- What a pass keeps of a body, and the one heading that it may bring. -/
theorem tags_and_headings (hpass : Pass style content suggestions links final)
    (hheading : IsSectionHeading (Text.trim style.heading) h)
    (hnames : ∀ s ∈ suggestions, ∀ c ∈ ['#', '\n'], c ∉ s.target ∧ c ∉ s.targetTitle)
    (hanchors : ∀ s ∈ suggestions, ∀ anchor ∈ s.anchors, IsLineAnchor anchor) :
    Text.hits Tag.recognise (FrontMatter.body final) =
        Text.hits Tag.recognise (FrontMatter.body content) ∧
      (Heading.all (FrontMatter.body final) = Heading.all (FrontMatter.body content) ∨
        ¬ HasRow (Text.trim style.heading) (FrontMatter.body content) ∧
          Heading.all (FrontMatter.body final) =
            Heading.all (FrontMatter.body content) ++ [h]) := by
  induction hpass with
  | done => exact ⟨rfl, .inl rfl⟩
  | keep _ _ ih =>
      exact ih (List.forall_mem_cons.mp hnames).2 (List.forall_mem_cons.mp hanchors).2
  | insert hedit _ ih =>
      obtain ⟨hs, hnames⟩ := List.forall_mem_cons.mp hnames
      obtain ⟨hanchors, hrest⟩ := List.forall_mem_cons.mp hanchors
      obtain ⟨htags, hheadings⟩ := ih hnames hrest
      have hlink (c : Char) (hc : c ∈ ['#', '\n']) (hbracket : c ∉ ['[', ']', '(', ')']) :
          c ∉ style.format.render _ _ := LinkFormat.not_mem_render hbracket (hs c hc).1 (hs c hc).2
      have hline := hlink '\n' (by simp) (by decide)
      have hchange := bodyChange_of_edit? hline hheading.single hheading.delimiter_not_prefix hedit
      refine ⟨htags.trans (hchange.hits_tags hheading (hlink '#' (by simp) (by decide))), ?_⟩
      rcases hchange.headings_cases hheading hline hanchors with hsame | ⟨hnew, hrow, hmore⟩
      · rw [hsame] at hheadings
        refine hheadings.imp_right fun ⟨hnone, hmore⟩ => ⟨fun hrow => hnone ?_, hmore⟩
        exact hchange.hasRow hheading hline hanchors hrow
      · -- The section is there now, and so there is no second one.
        rcases hheadings with hsame | ⟨hnone, -⟩
        · exact .inr ⟨hnew, hsame.trans hmore⟩
        · exact absurd hrow hnone

end Pass

/-- A heading of a lower level does not give a note its title. -/
theorem titleFrom_append {declared : Option Text} {headings : List Heading} {h : Heading}
    (hlevel : 2 ≤ h.level) (path : Text) :
    Note.titleFrom declared (headings ++ [h]) path = Note.titleFrom declared headings path := by
  cases declared with
  | some title => rfl
  | none =>
      have hlow : (h.level == 1) = false := by
        rw [beq_eq_false_iff_ne]
        omega
      have hfind : (headings ++ [h]).find? (·.level == 1) = headings.find? (·.level == 1) := by
        rw [List.find?_append, List.find?_singleton, hlow, if_neg Bool.false_ne_true, Option.or_none]
      rw [Note.titleFrom, Note.titleFrom, hfind]

/-- What is read of a note after a pass. -/
theorem Pass.note_eq {style : Style} {content final : Text} {suggestions links : List Suggestion}
    {h : Heading} (hpass : Pass style content suggestions links final)
    (hheading : IsSectionHeading (Text.trim style.heading) h) (hlevel : 2 ≤ h.level)
    (hnames : ∀ s ∈ suggestions, ∀ c ∈ ['#', '\n'], c ∉ s.target ∧ c ∉ s.targetTitle)
    (hanchors : ∀ s ∈ suggestions, ∀ anchor ∈ s.anchors, IsLineAnchor anchor) (path : Text) :
    (Note.read path final).title = (Note.read path content).title ∧
      (Note.read path final).tags = (Note.read path content).tags ∧
      (Note.read path final).directory = (Note.read path content).directory ∧
      ((Note.read path final).headings = (Note.read path content).headings ∨
        ¬ HasRow (Text.trim style.heading) (FrontMatter.body content) ∧
          (Note.read path final).headings = (Note.read path content).headings ++ [h]) := by
  obtain ⟨htags, hheadings⟩ := hpass.tags_and_headings hheading hnames hanchors
  have hfields := hpass.read_eq (fun s hs => hnames s hs '\n' (by simp)) hheading.single
    hheading.delimiter_not_prefix
  simp only [Note.read, hfields, Tag.all, htags]
  refine ⟨?_, trivial, trivial, hheadings⟩
  rcases hheadings with hsame | ⟨-, hmore⟩
  · rw [hsame]
  · rw [hmore, titleFrom_append hlevel]

/-- A pass leaves the title, the tags and the directory of a note as they are. Its headings
stay in their order, and at most one comes behind them, that of the section of related notes;
it comes only if no line of the body was this heading. -/
theorem identity_survives_pass (style : Style) (path content : Text)
    (suggestions : List Suggestion) {h : Heading} (hsingle : '\n' ∉ Text.trim style.heading)
    (hread : Heading.read? (Text.trim style.heading) = some h) (hlevel : 2 ≤ h.level)
    (hclear : '#' ∉ h.text)
    (hnames : ∀ s ∈ suggestions, ∀ c ∈ ['#', '\n'], c ∉ s.target ∧ c ∉ s.targetTitle)
    (hanchors : ∀ s ∈ suggestions, ∀ anchor ∈ s.anchors, IsLineAnchor anchor) :
    (Note.read path (Plan.make style content suggestions).content).title =
        (Note.read path content).title ∧
      (Note.read path (Plan.make style content suggestions).content).tags =
        (Note.read path content).tags ∧
      (Note.read path (Plan.make style content suggestions).content).directory =
        (Note.read path content).directory ∧
      ((Note.read path (Plan.make style content suggestions).content).headings =
          (Note.read path content).headings ∨
        (∀ line ∈ Text.lines (FrontMatter.body content),
            Text.trimEnd line ≠ Text.trim style.heading) ∧
          (Note.read path (Plan.make style content suggestions).content).headings =
            (Note.read path content).headings ++ [h]) := by
  have hheading : IsSectionHeading (Text.trim style.heading) h :=
    ⟨hsingle, Text.trimEnd_trimEnd _, hread, hclear⟩
  have hpass := pass_make style content suggestions
  obtain ⟨htitle, htags, hdirectory, hheadings⟩ :=
    hpass.note_eq hheading hlevel hnames hanchors path
  refine ⟨htitle, htags, hdirectory, hheadings.imp_right fun ⟨hnone, hmore⟩ => ⟨?_, hmore⟩⟩
  intro line hmem heq
  exact hnone ((Text.hasRow_iff_exists_line hheading.ne_nil).mpr ⟨line, hmem, heq⟩)

/-- A link behind a tag, one that goes to a section that is made for it, and one more there. -/
theorem identity_beside_tag :
    (Plan.make ⟨.markdown, "## See".toList⟩ "# A\nOn #rust.".toList
        [suggestionOf "r.md".toList "R".toList [⟨.sharedTag, "rust".toList⟩],
          suggestionOf "g.md".toList "G".toList [], suggestionOf "c.md".toList "C".toList []]).content =
        "# A\nOn #rust [R](r.md).\n\n## See\n\n- [G](g.md)\n- [C](c.md)\n".toList ∧
      (Note.read "d/n.md".toList
        "# A\nOn #rust [R](r.md).\n\n## See\n\n- [G](g.md)\n- [C](c.md)\n".toList).title =
        "A".toList ∧
      (Note.read "d/n.md".toList
        "# A\nOn #rust [R](r.md).\n\n## See\n\n- [G](g.md)\n- [C](c.md)\n".toList).tags =
        ["rust".toList] := by
  have hkept := identity_survives_pass ⟨.markdown, "## See".toList⟩ "d/n.md".toList
    "# A\nOn #rust.".toList
    [suggestionOf "r.md".toList "R".toList [⟨.sharedTag, "rust".toList⟩],
      suggestionOf "g.md".toList "G".toList [], suggestionOf "c.md".toList "C".toList []]
    (h := ⟨2, "See".toList⟩) (by decide) (by decide) (by decide) (by decide)
    (by simp [suggestionOf])
    (List.forall_mem_cons.mpr
      ⟨by decide, List.forall_mem_cons.mpr ⟨nofun, List.forall_mem_singleton.mpr nofun⟩⟩)
  exact ⟨rfl, hkept.1, hkept.2.1⟩

end NoteLinks.Insertion
