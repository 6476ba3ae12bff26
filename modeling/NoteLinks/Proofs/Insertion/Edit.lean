/-
# Insertions as edits

To insert a link is to put one text into another. An `Edit` says where the seam
is and what goes there, so that the text before and the text after can be
compared piece by piece. Every insertion is an edit: `insert?` gives the text
after `edit?`, and the text before it is the one it was given.

Of the text behind the seam an edit keeps all, or it drops blanks at the end of
the note. In front of the link it always puts a space.
-/
import NoteLinks.Insertion.Plan
import NoteLinks.Proofs.FrontMatter.Block
import NoteLinks.Proofs.Text.Lines
import NoteLinks.Proofs.Text.Trimming

namespace NoteLinks.Insertion

/-- A link put into a text. -/
structure Edit where
  /-- The text in front of the seam. -/
  front : Text
  /-- What is put in front of the link, without the space before it. -/
  lead : Text
  link : Text
  /-- What is put behind the link. -/
  tail : Text
  /-- The text behind the seam. -/
  back : Text
  /-- What is kept of the text behind the seam. -/
  kept : Text
  kept_back : kept = back ∨ kept = [] ∧ Text.isBlankText back = true

namespace Edit

/-- The text before the edit. -/
def before (e : Edit) : Text := e.front ++ e.back

/-- All that is put in. -/
def inserted (e : Edit) : Text := e.lead ++ ' ' :: e.link ++ e.tail

/-- The text after the edit. -/
def after (e : Edit) : Text := e.front ++ e.inserted ++ e.kept

/-! ## The edits of the two placements -/

/-- A link at a position, behind a space. -/
def mention (content : Text) (position : Nat) (link : Text) : Edit where
  front := content.take position
  lead := []
  link := link
  tail := []
  back := content.drop position
  kept := content.drop position
  kept_back := .inl rfl

/-- A link in a section that is made for it at the end of the note. -/
def newSection (content heading link : Text) : Edit where
  front := Text.trimEnd content
  lead := (if (Text.trimEnd content).isEmpty then [] else ['\n', '\n']) ++ heading ++
    ['\n', '\n', '-']
  link := link
  tail := ['\n']
  back := content.drop (Text.trimEnd content).length
  kept := []
  kept_back := .inr ⟨rfl, Text.isBlankText_drop_trimEnd content⟩

/-- A link behind the last line of a section that is not blank. -/
def nextItem (upTo last link rest : Text) : Edit where
  front := upTo
  lead := missingLineFeed last ++ ['-']
  link := link
  tail := ['\n']
  back := rest
  kept := rest
  kept_back := .inl rfl

/-- A link in a section with nothing in it but its heading line. -/
def firstItem (upTo line link rest : Text) : Edit where
  front := upTo
  lead := missingLineFeed line ++ ['\n', '-']
  link := link
  tail := '\n' :: if Text.isBlankText rest || rest.head? = some '\n' then [] else ['\n']
  back := rest
  kept := if Text.isBlankText rest then [] else rest
  kept_back := by
    split
    next hblank => exact .inr ⟨rfl, hblank⟩
    next => exact .inl rfl

/-- The lines behind a heading line: those up to the last one of the section that
is not blank, and all the others. -/
def divideSection (heading : Text) (lines : List Text) : List Text × List Text :=
  let level := (Heading.level? heading).getD 6
  let (filled, blank) := splitBlankEnd (lines.takeWhile fun l => !closesSection level l)
  (filled, blank ++ lines.dropWhile fun l => !closesSection level l)

/-- A link listed under a heading. -/
def listing (content heading link : Text) : Edit :=
  let heading := Text.trim heading
  match splitAtHeading? heading (Text.lines (FrontMatter.body content)) with
  | none => newSection content heading link
  | some (before, line, after) =>
    let upTo := FrontMatter.front content ++ before.flatten ++ line
    let (filled, others) := divideSection heading after
    match filled.getLast? with
    | some last => nextItem (upTo ++ filled.flatten) last link others.flatten
    | none => firstItem upTo line link others.flatten

end Edit

/-- A suggestion of which only that is given which an insertion reads. -/
def suggestionOf (target title : Text) (reasons : List Reason) : Suggestion where
  target := target
  targetTitle := title
  score := 0
  reasons := reasons
  strategies := []
  confidence := .low

/-- The edit that inserts the link of a suggestion, and where the link is put. -/
def edit? (style : Style) (content : Text) (s : Suggestion) : Option (Edit × Placement) :=
  if linkExists content s.target s.targetTitle then none
  else
    let link := style.format.render s.target s.targetTitle
    match linkPosition? content s.anchors with
    | some position => some (.mention content position link, .mention)
    | none => some (.listing content style.heading link, .listing)

namespace Edit

/-! ## The text after an edit -/

theorem after_mention (content : Text) (position : Nat) (link : Text) :
    (mention content position link).after = insertAt content position link := by
  simp [after, inserted, mention, insertAt]

theorem after_newSection (content heading link : Text) :
    (newSection content heading link).after = startSection content heading link := by
  simp only [after, inserted, newSection, startSection, item]
  split <;> simp_all

theorem after_nextItem (upTo last link rest : Text) :
    (nextItem upTo last link rest).after =
      upTo ++ missingLineFeed last ++ item link ++ rest := by
  simp [after, inserted, nextItem, item]

theorem after_firstItem (upTo line link rest : Text) :
    (firstItem upTo line link rest).after =
      upTo ++ missingLineFeed line ++ '\n' :: item link ++ spacedRest rest := by
  simp only [after, inserted, firstItem, spacedRest, item]
  cases Text.isBlankText rest with
  | true => simp
  | false => by_cases hfeed : rest.head? = some '\n' <;> simp [hfeed]

theorem after_listing (content heading link : Text) :
    (listing content heading link).after = listLink content heading link := by
  simp only [listing, listLink]
  cases splitAtHeading? (Text.trim heading) (Text.lines (FrontMatter.body content)) with
  | none => exact after_newSection content _ link
  | some parts =>
      obtain ⟨before, line, after⟩ := parts
      simp only [divideSection]
      generalize splitBlankEnd _ = divided
      obtain ⟨filled, blank⟩ := divided
      cases filled.getLast? with
      | some last => exact after_nextItem _ last link _
      | none => exact after_firstItem _ line link _

/-! ## Sections -/

theorem splitBlankEnd_append (lines : List Text) :
    (splitBlankEnd lines).1 ++ (splitBlankEnd lines).2 = lines := by
  induction lines with
  | nil => rfl
  | cons line lines ih =>
      rw [splitBlankEnd]
      split
      next blank hsplit =>
        obtain rfl : blank = lines := by simpa [hsplit] using ih
        split <;> rfl
      next filled blank _ hsplit =>
        rw [hsplit] at ih
        exact congrArg (line :: ·) ih

theorem divideSection_append (heading : Text) (lines : List Text) :
    (divideSection heading lines).1 ++ (divideSection heading lines).2 = lines := by
  simp only [divideSection]
  rw [← List.append_assoc, splitBlankEnd_append, List.takeWhile_append_dropWhile]

theorem splitAtHeading?_eq_some {heading line : Text} {lines before after : List Text}
    (h : splitAtHeading? heading lines = some (before, line, after)) :
    lines = before ++ line :: after ∧ Text.trimEnd line = heading := by
  induction lines generalizing before with
  | nil => cases h
  | cons first lines ih =>
      rw [splitAtHeading?] at h
      split at h
      next hline =>
        obtain ⟨rfl, rfl, rfl⟩ : [] = before ∧ first = line ∧ lines = after := by simpa using h
        exact ⟨rfl, hline⟩
      next =>
        obtain ⟨⟨before', line', after'⟩, hsplit, heq⟩ := Option.map_eq_some_iff.mp h
        obtain ⟨rfl, rfl, rfl⟩ : first :: before' = before ∧ line' = line ∧ after' = after := by
          simpa using heq
        obtain ⟨rfl, hline⟩ := ih hsplit
        exact ⟨rfl, hline⟩

theorem splitAtHeading?_eq_none {heading : Text} {lines : List Text}
    (h : splitAtHeading? heading lines = none) : ∀ line ∈ lines, Text.trimEnd line ≠ heading := by
  induction lines with
  | nil => simp
  | cons first lines ih =>
      rw [splitAtHeading?] at h
      split at h
      next => cases h
      next hfirst => exact List.forall_mem_cons.mpr ⟨hfirst, ih (Option.map_eq_none_iff.mp h)⟩

/-- What it takes to list a link in a section that is there already: a line of the
body behind which the item goes. -/
structure IsItemBehind (content heading link : Text) (e : Edit) (upper : List Text) (last : Text)
    (rest : List Text) : Prop where
  lines_eq : Text.lines (FrontMatter.body content) = upper ++ last :: rest
  heading_mem : ∃ line ∈ upper ++ [last], Text.trimEnd line = Text.trim heading
  front_eq : e.front = FrontMatter.front content ++ upper.flatten ++ last
  lead_eq : ∃ gap, (gap = [] ∨ gap = ['\n']) ∧ e.lead = missingLineFeed last ++ gap ++ ['-']
  link_eq : e.link = link
  tail_eq : e.tail = ['\n'] ∨ e.tail = ['\n', '\n']
  back_eq : e.back = rest.flatten

/-- A link is listed in a new section if no line of the body is the heading, or else
behind a line of the body. -/
theorem listing_cases (content heading link : Text) :
    ((∀ line ∈ Text.lines (FrontMatter.body content), Text.trimEnd line ≠ Text.trim heading) ∧
        listing content heading link = newSection content (Text.trim heading) link) ∨
      ∃ upper last rest,
        IsItemBehind content heading link (listing content heading link) upper last rest := by
  simp only [listing]
  cases hsplit : splitAtHeading? (Text.trim heading) (Text.lines (FrontMatter.body content)) with
  | none => exact .inl ⟨splitAtHeading?_eq_none hsplit, rfl⟩
  | some parts =>
      obtain ⟨before, line, after⟩ := parts
      obtain ⟨hlines, hheading⟩ := splitAtHeading?_eq_some hsplit
      have hdivide := divideSection_append (Text.trim heading) after
      generalize hparts : divideSection (Text.trim heading) after = parts at hdivide
      obtain ⟨filled, others⟩ := parts
      simp only [hparts] at hdivide ⊢
      refine .inr ?_
      split
      next last hlast =>
        obtain ⟨filled', rfl⟩ := List.getLast?_eq_some_iff.mp hlast
        refine ⟨before ++ line :: filled', last, others, ?_, ⟨line, by simp, hheading⟩, ?_,
          ⟨[], .inl rfl, by simp [nextItem]⟩, rfl, .inl rfl, rfl⟩
        · rw [hlines, ← hdivide]
          simp
        · simp [nextItem]
      next hnone =>
        obtain rfl := List.getLast?_eq_none_iff.mp hnone
        obtain rfl : others = after := hdivide
        refine ⟨before, line, others, hlines, ⟨line, by simp, hheading⟩, rfl,
          ⟨['\n'], .inr rfl, ?_⟩, rfl, ?_, rfl⟩
        · simp [firstItem]
        · simp only [firstItem]
          split
          · exact .inl rfl
          · exact .inr rfl

/-! ## The text before an edit -/

theorem before_mention (content : Text) (position : Nat) (link : Text) :
    (mention content position link).before = content := List.take_append_drop position content

theorem before_newSection (content heading link : Text) :
    (newSection content heading link).before = content := Text.trimEnd_append_drop content

theorem IsItemBehind.before_eq {content heading link last : Text} {e : Edit}
    {upper rest : List Text} (h : IsItemBehind content heading link e upper last rest) :
    e.before = content := by
  have hbody := Text.flatten_lines (FrontMatter.body content)
  rw [h.lines_eq, List.flatten_append, List.flatten_cons] at hbody
  rw [before, h.front_eq, h.back_eq, List.append_assoc, List.append_assoc, hbody,
    FrontMatter.front_append_body]

theorem before_listing (content heading link : Text) :
    (listing content heading link).before = content := by
  rcases listing_cases content heading link with ⟨-, hnew⟩ | ⟨upper, last, rest, hitem⟩
  · rw [hnew, before_newSection]
  · exact hitem.before_eq

/-! ## Where the seam is -/

/-- An item is listed at the start of a line, or where only blanks follow. -/
theorem atLineStart_listing (content heading link : Text) :
    Text.AtLineStart (listing content heading link).front (listing content heading link).back := by
  rcases listing_cases content heading link with ⟨-, hnew⟩ | ⟨upper, last, rest, hitem⟩
  · rw [hnew]
    exact .inr (.inr (Text.isBlankText_drop_trimEnd content))
  · rw [hitem.front_eq, hitem.back_eq]
    rcases eq_or_ne rest [] with rfl | hrest
    · exact .inr (.inr rfl)
    · have hlast : last ≠ [] := Text.ne_nil_of_mem_lines (t := FrontMatter.body content)
        (by rw [hitem.lines_eq]; simp)
      refine .inr (.inl ?_)
      rw [List.getLast?_append_of_ne_nil _ hlast]
      exact Text.getLast?_line hitem.lines_eq hrest

/-! ## What stays -/

variable (e : Edit)

theorem isInfix_after_link : ' ' :: e.link <:+: e.after :=
  ⟨e.front ++ e.lead, e.tail ++ e.kept, by simp [after, inserted]⟩

/-- Only blanks are dropped. -/
theorem kept_eq_of_back_eq {x w y : Text} {c : Char} (hback : e.back = x ++ w ++ y)
    (hlast : w.getLast? = some c) (hc : Text.isBlank c = false) : e.kept = e.back := by
  rcases e.kept_back with hkept | ⟨-, hblank⟩
  · exact hkept
  · have hmem : c ∈ e.back := by
      rw [hback]
      exact List.mem_append_left y (List.mem_append_right x (List.mem_of_getLast? hlast))
    rw [List.all_eq_true.mp hblank c hmem] at hc
    cases hc

/-- A word that stands on one side of the seam and does not end with a blank stays. -/
theorem isInfix_after_of_outside {x w y : Text} {c : Char} (hbefore : e.before = x ++ w ++ y)
    (hside : x.length + w.length ≤ e.front.length ∨ e.front.length ≤ x.length)
    (hlast : w.getLast? = some c) (hc : Text.isBlank c = false) : w <:+: e.after := by
  rcases Text.occurrence_cases hbefore with ⟨z, hz⟩ | ⟨z, hz⟩ | ⟨u, v, hu, hv, rfl, hfront, -⟩
  · exact ⟨x, z ++ e.inserted ++ e.kept, by simp [after, hz]⟩
  · refine ⟨e.front ++ e.inserted ++ z, y, ?_⟩
    rw [after, e.kept_eq_of_back_eq hz hlast hc, hz]
    simp
  · exfalso
    have hulen := List.length_pos_iff.mpr hu
    have hvlen := List.length_pos_iff.mpr hv
    simp only [hfront, List.length_append] at hside
    omega

theorem isInfix_after {w : Text} {c : Char} (hcut : Text.Uncut w e.front e.back)
    (hlast : w.getLast? = some c) (hc : Text.isBlank c = false) (hw : w <:+: e.before) :
    w <:+: e.after := by
  obtain ⟨x, y, hxy⟩ := hw
  refine e.isInfix_after_of_outside hxy.symm ?_ hlast hc
  exact hcut.length x y hxy.symm

end Edit

/-! ## Every insertion is an edit -/

theorem insert?_eq_none_iff {style : Style} {content : Text} {s : Suggestion} :
    insert? style content s = none ↔ linkExists content s.target s.targetTitle = true := by
  rw [insert?]
  split
  next h => simp [h]
  next h =>
    simp only [h, Bool.false_eq_true, iff_false]
    split <;> exact Option.some_ne_none _

theorem insert?_eq_map_edit? (style : Style) (content : Text) (s : Suggestion) :
    insert? style content s =
      (edit? style content s).map fun (e, placement) => (e.after, placement) := by
  unfold insert? edit?
  split
  next => rfl
  next =>
    cases linkPosition? content s.anchors with
    | some position => simp only [Option.map_some, Edit.after_mention]
    | none => simp only [Option.map_some, Edit.after_listing]

/-- An edit inserts the link of a suggestion that is not linked to yet, behind a
mention or else as an item of a list. -/
theorem edit?_eq_some_iff {style : Style} {content : Text} {s : Suggestion} {e : Edit}
    {placement : Placement} :
    edit? style content s = some (e, placement) ↔
      linkExists content s.target s.targetTitle = false ∧
        ((∃ position, linkPosition? content s.anchors = some position ∧
            e = .mention content position (style.format.render s.target s.targetTitle) ∧
            placement = .mention) ∨
          linkPosition? content s.anchors = none ∧
            e = .listing content style.heading (style.format.render s.target s.targetTitle) ∧
            placement = .listing) := by
  unfold edit?
  split
  next h => simp [h]
  next h =>
    simp only [Bool.not_eq_true] at h
    simp only [h, true_and]
    split
    next position hposition => simp [hposition, eq_comm]
    next hnone => simp [hnone, eq_comm]

theorem link_eq_of_edit? {style : Style} {content : Text} {s : Suggestion} {e : Edit}
    {placement : Placement} (h : edit? style content s = some (e, placement)) :
    e.link = style.format.render s.target s.targetTitle := by
  rcases (edit?_eq_some_iff.mp h).2 with ⟨position, -, rfl, -⟩ | ⟨-, rfl, -⟩
  · rfl
  · rcases Edit.listing_cases content style.heading (style.format.render s.target s.targetTitle)
      with ⟨-, hnew⟩ | ⟨upper, last, rest, hitem⟩
    · rw [hnew]
      rfl
    · exact hitem.link_eq

theorem before_eq_of_edit? {style : Style} {content : Text} {s : Suggestion} {e : Edit}
    {placement : Placement} (h : edit? style content s = some (e, placement)) :
    e.before = content := by
  rcases (edit?_eq_some_iff.mp h).2 with ⟨position, -, rfl, -⟩ | ⟨-, rfl, -⟩
  · exact Edit.before_mention content position _
  · exact Edit.before_listing content _ _

/-- Around a link there is nothing but line feeds, a dash and the heading. -/
theorem not_mem_around_of_edit? {style : Style} {content : Text} {s : Suggestion} {e : Edit}
    {placement : Placement} (h : edit? style content s = some (e, placement)) {c : Char}
    (hc : c ∉ ['\n', '-']) (hheading : c ∉ style.heading) : c ∉ e.lead ∧ c ∉ e.tail := by
  simp only [List.mem_cons, List.not_mem_nil, not_or] at hc
  rcases (edit?_eq_some_iff.mp h).2 with ⟨position, -, rfl, -⟩ | ⟨-, rfl, -⟩
  · exact ⟨List.not_mem_nil, List.not_mem_nil⟩
  · rcases Edit.listing_cases content style.heading (style.format.render s.target s.targetTitle)
      with ⟨-, hnew⟩ | ⟨upper, last, rest, hitem⟩
    · rw [hnew]
      refine ⟨?_, by simp [Edit.newSection, hc]⟩
      simp only [Edit.newSection]
      split <;> simp [Text.not_mem_trim hheading, hc]
    · obtain ⟨gap, hgap, hlead⟩ := hitem.lead_eq
      rw [hlead, missingLineFeed]
      constructor
      · rcases hgap with rfl | rfl <;> split <;> simp [hc]
      · rcases hitem.tail_eq with htail | htail <;> simp [htail, hc]

/-- An edit puts in no other characters than those of the link and what is around it. -/
theorem not_mem_after_of_edit? {style : Style} {content : Text} {s : Suggestion} {e : Edit}
    {placement : Placement} (h : edit? style content s = some (e, placement)) {c : Char}
    (hc : c ∉ ['\n', '-', ' ']) (hheading : c ∉ style.heading) (hcontent : c ∉ content)
    (hlink : c ∉ style.format.render s.target s.targetTitle) : c ∉ e.after := by
  simp only [List.mem_cons, List.not_mem_nil, not_or] at hc
  have haround := not_mem_around_of_edit? h (c := c) (by simp [hc]) hheading
  rw [← link_eq_of_edit? h] at hlink
  rw [← before_eq_of_edit? h, Edit.before, List.mem_append, not_or] at hcontent
  have hkept : c ∉ e.kept := by
    rcases e.kept_back with hkept | ⟨hkept, -⟩
    · rw [hkept]
      exact hcontent.2
    · rw [hkept]
      exact List.not_mem_nil
  simp [Edit.after, Edit.inserted, hc, haround, hlink, hcontent.1, hkept]

/-- An insertion leaves the text that an edit leaves. -/
theorem exists_edit_of_insert? {style : Style} {content content' : Text} {s : Suggestion}
    {placement : Placement} (h : insert? style content s = some (content', placement)) :
    ∃ e, edit? style content s = some (e, placement) ∧ e.after = content' := by
  rw [insert?_eq_map_edit?] at h
  obtain ⟨⟨e, placement'⟩, hedit, heq⟩ := Option.map_eq_some_iff.mp h
  obtain ⟨rfl, rfl⟩ : e.after = content' ∧ placement' = placement := by simpa using heq
  exact ⟨e, hedit, rfl⟩

end NoteLinks.Insertion
