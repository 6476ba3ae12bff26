/-
# What happens to the body

An insertion changes the body of a note in one of three ways: a link goes behind the phrase
in which a mention ends, an item goes behind a line, or a section is added at the end. What
is true of the body after an insertion can be read off these three cases, without a look at
how the note is taken apart.
-/
import NoteLinks.Proofs.Insertion.Body

namespace NoteLinks.Insertion

/-- The body of a note before an insertion, and the body after it. -/
inductive BodyChange (anchors : List Text) (heading link : Text) : Text → Text → Prop
  /-- The link goes behind the phrase in which a mention ends. -/
  | mention {body anchor before written phrase rest : Text} (hanchor : anchor ∈ anchors)
      (hmention : IsMention body (Text.trim anchor) before written (phrase ++ rest))
      (hphrase : ∀ c ∈ phrase, endsPhrase c = false)
      (hrest : ∀ c, rest.head? = some c → endsPhrase c = true) :
      BodyChange anchors heading link body
        (before ++ (written ++ phrase ++ ' ' :: link ++ rest))
  /-- The item goes behind a line, which gets a line feed if it is the last one and has none. -/
  | item {front feed gap spare back kept : Text}
      (hheading : ∃ line ∈ Text.lines (front ++ feed ++ back), Text.trimEnd line = heading)
      (hfeed : feed = ['\n'] ∨ feed = [] ∧ back = []) (hgap : gap = [] ∨ gap = ['\n'])
      (hspare : spare = [] ∨ spare = ['\n'])
      (hkept : kept = back ∨ kept = [] ∧ Text.isBlankText back = true) :
      BodyChange anchors heading link (front ++ feed ++ back)
        (front ++ '\n' :: (gap ++ ('-' :: ' ' :: link ++ '\n' :: (spare ++ kept))))
  /-- The section goes behind everything but blanks. -/
  | headed {front blanks gap : Text}
      (hheading : ∀ line ∈ Text.lines (front ++ blanks), Text.trimEnd line ≠ heading)
      (hblanks : Text.isBlankText blanks = true)
      (hgap : gap = ['\n', '\n'] ∨ front = [] ∧ (gap = [] ∨ gap = ['\n'])) :
      BodyChange anchors heading link (front ++ blanks)
        (front ++ (gap ++ (heading ++ '\n' :: '\n' :: ('-' :: ' ' :: link ++ ['\n']))))

variable {anchors : List Text} {content heading link : Text}

theorem bodyChange_of_linkPosition? {position : Nat}
    (hposition : linkPosition? content anchors = some position)
    (hnone : FrontMatter.split? content = none →
      FrontMatter.split? (Edit.mention content position link).after = none) :
    BodyChange anchors heading link (FrontMatter.body content)
      (FrontMatter.body (Edit.mention content position link).after) := by
  obtain ⟨anchor, hanchor, before, written, phrase, rest, hmention, hphrase, hrest, hfront, hback⟩ :=
    exists_phrase_of_linkPosition? hposition
  have hne : (FrontMatter.split? content).isSome = true → FrontMatter.body content ≠ [] := by
    intro _ hnil
    have hparts := hmention.body_eq
    rw [hnil] at hparts
    simp [hmention.written_ne] at hparts
  obtain ⟨-, hafter⟩ := body_of_front (Edit.before_mention content _ link) hfront hnone hne
  have hresult : FrontMatter.body (Edit.mention content position link).after =
      before ++ (written ++ phrase ++ ' ' :: link ++ rest) := by
    rw [hafter, ← hback]
    simp [Edit.inserted, Edit.mention]
  rw [hresult]
  exact .mention hanchor hmention hphrase hrest

theorem bodyChange_of_item {e : Edit} {upper rest : List Text} {last : Text}
    (hitem : Edit.IsItemBehind content heading link e upper last rest)
    (hnone : FrontMatter.split? content = none → FrontMatter.split? e.after = none) :
    BodyChange anchors (Text.trim heading) link (FrontMatter.body content)
      (FrontMatter.body e.after) := by
  obtain ⟨line, hmem, hline⟩ := hitem.heading_mem
  obtain ⟨gap, hgap, hlead⟩ := hitem.lead_eq
  have hlines : line ∈ Text.lines (FrontMatter.body content) := by
    rw [hitem.lines_eq, ← List.singleton_append, ← List.append_assoc]
    exact List.mem_append_left rest hmem
  have hne : (FrontMatter.split? content).isSome = true → FrontMatter.body content ≠ [] := by
    rintro - hnil
    rw [hnil] at hlines
    cases hlines
  have hfront : e.front = FrontMatter.front content ++ (upper.flatten ++ last) := by
    rw [hitem.front_eq, List.append_assoc]
  obtain ⟨hbody, hafter⟩ := body_of_front hitem.before_eq hfront hnone hne
  obtain ⟨spare, hspare, htail⟩ :
      ∃ spare, (spare = [] ∨ spare = ['\n']) ∧ e.tail = '\n' :: spare := by
    rcases hitem.tail_eq with htail | htail
    · exact ⟨[], .inl rfl, htail⟩
    · exact ⟨['\n'], .inr rfl, htail⟩
  -- The line feed in front of the item is that of the line, or it is put in.
  obtain ⟨front, feed, hfeed, hlast, hstart⟩ : ∃ front feed,
      (feed = ['\n'] ∨ feed = [] ∧ e.back = []) ∧ upper.flatten ++ last = front ++ feed ∧
        upper.flatten ++ last ++ missingLineFeed last = front ++ ['\n'] := by
    by_cases hends : last.getLast? = some '\n'
    · obtain ⟨start, rfl⟩ := List.getLast?_eq_some_iff.mp hends
      refine ⟨upper.flatten ++ start, ['\n'], .inl rfl, by simp, ?_⟩
      rw [missingLineFeed, if_pos hends]
      simp
    · have hrest : rest = [] := by
        by_contra hrest
        exact hends (Text.getLast?_line hitem.lines_eq hrest)
      refine ⟨upper.flatten ++ last, [], .inr ⟨rfl, ?_⟩, by simp, ?_⟩
      · rw [hitem.back_eq, hrest]
        rfl
      · rw [missingLineFeed, if_neg hends]
  rw [hlast] at hbody
  have hresult : FrontMatter.body e.after =
      front ++ '\n' :: (gap ++ ('-' :: ' ' :: link ++ '\n' :: (spare ++ e.kept))) := by
    have hgroup : FrontMatter.body e.after = upper.flatten ++ last ++ missingLineFeed last ++
        (gap ++ ('-' :: ' ' :: link ++ '\n' :: (spare ++ e.kept))) := by
      rw [hafter, Edit.inserted, hlead, hitem.link_eq, htail]
      simp
    rw [hgroup, hstart]
    simp
  rw [hresult]
  rw [hbody] at hlines ⊢
  exact .item ⟨line, hlines, hline⟩ hfeed hgap hspare e.kept_back

/-- A section at the end of a body of which the end is trimmed. -/
theorem bodyChange_of_trimEnd (anchors : List Text) (link : Text) {body gap : Text}
    (hheading : ∀ line ∈ Text.lines body, Text.trimEnd line ≠ heading)
    (hgap : gap = ['\n', '\n'] ∨ Text.trimEnd body = [] ∧ (gap = [] ∨ gap = ['\n'])) :
    BodyChange anchors heading link body
      (Text.trimEnd body ++
        (gap ++ (heading ++ '\n' :: '\n' :: ('-' :: ' ' :: link ++ ['\n'])))) := by
  have hblank := Text.isBlankText_drop_trimEnd body
  have hparts := Text.trimEnd_append_drop body
  generalize body.drop (Text.trimEnd body).length = blanks at hblank hparts
  generalize Text.trimEnd body = front at hgap hparts ⊢
  subst hparts
  exact .headed hheading hblank hgap

theorem bodyChange_of_newSection
    (hheading : ∀ line ∈ Text.lines (FrontMatter.body content), Text.trimEnd line ≠ heading)
    (hnone : FrontMatter.split? content = none →
      FrontMatter.split? (Edit.newSection content heading link).after = none) :
    BodyChange anchors heading link (FrontMatter.body content)
      (FrontMatter.body (Edit.newSection content heading link).after) := by
  cases hsplit : FrontMatter.split? content with
  | none =>
      rw [FrontMatter.body_of_split?_eq_none hsplit] at hheading ⊢
      rw [FrontMatter.body_of_split?_eq_none (hnone hsplit), Edit.after_newSection, startSection]
      by_cases hempty : Text.trimEnd content = []
      · have hchange := bodyChange_of_trimEnd anchors link hheading
          (.inr ⟨hempty, .inl rfl⟩)
        simpa [hempty, item] using hchange
      · have hchange := bodyChange_of_trimEnd anchors link hheading (.inl rfl)
        simpa [hempty, item] using hchange
  | some parts =>
      have hsome : (FrontMatter.split? content).isSome = true := by rw [hsplit]; rfl
      by_cases hblank : Text.isBlankText (FrontMatter.body content) = true
      · have hnil : Text.trimEnd (FrontMatter.body content) = [] :=
          Text.trimEnd_eq_nil_iff.mpr hblank
        have hchange := bodyChange_of_trimEnd anchors link hheading
          (.inr ⟨hnil, .inr rfl⟩)
        rw [body_after_newSection_of_blank hsome hblank]
        simpa [hnil] using hchange
      · have hfront : Text.trimEnd content =
            FrontMatter.front content ++ Text.trimEnd (FrontMatter.body content) := by
          conv_lhs => rw [← FrontMatter.front_append_body content, Text.trimEnd_append, if_neg hblank]
        have hfilled : Text.trimEnd (FrontMatter.body content) ≠ [] := by
          rwa [Ne, Text.trimEnd_eq_nil_iff]
        have hne : FrontMatter.body content ≠ [] := by
          intro hnil
          exact hblank (by rw [hnil]; rfl)
        obtain ⟨-, hafter⟩ := body_of_front (Edit.before_newSection content heading link) hfront
          hnone fun _ => hne
        have hchange := bodyChange_of_trimEnd anchors link hheading (.inl rfl)
        rw [hafter]
        simpa [Edit.inserted, Edit.newSection, hfront, hfilled] using hchange

/-- What every insertion does to the body, if no name has a line feed and the heading is a
line that does not start with the delimiter of front matter. -/
theorem bodyChange_of_edit? {style : Style} {s : Suggestion} {e : Edit} {placement : Placement}
    (hlink : '\n' ∉ style.format.render s.target s.targetTitle)
    (hline : '\n' ∉ Text.trim style.heading)
    (hstart : ¬ FrontMatter.delimiter <+: Text.trim style.heading)
    (hedit : edit? style content s = some (e, placement)) :
    BodyChange s.anchors (Text.trim style.heading) (style.format.render s.target s.targetTitle)
      (FrontMatter.body content) (FrontMatter.body e.after) := by
  have hnone : FrontMatter.split? content = none → FrontMatter.split? e.after = none :=
    split?_after_of_edit? hlink hline hstart hedit
  rcases (edit?_eq_some_iff.mp hedit).2 with ⟨position, hposition, rfl, -⟩ | ⟨-, rfl, -⟩
  · exact bodyChange_of_linkPosition? hposition hnone
  · rcases Edit.listing_cases content style.heading
      (style.format.render s.target s.targetTitle) with ⟨hheading, hnew⟩ | ⟨upper, last, rest, hitem⟩
    · rw [hnew] at hnone ⊢
      exact bodyChange_of_newSection hheading hnone
    · exact bodyChange_of_item hitem hnone

end NoteLinks.Insertion
