/-
# Where a link is put behind a mention

The position for a link is behind a mention in the body, and behind it only as
far as the phrase goes on in which the mention ends. The mention itself overlaps
no link and no heading line. That the phrase goes on past the start of an
existing link is not excluded, unless there is a blank in front of the link.
-/
import Mathlib.Data.List.Forall2
import NoteLinks.Insertion.Mention
import NoteLinks.Proofs.FrontMatter.Block
import NoteLinks.Proofs.Text.Case
import NoteLinks.Proofs.Text.Rows
import NoteLinks.Proofs.Text.Scan
import NoteLinks.Proofs.Text.Trimming

namespace NoteLinks.Insertion

/-! ## Mentions -/

/-- What a text begins with is as long as the phrase and alike. -/
theorem exists_alike_of_beginsAlike {phrase t : Text} (h : beginsAlike phrase t = true) :
    ∃ w y, t = w ++ y ∧ List.Forall₂ (fun a c => Text.alike a c = true) phrase w := by
  induction phrase generalizing t with
  | nil => exact ⟨[], t, rfl, .nil⟩
  | cons a phrase ih =>
      cases t with
      | nil => cases h
      | cons c t =>
          rw [beginsAlike, Bool.and_eq_true] at h
          obtain ⟨w, y, rfl, hw⟩ := ih h.2
          exact ⟨c :: w, y, rfl, .cons h.1 hw⟩

/-- A mention of a phrase in a body: what it is written like, and what is around
it. -/
structure IsMention (body phrase before written after : Text) : Prop where
  body_eq : body = before ++ written ++ after
  written_ne : written ≠ []
  alike : List.Forall₂ (fun a c => Text.alike a c = true) phrase written
  apart : ∀ span ∈ excludedSpans body,
    span.stop ≤ before.length ∨ before.length + written.length ≤ span.start

theorem length_pos_of_recognisePhrase {phrase : Text} (hphrase : phrase ≠ []) (t : Text)
    (m : Match Unit) (h : recognisePhrase phrase t = some m) : 0 < m.length := by
  rw [recognisePhrase] at h
  split at h
  next =>
    obtain rfl := Option.some.inj h
    exact List.length_pos_iff.mpr hphrase
  next => cases h

theorem exists_mention_of_firstMention? {body phrase : Text} {span : Span} (hphrase : phrase ≠ [])
    (h : firstMention? body phrase = some span) :
    ∃ before written after, IsMention body phrase before written after ∧
      span = ⟨before.length, before.length + written.length⟩ := by
  rw [firstMention?] at h
  have hfree := List.find?_some h
  obtain ⟨before, y, m, rfl, hm, hstart, hstop⟩ :=
    Text.exists_match_of_mem_spansFrom (length_pos_of_recognisePhrase hphrase)
      (List.mem_of_find?_eq_some h)
  rw [recognisePhrase] at hm
  split at hm
  next hbegins =>
    obtain rfl := Option.some.inj hm
    obtain ⟨written, after, rfl, halike⟩ := exists_alike_of_beginsAlike hbegins
    have hspan : span = ⟨before.length, before.length + written.length⟩ := by
      cases span
      have := halike.length_eq
      simp only [List.length_append] at hstart hstop
      simp only [Span.mk.injEq]
      omega
    have hwritten : written ≠ [] := by
      rintro rfl
      exact hphrase (List.forall₂_nil_right_iff.mp halike)
    refine ⟨before, written, after, ⟨by simp, hwritten, halike, fun other hother => ?_⟩, hspan⟩
    rw [hspan] at hfree
    simp only [Span.overlaps, Bool.not_eq_true', List.any_eq_false, Bool.and_eq_true,
      decide_eq_true_eq] at hfree
    have := hfree other hother
    omega
  next => cases hm

/-! ## What a mention is written like -/

/-- A character that is like nothing but itself is written only where the phrase has it. -/
theorem mem_of_forall₂_alike {phrase written : Text} {c : Char}
    (h : List.Forall₂ (fun a c => Text.alike a c = true) phrase written)
    (hself : ∀ a, Text.alike a c = true → a = c) (hc : c ∈ written) : c ∈ phrase := by
  induction h with
  | nil => exact hc
  | cons had _ ih =>
      rcases List.mem_cons.mp hc with rfl | hc
      · exact List.mem_cons.mpr (.inl (hself _ had).symm)
      · exact List.mem_cons_of_mem _ (ih hc)

/-- A character in front of the letters is written only where the phrase has it. -/
theorem IsMention.not_mem_written {body phrase before written after : Text} {c : Char}
    (h : IsMention body phrase before written after) (hpos : 0 < c.toNat) (hc : c.toNat < 65)
    (hphrase : c ∉ phrase) : c ∉ written := fun hmem =>
  hphrase (mem_of_forall₂_alike h.alike (fun _ => (Text.alike_iff_eq hpos hc).mp) hmem)

/-- Where the phrase has another character than one in front of the letters, so has the
mention. -/
theorem IsMention.exists_ne_written {body phrase before written after : Text} {c : Char}
    (h : IsMention body phrase before written after) (hpos : 0 < c.toNat) (hc : c.toNat < 65)
    (hphrase : ∃ a ∈ phrase, a ≠ c) : ∃ d ∈ written, d ≠ c := by
  have halike := h.alike
  clear h
  induction halike with
  | nil => exact absurd hphrase (by simp)
  | @cons a d phrase written had _ ih =>
      obtain ⟨b, hb, hne⟩ := hphrase
      rcases List.mem_cons.mp hb with rfl | hb
      · refine ⟨d, List.mem_cons_self, ?_⟩
        rintro rfl
        exact hne ((Text.alike_iff_eq hpos hc).mp had)
      · obtain ⟨e, he, hne⟩ := ih ⟨b, hb, hne⟩
        exact ⟨e, List.mem_cons_of_mem d he, hne⟩

/-! ## The row of a mention -/

/-- The spans of heading lines are where the lines with a level stand. -/
theorem mem_headingSpans_iff {n : Nat} {lines : List Text} {span : Span} :
    span ∈ headingSpans n lines ↔
      ∃ above row below, lines = above ++ row :: below ∧ Heading.level? row ≠ none ∧
        span = ⟨n + (above.map fun row => row.length + 1).sum,
          n + (above.map fun row => row.length + 1).sum + row.length⟩ := by
  induction lines generalizing n with
  | nil => simp [headingSpans]
  | cons line lines ih =>
      have hstep : span ∈ headingSpans n (line :: lines) ↔
          (Heading.level? line ≠ none ∧ span = ⟨n, n + line.length⟩) ∨
            span ∈ headingSpans (n + line.length + 1) lines := by
        rw [headingSpans]
        cases Heading.level? line <;> simp
      have hsum (above : List Text) :
          n + ((line :: above).map fun row => row.length + 1).sum =
            n + line.length + 1 + (above.map fun row => row.length + 1).sum := by
        rw [List.map_cons, List.sum_cons]
        omega
      rw [hstep, ih]
      constructor
      · rintro (⟨hrow, rfl⟩ | ⟨above, row, below, rfl, hrow, rfl⟩)
        · exact ⟨[], line, lines, rfl, hrow, rfl⟩
        · exact ⟨line :: above, row, below, rfl, hrow, by rw [hsum]⟩
      · rintro ⟨_ | ⟨first, above⟩, row, below, heq, hrow, rfl⟩
        · obtain ⟨rfl, rfl⟩ := List.cons.inj heq
          exact .inl ⟨hrow, rfl⟩
        · obtain ⟨rfl, rfl⟩ := List.cons.inj heq
          exact .inr ⟨above, row, below, rfl, hrow, by rw [hsum]⟩

/-- The row on which a mention stands is no heading line. -/
theorem IsMention.level?_row {body phrase before written after start stop : Text}
    {above below : List Text} (h : IsMention body phrase before written after)
    (hline : '\n' ∉ written) (hbefore : Text.rows before = above ++ [start])
    (hafter : Text.rows after = stop :: below) :
    Heading.level? (start ++ (written ++ stop)) = none := by
  by_contra hrow
  have hrows : Text.rows body = above ++ (start ++ (written ++ stop)) :: below := by
    rw [h.body_eq, List.append_assoc, Text.rows_append_append hline hbefore hafter]
  have hspan : _ ∈ excludedSpans body := List.mem_append_right _
    (mem_headingSpans_iff.mpr ⟨above, _, below, hrows, hrow, rfl⟩)
  have hlen := Text.length_rows before
  rw [hbefore, List.map_append, List.sum_append, List.map_singleton, List.sum_singleton] at hlen
  have hwritten := List.length_pos_iff.mpr h.written_ne
  have hapart := h.apart _ hspan
  simp only [List.length_append] at hapart
  omega

/-! ## Positions -/

/-- Nothing blank stands at the end of a trimmed anchor, and so no space at the end
of a mention of it. -/
theorem IsMention.not_space {body anchor before written after : Text}
    (h : IsMention body (Text.trim anchor) before written after) :
    written.getLast? ≠ some ' ' := by
  intro hlast
  obtain ⟨written, rfl⟩ := List.getLast?_eq_some_iff.mp hlast
  have hend := List.forall₂_drop_append _ _ _ h.alike
  obtain ⟨c, rest, hc, hrest, hdrop⟩ := List.forall₂_cons_right_iff.mp hend
  obtain rfl := List.forall₂_nil_right_iff.mp hrest
  obtain rfl := (Text.alike_iff_eq (by decide) (by decide)).mp hc
  have hphrase : (Text.trim anchor).getLast? = some ' ' := by
    rw [← List.take_append_drop written.length (Text.trim anchor), hdrop]
    simp
  cases Text.not_isBlank_of_getLast?_trimEnd hphrase

theorem exists_mention_of_linkPosition? {content : Text} {anchors : List Text} {position : Nat}
    (h : linkPosition? content anchors = some position) :
    ∃ anchor ∈ anchors, ∃ before written after,
      IsMention (FrontMatter.body content) (Text.trim anchor) before written after ∧
      position = (FrontMatter.front content).length + before.length + written.length +
        (after.takeWhile fun c => !endsPhrase c).length := by
  rw [linkPosition?] at h
  obtain ⟨span, hspan, rfl⟩ := Option.map_eq_some_iff.mp h
  obtain ⟨phrase, hphrase, hmention⟩ := List.exists_of_findSome?_eq_some hspan
  rw [List.mem_filter] at hphrase
  obtain ⟨hmem, hne⟩ := hphrase
  obtain ⟨anchor, hanchor, rfl⟩ := List.mem_map.mp hmem
  obtain ⟨before, written, after, hm, rfl⟩ :=
    exists_mention_of_firstMention? (by simpa using hne) hmention
  refine ⟨anchor, hanchor, before, written, after, hm, ?_⟩
  have hdrop : content.drop (FrontMatter.bodyStart content + (before.length + written.length)) =
      after := by
    have hcontent : content = FrontMatter.front content ++ before ++ written ++ after := by
      rw [List.append_assoc, List.append_assoc, ← List.append_assoc before, ← hm.body_eq,
        FrontMatter.front_append_body]
    exact (congrArg (List.drop _) hcontent).trans (List.drop_left' (by simp))
  simp only [hdrop, FrontMatter.length_front]
  omega

/-- A position divides a note behind the phrase in which a mention ends. -/
theorem exists_phrase_of_linkPosition? {content : Text} {anchors : List Text} {position : Nat}
    (h : linkPosition? content anchors = some position) :
    ∃ anchor ∈ anchors, ∃ before written phrase rest,
      IsMention (FrontMatter.body content) (Text.trim anchor) before written (phrase ++ rest) ∧
      (∀ c ∈ phrase, endsPhrase c = false) ∧ (∀ c, rest.head? = some c → endsPhrase c = true) ∧
      content.take position = FrontMatter.front content ++ (before ++ (written ++ phrase)) ∧
      content.drop position = rest := by
  obtain ⟨anchor, hanchor, before, written, behind, hm, rfl⟩ := exists_mention_of_linkPosition? h
  generalize hphrase : behind.takeWhile (fun c => !endsPhrase c) = phrase
  generalize hrest : behind.dropWhile (fun c => !endsPhrase c) = rest
  have hbehind : behind = phrase ++ rest := by
    rw [← hphrase, ← hrest, List.takeWhile_append_dropWhile]
  have hcontent : content =
      FrontMatter.front content ++ (before ++ (written ++ phrase)) ++ rest := by
    conv_lhs => rw [← FrontMatter.front_append_body content, hm.body_eq, hbehind]
    simp
  have hlen : (FrontMatter.front content ++ (before ++ (written ++ phrase))).length =
      (FrontMatter.front content).length + before.length + written.length + phrase.length := by
    simp only [List.length_append]
    omega
  refine ⟨anchor, hanchor, before, written, phrase, rest, hbehind ▸ hm, ?_, ?_, ?_, ?_⟩
  · intro c hc
    rw [← hphrase] at hc
    simpa using List.mem_takeWhile_imp hc
  · intro c hc
    have hstop := List.head?_dropWhile_not (fun c => !endsPhrase c) behind
    rw [hrest, hc] at hstop
    simpa using hstop
  · exact (congrArg (List.take _) hcontent).trans (List.take_left' hlen)
  · exact (congrArg (List.drop _) hcontent).trans (List.drop_left' hlen)

theorem front_le_of_linkPosition? {content : Text} {anchors : List Text} {position : Nat}
    (h : linkPosition? content anchors = some position) :
    (FrontMatter.front content).length ≤ position := by
  obtain ⟨-, -, before, written, after, -, rfl⟩ := exists_mention_of_linkPosition? h
  omega

/-- Where a word lies within a link or a heading line, the position is behind it, or
else the mention is in front of it and the position is where the phrase ends. -/
theorem position_cases {content : Text} {anchors : List Text} {position : Nat}
    (h : linkPosition? content anchors = some position) {x w y : Text} {span : Span}
    (hbody : FrontMatter.body content = x ++ (w ++ y))
    (hspan : span ∈ excludedSpans (FrontMatter.body content))
    (hstart : span.start ≤ x.length) (hstop : x.length + w.length ≤ span.stop) :
    (FrontMatter.front content).length + x.length + w.length ≤ position ∨
      ∃ anchor ∈ anchors, ∃ before written between after,
        IsMention (FrontMatter.body content) (Text.trim anchor) before written after ∧
        x = before ++ written ++ between ∧ after = between ++ (w ++ y) ∧
        position = (FrontMatter.front content).length + before.length + written.length +
          (after.takeWhile fun c => !endsPhrase c).length := by
  obtain ⟨anchor, hanchor, before, written, after, hm, rfl⟩ := exists_mention_of_linkPosition? h
  rcases hm.apart span hspan with hbehind | hfront
  · exact .inl (by omega)
  · have heq : before ++ written ++ after = x ++ (w ++ y) := by rw [← hm.body_eq, hbody]
    have hshort : before ++ written <+: x := by
      apply List.prefix_of_prefix_length_le ⟨after, heq⟩ ⟨w ++ y, rfl⟩
      rw [List.length_append]
      omega
    obtain ⟨between, rfl⟩ := hshort
    rw [List.append_assoc _ between] at heq
    exact .inr ⟨anchor, hanchor, before, written, between, after, hm, rfl,
      List.append_cancel_left heq, rfl⟩

/-- Where a word with a space in front of it lies within a link or a heading line,
no position is inside the word or directly in front of it. -/
theorem position_outside {content : Text} {anchors : List Text} {position : Nat}
    (h : linkPosition? content anchors = some position) {x w y : Text} {span : Span}
    (hbody : FrontMatter.body content = x ++ [' '] ++ (w ++ y))
    (hspan : span ∈ excludedSpans (FrontMatter.body content))
    (hstart : span.start ≤ x.length + 1) (hstop : x.length + 1 + w.length ≤ span.stop) :
    position ≤ (FrontMatter.front content).length + x.length ∨
      (FrontMatter.front content).length + x.length + 1 + w.length ≤ position := by
  rcases position_cases h hbody hspan (by simpa using hstart) (by simpa using hstop) with
    hbehind | ⟨anchor, -, before, written, between, after, hm, hx, hafter, rfl⟩
  · rw [List.length_append, List.length_singleton] at hbehind
    exact .inr (by omega)
  · refine .inl ?_
    have hlen := congrArg List.length hx
    simp only [List.length_append, List.length_singleton] at hlen
    rcases List.eq_nil_or_concat' between with rfl | ⟨phrase, c, rfl⟩
    · -- No mention ends with a space.
      rw [List.append_nil] at hx
      have hlast : (before ++ written).getLast? = some ' ' := by simp [← hx]
      rw [List.getLast?_append_of_ne_nil _ hm.written_ne] at hlast
      exact absurd hlast hm.not_space
    · -- The space ends the phrase.
      have hends : endsPhrase c = true := by
        rw [← List.append_assoc] at hx
        have hspace := (List.append_inj' hx rfl).2
        obtain rfl : ' ' = c := (List.cons.inj hspace).1
        rfl
      have hrun : (after.takeWhile fun c => !endsPhrase c).length ≤ phrase.length := by
        rw [hafter, List.append_assoc, List.takeWhile_append]
        split
        next => simp [hends]
        next => exact (List.takeWhile_prefix _).length_le
      simp only [List.length_append, List.length_singleton] at hlen
      omega

end NoteLinks.Insertion
