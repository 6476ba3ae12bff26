/-
# The offset for a link

In bytes a scan finds the same spans, and they overlap as they do in characters. So the first
mention is the same, and every sum of offsets is the number of bytes in front of a position: that
of the body, that at which the mention stops, and that at which its phrase ends. No cut can fail,
and a link that is put in at the offset gets where one gets that is put in at the position.

What is known of the position therefore holds of the offset.
-/
import Mathlib.Data.List.Find
import NoteLinks.Insertion.Offset
import NoteLinks.Proofs.FrontMatter.Location
import NoteLinks.Proofs.Insertion.FirstMention

namespace NoteLinks.Insertion

variable {body phrase content : Text} {anchors : List Text} {span : Span}

/-! ## Where no mention counts -/

theorem headingByteSpans_eq (before : Text) (lines : List Text) :
    headingByteSpans (Text.byteLength before) lines =
      (headingSpans before.length lines).map
        (Span.inBytes (before ++ Text.join ['\n'] lines)) := by
  induction lines generalizing before with
  | nil => rfl
  | cons line lines ih =>
      -- What stands behind the line does not matter for its own span.
      obtain ⟨behind, hjoin, hrest⟩ : ∃ behind, Text.join ['\n'] (line :: lines) = line ++ behind ∧
          headingByteSpans (Text.byteLength before + Text.byteLength line + 1) lines =
            (headingSpans (before.length + line.length + 1) lines).map
              (Span.inBytes (before ++ (line ++ behind))) := by
        cases lines with
        | nil => exact ⟨[], (List.append_nil line).symm, rfl⟩
        | cons next lines =>
            refine ⟨_, Text.join_cons_cons line next lines, ?_⟩
            have hnext := ih (before ++ (line ++ ['\n']))
            simp only [Text.byteLength_append, List.length_append, List.append_assoc,
              ← Nat.add_assoc] at hnext
            exact hnext
      rw [headingByteSpans, headingSpans, hjoin, hrest]
      cases Heading.level? line with
      | none => rfl
      | some _ => exact congrArg₂ List.cons (Span.inBytes_append before line behind).symm rfl

theorem excludedByteSpans_eq (body : Text) :
    excludedByteSpans body = (excludedSpans body).map (Span.inBytes body) := by
  have hheadings := headingByteSpans_eq [] (Text.splitOn '\n' body)
  rw [List.nil_append, Text.join_splitOn] at hheadings
  rw [excludedByteSpans, excludedSpans, List.map_append,
    Text.byteSpans_eq length_pos_of_recogniseLink]
  exact congrArg _ hheadings

theorem stop_le_of_mem_excludedSpans (h : span ∈ excludedSpans body) :
    span.stop ≤ body.length := by
  rcases List.mem_append.mp h with hlink | hheading
  · exact Text.stop_le_of_mem_spans length_pos_of_recogniseLink hlink
  · exact (mem_headingSpans_rows_iff.mp hheading).stop_le

/-! ## The first mention -/

theorem firstByteMention?_eq (body : Text) (hphrase : phrase ≠ []) :
    firstByteMention? body phrase = (firstMention? body phrase).map (Span.inBytes body) := by
  have hpos := length_pos_of_recognisePhrase hphrase
  rw [firstByteMention?, firstMention?, Text.byteSpans_eq hpos, List.find?_map]
  congr 1
  apply List.find?_congr
  intro span hspan
  have hstop := Text.stop_le_of_mem_spans hpos hspan
  rw [Function.comp_apply, excludedByteSpans_eq, List.any_map, Bool.not_inj_iff, Bool.eq_iff_iff,
    List.any_eq_true, List.any_eq_true]
  refine exists_congr fun other => and_congr_right fun hother => ?_
  rw [Function.comp_apply, Span.overlaps_inBytes hstop (stop_le_of_mem_excludedSpans hother)]

theorem findSome?_firstByteMention?_eq (body : Text) {phrases : List Text}
    (h : ∀ phrase ∈ phrases, phrase ≠ []) :
    phrases.findSome? (firstByteMention? body) =
      (phrases.findSome? (firstMention? body)).map (Span.inBytes body) := by
  rw [List.map_findSome?, ← List.head?_filterMap, ← List.head?_filterMap]
  congr 1
  exact List.filterMap_congr fun phrase hmem => firstByteMention?_eq body (h phrase hmem)

/-! ## The end of the phrase -/

theorem phraseEnd_append (before rest : Text) :
    phraseEnd (before ++ rest) (Text.byteLength before) =
      .ok (Text.byteLength (before ++ rest.takeWhile fun c => !endsPhrase c)) := by
  have hend := Text.getD_offsetWhere? endsPhrase rest
  simp only [phraseEnd, Text.behind_append, Text.byteLength_append, ← hend, bind, Except.bind]
  cases Text.offsetWhere? endsPhrase rest <;> rfl

/-- The phrase ends at the offset of the position at which it ends. -/
theorem phraseEnd_take (content : Text) (stop : Nat) :
    phraseEnd content (Text.byteLength (content.take stop)) =
      .ok (Text.byteLength (content.take
        (stop + ((content.drop stop).takeWhile fun c => !endsPhrase c).length))) := by
  have hend := phraseEnd_append (content.take stop) (content.drop stop)
  have hprefix : (content.drop stop).takeWhile (fun c => !endsPhrase c) <+: content.drop stop :=
    List.takeWhile_prefix _
  rw [List.take_append_drop] at hend
  rw [hend, List.take_add, ← List.prefix_iff_eq_take.mp hprefix]

/-! ## The offset and the position -/

theorem take_bodyStart_add (content : Text) (k : Nat) :
    content.take (FrontMatter.bodyStart content + k) =
      FrontMatter.front content ++ (FrontMatter.body content).take k := by
  have h : (FrontMatter.front content ++ FrontMatter.body content).take
      ((FrontMatter.front content).length + k) =
        FrontMatter.front content ++ (FrontMatter.body content).take k :=
    List.take_length_add_append k
  rwa [FrontMatter.front_append_body, FrontMatter.length_front] at h

theorem byteLength_take_bodyStart_add (content : Text) (k : Nat) :
    Text.byteLength (content.take (FrontMatter.bodyStart content + k)) =
      Text.byteLength (FrontMatter.front content) +
        Text.byteLength ((FrontMatter.body content).take k) := by
  rw [take_bodyStart_add, Text.byteLength_append]

theorem behind_front (content : Text) :
    Text.behind (Text.byteLength (FrontMatter.front content)) content =
      .ok (FrontMatter.body content) := by
  have h := Text.behind_append (FrontMatter.front content) (FrontMatter.body content)
  rwa [FrontMatter.front_append_body] at h

/-- An offset is found for every text, and it is that of the position. -/
theorem linkOffset?_eq (content : Text) (anchors : List Text) :
    linkOffset? content anchors =
      .ok ((linkPosition? content anchors).map fun position =>
        Text.byteLength (content.take position)) := by
  have hphrases : ∀ phrase ∈ (anchors.map Text.trim).filter fun phrase => !phrase.isEmpty,
      phrase ≠ [] := by simp
  simp only [linkOffset?, linkPosition?, FrontMatter.bodyOffset_eq, behind_front, bind, Except.bind,
    findSome?_firstByteMention?_eq (FrontMatter.body content) hphrases]
  cases ((anchors.map Text.trim).filter fun phrase => !phrase.isEmpty).findSome?
      (firstMention? (FrontMatter.body content)) with
  | none => rfl
  | some span =>
      simp only [Option.map_some, Span.inBytes, ← byteLength_take_bodyStart_add, phraseEnd_take]
      rfl

theorem linkOffset?_eq_some_iff {offset : Nat} :
    linkOffset? content anchors = .ok (some offset) ↔
      ∃ position, linkPosition? content anchors = some position ∧
        Text.byteLength (content.take position) = offset := by
  rw [linkOffset?_eq, Except.ok.injEq, Option.map_eq_some_iff]

/-- No search starts where the text cannot be cut. -/
theorem linkOffset?_ne_error (content : Text) (anchors : List Text) (e : BadOffset) :
    linkOffset? content anchors ≠ .error e := by
  rw [linkOffset?_eq]
  exact fun h => nomatch h

/-- The text can be cut at the offset for a link. -/
theorem isBoundary_of_linkOffset? {offset : Nat}
    (h : linkOffset? content anchors = .ok (some offset)) : Text.IsBoundary offset content := by
  obtain ⟨position, -, rfl⟩ := linkOffset?_eq_some_iff.mp h
  exact Text.isBoundary_take content position

/-! ## Inserting links -/

/-- A link gets to the same place by the offset. -/
theorem insertAtOffset_eq (content : Text) (position : Nat) (link : Text) :
    insertAtOffset content (Text.byteLength (content.take position)) link =
      .ok (insertAt content position link) := by
  have hbefore := Text.upTo_append (content.take position) (content.drop position)
  have hbehind := Text.behind_append (content.take position) (content.drop position)
  rw [List.take_append_drop] at hbefore hbehind
  simp only [insertAtOffset, hbefore, hbehind, bind, Except.bind]
  rfl

/-- What is inserted by offsets is what is inserted, and no cut fails. -/
theorem insertByOffset?_eq (style : Style) (content : Text) (s : Suggestion) :
    insertByOffset? style content s = .ok (insert? style content s) := by
  rw [insertByOffset?, insert?]
  split
  next => rfl
  next =>
    simp only [linkOffset?_eq, bind, Except.bind]
    cases linkPosition? content s.anchors with
    | none => rfl
    | some position =>
        simp only [Option.map_some, insertAtOffset_eq]
        rfl

/-! ## The first mention that counts -/

/-- A position behind the start of the body and on no heading line has such an offset. -/
theorem offset_of_position {position : Nat} (hlength : position ≤ content.length)
    (hstart : FrontMatter.bodyStart content < position)
    (hheading : ∀ span, IsHeadingLine (FrontMatter.body content) span →
      position < FrontMatter.bodyStart content + span.start ∨
        FrontMatter.bodyStart content + span.stop < position) :
    ∃ start, FrontMatter.bodyOffset content = .ok start ∧
      start < Text.byteLength (content.take position) ∧
      ∀ span, IsHeadingLine (FrontMatter.body content) span →
        Text.byteLength (content.take position) <
            start + (span.inBytes (FrontMatter.body content)).start ∨
          start + (span.inBytes (FrontMatter.body content)).stop <
            Text.byteLength (content.take position) := by
  refine ⟨_, FrontMatter.bodyOffset_eq content, ?_, fun span hline => ?_⟩
  · exact (Text.byteLength_take_lt_iff hlength).mpr hstart
  · have hline_le := hline.start_le
    have hcontent := length_eq_bodyStart_add content
    rw [Span.inBytes, ← byteLength_take_bodyStart_add, ← byteLength_take_bodyStart_add]
    exact (hheading span hline).imp (Text.byteLength_take_lt_iff (by omega)).mpr
      (Text.byteLength_take_lt_iff hlength).mpr

/-- An offset is found exactly if some anchor that is not blank has an occurrence that counts. It
is that of the position at which the phrase ends in which the earliest such occurrence of the
first such anchor ends. No cut fails on the way. The note can be cut at the offset, which lies
behind the start of its body and on no heading line. -/
theorem linkOffset?_behind_first_mention (content : Text) {anchors : List Text}
    (hanchors : ∀ anchor ∈ anchors, EndsNothing (Text.trim anchor)) :
    (linkOffset? content anchors = .ok none ↔
      ∀ anchor ∈ anchors, Text.trim anchor ≠ [] →
        ∀ i, ¬ IsAdmissible (FrontMatter.body content) (Text.trim anchor) i) ∧
    (∀ offset, linkOffset? content anchors = .ok (some offset) ↔
      ∃ phrase i position, IsFirstAdmissible (FrontMatter.body content) anchors phrase i ∧
        IsPhraseEnd content (FrontMatter.bodyStart content + (i + phrase.length)) position ∧
        offset = Text.byteLength (content.take position)) ∧
    (∀ e, linkOffset? content anchors ≠ .error e) ∧
    ∀ offset, linkOffset? content anchors = .ok (some offset) →
      Text.IsBoundary offset content ∧ offset ≤ (Text.encode content).size ∧
        ∃ start, FrontMatter.bodyOffset content = .ok start ∧ start < offset ∧
          ∀ span, IsHeadingLine (FrontMatter.body content) span →
            offset < start + (span.inBytes (FrontMatter.body content)).start ∨
              start + (span.inBytes (FrontMatter.body content)).stop < offset := by
  obtain ⟨hnone, hsome⟩ := linkPosition?_spec content hanchors
  refine ⟨?_, ?_, linkOffset?_ne_error content anchors, ?_⟩
  · rw [linkOffset?_eq, Except.ok.injEq, Option.map_eq_none_iff, hnone]
  · intro offset
    rw [linkOffset?_eq_some_iff]
    constructor
    · rintro ⟨position, hposition, rfl⟩
      obtain ⟨phrase, i, hfirst, hend⟩ := (hsome position).1.mp hposition
      exact ⟨phrase, i, position, hfirst, hend, rfl⟩
    · rintro ⟨phrase, i, position, hfirst, hend, rfl⟩
      exact ⟨position, (hsome position).1.mpr ⟨phrase, i, hfirst, hend⟩, rfl⟩
  · intro offset h
    have hboundary := isBoundary_of_linkOffset? h
    refine ⟨hboundary, ?_, ?_⟩
    · rw [Text.size_encode]
      exact hboundary.le_byteLength
    · obtain ⟨position, hposition, rfl⟩ := linkOffset?_eq_some_iff.mp h
      obtain ⟨hstart, hlength, hheading⟩ := (hsome position).2 hposition
      exact offset_of_position hlength hstart hheading

/-- A note on kelvins. The word has more bytes where its sign stands for the letter, and there
are wide characters in front of it and behind it. -/
def kelvinNote : Text :=
  "---\ntitle: ä\n---\n# Kelvin\n[Kelvin](k.md) über 3 \u212aelvin-Grad, ß".toList

/-- The heading and the link mention the anchor, but the offset is behind the word in the text,
and more than the number of characters in front. -/
theorem linkOffset?_behind_wide_word :
    let anchors := [" ".toList, "kelvin".toList]
    (∀ anchor ∈ anchors, EndsNothing (Text.trim anchor)) ∧
      linkOffset? kelvinNote anchors = .ok (some 63) ∧ linkPosition? kelvinNote anchors = some 59 ∧
      (∃ phrase i position, IsFirstAdmissible (FrontMatter.body kelvinNote) anchors phrase i ∧
        IsPhraseEnd kelvinNote (FrontMatter.bodyStart kelvinNote + (i + phrase.length)) position ∧
        63 = Text.byteLength (kelvinNote.take position)) ∧
      Text.IsBoundary 63 kelvinNote := by
  intro anchors
  have hanchors : ∀ anchor ∈ [" ".toList, "kelvin".toList], EndsNothing (Text.trim anchor) := by
    decide
  have hposition : linkPosition? kelvinNote [" ".toList, "kelvin".toList] = some 59 := by
    decide +kernel
  have hbytes : Text.byteLength (kelvinNote.take 59) = 63 := by decide +kernel
  have hoffset : linkOffset? kelvinNote anchors = .ok (some 63) := by
    rw [linkOffset?_eq, hposition, Option.map_some, hbytes]
  obtain ⟨-, hsome, -, hplace⟩ := linkOffset?_behind_first_mention kelvinNote hanchors
  exact ⟨hanchors, hoffset, hposition, (hsome 63).mp hoffset, (hplace 63 hoffset).1⟩

end NoteLinks.Insertion
