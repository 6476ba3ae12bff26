/-
# The first mention that counts

A phrase is looked for by a scan that goes on behind what it has found, so an occurrence that
overlaps one which does not count is never looked at. Nothing is lost by that if the phrase has
no line feed and nothing in it that ends a link: an occurrence that overlaps a link or a heading
line does not go on behind it, so another one that starts within the first still overlaps the
link or the heading line.

So the position for a link comes from the first anchor with an occurrence that counts and from
the earliest such occurrence of it, and there is a position if there is any such occurrence.
-/
import NoteLinks.Proofs.Insertion.Covering
import NoteLinks.Proofs.Note.Heading

namespace NoteLinks.Insertion

variable {body phrase content : Text} {anchors : List Text} {i j : Nat} {span : Span}

/-! ## Occurrences -/

/-- A phrase is written at a position of a body, in any letter case. -/
def OccursAt (body phrase : Text) (i : Nat) : Prop :=
  List.Forall₂ (fun a c => Text.alike a c = true) phrase ((body.drop i).take phrase.length)

theorem beginsAlike_iff {phrase t : Text} :
    beginsAlike phrase t = true ↔
      List.Forall₂ (fun a c => Text.alike a c = true) phrase (t.take phrase.length) := by
  induction phrase generalizing t with
  | nil => simp [beginsAlike]
  | cons a phrase ih =>
      cases t with
      | nil => simp [beginsAlike]
      | cons c t => simp [beginsAlike, ih]

theorem recognisePhrase_drop_iff :
    (recognisePhrase phrase (body.drop i)).isSome ↔ OccursAt body phrase i := by
  rw [OccursAt, ← beginsAlike_iff, recognisePhrase]
  split <;> simp_all

instance : Decidable (OccursAt body phrase i) := decidable_of_iff _ recognisePhrase_drop_iff

theorem OccursAt.le_length (h : OccursAt body phrase i) (hphrase : phrase ≠ []) :
    i + phrase.length ≤ body.length := by
  have hlen := h.length_eq
  have hpos := List.length_pos_iff.mpr hphrase
  rw [List.length_take, List.length_drop] at hlen
  omega

/-- A character that is like nothing but itself stands in an occurrence only if the phrase has
it. -/
theorem OccursAt.mem (h : OccursAt body phrase i) {p : Nat} {c : Char} (hi : i ≤ p)
    (hp : p < i + phrase.length) (hc : body[p]? = some c)
    (hself : ∀ a, Text.alike a c = true → a = c) : c ∈ phrase := by
  refine mem_of_forall₂_alike h hself (List.mem_of_getElem? (i := p - i) ?_)
  rw [List.getElem?_take_of_lt (by omega), List.getElem?_drop, Nat.add_sub_cancel' hi, hc]

/-! ## Heading lines -/

/-- A span of a body is a heading line: one to six hashes with a space or a tab behind them and
whatever follows, with a line feed or nothing on either side. -/
def IsHeadingLine (body : Text) (span : Span) : Prop :=
  ∃ above row below, body = above ++ (row ++ below) ∧
    span = ⟨above.length, above.length + row.length⟩ ∧
    (∃ n c rest, 1 ≤ n ∧ n ≤ 6 ∧ (c = ' ' ∨ c = '\t') ∧
      row = List.replicate n '#' ++ c :: rest) ∧
    '\n' ∉ row ∧ (above = [] ∨ above.getLast? = some '\n') ∧
    (below = [] ∨ below.head? = some '\n')

theorem mem_headingSpans_rows_iff :
    span ∈ headingSpans 0 (Text.splitOn '\n' body) ↔ IsHeadingLine body span := by
  rw [mem_headingSpans_iff]
  constructor
  · rintro ⟨before, row, behind, hrows, hlevel, rfl⟩
    obtain ⟨above, below, hbody, hrow, habove, hbelow, hlen⟩ := Text.exists_of_rows_eq hrows
    exact ⟨above, row, below, hbody, by rw [Nat.zero_add, hlen],
      Heading.level?_ne_none_iff.mp hlevel, hrow, habove, hbelow⟩
  · rintro ⟨above, row, below, rfl, rfl, hhashes, hrow, habove, hbelow⟩
    obtain ⟨before, behind, hrows, hlen⟩ := Text.exists_rows_eq hrow habove hbelow
    exact ⟨before, row, behind, hrows, Heading.level?_ne_none_iff.mpr hhashes,
      by rw [Nat.zero_add, hlen]⟩

theorem IsHeadingLine.start_le (h : IsHeadingLine body span) : span.start ≤ body.length := by
  obtain ⟨above, row, below, rfl, rfl, -⟩ := h
  simp

theorem IsHeadingLine.stop_le (h : IsHeadingLine body span) : span.stop ≤ body.length := by
  obtain ⟨above, row, below, rfl, rfl, -⟩ := h
  simp

/-- Where the body goes on behind a heading line there is a line feed. -/
theorem IsHeadingLine.getElem?_stop (h : IsHeadingLine body span)
    (hstop : span.stop < body.length) : body[span.stop]? = some '\n' := by
  obtain ⟨above, row, below, rfl, rfl, -, -, -, hbelow⟩ := h
  rw [← List.append_assoc, List.getElem?_append_right (by simp)]
  rcases hbelow with rfl | hbelow
  · simp at hstop
  · rw [← hbelow, List.head?_eq_getElem?]
    simp

/-- Where there is something in front of a heading line it is a line feed. -/
theorem IsHeadingLine.getElem?_start (h : IsHeadingLine body span) {p : Nat}
    (hstart : p + 1 = span.start) : body[p]? = some '\n' := by
  obtain ⟨above, row, below, rfl, rfl, -, -, habove, -⟩ := h
  rcases habove with rfl | habove
  · simp at hstart
  · rw [List.getElem?_append_left (by simp at hstart; omega), ← habove,
      List.getLast?_eq_getElem?]
    congr 1
    simp at hstart
    omega

/-! ## Occurrences that reach into what is excluded -/

/-- The last character of a link is a closing bracket or a closing parenthesis. -/
theorem exists_getElem?_of_mem_spans (h : span ∈ Text.spans recogniseLink body) :
    ∃ p c, span.start ≤ p ∧ span.stop = p + 1 ∧ body[p]? = some c ∧ (c = ']' ∨ c = ')') := by
  obtain ⟨x, y, m, rfl, hm, hstart, hstop⟩ :=
    Text.exists_match_of_mem_spansFrom length_pos_of_recogniseLink h
  obtain ⟨w, z, rfl, hlen, -, hclosed⟩ := exists_closed_of_recogniseLink hm
  obtain ⟨stem, c, rfl, hc⟩ : ∃ stem c, w = stem ++ [c] ∧ (c = ']' ∨ c = ')') := by
    rcases hclosed with ⟨stem, rfl⟩ | ⟨stem, rfl⟩
    · exact ⟨stem, ')', rfl, .inr rfl⟩
    · exact ⟨stem ++ [']'], ']', by simp, .inl rfl⟩
  rw [Nat.zero_add] at hstart
  rw [hlen] at hstop
  refine ⟨span.start + stem.length, c, Nat.le_add_right _ _, ?_, ?_, hc⟩
  · rw [hstop]
    simp only [List.length_append, List.length_singleton]
    omega
  · rw [hstart]
    simp

/-- No character of a phrase ends a line or a link. -/
def EndsNothing (phrase : Text) : Prop := ∀ c ∈ phrase, c ∉ ['\n', ']', ')']

instance (phrase : Text) : Decidable (EndsNothing phrase) :=
  List.decidableBAll (· ∉ ['\n', ']', ')']) phrase

/-- An occurrence has no character that ends a line or a link. -/
theorem OccursAt.getElem?_ne (h : OccursAt body phrase i) (hphrase : EndsNothing phrase) {p : Nat}
    {c : Char} (hi : i ≤ p) (hp : p < i + phrase.length) (hc : c ∈ ['\n', ']', ')']) :
    body[p]? ≠ some c := fun hget => by
  have hself (a : Char) (halike : Text.alike a c = true) : a = c := by
    simp only [List.mem_cons, List.not_mem_nil, or_false] at hc
    rcases hc with rfl | rfl | rfl
    all_goals exact (Text.alike_iff_eq_of_lt (by decide) (by decide) (by decide)).mp halike
  exact hphrase c (h.mem hi hp hget hself) hc

/-- An occurrence that starts in front of the end of a link or of a heading line does not go on
behind it. -/
theorem OccursAt.le_stop (h : OccursAt body phrase i) (hphrase : EndsNothing phrase)
    (hspan : span ∈ excludedSpans body) (hi : i < span.stop) : i + phrase.length ≤ span.stop := by
  by_contra hbehind
  rcases List.mem_append.mp hspan with hlink | hheading
  · obtain ⟨p, c, -, hp, hget, hc⟩ := exists_getElem?_of_mem_spans hlink
    exact h.getElem?_ne hphrase (by omega) (by omega) (by rcases hc with rfl | rfl <;> decide) hget
  · have hstop : span.stop < body.length := by
      have hne : phrase ≠ [] := by
        rintro rfl
        simp at hbehind
        omega
      have := h.le_length hne
      omega
    exact h.getElem?_ne hphrase (by omega) (by omega) (by decide)
      ((mem_headingSpans_rows_iff.mp hheading).getElem?_stop hstop)

/-! ## Occurrences that count -/

/-- An occurrence of a phrase counts if it overlaps no link of the scan and no heading line. -/
structure IsAdmissible (body phrase : Text) (i : Nat) : Prop where
  occurs : OccursAt body phrase i
  links : ∀ span ∈ Text.spans recogniseLink body,
    span.stop ≤ i ∨ i + phrase.length ≤ span.start
  headings : ∀ span, IsHeadingLine body span → span.stop ≤ i ∨ i + phrase.length ≤ span.start

theorem any_overlaps_eq_false_iff {spans : List Span} {n : Nat} :
    spans.any (Span.overlaps ⟨i, i + n⟩) = false ↔
      ∀ span ∈ spans, span.stop ≤ i ∨ i + n ≤ span.start := by
  simp only [List.any_eq_false, Span.overlaps, Bool.and_eq_true, decide_eq_true_eq, not_and_or,
    Nat.not_lt]

theorem isAdmissible_iff :
    IsAdmissible body phrase i ↔ OccursAt body phrase i ∧
      ∀ span ∈ excludedSpans body, span.stop ≤ i ∨ i + phrase.length ≤ span.start := by
  constructor
  · rintro ⟨hoccurs, hlinks, hheadings⟩
    refine ⟨hoccurs, fun span hspan => ?_⟩
    rcases List.mem_append.mp hspan with hlink | hheading
    · exact hlinks span hlink
    · exact hheadings span (mem_headingSpans_rows_iff.mp hheading)
  · rintro ⟨hoccurs, hapart⟩
    exact ⟨hoccurs, fun span hlink => hapart span (List.mem_append_left _ hlink),
      fun span hheading =>
        hapart span (List.mem_append_right _ (mem_headingSpans_rows_iff.mpr hheading))⟩

instance : Decidable (IsAdmissible body phrase i) := decidable_of_iff _ isAdmissible_iff.symm

/-- The first mention is found by trying all positions, though the scan skips some of them. -/
theorem firstMention?_eq (body : Text) (hne : phrase ≠ []) (hphrase : EndsNothing phrase) :
    firstMention? body phrase =
      ((List.range body.length).find? fun i => IsAdmissible body phrase i).map fun i =>
        ⟨i, i + phrase.length⟩ := by
  have hfind := Text.find?_spansFrom (length_pos_of_recognisePhrase hne) (n := phrase.length)
    (fun t m hm => ?_) (fun span => !(excludedSpans body).any span.overlaps) 0 body
    (fun i j hij hj hhit hfree => ?_)
  · have htest (i : Nat) : ((recognisePhrase phrase (body.drop i)).isSome &&
        !(excludedSpans body).any (Span.overlaps ⟨i, i + phrase.length⟩)) =
          decide (IsAdmissible body phrase i) := by
      rw [Bool.eq_iff_iff, decide_eq_true_iff, isAdmissible_iff, Bool.and_eq_true,
        recognisePhrase_drop_iff, Bool.not_eq_true', any_overlaps_eq_false_iff]
    simpa only [Nat.zero_add, firstMention?, Text.spans, htest] using hfind
  · have hoccurs : OccursAt t phrase 0 := by
      rw [← recognisePhrase_drop_iff, List.drop_zero, hm]
      rfl
    rw [recognisePhrase] at hm
    split at hm
    next =>
      obtain rfl := Option.some.inj hm
      exact ⟨rfl, by simpa using hoccurs.le_length hne⟩
    next => cases hm
  · -- Both occurrences overlap the same link or heading line.
    simp only [Nat.zero_add, Bool.not_eq_false', List.any_eq_true] at hfree ⊢
    obtain ⟨span, hspan, hover⟩ := hfree
    simp only [Span.overlaps, Bool.and_eq_true, decide_eq_true_eq] at hover
    have hstop := (recognisePhrase_drop_iff.mp hhit).le_stop hphrase hspan hover.1
    refine ⟨span, hspan, ?_⟩
    simp only [Span.overlaps, Bool.and_eq_true, decide_eq_true_eq]
    omega

theorem IsAdmissible.lt_length (h : IsAdmissible body phrase i) (hne : phrase ≠ []) :
    i < body.length := by
  have := h.occurs.le_length hne
  have := List.length_pos_iff.mpr hne
  omega

theorem firstMention?_eq_none_iff (hne : phrase ≠ []) (hphrase : EndsNothing phrase) :
    firstMention? body phrase = none ↔ ∀ i, ¬ IsAdmissible body phrase i := by
  rw [firstMention?_eq body hne hphrase, Option.map_eq_none_iff, List.find?_range_eq_none]
  simp only [Bool.not_eq_true', decide_eq_false_iff_not]
  exact ⟨fun hnone i hi => hnone i (hi.lt_length hne) hi, fun hnone i _ => hnone i⟩

theorem firstMention?_eq_some_iff (hne : phrase ≠ []) (hphrase : EndsNothing phrase) :
    firstMention? body phrase = some span ↔
      ∃ i, IsAdmissible body phrase i ∧ (∀ j < i, ¬ IsAdmissible body phrase j) ∧
        span = ⟨i, i + phrase.length⟩ := by
  rw [firstMention?_eq body hne hphrase, Option.map_eq_some_iff]
  refine exists_congr fun i => ?_
  simp only [List.find?_range_eq_some, decide_eq_true_eq, Bool.not_eq_true',
    decide_eq_false_iff_not, List.mem_range]
  constructor
  · rintro ⟨⟨hi, -, hearlier⟩, rfl⟩
    exact ⟨hi, hearlier, rfl⟩
  · rintro ⟨hi, hearlier, rfl⟩
    exact ⟨⟨hi, hi.lt_length hne, hearlier⟩, rfl⟩

/-- The first anchor with an occurrence that counts, trimmed, and where its earliest one is. -/
structure IsFirstAdmissible (body : Text) (anchors : List Text) (phrase : Text) (i : Nat) :
    Prop where
  anchor : ∃ earlier anchor later, anchors = earlier ++ anchor :: later ∧
    Text.trim anchor = phrase ∧
    ∀ other ∈ earlier, Text.trim other ≠ [] → ∀ j, ¬ IsAdmissible body (Text.trim other) j
  ne : phrase ≠ []
  admissible : IsAdmissible body phrase i
  earliest : ∀ j < i, ¬ IsAdmissible body phrase j

theorem findSome?_phrases {α : Type} (f : Text → Option α) (anchors : List Text) :
    ((anchors.map Text.trim).filter fun phrase => !phrase.isEmpty).findSome? f =
      anchors.findSome? fun anchor =>
        if Text.trim anchor = [] then none else f (Text.trim anchor) := by
  induction anchors with
  | nil => rfl
  | cons anchor anchors ih =>
      rw [List.map_cons, List.findSome?_cons, ← ih]
      by_cases hblank : Text.trim anchor = []
      · rw [List.filter_cons_of_neg (by simp [hblank]), if_pos hblank]
      · rw [List.filter_cons_of_pos (by simpa using hblank), if_neg hblank, List.findSome?_cons]

theorem mention_eq_none_iff (hanchors : ∀ anchor ∈ anchors, EndsNothing (Text.trim anchor))
    {anchor : Text} (hanchor : anchor ∈ anchors) :
    (if Text.trim anchor = [] then none else firstMention? body (Text.trim anchor)) = none ↔
      (Text.trim anchor ≠ [] → ∀ i, ¬ IsAdmissible body (Text.trim anchor) i) := by
  split
  next hblank => simp [hblank]
  next hblank =>
    rw [firstMention?_eq_none_iff hblank (hanchors anchor hanchor)]
    exact ⟨fun h _ => h, fun h => h hblank⟩

theorem findSome?_firstMention?_eq_some_iff
    (hanchors : ∀ anchor ∈ anchors, EndsNothing (Text.trim anchor)) :
    (((anchors.map Text.trim).filter fun phrase => !phrase.isEmpty).findSome?
        (firstMention? body) = some span) ↔
      ∃ phrase i, IsFirstAdmissible body anchors phrase i ∧ span = ⟨i, i + phrase.length⟩ := by
  rw [findSome?_phrases, List.findSome?_eq_some_iff]
  constructor
  · rintro ⟨earlier, anchor, later, rfl, hmention, hearlier⟩
    split at hmention
    next => cases hmention
    next hne =>
      obtain ⟨i, hi, hfirst, hspan⟩ := (firstMention?_eq_some_iff hne
        (hanchors anchor (List.mem_append_right _ List.mem_cons_self))).mp hmention
      refine ⟨Text.trim anchor, i, ⟨⟨earlier, anchor, later, rfl, rfl, ?_⟩, hne, hi, hfirst⟩, hspan⟩
      intro other hother
      exact (mention_eq_none_iff hanchors (List.mem_append_left _ hother)).mp
        (hearlier other hother)
  · rintro ⟨phrase, i, ⟨⟨earlier, anchor, later, rfl, rfl, hearlier⟩, hne, hi, hfirst⟩, hspan⟩
    refine ⟨earlier, anchor, later, rfl, ?_, fun other hother => ?_⟩
    · rw [if_neg hne]
      exact (firstMention?_eq_some_iff hne
        (hanchors anchor (List.mem_append_right _ List.mem_cons_self))).mpr ⟨i, hi, hfirst, hspan⟩
    · exact (mention_eq_none_iff hanchors (List.mem_append_left _ hother)).mpr
        (hearlier other hother)

/-! ## Where the phrase ends -/

/-- The first position from another one on at which a phrase ends, or the end of the text. -/
structure IsPhraseEnd (content : Text) (stop position : Nat) : Prop where
  stop_le : stop ≤ position
  le_length : position ≤ content.length
  inside : ∀ q c, stop ≤ q → q < position → content[q]? = some c → endsPhrase c = false
  ends : ∀ c, content[position]? = some c → endsPhrase c = true

theorem IsPhraseEnd.le {stop p q : Nat} (hp : IsPhraseEnd content stop p)
    (hq : IsPhraseEnd content stop q) : p ≤ q := by
  by_contra hlt
  rw [Nat.not_le] at hlt
  have hle := hp.le_length
  have hget : content[q]? = some content[q] := List.getElem?_eq_getElem (by omega)
  have hinside := hp.inside q _ hq.stop_le hlt hget
  rw [hq.ends _ hget] at hinside
  cases hinside

theorem isPhraseEnd_takeWhile {stop : Nat} (h : stop ≤ content.length) :
    IsPhraseEnd content stop
      (stop + ((content.drop stop).takeWhile fun c => !endsPhrase c).length) := by
  have hinside (c : Char) (hc : c ∈ (content.drop stop).takeWhile fun c => !endsPhrase c) :
      endsPhrase c = false := by simpa using List.mem_takeWhile_imp hc
  have hends := List.head?_dropWhile_not (fun c => !endsPhrase c) (content.drop stop)
  have hparts := List.takeWhile_append_dropWhile (p := fun c => !endsPhrase c)
    (l := content.drop stop)
  generalize (content.drop stop).takeWhile (fun c => !endsPhrase c) = within at *
  generalize (content.drop stop).dropWhile (fun c => !endsPhrase c) = behind at *
  have hget (k : Nat) : content[stop + k]? = (within ++ behind)[k]? := by
    rw [hparts, List.getElem?_drop]
  have hlen := congrArg List.length hparts
  rw [List.length_append, List.length_drop] at hlen
  refine ⟨Nat.le_add_right _ _, by omega, fun q c hstop hq hc => ?_, fun c hc => ?_⟩
  · obtain ⟨k, rfl⟩ := Nat.exists_eq_add_of_le hstop
    rw [hget, List.getElem?_append_left (by omega)] at hc
    exact hinside c (List.mem_of_getElem? hc)
  · rw [hget, List.getElem?_append_right (Nat.le_refl _), Nat.sub_self,
      ← List.head?_eq_getElem?] at hc
    rw [hc] at hends
    simpa using hends

theorem isPhraseEnd_iff {stop position : Nat} (h : stop ≤ content.length) :
    IsPhraseEnd content stop position ↔
      stop + ((content.drop stop).takeWhile fun c => !endsPhrase c).length = position := by
  constructor
  · intro hend
    exact Nat.le_antisymm ((isPhraseEnd_takeWhile h).le hend) (hend.le (isPhraseEnd_takeWhile h))
  · rintro rfl
    exact isPhraseEnd_takeWhile h

/-! ## The position for a link -/

theorem getElem?_bodyStart_add (content : Text) (k : Nat) :
    content[FrontMatter.bodyStart content + k]? = (FrontMatter.body content)[k]? := by
  have hbehind (front body : Text) : (front ++ body)[front.length + k]? = body[k]? := by
    rw [List.getElem?_append_right (Nat.le_add_right _ _), Nat.add_sub_cancel_left]
  have h := hbehind (FrontMatter.front content) (FrontMatter.body content)
  rwa [FrontMatter.front_append_body, FrontMatter.length_front] at h

theorem length_eq_bodyStart_add (content : Text) :
    content.length = FrontMatter.bodyStart content + (FrontMatter.body content).length := by
  rw [← FrontMatter.length_front, ← List.length_append, FrontMatter.front_append_body]

/-- Behind an occurrence that counts no phrase ends on a heading line. -/
theorem IsPhraseEnd.not_on_heading {position : Nat}
    (hend : IsPhraseEnd content (FrontMatter.bodyStart content + (i + phrase.length)) position)
    (hadm : IsAdmissible (FrontMatter.body content) phrase i) (hne : phrase ≠ [])
    (hphrase : EndsNothing phrase) (hline : IsHeadingLine (FrontMatter.body content) span) :
    position < FrontMatter.bodyStart content + span.start ∨
      FrontMatter.bodyStart content + span.stop < position := by
  have hpos := List.length_pos_iff.mpr hne
  have hstop := hend.stop_le
  rcases hadm.headings span hline with hbehind | hfront
  · exact .inr (by omega)
  · -- The line feed in front of the heading line ends the phrase.
    refine .inl ?_
    by_contra hreach
    have hfeed : (FrontMatter.body content)[span.start - 1]? = some '\n' :=
      hline.getElem?_start (by omega)
    rcases Nat.lt_or_ge (span.start - 1) (i + phrase.length) with hwithin | hbetween
    · exact hadm.occurs.getElem?_ne hphrase (by omega) hwithin (by decide) hfeed
    · rw [← getElem?_bodyStart_add] at hfeed
      cases hend.inside _ _ (by omega) (by omega) hfeed

/-- There is a position exactly if some anchor that is not blank has an occurrence that counts.
It is where the phrase ends in which the earliest such occurrence of the first such anchor ends.
It lies in the text, behind the start of the body, and on no heading line. -/
theorem linkPosition?_spec (content : Text) {anchors : List Text}
    (hanchors : ∀ anchor ∈ anchors, EndsNothing (Text.trim anchor)) :
    (linkPosition? content anchors = none ↔
      ∀ anchor ∈ anchors, Text.trim anchor ≠ [] →
        ∀ i, ¬ IsAdmissible (FrontMatter.body content) (Text.trim anchor) i) ∧
    ∀ position,
      (linkPosition? content anchors = some position ↔
        ∃ phrase i, IsFirstAdmissible (FrontMatter.body content) anchors phrase i ∧
          IsPhraseEnd content (FrontMatter.bodyStart content + (i + phrase.length)) position) ∧
      (linkPosition? content anchors = some position →
        FrontMatter.bodyStart content < position ∧ position ≤ content.length ∧
          ∀ span, IsHeadingLine (FrontMatter.body content) span →
            position < FrontMatter.bodyStart content + span.start ∨
              FrontMatter.bodyStart content + span.stop < position) := by
  have hsome (position : Nat) : linkPosition? content anchors = some position ↔
      ∃ phrase i, IsFirstAdmissible (FrontMatter.body content) anchors phrase i ∧
        IsPhraseEnd content (FrontMatter.bodyStart content + (i + phrase.length)) position := by
    have hmention (phrase : Text) (i : Nat)
        (h : IsFirstAdmissible (FrontMatter.body content) anchors phrase i) :
        FrontMatter.bodyStart content + (i + phrase.length) ≤ content.length := by
      have := h.admissible.occurs.le_length h.ne
      have := length_eq_bodyStart_add content
      omega
    simp only [linkPosition?, Option.map_eq_some_iff,
      findSome?_firstMention?_eq_some_iff hanchors]
    constructor
    · rintro ⟨span, ⟨phrase, i, hfirst, rfl⟩, hposition⟩
      exact ⟨phrase, i, hfirst, (isPhraseEnd_iff (hmention phrase i hfirst)).mpr hposition⟩
    · rintro ⟨phrase, i, hfirst, hend⟩
      exact ⟨⟨i, i + phrase.length⟩, ⟨phrase, i, hfirst, rfl⟩,
        (isPhraseEnd_iff (hmention phrase i hfirst)).mp hend⟩
  refine ⟨?_, fun position => ⟨hsome position, fun h => ?_⟩⟩
  · rw [linkPosition?, Option.map_eq_none_iff, findSome?_phrases, List.findSome?_eq_none_iff]
    exact forall₂_congr fun anchor hanchor => mention_eq_none_iff hanchors hanchor
  · obtain ⟨phrase, i, hfirst, hend⟩ := (hsome position).mp h
    have hpos := List.length_pos_iff.mpr hfirst.ne
    have hstop := hend.stop_le
    obtain ⟨earlier, anchor, later, rfl, rfl, -⟩ := hfirst.anchor
    have hphrase := hanchors anchor (List.mem_append_right _ List.mem_cons_self)
    exact ⟨by omega, hend.le_length, fun span hline =>
      hend.not_on_heading hfirst.admissible hfirst.ne hphrase hline⟩

end NoteLinks.Insertion
