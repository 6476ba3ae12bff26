/-
# Three ways to tell a heading line

A heading line is told by its hashes and what stands behind them, by the pattern for headings, or
by the pattern for lines that are left out. A line that fits one of the patterns begins like a
heading line, whichever of the possible runs count, and what is a heading line fits with a single
blank behind the hashes. So all three agree on every line.

The runs of a pattern may divide the blanks behind the hashes and the text in several ways. That
does not show in a heading, for its text is trimmed. And since the lines that are left out are the
heading lines, no mention is on one of them.
-/
import NoteLinks.Note.Pattern
import NoteLinks.Proofs.Insertion.Mention
import NoteLinks.Proofs.Note.Heading
import NoteLinks.Proofs.Text.Pattern

namespace NoteLinks

open Pattern (runs? findings Fits)

namespace Heading

variable {row line body : Text} {runs : List Text} {gapMost : Option Nat} {least : Nat}

/-! ## One line -/

/-- The form of both patterns: they differ in how many blanks and how many characters of the text
they take. -/
def lineForm (gapMost : Option Nat) (least : Nat) : Pattern :=
  .wholeLine [hashes, .run isGap 1 gapMost, .run (· != '\n') least none]

theorem isGap_iff {c : Char} : isGap c = true ↔ c = ' ' ∨ c = '\t' := by
  simp [isGap]

theorem staysInLine_lineForm (gapMost : Option Nat) (least : Nat) :
    ∀ part ∈ lineForm gapMost least, Pattern.Part.StaysInLine part := by
  simp [lineForm, Pattern.wholeLine, hashes, Pattern.Part.StaysInLine, isGap]

/-- The runs that fit a line: one to six hashes, a space or a tab with more of them behind it, and
a text. -/
theorem exists_of_fits {rest : Text} {starts : Bool}
    (h : Fits (lineForm gapMost least) starts runs rest) :
    ∃ n c gaps text, (1 ≤ n ∧ n ≤ 6) ∧ (c = ' ' ∨ c = '\t') ∧ (∀ d ∈ gaps, isGap d = true) ∧
      runs = [List.replicate n '#', c :: gaps, text] := by
  cases h with
  | lineStart h =>
  cases h with
  | @run _ _ _ _ _ hashes _ _ hhashes hleast hmost h =>
  cases h with
  | @run _ _ _ _ _ gaps _ _ hgaps hgap _ h =>
  cases h with
  | @run _ _ _ _ _ text _ _ _ _ _ h =>
  cases h with
  | lineEnd _ h =>
  cases h
  obtain ⟨c, gaps, rfl⟩ := List.exists_cons_of_length_pos hgap
  obtain ⟨hc, hgaps⟩ := List.forall_mem_cons.mp hgaps
  refine ⟨hashes.length, c, gaps, text, ⟨hleast, hmost 6 rfl⟩, isGap_iff.mp hc, hgaps, ?_⟩
  rw [← List.eq_replicate_of_mem fun d hd => beq_iff_eq.mp (hhashes d hd)]

/-- What is a heading line fits, with a single blank behind the hashes. -/
theorem exists_runs?_of_row (gapMost : Option Nat) {n : Nat} {c : Char} {text : Text}
    (hn : 1 ≤ n ∧ n ≤ 6) (hc : c = ' ' ∨ c = '\t') (htext : '\n' ∉ text)
    (hleast : least ≤ text.length) (hgap : ∀ m ∈ gapMost, 1 ≤ m) :
    ∃ runs, runs? (lineForm gapMost least) true (List.replicate n '#' ++ c :: text) =
      some runs := by
  have hfits : Fits (lineForm gapMost least) true [List.replicate n '#', [c], text] [] := by
    refine .lineStart (.run ?_ (by simpa using hn.1) ?_ (.run ?_ (Nat.le_refl 1) hgap
      (.run ?_ hleast nofun (.lineEnd rfl .nil))))
    · exact fun d hd => beq_iff_eq.mpr (List.eq_of_mem_replicate hd)
    · intro m hm
      obtain rfl := Option.some.inj hm
      simpa using hn.2
    · exact List.forall_mem_singleton.mpr (isGap_iff.mpr hc)
    · exact fun d hd => bne_iff_ne.mpr fun heq => htext (heq ▸ hd)
  simpa using Pattern.exists_runs?_of_fits hfits

/-- Only a heading line has a match. -/
theorem level?_ne_none_of_runs? (h : runs? (lineForm gapMost least) true row = some runs) :
    level? row ≠ none := by
  obtain ⟨rest, rfl, hfits⟩ := Pattern.fits_of_runs? h
  obtain ⟨n, c, gaps, text, hn, hc, -, rfl⟩ := exists_of_fits hfits
  exact level?_ne_none_iff.mpr ⟨n, c, gaps ++ (text ++ rest), hn.1, hn.2, hc, by simp⟩

theorem isSome_linePattern (hrow : '\n' ∉ row) :
    (runs? linePattern true row).isSome = (level? row).isSome := by
  rw [Bool.eq_iff_iff, ← Option.ne_none_iff_isSome, ← Option.ne_none_iff_isSome]
  constructor
  · intro h
    obtain ⟨runs, hruns⟩ := Option.ne_none_iff_exists'.mp h
    exact level?_ne_none_of_runs? hruns
  · intro h
    obtain ⟨n, c, text, hone, hsix, hc, rfl⟩ := level?_ne_none_iff.mp h
    refine Option.ne_none_iff_exists'.mpr
      (exists_runs?_of_row (some 1) ⟨hone, hsix⟩ hc (fun hmem => hrow ?_) (Nat.zero_le _) ?_)
    · exact List.mem_append_right _ (List.mem_cons_of_mem c hmem)
    · exact fun m hm => (Option.some.inj hm).le

/-- A match makes the heading of the line, and without a match there is none. -/
theorem bind_ofRuns?_pattern (hrow : '\n' ∉ row) :
    (runs? pattern true row).bind ofRuns? = read? row := by
  cases hruns : runs? pattern true row with
  | some runs =>
      obtain ⟨_, -, hfits⟩ := Pattern.fits_of_runs? hruns
      obtain ⟨n, c, gaps, text, hn, hc, hgaps, rfl⟩ := exists_of_fits hfits
      have hblank : Text.isBlankText (c :: gaps) = true := by
        refine List.all_eq_true.mpr fun d hd => ?_
        have hd : d = ' ' ∨ d = '\t' := by
          rcases List.mem_cons.mp hd with rfl | hd
          · exact hc
          · exact isGap_iff.mp (hgaps d hd)
        rcases hd with rfl | rfl <;> rfl
      have htrim := Text.trim_of_isBlankText_append hblank text
      have hne : c ≠ '#' := by rcases hc with rfl | rfl <;> decide
      have hwhole : List.replicate n '#' ++ c :: (gaps ++ text) = row := by
        simpa using Pattern.flatten_of_wholeLine hrow hruns
      rw [List.cons_append] at htrim
      rw [← hwhole, read?_replicate_append n hne, htrim]
      by_cases htext : Text.trim text = []
      · simp [ofRuns?, htext]
      · simp [ofRuns?, htext, hc, hn]
  | none =>
      rw [Option.bind_none]
      symm
      by_contra hread
      obtain ⟨h, hread⟩ := Option.ne_none_iff_exists'.mp hread
      obtain ⟨c, text, hc, rfl, htext⟩ := exists_row_of_read? hread
      obtain ⟨hn, hne, -⟩ := normal_of_read? hread
      have hlong : 1 ≤ text.length := by
        refine List.length_pos_iff.mpr ?_
        rintro rfl
        refine hne (htext.trans (Text.trim_eq_nil_of_isBlankText ?_))
        rcases hc with rfl | rfl <;> rfl
      have hfeed : '\n' ∉ text := fun hmem =>
        hrow (List.mem_append_right _ (List.mem_cons_of_mem c hmem))
      obtain ⟨runs, hsome⟩ := exists_runs?_of_row none hn hc hfeed hlong nofun
      exact Option.some_ne_none runs (hsome.symm.trans hruns)

/-- The heading on a line, by its level and what stands behind the hashes. -/
theorem read?_eq_bind_level? (row : Text) :
    read? row = (level? row).bind fun n =>
      if Text.trim (row.drop n) = [] then none else some ⟨n, Text.trim (row.drop n)⟩ := by
  rcases exists_hashes row with ⟨n, rfl⟩ | ⟨n, c, rest, hc, rfl⟩
  · rw [read?_replicate, level?, ofLine?_replicate]
    rfl
  · rw [read?_replicate_append n hc, level?, ofLine?_replicate_append n hc]
    by_cases hcond : (c = ' ' ∨ c = '\t') ∧ 1 ≤ n ∧ n ≤ 6
    · simp [hcond]
    · have htest : ¬ ((c == ' ' || c == '\t') && 1 ≤ n && n ≤ 6) = true := by
        simpa [and_assoc] using hcond
      rw [if_neg htest, if_neg fun h => hcond h.1]
      rfl

/-! ## The lines of a text -/

/-- A line feed at the end of a line changes nothing. -/
theorem level?_rowOf (h : line ∈ Text.lines body) : level? (Text.rowOf line) = level? line := by
  obtain ⟨-, hline⟩ := Text.rowOf_spec h
  generalize Text.rowOf line = row at hline
  rcases hline with rfl | rfl
  · rfl
  · exact (level?_append_newline row []).symm

theorem read?_rowOf (h : line ∈ Text.lines body) : read? (Text.rowOf line) = read? line := by
  obtain ⟨-, hline⟩ := Text.rowOf_spec h
  generalize Text.rowOf line = row at hline
  rcases hline with rfl | rfl
  · rfl
  · exact (read?_append_blank row rfl).symm

theorem runs?_rowOf (gapMost : Option Nat) (least : Nat) (h : line ∈ Text.lines body) :
    runs? (lineForm gapMost least) true (Text.rowOf line) =
      runs? (lineForm gapMost least) true line := by
  obtain ⟨-, hline⟩ := Text.rowOf_spec h
  generalize Text.rowOf line = row at hline
  rcases hline with rfl | rfl
  · rfl
  · exact (Pattern.runs?_append_of_lineEnds (staysInLine_lineForm gapMost least) rfl).symm

theorem mem_lines_of_mem_placedLines {l : Nat × Text} {n : Nat} {ls : List Text}
    (h : l ∈ Text.placedLines n ls) : l.2 ∈ ls := by
  rw [← Text.map_snd_placedLines n ls]
  exact List.mem_map_of_mem h

theorem findings_lineForm (gapMost : Option Nat) (least : Nat) (body : Text) :
    findings (lineForm gapMost least) body =
      (Text.placedLines 0 (Text.lines body)).filterMap fun l =>
        (runs? (lineForm gapMost least) true (Text.rowOf l.2)).map (Finding.mk l.1) := by
  have hempty : runs? (lineForm gapMost least) true [] = none := by
    by_contra h
    obtain ⟨runs, hruns⟩ := Option.ne_none_iff_exists'.mp h
    exact level?_ne_none_of_runs? hruns rfl
  refine (Pattern.findings_wholeLine (staysInLine_lineForm gapMost least) hempty body).trans ?_
  exact List.filterMap_congr fun l hl =>
    congrArg _ (runs?_rowOf gapMost least (mem_lines_of_mem_placedLines hl)).symm

/-- A match is a heading line as a whole. -/
theorem exists_line_of_mem_findings {f : Finding} (h : f ∈ findings (lineForm gapMost least) body) :
    ∃ l ∈ Text.placedLines 0 (Text.lines body), f.start = l.1 ∧ f.text = Text.rowOf l.2 ∧
      level? l.2 ≠ none := by
  rw [findings_lineForm] at h
  obtain ⟨l, hl, hf⟩ := List.mem_filterMap.mp h
  obtain ⟨runs, hruns, rfl⟩ := Option.map_eq_some_iff.mp hf
  have hline := mem_lines_of_mem_placedLines hl
  refine ⟨l, hl, rfl, Pattern.flatten_of_wholeLine (Text.rowOf_spec hline).1 hruns, ?_⟩
  rw [← level?_rowOf hline]
  exact level?_ne_none_of_runs? hruns

/-- The lines that are left out are the heading lines, at their positions. -/
theorem map_findings_linePattern (body : Text) :
    ((findings linePattern body).map fun f => (f.start, f.text)) =
      ((Text.placedLines 0 (Text.lines body)).filter fun l => (level? l.2).isSome).map
        fun l => (l.1, Text.rowOf l.2) := by
  rw [show linePattern = lineForm (some 1) 0 from rfl, findings_lineForm, List.map_filterMap,
    ← List.filterMap_eq_map, List.filterMap_filter]
  refine List.filterMap_congr fun l hl => ?_
  have hline := mem_lines_of_mem_placedLines hl
  have hrow := (Text.rowOf_spec hline).1
  have hsome : (runs? (lineForm (some 1) 0) true (Text.rowOf l.2)).isSome =
      (level? l.2).isSome := by
    rw [← level?_rowOf hline]
    exact isSome_linePattern hrow
  rw [← hsome]
  cases hruns : runs? (lineForm (some 1) 0) true (Text.rowOf l.2) with
  | none => rfl
  | some runs =>
      have htext : (Finding.mk l.1 runs).text = Text.rowOf l.2 :=
        Pattern.flatten_of_wholeLine hrow hruns
      simp [htext]

/-- The headings that are found are those on the lines. -/
theorem found_eq_filterMap_lines (body : Text) :
    found body = (Text.lines body).filterMap read? := by
  calc found body
      = (Text.placedLines 0 (Text.lines body)).filterMap fun l =>
          ((runs? pattern true (Text.rowOf l.2)).map (Finding.mk l.1)).bind
            fun f => ofRuns? f.runs := by
        rw [found, show pattern = lineForm none 1 from rfl, findings_lineForm,
          List.filterMap_filterMap]
    _ = (Text.placedLines 0 (Text.lines body)).filterMap fun l => read? l.2 := by
        refine List.filterMap_congr fun l hl => ?_
        have hline := mem_lines_of_mem_placedLines hl
        rw [← read?_rowOf hline, ← bind_ofRuns?_pattern (Text.rowOf_spec hline).1, Option.bind_map]
        rfl
    _ = ((Text.placedLines 0 (Text.lines body)).map Prod.snd).filterMap read? := by
        rw [List.filterMap_map]
        rfl
    _ = (Text.lines body).filterMap read? := by rw [Text.map_snd_placedLines]

/-- Read by lines or by rows, the headings are the same. -/
theorem filterMap_lines (body : Text) : (Text.lines body).filterMap read? = all body := by
  induction body using Text.lineInduction with
  | last row hrow =>
      cases row with
      | nil => rfl
      | cons c row =>
          rw [Text.lines_of_not_mem hrow (List.cons_ne_nil c row), all_of_not_mem hrow]
          cases hread : read? (c :: row) <;> simp [hread]
  | next row t hrow ih =>
      rw [Text.lines_append_newline hrow, List.filterMap_cons,
        read?_append_blank row (show Text.isBlankText ['\n'] = true from rfl), all_append_newline,
        all_of_not_mem hrow, ← ih]
      cases read? row <;> rfl

/-- The headings that are found are the headings of the note. -/
theorem found_eq_all (body : Text) : found body = all body := by
  rw [found_eq_filterMap_lines, filterMap_lines]

end Heading

namespace Insertion

variable {body phrase : Text} {span : Span}

/-! ## Mentions -/

theorem headingSpans_rows (n : Nat) (body : Text) :
    headingSpans n (Text.splitOn '\n' body) =
      ((Text.placedLines n (Text.lines body)).filter fun l => (Heading.level? l.2).isSome).map
        fun l => ⟨l.1, l.1 + (Text.rowOf l.2).length⟩ := by
  induction body using Text.lineInduction generalizing n with
  | last row hrow =>
      rw [Text.splitOn_of_not_mem hrow]
      cases row with
      | nil => rfl
      | cons c row =>
          rw [Text.lines_of_not_mem hrow (List.cons_ne_nil c row), headingSpans]
          cases hlevel : Heading.level? (c :: row) with
          | none => simp [headingSpans, Text.placedLines, hlevel]
          | some level => simp [headingSpans, Text.placedLines, hlevel, Text.rowOf_of_not_mem hrow]
  | next row t hrow ih =>
      have hlength : n + (row ++ ['\n']).length = n + row.length + 1 := by
        rw [List.length_append, List.length_singleton, Nat.add_assoc]
      rw [Text.splitOn_append_cons, Text.splitOn_of_not_mem hrow, List.singleton_append,
        headingSpans, ih, Text.lines_append_newline hrow, Text.placedLines, List.filter_cons,
        Heading.level?_append_newline, hlength]
      cases Heading.level? row with
      | none => rfl
      | some level => simp [Text.rowOf_append_newline hrow]

/-- The lines in which no mention counts are those that the pattern for lines matches. -/
theorem excludedSpans_eq (body : Text) :
    excludedSpans body =
      Text.spans recogniseLink body ++ (findings Heading.linePattern body).map Finding.span := by
  have hspans := congrArg (List.map fun l : Nat × Text => Span.mk l.1 (l.1 + l.2.length))
    (Heading.map_findings_linePattern body)
  rw [List.map_map, List.map_map] at hspans
  rw [excludedSpans, headingSpans_rows]
  exact congrArg _ hspans.symm

/-- A line from which a heading may be read is left out. -/
theorem span_mem_excludedSpans {f : Finding} (hf : f ∈ findings Heading.pattern body) :
    f.span ∈ excludedSpans body := by
  obtain ⟨l, hl, hstart, htext, hlevel⟩ := Heading.exists_line_of_mem_findings
    (show f ∈ findings (Heading.lineForm none 1) body from hf)
  have hplace : (f.start, f.text) ∈
      (findings Heading.linePattern body).map fun g => (g.start, g.text) := by
    rw [Heading.map_findings_linePattern, hstart, htext]
    exact List.mem_map.mpr
      ⟨l, List.mem_filter.mpr ⟨hl, Option.ne_none_iff_isSome.mp hlevel⟩, rfl⟩
  obtain ⟨g, hg, heq⟩ := List.mem_map.mp hplace
  obtain ⟨hgstart, hgtext⟩ := Prod.mk.inj heq
  rw [excludedSpans_eq]
  refine List.mem_append_right _ (List.mem_map.mpr ⟨g, hg, ?_⟩)
  rw [Finding.span, Finding.span, hgstart, hgtext]

/-- A mention that counts has nothing in common with what is left out. -/
theorem apart_of_firstMention? (h : firstMention? body phrase = some span) {other : Span}
    (hother : other ∈ excludedSpans body) : span.stop ≤ other.start ∨ other.stop ≤ span.start := by
  have hfree := List.find?_some h
  simp only [Span.overlaps, Bool.not_eq_true', List.any_eq_false, Bool.and_eq_true,
    decide_eq_true_eq] at hfree
  have hapart := hfree other hother
  omega

/-- The lines that the one pattern leaves out are the lines with a level, without their line feeds.
The headings that are found by the other one are the headings of the note: one for each line with
a level and a text behind its hashes that is not blank. So they can be found on both sides of a
line feed apart, and no mention that counts is on a line from which a heading is read. -/
theorem heading_lines_are_told_alike (body : Text) :
    ((findings Heading.linePattern body).map fun f => (f.start, f.text)) =
        ((Text.placedLines 0 (Text.lines body)).filter fun l => (Heading.level? l.2).isSome).map
          (fun l => (l.1, Text.rowOf l.2)) ∧
      Heading.found body = Heading.all body ∧
      Heading.found body = (Text.lines body).filterMap (fun line =>
        (Heading.level? line).bind fun n =>
          if Text.trim (line.drop n) = [] then none else some ⟨n, Text.trim (line.drop n)⟩) ∧
      (∀ x y, body = x ++ '\n' :: y → Heading.found body = Heading.found x ++ Heading.found y) ∧
      ∀ phrase span, firstMention? body phrase = some span →
        ∀ f ∈ findings Heading.pattern body,
          span.stop ≤ f.start ∨ f.start + f.text.length ≤ span.start := by
  refine ⟨Heading.map_findings_linePattern body, Heading.found_eq_all body, ?_, ?_, ?_⟩
  · rw [Heading.found_eq_filterMap_lines]
    exact List.filterMap_congr fun line _ => Heading.read?_eq_bind_level? line
  · rintro x y rfl
    rw [Heading.found_eq_all, Heading.found_eq_all, Heading.found_eq_all,
      Heading.all_append_newline]
  · intro phrase span hmention f hf
    exact apart_of_firstMention? hmention (span_mem_excludedSpans hf)

/-- Seven hashes are too many, so the mention counts on the second line. The third line is one with
a level, but what stands behind its hash is blank, and the carriage return of the first line is
no part of the heading. -/
theorem heading_lines_among_others :
    let front := "# Rust \r\n####### rust\n#\t\u00a0".toList
    let body := front ++ '\n' :: "## In rust".toList
    firstMention? body "rust".toList = some ⟨17, 21⟩ ∧
      Heading.found body = [⟨1, "Rust".toList⟩, ⟨2, "In rust".toList⟩] ∧
      Heading.found body = Heading.found front ++ Heading.found "## In rust".toList ∧
      (findings Heading.linePattern body).map Finding.start = [0, 22, 26] ∧
      ∀ f ∈ findings Heading.pattern body, 21 ≤ f.start ∨ f.start + f.text.length ≤ 17 := by
  intro front body
  have hmention : firstMention? body "rust".toList = some ⟨17, 21⟩ := by decide +kernel
  obtain ⟨-, -, -, happend, hapart⟩ := heading_lines_are_told_alike body
  refine ⟨hmention, by decide +kernel, happend _ _ rfl, by decide +kernel, ?_⟩
  exact hapart _ _ hmention

end Insertion

end NoteLinks
