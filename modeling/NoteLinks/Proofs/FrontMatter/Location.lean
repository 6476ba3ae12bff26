/-
# Front matter cut out of its note

Each offset is the number of bytes in front of a part of the note, since every search starts
where a part starts and gets as far as the next one. So the note can be cut at all of them, and
what is cut out is what the text opens with.
-/
import NoteLinks.FrontMatter.Location
import NoteLinks.Proofs.FrontMatter.Block
import NoteLinks.Proofs.Text.Offset

namespace NoteLinks.FrontMatter

variable {before blanks content rest tail yaml : Text}

/-! ## One search at a time -/

theorem behindOpening?_of_opening (hcontent : content = delimiter ++ blanks ++ '\n' :: rest)
    (hblank : Text.isBlankText blanks = true) (hline : '\n' ∉ blanks) :
    behindOpening? content = .ok (some (Text.byteLength (delimiter ++ blanks ++ ['\n']))) := by
  have hcut : Text.cutAt? ['\n'] (blanks ++ '\n' :: rest) = some (blanks, rest) :=
    Text.cutAt?_char_eq_some_iff.mpr ⟨rfl, hline⟩
  simp only [hcontent, behindOpening?, List.append_assoc, Text.dropPrefix?_append, Text.offsetOf?,
    hcut, Option.map_some, Text.upTo_append, bind, Except.bind, hblank, if_true]
  rw [Text.byteLength_append, Text.byteLength_append, Nat.add_assoc]
  rfl

/-- A text opens with a line of dashes and blanks, or nothing is found. -/
theorem behindOpening?_cases (content : Text) :
    (∃ blanks rest, Text.isBlankText blanks = true ∧ '\n' ∉ blanks ∧
      content = delimiter ++ blanks ++ '\n' :: rest) ∨
    behindOpening? content = .ok none ∧ split? content = none := by
  cases hopened : Text.dropPrefix? delimiter content with
  | none => exact .inr ⟨by rw [behindOpening?, hopened]; rfl, by rw [split?, hopened]; rfl⟩
  | some opened =>
      cases hcut : Text.cutAt? ['\n'] opened with
      | none =>
          right
          simp only [behindOpening?, split?, hopened, Text.offsetOf?, hcut, Option.map_none, bind,
            Option.bind_some]
          exact ⟨rfl, rfl⟩
      | some parts =>
          obtain ⟨blanks, rest⟩ := parts
          obtain rfl := Text.dropPrefix?_eq_some_iff.mp hopened
          obtain ⟨rfl, hline⟩ := Text.cutAt?_char_eq_some_iff.mp hcut
          cases hblank : Text.isBlankText blanks with
          | true => exact .inl ⟨blanks, rest, hblank, hline, by rw [List.append_assoc]⟩
          | false =>
              right
              simp only [behindOpening?, split?, hopened, Text.offsetOf?, hcut, Option.map_some,
                Text.upTo_append, bind, Except.bind, Option.bind_some, hblank]
              exact ⟨rfl, rfl⟩

/-- A block that is closed at once. -/
theorem closing?_of_delimiter (hcontent : content = before ++ (delimiter ++ tail)) :
    closing? content (Text.byteLength before) =
      .ok (some (Text.byteLength before, Text.byteLength (before ++ delimiter))) := by
  rw [hcontent, closing?, Text.behind_append, Text.byteLength_append]
  simp only [bind, Except.bind, if_pos (Text.startsWith_iff.mpr (List.prefix_append _ _))]
  rfl

/-- A block that is closed on a later line. -/
theorem closing?_of_cutAt? (hcontent : content = before ++ rest) (hopen : ¬ delimiter <+: rest)
    (hcut : Text.cutAt? ('\n' :: delimiter) rest = some (yaml, tail)) :
    closing? content (Text.byteLength before) = .ok (some (Text.byteLength (before ++ yaml),
      Text.byteLength (before ++ yaml ++ '\n' :: delimiter))) := by
  rw [hcontent, closing?, Text.behind_append, Text.byteLength_append _ ('\n' :: delimiter),
    Text.byteLength_append]
  simp only [bind, Except.bind, if_neg (mt Text.startsWith_iff.mp hopen), Text.offsetOf?, hcut]
  rfl

theorem closing?_of_none (hcontent : content = before ++ rest) (hopen : ¬ delimiter <+: rest)
    (hcut : Text.cutAt? ('\n' :: delimiter) rest = none) :
    closing? content (Text.byteLength before) = .ok none := by
  rw [hcontent, closing?, Text.behind_append]
  simp only [bind, Except.bind, if_neg (mt Text.startsWith_iff.mp hopen), Text.offsetOf?, hcut]
  rfl

/-- A line goes on to its line feed, or else to the end of the text. -/
theorem exists_behindLine (before tail : Text) : ∃ start, tail = start ++ afterLine tail ∧
    behindLine (before ++ tail) (Text.byteLength before) =
      .ok (Text.byteLength (before ++ start)) := by
  simp only [behindLine, Text.behind_append, Text.offsetOf?, bind, Except.bind]
  rcases afterLine_cases tail with ⟨line, hline, htail⟩ | ⟨hline, hnil⟩
  · have hcut : Text.cutAt? ['\n'] tail = some (line, afterLine tail) :=
      Text.cutAt?_char_eq_some_iff.mpr ⟨htail, hline⟩
    have hsum : Text.byteLength (before ++ (line ++ ['\n'])) =
        Text.byteLength before + Text.byteLength line + 1 := by
      rw [Text.byteLength_append, Text.byteLength_append, ← Nat.add_assoc]
      rfl
    refine ⟨line ++ ['\n'], by simpa using htail, ?_⟩
    rw [hcut, hsum]
    rfl
  · have hcut : Text.cutAt? ['\n'] tail = none := by
      rw [Text.cutAt?_eq_none_iff, List.singleton_infix_iff]
      exact hline
    refine ⟨tail, by rw [hnil, List.append_nil], ?_⟩
    rw [hcut]
    rfl

/-! ## The note as a whole -/

/-- The searches, one after the other. -/
theorem locate?_of_searches {yamlStart yamlStop closed bodyStart : Nat}
    (hopen : behindOpening? content = .ok (some yamlStart))
    (hclose : closing? content yamlStart = .ok (some (yamlStop, closed)))
    (hbody : behindLine content closed = .ok bodyStart) :
    locate? content = .ok (some { yamlStart, yamlStop, bodyStart }) := by
  simp only [locate?, hopen, hclose, hbody, bind, Except.bind]
  rfl

/-- The parts of a note with front matter are where their offsets say. -/
theorem IsBlock.locate?_append {block : Text} (h : IsBlock yaml block) (tail : Text) :
    ∃ before after start, block = before ++ yaml ++ after ∧ tail = start ++ afterLine tail ∧
      locate? (block ++ tail) = .ok (some
        { yamlStart := Text.byteLength before
          yamlStop := Text.byteLength (before ++ yaml)
          bodyStart := Text.byteLength (block ++ start) }) := by
  obtain ⟨start, hstart, hbody⟩ := exists_behindLine block tail
  cases h with
  | @empty blanks hblank hline =>
      have hblock : delimiter ++ blanks ++ '\n' :: delimiter =
          delimiter ++ blanks ++ ['\n'] ++ [] ++ delimiter := by simp
      refine ⟨_, _, start, hblock, hstart, locate?_of_searches ?_ ?_ hbody⟩
      · exact behindOpening?_of_opening (List.append_assoc _ _ _) hblank hline
      · rw [hblock, List.append_nil]
        exact closing?_of_delimiter (List.append_assoc _ _ _)
  | @filled blanks yaml hblank hline hopen hfirst =>
      have hblock : delimiter ++ blanks ++ '\n' :: (yaml ++ '\n' :: delimiter) =
          delimiter ++ blanks ++ ['\n'] ++ yaml ++ '\n' :: delimiter := by simp
      refine ⟨_, _, start, hblock, hstart, locate?_of_searches ?_ ?_ hbody⟩
      · exact behindOpening?_of_opening (List.append_assoc _ _ _) hblank hline
      · rw [hblock]
        exact closing?_of_cutAt? (by simp) (not_prefix_append hopen tail)
          (Text.cutAt?_exchange hfirst tail)

/-- Without front matter nothing is found. -/
theorem locate?_of_split?_eq_none (h : split? content = none) : locate? content = .ok none := by
  rcases behindOpening?_cases content with ⟨blanks, rest, hblank, hline, rfl⟩ | ⟨hopen, -⟩
  · have hopen : behindOpening? (delimiter ++ blanks ++ '\n' :: rest) =
        .ok (some (Text.byteLength (delimiter ++ blanks ++ ['\n']))) :=
      behindOpening?_of_opening rfl hblank hline
    have hclose : closing? (delimiter ++ blanks ++ '\n' :: rest)
        (Text.byteLength (delimiter ++ blanks ++ ['\n'])) = .ok none := by
      rw [split?_of_opening hblank hline] at h
      split at h
      next => cases h
      next hnone =>
        exact closing?_of_none (by simp) (Text.dropPrefix?_eq_none_iff.mp hnone)
          (Option.map_eq_none_iff.mp h)
    simp only [locate?, hopen, hclose, bind, Except.bind]
    rfl
  · simp only [locate?, hopen, bind, Except.bind]
    rfl

/-- The parts of a note, and where they lie. -/
theorem locate?_cases (content : Text) :
    split? content = none ∧ locate? content = .ok none ∨
      ∃ before yaml after body, content = before ++ yaml ++ after ++ body ∧
        split? content = some (yaml, body) ∧
        locate? content = .ok (some
          { yamlStart := Text.byteLength before
            yamlStop := Text.byteLength (before ++ yaml)
            bodyStart := Text.byteLength (before ++ yaml ++ after) }) := by
  cases hsplit : split? content with
  | none => exact .inl ⟨rfl, locate?_of_split?_eq_none hsplit⟩
  | some parts =>
      obtain ⟨yaml, body⟩ := parts
      obtain ⟨block, tail, hblock, rfl, rfl⟩ := exists_block_of_split? hsplit
      obtain ⟨before, after, start, rfl, hstart, hlocate⟩ := hblock.locate?_append tail
      refine .inr ⟨before, yaml, after ++ start, afterLine tail, ?_, rfl, ?_⟩
      · rw [← List.append_assoc, List.append_assoc _ start, ← hstart]
      · rw [← List.append_assoc]
        exact hlocate

/-- What is cut out of a text is what it opens with. -/
theorem cutOut?_eq (content : Text) : cutOut? content = .ok (split? content) := by
  rcases locate?_cases content with ⟨hsplit, hlocate⟩ |
    ⟨before, yaml, after, body, hcontent, hsplit, hlocate⟩
  · rw [cutOut?, hlocate, hsplit]
    rfl
  · have hyaml : Text.between (Text.byteLength before) (Text.byteLength (before ++ yaml)) content =
        .ok yaml := by
      rw [hcontent, List.append_assoc _ after]
      exact Text.between_append before yaml _
    have hbody : Text.behind (Text.byteLength (before ++ yaml ++ after)) content = .ok body := by
      rw [hcontent]
      exact Text.behind_append _ body
    simp only [cutOut?, hlocate, hsplit, hyaml, hbody, bind, Except.bind]
    rfl

/-- The body starts behind its front. -/
theorem bodyOffset_eq (content : Text) :
    bodyOffset content = .ok (Text.byteLength (front content)) := by
  rcases locate?_cases content with ⟨hsplit, hlocate⟩ |
    ⟨before, yaml, after, body, hcontent, hsplit, hlocate⟩
  · rw [bodyOffset, hlocate, front_of_split?_eq_none hsplit]
    rfl
  · have hfront : front content = before ++ yaml ++ after :=
      front_eq_of_append (by rw [body_of_split? hsplit, hcontent])
    rw [bodyOffset, hlocate, hfront]
    rfl

end NoteLinks.FrontMatter
