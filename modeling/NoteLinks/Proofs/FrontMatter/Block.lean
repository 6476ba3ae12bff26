/-
# The block of front matter

Front matter is found by its delimiters. Once the closing delimiter has been
read, what follows it may be exchanged: the block stays the same, and the body is
what then stands behind the line of the delimiter. A body is the end of its note
and starts a line, unless it is empty.
-/
import NoteLinks.FrontMatter
import NoteLinks.Proofs.Text.Cutting
import NoteLinks.Proofs.Text.Seam

namespace NoteLinks.FrontMatter

/-! ## Behind the first line -/

theorem afterLine_append {line : Text} (h : '\n' ∉ line) (rest : Text) :
    afterLine (line ++ '\n' :: rest) = rest := by
  rw [afterLine, Text.cutAt?_char_eq_some_iff.mpr ⟨rfl, h⟩]

theorem afterLine_eq_nil {t : Text} (h : '\n' ∉ t) : afterLine t = [] := by
  have hnone : Text.cutAt? ['\n'] t = none := by
    rw [Text.cutAt?_eq_none_iff, List.singleton_infix_iff]
    exact h
  rw [afterLine, hnone]

/-- A text is its first line, with the line feed if it has one, and the rest. -/
theorem afterLine_cases (t : Text) :
    (∃ line, '\n' ∉ line ∧ t = line ++ '\n' :: afterLine t) ∨ '\n' ∉ t ∧ afterLine t = [] := by
  by_cases h : '\n' ∈ t
  · obtain ⟨line, rest, rfl, hline⟩ := List.eq_append_cons_of_mem h
    exact .inl ⟨line, hline, by rw [afterLine_append hline]⟩
  · exact .inr ⟨h, afterLine_eq_nil h⟩

theorem exists_append_afterLine (t : Text) : ∃ start, t = start ++ afterLine t := by
  rcases afterLine_cases t with ⟨line, -, ht⟩ | ⟨-, hnil⟩
  · exact ⟨line ++ ['\n'], by rw [List.append_assoc]; exact ht⟩
  · exact ⟨t, by rw [hnil, List.append_nil]⟩

/-! ## The block -/

/-- The text of a block up to its closing delimiter, and the YAML in it. -/
inductive IsBlock : Text → Text → Prop
  | empty {blanks : Text} (hblank : Text.isBlankText blanks = true) (hline : '\n' ∉ blanks) :
      IsBlock [] (delimiter ++ blanks ++ '\n' :: delimiter)
  | filled {blanks yaml : Text} (hblank : Text.isBlankText blanks = true) (hline : '\n' ∉ blanks)
      (hopen : ¬ delimiter <+: yaml ++ '\n' :: delimiter)
      (hfirst : Text.cutAt? ('\n' :: delimiter) (yaml ++ '\n' :: delimiter) = some (yaml, [])) :
      IsBlock yaml (delimiter ++ blanks ++ '\n' :: (yaml ++ '\n' :: delimiter))

/-- Whether dashes stand in front is seen within the block. -/
theorem not_prefix_append {yaml : Text} (h : ¬ delimiter <+: yaml ++ '\n' :: delimiter)
    (tail : Text) : ¬ delimiter <+: yaml ++ '\n' :: delimiter ++ tail := fun hstart =>
  h (List.prefix_of_prefix_length_le hstart (List.prefix_append _ _) (by simp [delimiter]))

theorem IsBlock.getLast? {yaml block : Text} (h : IsBlock yaml block) :
    block.getLast? = some '-' := by
  cases h with
  | empty =>
      rw [List.getLast?_append_of_ne_nil _ (by simp)]
      rfl
  | @filled blanks yaml =>
      rw [← List.cons_append, ← List.append_assoc, List.getLast?_append_of_ne_nil _ (by simp)]
      rfl

/-- Behind a line that opens front matter, what decides is whether dashes follow at once or on a
later line. -/
theorem split?_of_opening {blanks : Text} (hblank : Text.isBlankText blanks = true)
    (hline : '\n' ∉ blanks) (rest : Text) :
    split? (delimiter ++ blanks ++ '\n' :: rest) =
      match Text.dropPrefix? delimiter rest with
      | some tail => some ([], afterLine tail)
      | none =>
        (Text.cutAt? ('\n' :: delimiter) rest).map fun (yaml, tail) => (yaml, afterLine tail) := by
  have hcut : Text.cutAt? ['\n'] (blanks ++ '\n' :: rest) = some (blanks, rest) :=
    Text.cutAt?_char_eq_some_iff.mpr ⟨rfl, hline⟩
  cases hdrop : Text.dropPrefix? delimiter rest with
  | some tail => simp [split?, hcut, hblank, hdrop]
  | none => simp [split?, hcut, hblank, hdrop]

/-- Whatever follows a block, it is read in the same way. -/
theorem IsBlock.split?_append {yaml block : Text} (h : IsBlock yaml block) (tail : Text) :
    split? (block ++ tail) = some (yaml, afterLine tail) := by
  cases h with
  | @empty blanks hblank hline =>
      rw [List.append_assoc _ ('\n' :: delimiter), List.cons_append,
        split?_of_opening hblank hline, Text.dropPrefix?_append]
  | @filled blanks yaml hblank hline hopen hfirst =>
      rw [List.append_assoc _ ('\n' :: (yaml ++ '\n' :: delimiter)), List.cons_append,
        split?_of_opening hblank hline,
        Text.dropPrefix?_eq_none_iff.mpr (not_prefix_append hopen tail),
        Text.cutAt?_exchange hfirst tail]
      rfl

/-- What opens with front matter opens with a block. -/
theorem exists_block_of_split? {content yaml body : Text}
    (h : split? content = some (yaml, body)) :
    ∃ block tail, IsBlock yaml block ∧ content = block ++ tail ∧ body = afterLine tail := by
  simp only [split?, Option.bind_eq_bind, Option.bind_eq_some_iff] at h
  obtain ⟨opened, hopened, ⟨blanks, rest⟩, hcut, h⟩ := h
  obtain rfl := Text.dropPrefix?_eq_some_iff.mp hopened
  obtain ⟨rfl, hline⟩ := Text.cutAt?_char_eq_some_iff.mp hcut
  split at h
  next hblank =>
    split at h
    next tail htail =>
      obtain ⟨rfl, rfl⟩ : [] = yaml ∧ afterLine tail = body := by simpa using h
      obtain rfl : rest = delimiter ++ tail := Text.dropPrefix?_eq_some_iff.mp htail
      exact ⟨_, tail, .empty hblank hline, by simp, rfl⟩
    next hnone =>
      obtain ⟨⟨yaml', tail⟩, hclose, heq⟩ := Option.map_eq_some_iff.mp h
      obtain ⟨rfl, rfl⟩ : yaml' = yaml ∧ afterLine tail = body := by simpa using heq
      obtain rfl := Text.eq_append_of_cutAt? hclose
      have hfirst := Text.cutAt?_exchange hclose []
      rw [List.append_nil] at hfirst
      refine ⟨_, tail, .filled hblank hline ?_ hfirst, by simp, rfl⟩
      rw [Text.dropPrefix?_eq_none_iff] at hnone
      intro hstart
      exact hnone (hstart.trans ⟨tail, by simp⟩)
  next => cases h

/-! ## The body -/

theorem body_of_split? {content yaml rest : Text} (h : split? content = some (yaml, rest)) :
    body content = rest := by
  rw [body, h]

theorem body_of_split?_eq_none {content : Text} (h : split? content = none) :
    body content = content := by
  rw [body, h]

/-- A note is what stands in front of its body, and the body. The body starts a
line, or it is empty. -/
theorem exists_append_body (content : Text) :
    ∃ front, content = front ++ body content ∧ Text.AtLineStart front (body content) := by
  cases h : split? content with
  | none => exact ⟨[], by rw [body_of_split?_eq_none h]; rfl, .inl rfl⟩
  | some parts =>
      obtain ⟨yaml, rest⟩ := parts
      obtain ⟨block, tail, -, rfl, rfl⟩ := exists_block_of_split? h
      rw [body_of_split? h]
      rcases afterLine_cases tail with ⟨line, -, htail⟩ | ⟨-, hnil⟩
      · refine ⟨block ++ line ++ ['\n'], ?_, .inr (.inl (by simp))⟩
        conv_lhs => rw [htail]
        simp
      · exact ⟨block ++ tail, by rw [hnil, List.append_nil], .inr (.inr (by rw [hnil]; rfl))⟩

/-- What stands in front of the body. -/
def front (content : Text) : Text := content.take (bodyStart content)

theorem front_eq_of_append {content start : Text} (h : content = start ++ body content) :
    front content = start := by
  have hlen : content.length = start.length + (body content).length := by
    rw [← List.length_append, ← h]
  have hstart : bodyStart content = start.length := by
    rw [bodyStart, hlen, Nat.add_sub_cancel]
  rw [front, hstart, h, List.take_left]

@[simp]
theorem front_append_body (content : Text) : front content ++ body content = content := by
  obtain ⟨start, hstart, -⟩ := exists_append_body content
  rw [front_eq_of_append hstart, ← hstart]

/-- Without front matter nothing stands in front of the body. -/
theorem front_of_split?_eq_none {content : Text} (h : split? content = none) :
    front content = [] :=
  front_eq_of_append (body_of_split?_eq_none h).symm

theorem not_mem_body {content : Text} {c : Char} (h : c ∉ content) : c ∉ body content := by
  rw [← front_append_body content, List.mem_append, not_or] at h
  exact h.2

@[simp]
theorem length_front (content : Text) : (front content).length = bodyStart content := by
  rw [front, List.length_take, bodyStart]
  omega

/-- The block lies in front of the body. -/
theorem IsBlock.isPrefix_front {yaml block : Text} (h : IsBlock yaml block) (tail : Text) :
    block <+: front (block ++ tail) := by
  obtain ⟨start, hstart⟩ := exists_append_afterLine tail
  refine ⟨start, (front_eq_of_append ?_).symm⟩
  rw [body_of_split? (h.split?_append tail), List.append_assoc, ← hstart]

theorem atLineStart_front (content : Text) :
    Text.AtLineStart (front content) (body content) := by
  obtain ⟨start, hstart, hline⟩ := exists_append_body content
  rwa [front_eq_of_append hstart]

/-- What is read of front matter depends on its YAML only. -/
theorem read_congr {content content' : Text}
    (h : (split? content').map Prod.fst = (split? content).map Prod.fst) :
    read content' = read content := by
  rw [read, read]
  cases hsplit : split? content with
  | none =>
      rw [hsplit, Option.map_none, Option.map_eq_none_iff] at h
      rw [h]
  | some parts =>
      rw [hsplit, Option.map_some, Option.map_eq_some_iff] at h
      obtain ⟨parts', hsplit', hyaml⟩ := h
      simp only [hsplit', hyaml]

/-- What is put in place of the body is the body then. -/
theorem body_front_append {content : Text} (hsome : (split? content).isSome = true)
    (hne : body content ≠ []) (t : Text) : body (front content ++ t) = t := by
  obtain ⟨⟨yaml, rest⟩, hsplit⟩ := Option.isSome_iff_exists.mp hsome
  obtain ⟨block, tail, hblock, rfl, rfl⟩ := exists_block_of_split? hsplit
  rw [body_of_split? hsplit] at hne
  rcases afterLine_cases tail with ⟨line, hline, htail⟩ | ⟨-, hnil⟩
  · have hfront : front (block ++ tail) = block ++ (line ++ ['\n']) := by
      apply front_eq_of_append
      rw [body_of_split? hsplit]
      conv_lhs => rw [htail]
      simp
    have hafter := body_of_split? (hblock.split?_append (line ++ '\n' :: t))
    rw [afterLine_append hline] at hafter
    rw [hfront]
    simpa using hafter
  · exact absurd hnil hne

/-- A word without line feed that does not end with a blank stands in front of the
body or in it. -/
theorem front_or_body {content x w y : Text} (hcontent : content = x ++ w ++ y)
    (hline : '\n' ∉ w) {c : Char} (hlast : w.getLast? = some c)
    (hc : Text.isBlank c = false) :
    x.length + w.length ≤ (front content).length ∨
      ∃ z, x = front content ++ z ∧ body content = z ++ w ++ y := by
  have hcut := (atLineStart_front content).uncut hline hlast hc
  have hparts : front content ++ body content = x ++ w ++ y := by rw [front_append_body, hcontent]
  rcases hcut x y hparts with ⟨z, hz⟩ | ⟨z, hz⟩
  · have hlen := congrArg List.length hz
    simp only [List.length_append] at hlen
    exact .inl (by omega)
  · exact .inr ⟨z, Text.start_eq_of_back_eq hparts hz, hz⟩

end NoteLinks.FrontMatter
