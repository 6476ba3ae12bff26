/-
# What opens with front matter

A grammar says which texts open with front matter, and what YAML and which body they have. The
first line is made of dashes and blanks. The block is closed by the dashes at the front of a later
line, either of the next one or else of the first that has any. The rest of that line is no part of
the body.

A text is taken apart exactly as the grammar says. It does not matter whether the parts are found
by their text or cut out at their offsets, and cutting never fails.
-/
import NoteLinks.Proofs.FrontMatter.Location

namespace NoteLinks.FrontMatter

/-- A text that opens with front matter, the YAML in it, and what follows the dashes that close
it. -/
inductive Opens : (content yaml tail : Text) → Prop
  /-- The dashes follow at once. -/
  | empty {blanks tail : Text} (hblank : Text.isBlankText blanks = true) (hline : '\n' ∉ blanks) :
      Opens (delimiter ++ blanks ++ '\n' :: (delimiter ++ tail)) [] tail
  /-- There is YAML, and it is as short as it can be. -/
  | filled {blanks yaml tail : Text} (hblank : Text.isBlankText blanks = true)
      (hline : '\n' ∉ blanks)
      (hopen : ¬ delimiter <+: yaml ++ '\n' :: (delimiter ++ tail))
      (hshortest : ∀ x y, yaml ++ '\n' :: (delimiter ++ tail) = x ++ '\n' :: (delimiter ++ y) →
        yaml.length ≤ x.length) :
      Opens (delimiter ++ blanks ++ '\n' :: (yaml ++ '\n' :: (delimiter ++ tail))) yaml tail

/-- What follows the first line feed of a text, and nothing if it has none. -/
inductive IsBehindLine : (tail body : Text) → Prop
  | feed {line rest : Text} (hline : '\n' ∉ line) : IsBehindLine (line ++ '\n' :: rest) rest
  | last {tail : Text} (hline : '\n' ∉ tail) : IsBehindLine tail []

/-- Offsets at which a text can be cut, in ascending order and within its bytes. -/
structure Location.FitsIn (place : Location) (content : Text) : Prop where
  yaml_ordered : place.yamlStart ≤ place.yamlStop
  body_ordered : place.yamlStop ≤ place.bodyStart
  in_range : place.bodyStart ≤ (Text.encode content).size
  yamlStart : Text.IsBoundary place.yamlStart content
  yamlStop : Text.IsBoundary place.yamlStop content
  bodyStart : Text.IsBoundary place.bodyStart content

variable {body content tail yaml : Text}

/-! ## The grammar and the searches -/

theorem isBehindLine_iff : IsBehindLine tail body ↔ afterLine tail = body := by
  constructor
  · rintro (hline | hline)
    · exact afterLine_append hline _
    · exact afterLine_eq_nil hline
  · rintro rfl
    rcases afterLine_cases tail with ⟨line, hline, htail⟩ | ⟨hline, hnil⟩
    · generalize afterLine tail = rest at htail
      rw [htail]
      exact .feed hline
    · rw [hnil]
      exact .last hline

theorem opens_iff :
    Opens content yaml tail ↔ ∃ block, IsBlock yaml block ∧ content = block ++ tail := by
  constructor
  · intro h
    cases h with
    | @empty blanks _ hblank hline => exact ⟨_, .empty hblank hline, by simp⟩
    | @filled blanks _ _ hblank hline hopen hshortest =>
        have hcut : Text.cutAt? ('\n' :: delimiter) (yaml ++ '\n' :: delimiter ++ tail) =
            some (yaml, tail) :=
          Text.cutAt?_eq_some_iff.mpr ⟨rfl, fun x y hxy => hshortest x y (by simpa using hxy)⟩
        have hfirst := Text.cutAt?_exchange hcut []
        rw [List.append_nil] at hfirst
        refine ⟨_, .filled hblank hline ?_ hfirst, by simp⟩
        exact fun hstart => hopen (hstart.trans ⟨tail, by simp⟩)
  · rintro ⟨block, hblock, rfl⟩
    cases hblock with
    | @empty blanks hblank hline =>
        rw [List.append_assoc]
        exact .empty hblank hline
    | @filled blanks _ hblank hline hopen hfirst =>
        have hnone := not_prefix_append hopen tail
        have hcut := Text.cutAt?_exchange hfirst tail
        rw [List.append_assoc] at hnone hcut
        rw [List.append_assoc _ ('\n' :: (yaml ++ '\n' :: delimiter)), List.cons_append,
          List.append_assoc yaml]
        refine .filled hblank hline hnone fun x y hxy => ?_
        exact Text.length_le_of_cutAt? hcut (by simpa using hxy)

theorem split?_eq_some_iff :
    split? content = some (yaml, body) ↔
      ∃ tail, Opens content yaml tail ∧ IsBehindLine tail body := by
  simp only [opens_iff, isBehindLine_iff]
  constructor
  · intro h
    obtain ⟨block, tail, hblock, hcontent, rfl⟩ := exists_block_of_split? h
    exact ⟨tail, ⟨block, hblock, hcontent⟩, rfl⟩
  · rintro ⟨tail, ⟨block, hblock, rfl⟩, rfl⟩
    exact hblock.split?_append tail

/-! ## The offsets -/

/-- The body takes up the bytes from its offset on. -/
theorem bodyOffset_eq_sub (h : split? content = some (yaml, body)) :
    body <:+ content ∧
      bodyOffset content = .ok ((Text.encode content).size - (Text.encode body).size) := by
  have hparts := front_append_body content
  rw [body_of_split? h] at hparts
  refine ⟨⟨_, hparts⟩, ?_⟩
  rw [bodyOffset_eq, Text.size_encode, Text.size_encode]
  conv_rhs => rw [← hparts, Text.byteLength_append, Nat.add_sub_cancel]

theorem bodyOffset_of_split?_eq_none (h : split? content = none) : bodyOffset content = .ok 0 := by
  rw [bodyOffset_eq, front_of_split?_eq_none h]
  rfl

/-- Wherever parts are found, the text can be cut there. -/
theorem fitsIn_of_locate? (content : Text) :
    ∃ found, locate? content = .ok found ∧ ∀ place ∈ found, place.FitsIn content := by
  rcases locate?_cases content with ⟨-, hlocate⟩ | ⟨before, yaml, after, body, rfl, -, hlocate⟩
  · exact ⟨none, hlocate, nofun⟩
  · refine ⟨_, hlocate, ?_⟩
    rintro _ ⟨⟩
    have hbody := Text.isBoundary_append (before ++ yaml ++ after) body
    refine ⟨?_, ?_, ?_, ?_, ?_, hbody⟩
    · rw [Text.byteLength_append]
      exact Nat.le_add_right _ _
    · rw [Text.byteLength_append (before ++ yaml)]
      exact Nat.le_add_right _ _
    · rw [Text.size_encode]
      exact hbody.le_byteLength
    · rw [List.append_assoc, List.append_assoc]
      exact Text.isBoundary_append before _
    · rw [List.append_assoc (before ++ yaml)]
      exact Text.isBoundary_append (before ++ yaml) _

/-! ## Notes taken apart -/

/-- A note is taken apart as the grammar says, and the offsets of its parts can be relied on. -/
theorem cutOut?_grammar (content : Text) :
    cutOut? content = .ok (split? content) ∧
      (∀ yaml body, split? content = some (yaml, body) ↔
        ∃ tail, Opens content yaml tail ∧ IsBehindLine tail body) ∧
      (∀ yaml body, split? content = some (yaml, body) → body <:+ content ∧
        bodyOffset content = .ok ((Text.encode content).size - (Text.encode body).size)) ∧
      (split? content = none → bodyOffset content = .ok 0) ∧
      ∃ found, locate? content = .ok found ∧ ∀ place ∈ found, place.FitsIn content :=
  ⟨cutOut?_eq content, fun _ _ => split?_eq_some_iff, fun _ _ => bodyOffset_eq_sub,
    bodyOffset_of_split?_eq_none, fitsIn_of_locate? content⟩

/-- Characters of several bytes stand before, in and behind the block, and then a block that is
closed at once has no line behind it. -/
theorem cutOut?_wide_characters :
    (∃ tail, Opens "---\u3000\nä: 1\n---é\nß".toList "ä: 1".toList tail ∧
        IsBehindLine tail "ß".toList) ∧
      bodyOffset "---\u3000\nä: 1\n---é\nß".toList = .ok 19 ∧
      bodyOffset "---\n---é".toList = .ok 9 ∧ bodyOffset "---é\n---\n".toList = .ok 0 := by
  have hfilled : split? "---\u3000\nä: 1\n---é\nß".toList = some ("ä: 1".toList, "ß".toList) := by
    decide +kernel
  have hempty : split? "---\n---é".toList = some ([], []) := by decide +kernel
  have hnone : split? "---é\n---\n".toList = none := by decide +kernel
  obtain ⟨-, hgrammar, hbody, -⟩ := cutOut?_grammar "---\u3000\nä: 1\n---é\nß".toList
  obtain ⟨-, -, hbody', -⟩ := cutOut?_grammar "---\n---é".toList
  obtain ⟨-, -, -, hzero, -⟩ := cutOut?_grammar "---é\n---\n".toList
  exact ⟨(hgrammar _ _).mp hfilled, (hbody _ _ hfilled).2, (hbody' _ _ hempty).2, hzero hnone⟩

end NoteLinks.FrontMatter
