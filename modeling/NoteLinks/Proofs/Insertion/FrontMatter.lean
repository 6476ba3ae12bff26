/-
# Front matter under insertions

The seam of an insertion is behind the closing delimiter, also where the body is empty and
blanks at the end of the note are taken off. So a block of front matter is read in the same
way after a pass, whatever is inserted under whatever heading. A note without front matter
gets none, unless names or the heading bring a line that starts with the delimiter.
-/
import NoteLinks.Proofs.Insertion.Body
import NoteLinks.Proofs.Insertion.Pass

namespace NoteLinks.Insertion

open FrontMatter (IsBlock delimiter split?)

variable {style : Style} {content : Text} {s : Suggestion} {e : Edit} {placement : Placement}

/-! ## Notes with front matter -/

/-- The seam of an insertion is behind the block. -/
theorem block_isPrefix_of_edit? {yaml block tail : Text} (hblock : IsBlock yaml block)
    (hedit : edit? style (block ++ tail) s = some (e, placement)) : block <+: e.front := by
  have hfront := hblock.isPrefix_front tail
  rcases (edit?_eq_some_iff.mp hedit).2 with ⟨position, hposition, rfl, -⟩ | ⟨-, rfl, -⟩
  · have hle := front_le_of_linkPosition? hposition
    rw [FrontMatter.length_front] at hle
    exact hfront.trans (List.take_prefix_take_left hle)
  · rcases Edit.listing_cases (block ++ tail) style.heading
      (style.format.render s.target s.targetTitle) with ⟨-, hnew⟩ | ⟨upper, last, rest, hitem⟩
    · -- The last dash of the delimiter keeps the block from being trimmed.
      rw [hnew]
      exact ⟨_, (Text.trimEnd_append_of_getLast? hblock.getLast? rfl tail).symm⟩
    · rw [hitem.front_eq, List.append_assoc]
      exact hfront.trans (List.prefix_append _ _)

/-- The YAML is the same after an insertion. -/
theorem exists_split?_after_of_edit? {yaml body : Text}
    (hedit : edit? style content s = some (e, placement))
    (h : split? content = some (yaml, body)) : ∃ body', split? e.after = some (yaml, body') := by
  obtain ⟨block, tail, hblock, rfl, -⟩ := FrontMatter.exists_block_of_split? h
  obtain ⟨rest, hrest⟩ := block_isPrefix_of_edit? hblock hedit
  have hafter : e.after = block ++ (rest ++ e.inserted ++ e.kept) := by
    rw [Edit.after, ← hrest]
    simp
  exact ⟨_, by rw [hafter, hblock.split?_append]⟩

/-! ## Passes -/

namespace Pass

variable {final : Text} {suggestions links : List Suggestion}

theorem exists_split? {yaml body : Text} (hpass : Pass style content suggestions links final)
    (h : split? content = some (yaml, body)) : ∃ body', split? final = some (yaml, body') := by
  induction hpass generalizing body with
  | done => exact ⟨body, h⟩
  | keep _ _ ih => exact ih h
  | insert hedit _ ih =>
      obtain ⟨body', hafter⟩ := exists_split?_after_of_edit? hedit h
      exact ih hafter

theorem split?_eq_none (hpass : Pass style content suggestions links final)
    (hnames : ∀ s ∈ suggestions, '\n' ∉ s.target ∧ '\n' ∉ s.targetTitle)
    (hline : '\n' ∉ Text.trim style.heading) (hstart : ¬ delimiter <+: Text.trim style.heading)
    (h : split? content = none) : split? final = none := by
  induction hpass with
  | done => exact h
  | keep _ _ ih => exact ih (List.forall_mem_cons.mp hnames).2 h
  | insert hedit _ ih =>
      obtain ⟨⟨htarget, htitle⟩, hnames⟩ := List.forall_mem_cons.mp hnames
      have hlink : '\n' ∉ style.format.render _ _ :=
        LinkFormat.not_mem_render (by decide) htarget htitle
      exact ih hnames (split?_after_of_edit? hlink hline hstart hedit h)

/-- The front matter that is read stays the same. -/
theorem read_eq_of_isSome (hpass : Pass style content suggestions links final)
    (h : (split? content).isSome = true) : FrontMatter.read final = FrontMatter.read content := by
  obtain ⟨⟨yaml, body⟩, hsplit⟩ := Option.isSome_iff_exists.mp h
  obtain ⟨body', hsplit'⟩ := hpass.exists_split? hsplit
  exact FrontMatter.read_congr (by rw [hsplit, hsplit', Option.map_some, Option.map_some])

theorem read_eq (hpass : Pass style content suggestions links final)
    (hnames : ∀ s ∈ suggestions, '\n' ∉ s.target ∧ '\n' ∉ s.targetTitle)
    (hline : '\n' ∉ Text.trim style.heading) (hstart : ¬ delimiter <+: Text.trim style.heading) :
    FrontMatter.read final = FrontMatter.read content := by
  cases hsplit : split? content with
  | none =>
      have hnone := hpass.split?_eq_none hnames hline hstart hsplit
      exact FrontMatter.read_congr (by rw [hnone, hsplit])
  | some parts => exact hpass.read_eq_of_isSome (by rw [hsplit]; rfl)

end Pass

/-- A pass leaves the YAML of front matter as it is, and so what is read of it, whatever is
inserted. A note without front matter gets none, if no name has a line feed and the heading
is a line that does not start with the delimiter. -/
theorem front_matter_survives_pass (style : Style) (content : Text)
    (suggestions : List Suggestion) :
    (∀ yaml body, split? content = some (yaml, body) →
        (∃ body', split? (Plan.make style content suggestions).content = some (yaml, body')) ∧
          FrontMatter.read (Plan.make style content suggestions).content =
            FrontMatter.read content) ∧
      (split? content = none →
        (∀ s ∈ suggestions, '\n' ∉ s.target ∧ '\n' ∉ s.targetTitle) →
        '\n' ∉ Text.trim style.heading → ¬ delimiter <+: Text.trim style.heading →
        split? (Plan.make style content suggestions).content = none) := by
  have hpass := pass_make style content suggestions
  refine ⟨fun yaml body h => ⟨hpass.exists_split? h, hpass.read_eq_of_isSome (by rw [h]; rfl)⟩, ?_⟩
  intro h hnames hline hstart
  exact hpass.split?_eq_none hnames hline hstart h

/-- A block that ends the note without a line feed, under a heading that is a delimiter, and
an opening line that is not closed. -/
theorem front_matter_survives_delimiter_heading :
    (∃ body, split? (Plan.make ⟨.wikilink, "---".toList⟩ "---\ntitle: A\n---".toList
        [suggestionOf "b.md".toList "B\n---".toList []]).content =
          some ("title: A".toList, body)) ∧
      (Plan.make ⟨.wikilink, "---".toList⟩ "---\ntitle: A\n---".toList
        [suggestionOf "b.md".toList "B\n---".toList []]).content =
          "---\ntitle: A\n---\n\n---\n\n- [[B\n---]]\n".toList ∧
      split? (Plan.make ⟨.markdown, defaultHeading⟩ "---\n".toList
        [suggestionOf "b.md".toList "--- B".toList []]).content = none := by
  have hblock := front_matter_survives_pass ⟨.wikilink, "---".toList⟩ "---\ntitle: A\n---".toList
    [suggestionOf "b.md".toList "B\n---".toList []]
  have hopen := front_matter_survives_pass ⟨.markdown, defaultHeading⟩ "---\n".toList
    [suggestionOf "b.md".toList "--- B".toList []]
  exact ⟨(hblock.1 "title: A".toList [] rfl).1, rfl, hopen.2 rfl (by decide) (by decide) (by decide)⟩

end NoteLinks.Insertion
