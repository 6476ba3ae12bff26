/-
# Bodies put together from links

The links of a body are found by two scans, and each of them also comes across the links of the
other format and the text between the links. A body may be put together from links and stretches
of text in any order. If only its links have opening brackets, no link is found but where one of
its parts begins: from the second bracket of a wikilink or from within a label nothing goes on to
a link, whatever closing brackets and parentheses follow. So what is found is what the parts link.
-/
import NoteLinks.Proofs.Note.Scans

namespace NoteLinks.Link

/-- The target of a wikilink is not blank and has neither brackets nor bars. -/
structure IsWikiTarget (t : Text) : Prop where
  not_blank : Text.isBlankText t = false
  clear : ∀ c ∈ t, c ∉ ['[', ']', '|']

theorem IsWikiTarget.ne_nil {t : Text} (h : IsWikiTarget t) : t ≠ [] := by
  rintro rfl
  cases h.not_blank

/-- A label is not empty and has no brackets. -/
structure IsLabel (t : Text) : Prop where
  ne_nil : t ≠ []
  clear : ∀ c ∈ t, c ∉ ['[', ']']

/-- A part of a body. -/
inductive Part
  /-- A stretch of text without opening bracket. -/
  | plain (t : Text) (hbare : '[' ∉ t)
  /-- A wikilink, with what is added to its target. -/
  | wikilink (target added : Text) (htarget : IsWikiTarget target) (hadded : IsAlias added)
      (hbare : '[' ∉ added)
  /-- A label with a target in parentheses, whatever this is the path of. -/
  | markdown (label target : Text) (hlabel : IsLabel label) (hbare : '[' ∉ target)
      (hclosed : ')' ∉ target)

namespace Part

/-- The part as it stands in the body. -/
def text : Part → Text
  | plain t _ => t
  | wikilink target added .. => '[' :: '[' :: (target ++ (added ++ [']', ']']))
  | markdown label target .. => '[' :: label ++ ']' :: '(' :: (target ++ [')'])

/-- The target of a part that is a link in a format, as it is written. -/
def linked? : LinkFormat → Part → Option Text
  | .wikilink, wikilink target .. => some target
  | .markdown, markdown _ target .. => if IsNotePath target then some target else none
  | _, _ => none

/-- No target is blank. -/
theorem trim_ne_nil_of_linked? {format : LinkFormat} {part : Part} {written : Text}
    (h : part.linked? format = some written) : Text.trim written ≠ [] := by
  intro hnil
  have hblank := Text.trim_eq_nil_iff.mp hnil
  cases part with
  | plain => cases format <;> cases h
  | wikilink target added htarget =>
      cases format with
      | markdown => cases h
      | wikilink =>
          obtain rfl := Option.some.inj h
          rw [htarget.not_blank] at hblank
          cases hblank
  | markdown label target =>
      cases format with
      | wikilink => cases h
      | markdown =>
          rw [linked?] at h
          split at h
          next hpath =>
            obtain rfl := Option.some.inj h
            obtain ⟨stem, -, rfl⟩ := hpath
            cases List.all_eq_true.mp hblank 'd' (by simp)
          next => cases h

/-! ## Scanning a part -/

/-- The scan for the links of a format finds a part that is one whole. -/
theorem scanFor_text_append {format : LinkFormat} {part : Part} {written : Text}
    (h : part.linked? format = some written) (t : Text) :
    scanFor format (part.text ++ t) = some ⟨written, part.text.length⟩ := by
  cases part with
  | plain => cases format <;> cases h
  | wikilink target added htarget hadded =>
      cases format with
      | markdown => cases h
      | wikilink =>
          obtain rfl := Option.some.inj h
          have hclear : ∀ c ∈ target, c ≠ ']' ∧ c ≠ '|' := by
            intro c hc
            have hnot := htarget.clear c hc
            simp only [List.mem_cons, not_or] at hnot
            exact ⟨hnot.2.1, hnot.2.2.1⟩
          have hscan := recogniseWiki_append htarget.ne_nil hclear hadded t
          simpa [scanFor, text, Nat.add_assoc] using hscan
  | markdown label target hlabel hbare hclosed =>
      cases format with
      | wikilink => cases h
      | markdown =>
          rw [linked?] at h
          split at h
          next hpath =>
            obtain rfl := Option.some.inj h
            have hclose : ']' ∉ label := fun hmem => hlabel.clear ']' hmem (by decide)
            have hscan := recogniseMarkdown_append hlabel.ne_nil hclose hclosed t
            rw [if_pos hpath] at hscan
            simpa [scanFor, text, Nat.add_assoc] using hscan
          next => cases h

/-- The scan passes over the other parts, and finds nothing that begins in one of them. -/
theorem hits_text_append_of_none {format : LinkFormat} {part : Part}
    (h : part.linked? format = none) (t : Text) :
    Text.hits (scanFor format) (part.text ++ t) = Text.hits (scanFor format) t := by
  cases part with
  | plain u hbare => exact hits_scanFor_append format hbare t
  | wikilink target added htarget hadded hbare =>
      cases format with
      | wikilink => cases h
      | markdown =>
          have hopen : '[' ∉ target ++ added := by
            simpa [hbare] using fun hmem => htarget.clear '[' hmem (by decide)
          have hclose : ']' ∉ target ++ added := by
            simpa [hadded.not_mem] using fun hmem => htarget.clear ']' hmem (by decide)
          have hskip := hits_markdown_wikilink_append (by simp [htarget.ne_nil]) hopen hclose t
          simpa [text] using hskip
  | markdown label target hlabel hbare hclosed =>
      have hopen : '[' ∉ label := fun hmem => hlabel.clear '[' hmem (by decide)
      have hclose : ']' ∉ label := fun hmem => hlabel.clear ']' hmem (by decide)
      have hinner : '[' ∉ label ++ ']' :: '(' :: (target ++ [')']) := by simp [hopen, hbare]
      cases format with
      | wikilink =>
          have hskip := hits_wikilink_bracket_append (by simp) hinner t
          simpa [text] using hskip
      | markdown =>
          rw [linked?] at h
          split at h
          next => cases h
          next hother =>
            have hscan := recogniseMarkdown_append hlabel.ne_nil hclose hclosed t
            rw [if_neg hother] at hscan
            have hskip : Text.hits (scanFor .markdown) _ = _ := Text.hits_cons_of_none hscan
            simpa [text] using hskip.trans (by simpa using hits_scanFor_append .markdown hinner t)

theorem hits_text_append (format : LinkFormat) (part : Part) (t : Text) :
    Text.hits (scanFor format) (part.text ++ t) =
      (part.linked? format).toList ++ Text.hits (scanFor format) t := by
  cases h : part.linked? format with
  | none => exact hits_text_append_of_none h t
  | some written =>
      refine Text.hits_append_of_some ?_ (scanFor_text_append h t)
      cases part with
      | plain => cases format <;> cases h
      | wikilink => exact List.cons_ne_nil _ _
      | markdown => exact List.cons_ne_nil _ _

/-- The scans of a body find what its parts link. -/
theorem hits_flatMap_text (format : LinkFormat) (parts : List Part) :
    Text.hits (scanFor format) (parts.flatMap text) = parts.filterMap (linked? format) := by
  induction parts with
  | nil => rfl
  | cons part parts ih =>
      rw [List.flatMap_cons, hits_text_append, ih, List.filterMap_cons]
      cases part.linked? format <;> rfl

end Part

/-- The links of a body are the targets of its parts that are links, each once and in ascending
order. -/
theorem targets_flatMap_text (parts : List Part) :
    (targets (parts.flatMap Part.text)).Pairwise (· < ·) ∧
      ∀ name, name ∈ targets (parts.flatMap Part.text) ↔
        ∃ part ∈ parts, ∃ format written,
          part.linked? format = some written ∧ Text.trim written = name := by
  refine ⟨KeySet.ascending _, fun name => ?_⟩
  simp only [mem_targets_iff, Part.hits_flatMap_text, List.mem_filterMap]
  constructor
  · rintro ⟨-, format, written, ⟨part, hpart, hlinked⟩, hname⟩
    exact ⟨part, hpart, format, written, hlinked, hname⟩
  · rintro ⟨part, hpart, format, written, hlinked, rfl⟩
    exact ⟨Part.trim_ne_nil_of_linked? hlinked, format, written, ⟨part, hpart, hlinked⟩, rfl⟩

/-- Links side by side, with closing brackets and parentheses in the text, in an alias and in a
target. -/
theorem targets_among_stray_brackets :
    let parts : List Part :=
      [.plain "x] (".toList (by decide),
        .wikilink " Rust ".toList "|a(b".toList ⟨by decide, by simp⟩
          (.named _ (by decide) (by decide)) (by decide),
        .markdown "c".toList "d](e.md".toList ⟨by decide, by simp⟩ (by decide) (by decide),
        .markdown "f".toList ".md".toList ⟨by decide, by simp⟩ (by decide) (by decide)]
    parts.flatMap Part.text = "x] ([[ Rust |a(b]][c](d](e.md)[f](.md)".toList ∧
      (targets (parts.flatMap Part.text)).Pairwise (· < ·) ∧
      "Rust".toList ∈ targets (parts.flatMap Part.text) ∧
      "d](e.md".toList ∈ targets (parts.flatMap Part.text) ∧
      ".md".toList ∉ targets (parts.flatMap Part.text) := by
  intro parts
  obtain ⟨hascending, hmem⟩ := targets_flatMap_text parts
  refine ⟨rfl, hascending, ?_, ?_, ?_⟩
  · exact (hmem _).mpr ⟨_, .tail _ (.head _), .wikilink, " Rust ".toList, rfl, rfl⟩
  · exact (hmem _).mpr ⟨_, .tail _ (.tail _ (.head _)), .markdown, "d](e.md".toList, rfl, rfl⟩
  · decide +kernel

end NoteLinks.Link
