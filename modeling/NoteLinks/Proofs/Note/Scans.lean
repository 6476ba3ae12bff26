/-
# Two scans for links

The links of a body are found by two scans, one for each format. The scan for the
links of a format finds a link that is rendered in this format whole, and what it
finds is the name of the note. The other scan passes over the link. Neither finds
anything where there is no opening bracket.
-/
import NoteLinks.Proofs.LinkFormat
import NoteLinks.Proofs.Note.Link
import NoteLinks.Proofs.Text.Scan
import NoteLinks.Proofs.Text.Trimming

namespace NoteLinks.Link

/-- A text that is not changed when it is read as the name in a link. -/
structure IsName (t : Text) : Prop where
  ne_nil : t ≠ []
  trimmed : Text.trim t = t
  clear : ∀ c ∈ t, c ∉ ['[', ']', '(', ')', '#', '|', '\n']

instance (t : Text) : Decidable (IsName t) :=
  have : Decidable (∀ c ∈ t, c ∉ ['[', ']', '(', ')', '#', '|', '\n']) :=
    List.decidableBAll (· ∉ ['[', ']', '(', ')', '#', '|', '\n']) t
  decidable_of_iff (t ≠ [] ∧ Text.trim t = t ∧ ∀ c ∈ t, c ∉ ['[', ']', '(', ')', '#', '|', '\n'])
    ⟨fun ⟨hne, htrim, hclear⟩ => ⟨hne, htrim, hclear⟩, fun ⟨hne, htrim, hclear⟩ =>
      ⟨hne, htrim, hclear⟩⟩

theorem IsName.not_mem {t : Text} (h : IsName t) {c : Char}
    (hc : c ∈ ['[', ']', '(', ')', '#', '|', '\n']) : c ∉ t := fun hmem => h.clear c hmem hc

theorem IsName.isPlain {t : Text} (h : IsName t) : IsPlain t := by
  have hall : ['[', ']', '(', ')', '\n'] ⊆ ['[', ']', '(', ')', '#', '|', '\n'] := by simp
  intro c hmem hc
  exact h.clear c hmem (hall hc)

/-- A path and a title from which a link is made that is read back. -/
structure NoteNames (path title : Text) : Prop where
  extension : ∃ stem, stem ≠ [] ∧ path = stem ++ ['.', 'm', 'd']
  title : IsName title
  path : IsName path

instance (path title : Text) : Decidable (NoteNames path title) :=
  decidable_of_iff ((∃ stem ∈ Text.dropSuffix? ['.', 'm', 'd'] path, stem ≠ []) ∧
      IsName title ∧ IsName path)
    ⟨fun ⟨⟨stem, hstem, hne⟩, htitle, hpath⟩ =>
        ⟨⟨stem, hne, Text.dropSuffix?_eq_some_iff.mp hstem⟩, htitle, hpath⟩,
      fun ⟨⟨stem, hne, hstem⟩, htitle, hpath⟩ =>
        ⟨⟨stem, Text.dropSuffix?_eq_some_iff.mpr hstem, hne⟩, htitle, hpath⟩⟩

theorem NoteNames.plain {path title : Text} (h : NoteNames path title) : PlainNames path title :=
  ⟨h.title.ne_nil, h.title.isPlain, h.path.isPlain⟩

/-- The name of the note in a link to it. -/
def nameInLink (format : LinkFormat) (path title : Text) : Text :=
  match format with
  | .markdown => path
  | .wikilink => title

theorem NoteNames.isName_nameInLink {path title : Text} (h : NoteNames path title)
    (format : LinkFormat) : IsName (nameInLink format path title) := by
  cases format with
  | markdown => exact h.path
  | wikilink => exact h.title

/-! ## Two scans -/

/-- The scan for the links of a format. -/
def scanFor : LinkFormat → Recogniser Text
  | .markdown => recogniseMarkdown
  | .wikilink => recogniseWiki

/-- The other one of the two formats. -/
def otherThan : LinkFormat → LinkFormat
  | .markdown => .wikilink
  | .wikilink => .markdown

section Scans

variable {format : LinkFormat} {path title : Text}

theorem scanFor_cons_of_ne (scanned : LinkFormat) {c : Char} (hc : c ≠ '[') (t : Text) :
    scanFor scanned (c :: t) = none := by
  cases scanned with
  | markdown => rw [scanFor, recogniseMarkdown, dropLabel?_cons_of_ne hc]
  | wikilink =>
      show recogniseWiki (c :: t) = none
      unfold recogniseWiki
      split
      next heq => exact absurd (List.cons.inj heq).1 hc
      next => rfl

theorem hits_scanFor_append (scanned : LinkFormat) {t : Text} (hbare : '[' ∉ t) (u : Text) :
    Text.hits (scanFor scanned) (t ++ u) = Text.hits (scanFor scanned) u :=
  Text.hits_append_of_none fun _ v hc =>
    scanFor_cons_of_ne scanned (fun heq => hbare (heq ▸ hc)) v

/-- The scan for the links of a format finds a link whole. -/
theorem scanFor_render_append (h : NoteNames path title) (y : Text) :
    scanFor format (format.render path title ++ y) =
      some ⟨nameInLink format path title, (format.render path title).length⟩ := by
  cases format with
  | markdown =>
      have hrender : LinkFormat.markdown.render path title ++ y =
          '[' :: title ++ ']' :: '(' :: (path ++ ')' :: y) := by
        simp [LinkFormat.render]
      have hlength : (LinkFormat.markdown.render path title).length =
          title.length + path.length + 4 := by
        simp [LinkFormat.render]
        omega
      rw [hrender, hlength, nameInLink]
      exact (recogniseMarkdown_append h.title.ne_nil (h.title.not_mem (by decide))
        (h.path.not_mem (by decide)) y).trans (if_pos h.extension)
  | wikilink =>
      have hclear : ∀ c ∈ title, c ≠ ']' ∧ c ≠ '|' := fun c hc =>
        ⟨fun heq => h.title.not_mem (by decide) (heq ▸ hc),
          fun heq => h.title.not_mem (by decide) (heq ▸ hc)⟩
      have hrender : LinkFormat.wikilink.render path title ++ y =
          '[' :: '[' :: (title ++ ([] ++ ']' :: ']' :: y)) := by
        simp [LinkFormat.render]
      have hlength : (LinkFormat.wikilink.render path title).length =
          title.length + ([] : Text).length + 4 := by
        simp [LinkFormat.render]
      rw [hrender, hlength, nameInLink]
      exact recogniseWiki_append h.title.ne_nil hclear .none y

/-- A label that is followed by something else than a parenthesis is no link. -/
theorem scanFor_markdown_label {label : Text} {c : Char} (hne : label ≠ []) (hclose : ']' ∉ label)
    (hc : c ≠ '(') (t : Text) : scanFor .markdown ('[' :: label ++ ']' :: c :: t) = none := by
  have hlabel : dropLabel? ('[' :: label ++ ']' :: c :: t) = some (c :: t) :=
    dropLabel?_eq_some_iff.mpr ⟨label, hne, hclose, rfl⟩
  show recogniseMarkdown ('[' :: label ++ ']' :: c :: t) = none
  unfold recogniseMarkdown
  split
  next heq =>
    rw [hlabel, Option.some.injEq] at heq
    exact absurd (List.cons.inj heq).1 hc
  next => rfl

/-- The scan for markdown links passes over a wikilink. -/
theorem hits_markdown_wikilink_append {inner : Text} (hne : inner ≠ []) (hopen : '[' ∉ inner)
    (hclose : ']' ∉ inner) (t : Text) :
    Text.hits (scanFor .markdown) ('[' :: '[' :: (inner ++ ']' :: ']' :: t)) =
      Text.hits (scanFor .markdown) t := by
  have hfirst : scanFor .markdown ('[' :: ('[' :: inner) ++ ']' :: ']' :: t) = none :=
    scanFor_markdown_label (by simp) (by simp [hclose]) (by decide) t
  have hsecond : scanFor .markdown ('[' :: inner ++ ']' :: ']' :: t) = none :=
    scanFor_markdown_label hne hclose (by decide) t
  have hrest : inner ++ ']' :: ']' :: t = inner ++ [']', ']'] ++ t := by simp
  calc Text.hits (scanFor .markdown) ('[' :: '[' :: (inner ++ ']' :: ']' :: t))
      = Text.hits (scanFor .markdown) ('[' :: (inner ++ ']' :: ']' :: t)) :=
        Text.hits_cons_of_none hfirst
    _ = Text.hits (scanFor .markdown) (inner ++ ']' :: ']' :: t) := Text.hits_cons_of_none hsecond
    _ = Text.hits (scanFor .markdown) t := by
        rw [hrest, hits_scanFor_append .markdown (by simp [hopen])]

/-- The scan for wikilinks passes over a bracket that has no other one behind it. -/
theorem hits_wikilink_bracket_append {inner : Text} (hne : inner ≠ []) (hopen : '[' ∉ inner)
    (t : Text) :
    Text.hits (scanFor .wikilink) ('[' :: (inner ++ t)) = Text.hits (scanFor .wikilink) t := by
  have hnone : scanFor .wikilink ('[' :: (inner ++ t)) = none := by
    show recogniseWiki ('[' :: (inner ++ t)) = none
    unfold recogniseWiki
    split
    next heq =>
      obtain ⟨c, inner, rfl⟩ := List.exists_cons_of_ne_nil hne
      obtain rfl : c = '[' := (List.cons.inj (List.cons.inj heq).2).1
      exact absurd List.mem_cons_self hopen
    next => rfl
  rw [Text.hits_cons_of_none hnone, hits_scanFor_append .wikilink hopen]

/-- The scan for the links of the other format passes over a link. -/
theorem hits_otherThan_render_append (h : NoteNames path title) (t : Text) :
    Text.hits (scanFor (otherThan format)) (format.render path title ++ t) =
      Text.hits (scanFor (otherThan format)) t := by
  have hopen : '[' ∉ title := h.title.not_mem (by decide)
  cases format with
  | markdown =>
      have hpath : '[' ∉ path := h.path.not_mem (by decide)
      have hinner : '[' ∉ title ++ ']' :: '(' :: path ++ [')'] := by simp [hopen, hpath]
      have hhits := hits_wikilink_bracket_append (by simp) hinner t
      simpa [otherThan, LinkFormat.render] using hhits
  | wikilink =>
      have hclose : ']' ∉ title := h.title.not_mem (by decide)
      have hhits := hits_markdown_wikilink_append h.title.ne_nil hopen hclose t
      simpa [otherThan, LinkFormat.render] using hhits

end Scans

/-- The links of a body are what the two scans find, without the blanks around it, unless
nothing is left. -/
theorem mem_targets_iff {body name : Text} :
    name ∈ targets body ↔
      name ≠ [] ∧ ∃ format, ∃ written ∈ Text.hits (scanFor format) body,
        Text.trim written = name := by
  rw [targets, KeySet.mem_toList_ofList, List.mem_filter, List.mem_map, and_comm]
  refine and_congr (by simp) ?_
  constructor
  · rintro ⟨written, hwritten, hname⟩
    rcases List.mem_append.mp hwritten with hwiki | hmarkdown
    · exact ⟨.wikilink, written, hwiki, hname⟩
    · exact ⟨.markdown, written, hmarkdown, hname⟩
  · rintro ⟨format, written, hwritten, hname⟩
    refine ⟨written, List.mem_append.mpr ?_, hname⟩
    cases format with
    | markdown => exact .inr hwritten
    | wikilink => exact .inl hwritten

end NoteLinks.Link
