/-
# How a link may be written

`IsLinkTo` lists the texts that are a link to a note, given its path and title.
The search for an existing link comes down to it: a text is found to have a link
to a note exactly if one of these texts stands somewhere in it.
-/
import NoteLinks.Insertion.Existing
import NoteLinks.Proofs.LinkFormat
import NoteLinks.Proofs.Note.Link

namespace NoteLinks.Insertion

/-! ## Paths and links as they are written -/

/-- A path as it may be written in a link: any blanks may stand for a space. -/
inductive Spells : Text → Text → Prop
  | nil : Spells [] []
  | char {c : Char} {path written : Text} (hc : c ≠ ' ') (h : Spells path written) :
      Spells (c :: path) (c :: written)
  | space {blanks path written : Text} (hblank : Text.isBlankText blanks = true)
      (h : Spells path written) : Spells (' ' :: path) (blanks ++ written)

theorem Spells.refl (path : Text) : Spells path path := by
  induction path with
  | nil => exact .nil
  | cons c path ih =>
      by_cases hc : c = ' '
      · subst hc
        have hspace : Text.isBlankText [' '] = true := rfl
        exact .space hspace ih
      · exact .char hc ih

/-- Two spaces in a row may be written like one. -/
theorem spells_space_space_iff {path written : Text} :
    Spells (' ' :: ' ' :: path) written ↔ Spells (' ' :: path) written := by
  constructor
  · rintro (_ | ⟨hc, -⟩ | ⟨hblank, h⟩)
    · exact absurd rfl hc
    · rcases h with _ | ⟨hc, -⟩ | ⟨hblank', h⟩
      · exact absurd rfl hc
      · rw [← List.append_assoc]
        refine .space ?_ h
        rw [Text.isBlankText, List.all_append, Bool.and_eq_true]
        exact ⟨hblank, hblank'⟩
  · intro h
    have hnone : Text.isBlankText [] = true := rfl
    exact .space hnone h

/-- Only blanks are added to a path. -/
theorem Spells.not_mem {path written : Text} (h : Spells path written) {c : Char}
    (hc : Text.isBlank c = false) (hpath : c ∉ path) : c ∉ written := by
  induction h with
  | nil => exact List.not_mem_nil
  | char _ _ ih =>
      rw [List.mem_cons, not_or] at hpath ⊢
      exact ⟨hpath.1, ih hpath.2⟩
  | @space blanks path written hblank _ ih =>
      rw [List.mem_append, not_or]
      refine ⟨fun hmem => ?_, ih (List.not_mem_of_not_mem_cons hpath)⟩
      rw [List.all_eq_true.mp hblank c hmem] at hc
      cases hc

/-- The texts that are a link to the note with a path and a title. -/
inductive IsLinkTo (path title : Text) : Text → Prop
  | wikilink {added : Text} (htitle : title ≠ []) (hadded : Link.IsAlias added) :
      IsLinkTo path title ('[' :: '[' :: title ++ added ++ [']', ']'])
  | markdown {label written : Text} (hlabel : label ≠ []) (hclosed : ']' ∉ label)
      (hwritten : Spells path written) :
      IsLinkTo path title ('[' :: label ++ ']' :: '(' :: written ++ [')'])

theorem IsLinkTo.exists_eq_cons {path title w : Text} (h : IsLinkTo path title w) :
    ∃ rest, w = '[' :: rest := by
  cases h with
  | wikilink => exact ⟨_, rfl⟩
  | markdown => exact ⟨_, rfl⟩

theorem IsLinkTo.exists_getLast? {path title w : Text} (h : IsLinkTo path title w) :
    ∃ c, w.getLast? = some c ∧ Text.isBlank c = false := by
  cases h with
  | @wikilink added _ _ =>
      refine ⟨']', ?_, rfl⟩
      rw [List.getLast?_append_of_ne_nil _ (by simp)]
      rfl
  | markdown => exact ⟨')', List.getLast?_concat, rfl⟩

theorem isLinkTo_render (format : LinkFormat) {path title : Text} (h : PlainNames path title) :
    IsLinkTo path title (format.render path title) := by
  cases format with
  | markdown => exact .markdown h.title_ne (h.title.not_mem (by decide)) (.refl path)
  | wikilink =>
      have hlink : IsLinkTo path title ('[' :: '[' :: title ++ [] ++ [']', ']']) :=
        .wikilink h.title_ne .none
      rwa [List.append_nil] at hlink

/-! ## What the search finds -/

theorem anySuffix_iff {test : Text → Bool} {t : Text} :
    anySuffix test t = true ↔ ∃ x y, t = x ++ y ∧ test y = true := by
  induction t with
  | nil =>
      rw [anySuffix]
      constructor
      · intro h
        exact ⟨[], [], rfl, h⟩
      · rintro ⟨x, y, hxy, h⟩
        rwa [(List.append_eq_nil_iff.mp hxy.symm).2] at h
  | cons c t ih =>
      rw [anySuffix, Bool.or_eq_true, ih]
      constructor
      · rintro (h | ⟨x, y, rfl, h⟩)
        · exact ⟨[], c :: t, rfl, h⟩
        · exact ⟨c :: x, y, rfl, h⟩
      · rintro ⟨x, y, hxy, h⟩
        cases x with
        | nil => exact .inl (hxy ▸ h)
        | cons d x => exact .inr ⟨x, y, (List.cons.inj hxy).2, h⟩

theorem afterBlanks_iff {test : Text → Bool} {t : Text} :
    afterBlanks test t = true ↔
      ∃ blanks rest, t = blanks ++ rest ∧ Text.isBlankText blanks = true ∧ test rest = true := by
  induction t with
  | nil =>
      rw [afterBlanks]
      constructor
      · intro h
        exact ⟨[], [], rfl, rfl, h⟩
      · rintro ⟨blanks, rest, hsplit, -, h⟩
        rwa [(List.append_eq_nil_iff.mp hsplit.symm).2] at h
  | cons c t ih =>
      rw [afterBlanks, Bool.or_eq_true, Bool.and_eq_true, ih]
      constructor
      · rintro (h | ⟨hc, blanks, rest, rfl, hblank, h⟩)
        · exact ⟨[], c :: t, rfl, rfl, h⟩
        · refine ⟨c :: blanks, rest, rfl, ?_, h⟩
          rw [Text.isBlankText, List.all_cons, hc]
          exact hblank
      · rintro ⟨blanks, rest, hsplit, hblank, h⟩
        cases blanks with
        | nil => exact .inl (hsplit ▸ h)
        | cons d blanks =>
            obtain ⟨rfl, ht⟩ := List.cons.inj hsplit
            rw [Text.isBlankText, List.all_cons, Bool.and_eq_true] at hblank
            exact .inr ⟨hblank.1, blanks, rest, ht, hblank.2, h⟩

theorem afterPath_iff {test : Text → Bool} {path t : Text} :
    afterPath test path t = true ↔
      ∃ written rest, t = written ++ rest ∧ Spells path written ∧ test rest = true := by
  induction path generalizing t with
  | nil =>
      rw [afterPath]
      constructor
      · intro h
        exact ⟨[], t, rfl, .nil, h⟩
      · rintro ⟨written, rest, rfl, ⟨⟩, h⟩
        exact h
  | cons c path ih =>
      unfold afterPath
      split
      next hc =>
        subst hc
        split
        next hspace =>
          cases path with
          | nil => cases hspace
          | cons d path =>
              obtain rfl : d = ' ' := by simpa using hspace
              simp only [ih, spells_space_space_iff]
        next =>
          rw [afterBlanks_iff]
          constructor
          · rintro ⟨blanks, rest, rfl, hblank, h⟩
            obtain ⟨written, rest, rfl, hwritten, h⟩ := ih.mp h
            exact ⟨blanks ++ written, rest, by simp, .space hblank hwritten, h⟩
          · rintro ⟨written, rest, rfl, hwritten, h⟩
            rcases hwritten with _ | ⟨hc, -⟩ | ⟨hblank, hwritten⟩
            · exact absurd rfl hc
            · exact ⟨_, _, by simp, hblank, ih.mpr ⟨_, rest, rfl, hwritten, h⟩⟩
      next hc =>
        cases t with
        | nil =>
            simp only [Bool.false_eq_true, false_iff]
            rintro ⟨written, rest, hsplit, hwritten, -⟩
            rw [(List.append_eq_nil_iff.mp hsplit.symm).1] at hwritten
            generalize hp : c :: path = p at hwritten
            generalize hw : ([] : Text) = w at hwritten
            rcases hwritten with _ | _ | ⟨hblank, hwritten⟩
            · cases hp
            · cases hw
            · exact hc (List.cons.inj hp).1
        | cons d t =>
            simp only [Bool.and_eq_true, beq_iff_eq, ih]
            constructor
            · rintro ⟨rfl, written, rest, rfl, hwritten, h⟩
              exact ⟨c :: written, rest, rfl, .char hc hwritten, h⟩
            · rintro ⟨written, rest, hsplit, hwritten, h⟩
              rcases hwritten with _ | ⟨-, hwritten⟩ | ⟨hblank, hwritten⟩
              · obtain ⟨rfl, rfl⟩ := List.cons.inj hsplit
                exact ⟨rfl, _, rest, rfl, hwritten, h⟩
              · exact absurd rfl hc

instance (path written : Text) : Decidable (Spells path written) :=
  decidable_of_iff (afterPath List.isEmpty path written = true) (by
    rw [afterPath_iff]
    constructor
    · rintro ⟨written, rest, rfl, hwritten, hrest⟩
      rwa [List.isEmpty_iff.mp hrest, List.append_nil]
    · intro hwritten
      exact ⟨written, [], (List.append_nil _).symm, hwritten, rfl⟩)

theorem isWikilinkTo_iff {title t : Text} :
    isWikilinkTo title t = true ↔
      ∃ added rest, Link.IsAlias added ∧
        t = '[' :: '[' :: title ++ added ++ ']' :: ']' :: rest := by
  rw [isWikilinkTo]
  constructor
  · intro h
    split at h
    next behind hdrop =>
      obtain ⟨added, rest, hadded, rfl⟩ := Link.startsWith_dropAlias_iff.mp h
      exact ⟨added, rest, hadded, by rw [Text.dropPrefix?_eq_some_iff.mp hdrop]; simp⟩
    next => cases h
  · rintro ⟨added, rest, hadded, rfl⟩
    rw [List.append_assoc, Text.dropPrefix?_append]
    exact Link.startsWith_dropAlias_iff.mpr ⟨added, rest, hadded, rfl⟩

theorem isMarkdownLinkTo_iff {path t : Text} :
    isMarkdownLinkTo path t = true ↔
      ∃ label written rest, label ≠ [] ∧ ']' ∉ label ∧ Spells path written ∧
        t = '[' :: label ++ ']' :: '(' :: written ++ ')' :: rest := by
  rw [isMarkdownLinkTo]
  constructor
  · intro h
    split at h
    next behind hdrop =>
      obtain ⟨label, hne, hclosed, rfl⟩ := Link.dropLabel?_eq_some_iff.mp hdrop
      obtain ⟨written, rest, rfl, hwritten, hend⟩ := afterPath_iff.mp h
      cases rest with
      | nil => simp at hend
      | cons c rest =>
          obtain rfl : c = ')' := by simpa using hend
          exact ⟨label, written, rest, hne, hclosed, hwritten, by simp⟩
    next => cases h
  · rintro ⟨label, written, rest, hne, hclosed, hwritten, rfl⟩
    have hdrop : Link.dropLabel? ('[' :: label ++ ']' :: '(' :: written ++ ')' :: rest) =
        some ('(' :: written ++ ')' :: rest) :=
      Link.dropLabel?_eq_some_iff.mpr ⟨label, hne, hclosed, by simp⟩
    rw [hdrop]
    exact afterPath_iff.mpr ⟨written, ')' :: rest, rfl, hwritten, rfl⟩

/-- A text has a link to a note exactly if such a link stands somewhere in it. -/
theorem linkExists_iff {content path title : Text} :
    linkExists content path title = true ↔
      ∃ x w y, content = x ++ w ++ y ∧ IsLinkTo path title w := by
  rw [linkExists, Bool.or_eq_true, Bool.and_eq_true, anySuffix_iff, anySuffix_iff]
  constructor
  · rintro (⟨htitle, x, t, rfl, h⟩ | ⟨x, t, rfl, h⟩)
    · obtain ⟨added, rest, hadded, rfl⟩ := isWikilinkTo_iff.mp h
      exact ⟨x, _, rest, by simp, .wikilink (by simpa using htitle) hadded⟩
    · obtain ⟨label, written, rest, hne, hclosed, hwritten, rfl⟩ := isMarkdownLinkTo_iff.mp h
      exact ⟨x, _, rest, by simp, .markdown hne hclosed hwritten⟩
  · rintro ⟨x, w, y, rfl, hw⟩
    cases hw with
    | wikilink htitle hadded =>
        refine .inl ⟨by simpa using htitle, x, _, by rw [List.append_assoc], ?_⟩
        exact isWikilinkTo_iff.mpr ⟨_, y, hadded, by simp⟩
    | markdown hne hclosed hwritten =>
        refine .inr ⟨x, _, by rw [List.append_assoc], ?_⟩
        exact isMarkdownLinkTo_iff.mpr ⟨_, _, y, hne, hclosed, hwritten, by simp⟩

theorem IsLinkTo.linkExists_of_isInfix {content path title w : Text} (hw : IsLinkTo path title w)
    (h : w <:+: content) : linkExists content path title = true := by
  obtain ⟨x, y, hsplit⟩ := h
  exact linkExists_iff.mpr ⟨x, w, y, hsplit.symm, hw⟩

theorem linkExists_of_isInfix {part content path title : Text} (hpart : part <:+: content)
    (h : linkExists part path title = true) : linkExists content path title = true := by
  obtain ⟨x, w, y, rfl, hw⟩ := linkExists_iff.mp h
  have hw' : w <:+: x ++ w ++ y := ⟨x, y, rfl⟩
  exact hw.linkExists_of_isInfix (hw'.trans hpart)

/-! ## The forms of an existing link -/

/-- A text has a link to a note exactly if it has the note's title in double
brackets, alone or with an alias, or a label followed by the path in parentheses,
where any blanks may stand for a space of the path. Text put around it takes no
link away. -/
theorem linkExists_iff_written (content path title : Text) :
    (linkExists content path title = true ↔
      (title ≠ [] ∧
        ('[' :: '[' :: title ++ [']', ']'] <:+: content ∨
          ∃ name, name ≠ [] ∧ ']' ∉ name ∧
            '[' :: '[' :: title ++ '|' :: name ++ [']', ']'] <:+: content)) ∨
      ∃ label written, label ≠ [] ∧ ']' ∉ label ∧ Spells path written ∧
        '[' :: label ++ ']' :: '(' :: written ++ [')'] <:+: content) ∧
    ∀ before behind, linkExists content path title = true →
      linkExists (before ++ content ++ behind) path title = true := by
  refine ⟨⟨?_, ?_⟩, ?_⟩
  · intro h
    obtain ⟨x, w, y, rfl, hw⟩ := linkExists_iff.mp h
    have hpart : w <:+: x ++ w ++ y := ⟨x, y, rfl⟩
    cases hw with
    | wikilink htitle hadded =>
        cases hadded with
        | none => exact .inl ⟨htitle, .inl (by simpa using hpart)⟩
        | named name hne hclosed => exact .inl ⟨htitle, .inr ⟨name, hne, hclosed, hpart⟩⟩
    | markdown hlabel hclosed hwritten =>
        exact .inr ⟨_, _, hlabel, hclosed, hwritten, hpart⟩
  · rintro (⟨htitle, hplain | ⟨name, hne, hclosed, hnamed⟩⟩ |
      ⟨label, written, hlabel, hclosed, hwritten, hpart⟩)
    · have hlink : IsLinkTo path title ('[' :: '[' :: title ++ [] ++ [']', ']']) :=
        .wikilink htitle .none
      exact hlink.linkExists_of_isInfix (by simpa using hplain)
    · have hlink : IsLinkTo path title ('[' :: '[' :: title ++ '|' :: name ++ [']', ']']) :=
        .wikilink htitle (.named name hne hclosed)
      exact hlink.linkExists_of_isInfix hnamed
    · have hlink : IsLinkTo path title ('[' :: label ++ ']' :: '(' :: written ++ [')']) :=
        .markdown hlabel hclosed hwritten
      exact hlink.linkExists_of_isInfix hpart
  · intro before behind h
    exact linkExists_of_isInfix ⟨before, behind, rfl⟩ h

/-- The blanks that stand for a space leave behind the tab that the path itself has
after it, and text around the link does not hide it. -/
theorem linkExists_written_with_tabs :
    Spells "a \t.md".toList "a\t\t.md".toList ∧
    linkExists "[x](a\t\t.md)".toList "a \t.md".toList [] = true ∧
    linkExists "see [".toList "a \t.md".toList [] = false ∧
    linkExists ("see [".toList ++ "[x](a\t\t.md)".toList ++ "]".toList)
      "a \t.md".toList [] = true := by
  have hwritten : Spells "a \t.md".toList "a\t\t.md".toList := by decide
  obtain ⟨hiff, haround⟩ := linkExists_iff_written "[x](a\t\t.md)".toList "a \t.md".toList []
  have hlink : linkExists "[x](a\t\t.md)".toList "a \t.md".toList [] = true :=
    hiff.mpr (.inr ⟨['x'], _, by decide, by decide, hwritten, [], [], rfl⟩)
  exact ⟨hwritten, hlink, by decide, haround "see [".toList "]".toList hlink⟩

end NoteLinks.Insertion
