/-
# A section fills up

Every item looks for its section anew, in a text that the items before it have changed. But the
first one opens the section: it makes the section if there is none, puts in the blank line of an
empty one, and ends a last line that has no line feed. From then on the place for the next item is
behind the item before it, in front of the same lines. So the items of a section come in the order
in which they are listed, and what stands around them depends on the note and the heading alone.

Whether a section is there, and where it ends, is read from the lines of the body. An item is a
line that is neither blank nor a heading, hence the last one of a section always shows where the
next one goes.
-/
import NoteLinks.Proofs.Insertion.Change
import NoteLinks.Proofs.Note.Heading

namespace NoteLinks.Insertion

variable {content heading line link : Text} {level : Nat}

/-! ## Lines and where a section ends -/

theorem closesSection_of_isBlankText (h : Text.isBlankText line = true) :
    closesSection level line = false := by
  cases line with
  | nil => rfl
  | cons c line =>
      have hc : c ≠ '#' := by
        rintro rfl
        cases List.all_eq_true.mp h '#' List.mem_cons_self
      rw [closesSection, Heading.level?_cons_of_ne hc]

theorem closesSection_item (level : Nat) (link : Text) :
    closesSection level (item link) = false := by
  rw [closesSection, item, List.cons_append, Heading.level?_cons_of_ne (by decide)]

/-- A line feed at the end of a line does not show. -/
theorem closesSection_append_missingLineFeed (level : Nat) (line : Text) :
    closesSection level (line ++ missingLineFeed line) = closesSection level line := by
  rw [missingLineFeed]
  split
  next => rw [List.append_nil]
  next => rw [closesSection, closesSection, Heading.level?_append_newline]

theorem isEnded_item (hlink : '\n' ∉ link) : Text.IsEnded (item link) :=
  ⟨'-' :: ' ' :: link, by simp [hlink], rfl⟩

theorem not_isBlankText_item (link : Text) : Text.isBlankText (item link) = false := rfl

theorem isEnded_append_missingLineFeed {body : Text} (h : line ∈ Text.lines body) :
    Text.IsEnded (line ++ missingLineFeed line) := by
  rw [missingLineFeed]
  rcases Text.not_mem_or_isEnded h with hline | ⟨row, hrow, rfl⟩
  · rw [if_neg fun hlast => hline (List.mem_of_getLast? hlast)]
    exact ⟨line, hline, rfl⟩
  · rw [if_pos List.getLast?_concat, List.append_nil]
    exact ⟨row, hrow, rfl⟩

/-- The lines behind a section and the blank lines at its end. -/
def EndsSection (level : Nat) (others : List Text) : Prop :=
  ∃ blank behind, others = blank ++ behind ∧ (∀ l ∈ blank, Text.isBlankText l = true) ∧
    ∀ l, behind.head? = some l → closesSection level l = true

theorem endsSection_nil (level : Nat) : EndsSection level [] :=
  ⟨[], [], rfl, List.forall_mem_nil _, by simp⟩

/-! ## Taking the lines of a body apart -/

theorem splitBlankEnd_spec (lines : List Text) :
    (∀ l ∈ (splitBlankEnd lines).2, Text.isBlankText l = true) ∧
      ∀ l, (splitBlankEnd lines).1.getLast? = some l → Text.isBlankText l = false := by
  induction lines with
  | nil => simp [splitBlankEnd]
  | cons line lines ih =>
      rw [splitBlankEnd]
      split
      next blank hsplit =>
        rw [hsplit] at ih
        split
        next hline => exact ⟨List.forall_mem_cons.mpr ⟨hline, ih.1⟩, by simp⟩
        next hline => exact ⟨ih.1, by simpa using hline⟩
      next filled blank hne hsplit =>
        rw [hsplit] at ih
        refine ⟨ih.1, fun l hl => ih.2 l ?_⟩
        cases filled with
        | nil => exact absurd rfl hne
        | cons first filled => rwa [List.getLast?_cons_cons] at hl

theorem splitBlankEnd_append_eq {filled blank : List Text}
    (hfilled : ∀ l, filled.getLast? = some l → Text.isBlankText l = false)
    (hblank : ∀ l ∈ blank, Text.isBlankText l = true) :
    splitBlankEnd (filled ++ blank) = (filled, blank) := by
  induction filled with
  | nil =>
      induction blank with
      | nil => rfl
      | cons line blank ih =>
          obtain ⟨hline, hblank⟩ := List.forall_mem_cons.mp hblank
          have hrest : splitBlankEnd blank = ([], blank) := ih hblank
          rw [List.nil_append, splitBlankEnd, hrest]
          exact if_pos hline
  | cons line filled ih =>
      rw [List.cons_append, splitBlankEnd]
      cases filled with
      | nil =>
          have hline : Text.isBlankText line = false := hfilled line rfl
          rw [ih (by simp), hline]
          rfl
      | cons next filled =>
          rw [ih fun l hl => hfilled l (by rwa [List.getLast?_cons_cons])]

theorem splitAtHeading?_append {above below : List Text}
    (habove : ∀ l ∈ above, Text.trimEnd l ≠ heading) (hline : Text.trimEnd line = heading) :
    splitAtHeading? heading (above ++ line :: below) = some (above, line, below) := by
  induction above with
  | nil => rw [List.nil_append, splitAtHeading?, if_pos hline]
  | cons first above ih =>
      obtain ⟨hfirst, habove⟩ := List.forall_mem_cons.mp habove
      rw [List.cons_append, splitAtHeading?, if_neg hfirst, ih habove]
      rfl

theorem ne_of_splitAtHeading? {lines above below : List Text}
    (h : splitAtHeading? heading lines = some (above, line, below)) :
    ∀ l ∈ above, Text.trimEnd l ≠ heading := by
  induction lines generalizing above with
  | nil => cases h
  | cons first lines ih =>
      rw [splitAtHeading?] at h
      split at h
      next =>
        obtain ⟨rfl, -⟩ := Prod.mk.inj (Option.some.inj h)
        exact List.forall_mem_nil _
      next hfirst =>
        obtain ⟨⟨above', line', below'⟩, hsplit, heq⟩ := Option.map_eq_some_iff.mp h
        obtain ⟨rfl, rfl, rfl⟩ : first :: above' = above ∧ line' = line ∧ below' = below := by
          simpa using heq
        exact List.forall_mem_cons.mpr ⟨hfirst, ih hsplit⟩

/-- A section is divided behind its last line that is not blank. -/
theorem divideSection_eq {inside others : List Text} (hlevel : Heading.level? heading = some level)
    (hinside : ∀ l ∈ inside, closesSection level l = false) (hothers : EndsSection level others)
    (hlast : ∀ l, inside.getLast? = some l → Text.isBlankText l = false) :
    Edit.divideSection heading (inside ++ others) = (inside, others) := by
  obtain ⟨blank, behind, rfl, hblank, hbehind⟩ := hothers
  have hopen : ∀ l ∈ inside ++ blank, (!closesSection level l) = true := by
    intro l hl
    rcases List.mem_append.mp hl with hl | hl
    · rw [hinside l hl]
      rfl
    · rw [closesSection_of_isBlankText (hblank l hl)]
      rfl
  have hstop : behind.takeWhile (fun l => !closesSection level l) = [] ∧
      behind.dropWhile (fun l => !closesSection level l) = behind := by
    cases behind with
    | nil => exact ⟨rfl, rfl⟩
    | cons l behind => simp [hbehind l rfl]
  rw [← List.append_assoc, Edit.divideSection]
  simp only [hlevel, Option.getD_some, List.takeWhile_append_of_pos hopen,
    List.dropWhile_append_of_pos hopen, hstop, List.append_nil]
  rw [splitBlankEnd_append_eq hlast hblank]

/-- What `divideSection` gives for the lines behind a heading line. -/
theorem divideSection_spec (hlevel : Heading.level? heading = some level) (below : List Text) :
    ∃ inside others, below = inside ++ others ∧ (∀ l ∈ inside, closesSection level l = false) ∧
      EndsSection level others ∧
      ∀ l, inside.getLast? = some l → Text.isBlankText l = false := by
  obtain ⟨hblank, hfilled⟩ := splitBlankEnd_spec (below.takeWhile fun l => !closesSection level l)
  have hparts := Edit.divideSection_append heading below
  simp only [Edit.divideSection, hlevel, Option.getD_some] at hparts
  have hinside := Edit.splitBlankEnd_append (below.takeWhile fun l => !closesSection level l)
  refine ⟨_, _, hparts.symm, fun l hl => ?_, ⟨_, _, rfl, hblank, fun l hl => ?_⟩, hfilled⟩
  · have hmem : l ∈ below.takeWhile fun l => !closesSection level l :=
      hinside ▸ List.mem_append_left _ hl
    simpa using List.mem_takeWhile_imp hmem
  · have hstop := List.head?_dropWhile_not (fun l => !closesSection level l) below
    rw [hl] at hstop
    simpa using hstop

/-! ## Bodies with a section -/

/-- The lines of a body with a section: those above the heading line, the heading line, those of
the section that stand in front of the place for its next item, and all others. -/
structure Layout where
  above : List Text
  line : Text
  inside : List Text
  others : List Text

namespace Layout

/-- The lines from the top. -/
def lines (p : Layout) : List Text := p.above ++ p.line :: (p.inside ++ p.others)

/-- What stands in front of the place for the next item. -/
def upper (p : Layout) : Text := (p.above ++ p.line :: p.inside).flatten

/-- What stands behind the place for the next item. -/
def lower (p : Layout) : Text := p.others.flatten

/-- The layout with items at their place. -/
def fill (p : Layout) (links : List Text) : Layout :=
  { p with inside := p.inside ++ links.map item }

/-- The section is the first one under its heading, it has no heading line of the level or a
higher one, and there are only blank lines between the place for items and the next such line. -/
structure IsSection (heading : Text) (level : Nat) (p : Layout) : Prop where
  above_ne : ∀ l ∈ p.above, Text.trimEnd l ≠ heading
  line_eq : Text.trimEnd p.line = heading
  inside : ∀ l ∈ p.inside, closesSection level l = false
  others : EndsSection level p.others

/-- The place for items is at the start of a line. -/
structure IsOpen (p : Layout) : Prop where
  ended : ∀ l ∈ p.above ++ p.line :: p.inside, Text.IsEnded l
  lines_others : Text.lines p.lower = p.others

variable {p : Layout} {links : List Text}

theorem flatten_lines (p : Layout) : p.lines.flatten = p.upper ++ p.lower := by
  simp [lines, upper, lower]

theorem upper_fill (p : Layout) (links : List Text) :
    (p.fill links).upper = p.upper ++ links.flatMap item := by
  simp [upper, fill, List.flatMap_def]

theorem flatten_lines_fill (p : Layout) (links : List Text) :
    (p.fill links).lines.flatten = p.upper ++ links.flatMap item ++ p.lower := by
  rw [flatten_lines, upper_fill]
  rfl

theorem IsSection.fill (h : p.IsSection heading level) (links : List Text) :
    (p.fill links).IsSection heading level := by
  refine ⟨h.above_ne, h.line_eq, fun l hl => ?_, h.others⟩
  rcases List.mem_append.mp hl with hl | hl
  · exact h.inside l hl
  · obtain ⟨link, -, rfl⟩ := List.mem_map.mp hl
    exact closesSection_item level link

theorem IsOpen.fill (h : p.IsOpen) (hlinks : ∀ link ∈ links, '\n' ∉ link) :
    (p.fill links).IsOpen := by
  refine ⟨fun l hl => ?_, h.lines_others⟩
  have hmem : l ∈ p.above ++ p.line :: p.inside ∨ l ∈ links.map item := by
    simpa [Layout.fill, or_assoc] using hl
  rcases hmem with hl | hl
  · exact h.ended l hl
  · obtain ⟨link, hlink, rfl⟩ := List.mem_map.mp hl
    exact isEnded_item (hlinks link hlink)

/-- The lines of an open layout are those of the text that they make up. -/
theorem IsOpen.lines_flatten (h : p.IsOpen) : Text.lines p.lines.flatten = p.lines := by
  rw [p.flatten_lines, upper, Text.lines_flatten_append h.ended, h.lines_others]
  simp [lines]

end Layout

/-! ## Where an item goes -/

section Place

variable {p : Layout} {links : List Text}

theorem exists_layout {above : List Text} (hlevel : Heading.level? heading = some level)
    (habove : ∀ l ∈ above, Text.trimEnd l ≠ heading) (hline : Text.trimEnd line = heading)
    (below : List Text) :
    ∃ p : Layout, p.above = above ∧ p.line = line ∧ p.inside ++ p.others = below ∧
      p.IsSection heading level ∧
      ∀ l, p.inside.getLast? = some l → Text.isBlankText l = false := by
  obtain ⟨inside, others, rfl, hinside, hothers, hlast⟩ := divideSection_spec hlevel below
  exact ⟨⟨above, line, inside, others⟩, rfl, rfl, rfl, ⟨habove, hline, hinside, hothers⟩, hlast⟩

/-- In a section with a line that is not blank the next item goes behind the last one of these. -/
theorem listLink_eq_of_last {last : Text} (hlevel : Heading.level? (Text.trim heading) = some level)
    (hlines : Text.lines (FrontMatter.body content) = p.lines)
    (hsection : p.IsSection (Text.trim heading) level) (hlast : p.inside.getLast? = some last)
    (hfilled : Text.isBlankText last = false) (link : Text) :
    listLink content heading link =
      FrontMatter.front content ++ (p.upper ++ missingLineFeed last ++ item link ++ p.lower) := by
  have hdivide : Edit.divideSection (Text.trim heading) (p.inside ++ p.others) =
      (p.inside, p.others) := by
    apply divideSection_eq hlevel hsection.inside hsection.others
    rw [hlast]
    rintro l ⟨⟩
    exact hfilled
  rw [← Edit.after_listing, Edit.listing, hlines, Layout.lines,
    splitAtHeading?_append hsection.above_ne hsection.line_eq]
  simp only [hdivide, hlast, Edit.after_nextItem]
  simp [Layout.upper, Layout.lower]

/-- In an empty section the first item goes behind a blank line. -/
theorem listLink_eq_of_nil (hlevel : Heading.level? (Text.trim heading) = some level)
    (hlines : Text.lines (FrontMatter.body content) = p.lines)
    (hsection : p.IsSection (Text.trim heading) level) (hnil : p.inside = []) (link : Text) :
    listLink content heading link = FrontMatter.front content ++
      (p.upper ++ missingLineFeed p.line ++ '\n' :: item link ++ spacedRest p.lower) := by
  have hdivide : Edit.divideSection (Text.trim heading) (p.inside ++ p.others) =
      (p.inside, p.others) := by
    apply divideSection_eq hlevel hsection.inside hsection.others
    rw [hnil]
    rintro l ⟨⟩
  have hnone : p.inside.getLast? = none := List.getLast?_eq_none_iff.mpr hnil
  rw [← Edit.after_listing, Edit.listing, hlines, Layout.lines,
    splitAtHeading?_append hsection.above_ne hsection.line_eq]
  simp only [hdivide, hnone, Edit.after_firstItem]
  simp [Layout.upper, Layout.lower, hnil]

/-- An item behind a line of the body leaves the front matter. -/
theorem front_and_body_of_listLink {x : Text}
    (hheading : ∃ l ∈ Text.lines (FrontMatter.body content), Text.trimEnd l = Text.trim heading)
    (hlink : '\n' ∉ link) (hx : listLink content heading link = FrontMatter.front content ++ x) :
    FrontMatter.front (listLink content heading link) = FrontMatter.front content ∧
      FrontMatter.body (listLink content heading link) = x := by
  obtain ⟨l, hmem, hl⟩ := hheading
  have hbody : FrontMatter.body (listLink content heading link) = x := by
    cases hsplit : FrontMatter.split? content with
    | none =>
        rcases Edit.listing_cases content heading link with ⟨hno, -⟩ | ⟨upper, last, rest, hitem⟩
        · exact absurd hl (hno l hmem)
        · have hnone := split?_after_item (by rwa [hitem.link_eq]) hitem hsplit
          rw [Edit.after_listing] at hnone
          rw [FrontMatter.body_of_split?_eq_none hnone, hx,
            FrontMatter.front_of_split?_eq_none hsplit, List.nil_append]
    | some parts =>
        have hsome : (FrontMatter.split? content).isSome = true := by rw [hsplit]; rfl
        have hne : FrontMatter.body content ≠ [] := by
          intro hnil
          rw [hnil] at hmem
          cases hmem
        rw [hx, FrontMatter.body_front_append hsome hne]
  refine ⟨FrontMatter.front_eq_of_append ?_, hbody⟩
  rw [hbody, hx]

/-! ## Items one after another -/

/-- The next item goes behind the items that are there. -/
theorem front_and_body_of_fill (hlevel : Heading.level? (Text.trim heading) = some level)
    (hsection : p.IsSection (Text.trim heading) level) (hopen : p.IsOpen) (hne : links ≠ [])
    (hlinks : ∀ link ∈ links, '\n' ∉ link) (hlink : '\n' ∉ link)
    (hbody : FrontMatter.body content = (p.fill links).lines.flatten) :
    FrontMatter.front (listLink content heading link) = FrontMatter.front content ∧
      FrontMatter.body (listLink content heading link) =
        (p.fill (links ++ [link])).lines.flatten := by
  have hlines : Text.lines (FrontMatter.body content) = (p.fill links).lines := by
    rw [hbody, (hopen.fill hlinks).lines_flatten]
  obtain ⟨start, last, rfl⟩ := (List.eq_nil_or_concat' links).resolve_left hne
  have hlast : (p.fill (start ++ [last])).inside.getLast? = some (item last) := by
    simp [Layout.fill]
  have hended : missingLineFeed (item last) = [] := if_pos List.getLast?_concat
  refine front_and_body_of_listLink ⟨p.line, ?_, hsection.line_eq⟩ hlink ?_
  · rw [hlines]
    exact List.mem_append_right p.above List.mem_cons_self
  · rw [listLink_eq_of_last hlevel hlines (hsection.fill _) hlast (not_isBlankText_item last),
      hended, Layout.flatten_lines_fill, Layout.upper_fill]
    simp [Layout.lower, Layout.fill]

/-- So a run of items stands behind the first of them, in their order. -/
theorem front_and_body_of_foldl (hlevel : Heading.level? (Text.trim heading) = some level)
    (hsection : p.IsSection (Text.trim heading) level) (hopen : p.IsOpen) (hne : links ≠ [])
    (hlinks : ∀ link ∈ links, '\n' ∉ link)
    (hbody : FrontMatter.body content = (p.fill links).lines.flatten) (next : List Text)
    (hnext : ∀ link ∈ next, '\n' ∉ link) :
    FrontMatter.front (next.foldl (fun t link => listLink t heading link) content) =
        FrontMatter.front content ∧
      FrontMatter.body (next.foldl (fun t link => listLink t heading link) content) =
        (p.fill (links ++ next)).lines.flatten := by
  induction next generalizing content links with
  | nil => exact ⟨rfl, by rw [List.append_nil]; exact hbody⟩
  | cons link next ih =>
      obtain ⟨hlink, hnext⟩ := List.forall_mem_cons.mp hnext
      obtain ⟨hfront, hbody⟩ :=
        front_and_body_of_fill hlevel hsection hopen hne hlinks hlink hbody
      have hlinks' : ∀ l ∈ links ++ [link], '\n' ∉ l :=
        List.forall_mem_append.mpr ⟨hlinks, List.forall_mem_singleton.mpr hlink⟩
      obtain ⟨hfront', hbody'⟩ := ih (by simp) hlinks' hbody hnext
      rw [List.foldl_cons]
      refine ⟨hfront'.trans hfront, ?_⟩
      rw [hbody', List.append_assoc, List.singleton_append]

/-! ## The first item -/

/-- Two parts of a text between which something is put in, if nothing else happens to the text
than that line feeds are put in there too and that blanks at its end are dropped. -/
def IsOpenedAt (content front back : Text) : Prop :=
  ∃ start rest feeds feeds' kept, content = start ++ rest ∧ front = start ++ feeds ∧
    back = feeds' ++ kept ∧ (∀ c ∈ feeds ++ feeds', c = '\n') ∧
    (kept = rest ∨ kept = [] ∧ Text.isBlankText rest = true)

theorem eq_newline_of_mem_missingLineFeed {c : Char} (h : c ∈ missingLineFeed line) : c = '\n' := by
  rw [missingLineFeed] at h
  split at h
  · cases h
  · exact List.mem_singleton.mp h

/-- Behind the first item of an empty section a line feed may be put in, and blanks are dropped. -/
theorem spacedRest_eq (rest : Text) :
    ∃ feeds kept, spacedRest rest = feeds ++ kept ∧ (feeds = [] ∨ feeds = ['\n']) ∧
      (kept = rest ∨ feeds = [] ∧ kept = [] ∧ Text.isBlankText rest = true) := by
  rw [spacedRest]
  split
  next hblank => exact ⟨[], [], rfl, .inl rfl, .inr ⟨rfl, rfl, hblank⟩⟩
  next =>
    split
    next => exact ⟨[], rest, rfl, .inl rfl, .inl rfl⟩
    next => exact ⟨['\n'], rest, rfl, .inr rfl, .inl rfl⟩

/-- Behind the first item of an empty section there are still only blank lines up to where the
section ends. -/
theorem endsSection_spacedRest (hlines : Text.lines p.lower = p.others)
    (hothers : EndsSection level p.others) :
    EndsSection level (Text.lines (spacedRest p.lower)) := by
  obtain ⟨feeds, kept, heq, hfeeds, hkept⟩ := spacedRest_eq p.lower
  rw [heq]
  rcases hkept with rfl | ⟨rfl, rfl, -⟩
  · rcases hfeeds with rfl | rfl
    · rwa [List.nil_append, hlines]
    · obtain ⟨blank, behind, hparts, hblank, hbehind⟩ := hothers
      refine ⟨['\n'] :: blank, behind, ?_, List.forall_mem_cons.mpr ⟨rfl, hblank⟩, hbehind⟩
      rw [List.singleton_append, Text.lines, if_pos rfl, hlines, hparts, List.cons_append]
  · exact endsSection_nil level

/-- The first item opens a place for all items: the lines above and below stay, the heading line
has its line feed, and between the item and the lines that have been there is nothing but line
feeds. -/
structure Opens (content heading : Text) (level : Nat) (p q : Layout) : Prop where
  above_eq : q.above = p.above
  line_eq : q.line = p.line ++ missingLineFeed p.line
  isSection : q.IsSection (Text.trim heading) level
  isOpen : q.IsOpen
  isOpenedAt : IsOpenedAt content (FrontMatter.front content ++ q.upper) q.lower
  listLink_eq : ∀ link, listLink content heading link =
    FrontMatter.front content ++ (q.fill [link]).lines.flatten

theorem eq_front_append (hlines : Text.lines (FrontMatter.body content) = p.lines) :
    content = FrontMatter.front content ++ p.upper ++ p.lower := by
  rw [List.append_assoc, ← p.flatten_lines, ← hlines, Text.flatten_lines,
    FrontMatter.front_append_body]

theorem lines_lower (hlines : Text.lines (FrontMatter.body content) = p.lines) :
    Text.lines p.lower = p.others := by
  have hparts : Text.lines (FrontMatter.body content) =
      (p.above ++ p.line :: p.inside) ++ p.others := by
    rw [hlines, Layout.lines]
    simp
  exact Text.lines_flatten_behind hparts

theorem trimEnd_append_missingLineFeed (line : Text) :
    Text.trimEnd (line ++ missingLineFeed line) = Text.trimEnd line := by
  rw [Text.trimEnd_append, if_pos]
  exact List.all_eq_true.mpr fun c hc => eq_newline_of_mem_missingLineFeed hc ▸ rfl

/-- The first item of an empty section. -/
theorem exists_open_of_nil (hlevel : Heading.level? (Text.trim heading) = some level)
    (hlines : Text.lines (FrontMatter.body content) = p.lines)
    (hsection : p.IsSection (Text.trim heading) level) (hnil : p.inside = []) :
    ∃ q, Opens content heading level p q := by
  have hmem : p.line ∈ Text.lines (FrontMatter.body content) :=
    hlines ▸ List.mem_append_right p.above List.mem_cons_self
  have hline : Text.IsEnded (p.line ++ missingLineFeed p.line) :=
    isEnded_append_missingLineFeed hmem
  let q : Layout := ⟨p.above, p.line ++ missingLineFeed p.line, [['\n']],
    Text.lines (spacedRest p.lower)⟩
  have hupper : q.upper = p.upper ++ (missingLineFeed p.line ++ ['\n']) := by
    simp [q, Layout.upper, hnil]
  have hlower : q.lower = spacedRest p.lower := Text.flatten_lines _
  refine ⟨q, rfl, rfl, ⟨hsection.above_ne, ?_, ?_, ?_⟩, ⟨?_, ?_⟩, ?_, fun link => ?_⟩
  · rw [trimEnd_append_missingLineFeed]
    exact hsection.line_eq
  · exact List.forall_mem_singleton.mpr rfl
  · exact endsSection_spacedRest (lines_lower hlines) hsection.others
  · refine List.forall_mem_append.mpr ⟨Text.isEnded_of_mem_before hlines, ?_⟩
    exact List.forall_mem_cons.mpr ⟨hline, List.forall_mem_singleton.mpr ⟨[], by simp, rfl⟩⟩
  · rw [hlower]
  · obtain ⟨feeds, kept, hrest, hfeeds, hkept⟩ := spacedRest_eq p.lower
    refine ⟨FrontMatter.front content ++ p.upper, p.lower, missingLineFeed p.line ++ ['\n'], feeds,
      kept, eq_front_append hlines, ?_, hlower.trans hrest, ?_, hkept.imp_right And.right⟩
    · rw [hupper, List.append_assoc]
    · intro c hc
      rw [List.append_assoc, List.mem_append, List.mem_append, List.mem_singleton] at hc
      rcases hc with hc | hc | hc
      · exact eq_newline_of_mem_missingLineFeed hc
      · exact hc
      · rcases hfeeds with rfl | rfl
        · cases hc
        · exact List.mem_singleton.mp hc
  · rw [listLink_eq_of_nil hlevel hlines hsection hnil, Layout.flatten_lines_fill, hupper, hlower]
    simp

/-- The first item that is put into a section behind a line that is not blank. -/
theorem exists_open_of_concat {start : List Text} {last : Text}
    (hlevel : Heading.level? (Text.trim heading) = some level)
    (hlines : Text.lines (FrontMatter.body content) = p.lines)
    (hsection : p.IsSection (Text.trim heading) level) (hinside : p.inside = start ++ [last])
    (hfilled : Text.isBlankText last = false) :
    ∃ q, Opens content heading level p q := by
  have hparts : Text.lines (FrontMatter.body content) =
      (p.above ++ p.line :: start) ++ last :: p.others := by
    rw [hlines, Layout.lines, hinside]
    simp
  have hbefore := Text.isEnded_of_mem_before hparts
  have hmem : last ∈ Text.lines (FrontMatter.body content) := by simp [hparts]
  have hended : Text.IsEnded (last ++ missingLineFeed last) :=
    isEnded_append_missingLineFeed hmem
  -- The heading line is not the last line, so it has its line feed.
  have hline : missingLineFeed p.line = [] := by
    obtain ⟨row, -, hrow⟩ := hbefore p.line (by simp)
    rw [hrow]
    exact if_pos List.getLast?_concat
  let q : Layout := ⟨p.above, p.line, start ++ [last ++ missingLineFeed last], p.others⟩
  have hupper : q.upper = p.upper ++ missingLineFeed last := by
    simp [q, Layout.upper, hinside]
  have hlast : p.inside.getLast? = some last := by rw [hinside, List.getLast?_concat]
  refine ⟨q, rfl, ?_, ⟨hsection.above_ne, hsection.line_eq, ?_, hsection.others⟩,
    ⟨?_, lines_lower (p := p) hlines⟩, ?_, fun link => ?_⟩
  · rw [hline, List.append_nil]
  · have hopen := hsection.inside
    rw [hinside, List.forall_mem_append] at hopen
    refine List.forall_mem_append.mpr ⟨hopen.1, List.forall_mem_singleton.mpr ?_⟩
    rw [closesSection_append_missingLineFeed]
    exact hopen.2 last (List.mem_singleton_self last)
  · intro l hl
    have hmem : l ∈ p.above ++ p.line :: start ∨ l = last ++ missingLineFeed last := by
      simpa [q, or_assoc] using hl
    rcases hmem with hl | rfl
    · exact hbefore l hl
    · exact hended
  · refine ⟨FrontMatter.front content ++ p.upper, p.lower, missingLineFeed last, [], p.lower,
      eq_front_append hlines, ?_, rfl, fun c hc => ?_, .inl rfl⟩
    · rw [hupper, List.append_assoc]
    · rw [List.append_nil] at hc
      exact eq_newline_of_mem_missingLineFeed hc
  · rw [listLink_eq_of_last hlevel hlines hsection hlast hfilled, Layout.flatten_lines_fill, hupper]
    simp [q, Layout.lower]

theorem exists_opens (hlevel : Heading.level? (Text.trim heading) = some level)
    (hlines : Text.lines (FrontMatter.body content) = p.lines)
    (hsection : p.IsSection (Text.trim heading) level)
    (hfilled : ∀ l, p.inside.getLast? = some l → Text.isBlankText l = false) :
    ∃ q, Opens content heading level p q := by
  rcases List.eq_nil_or_concat' p.inside with hnil | ⟨start, last, hinside⟩
  · exact exists_open_of_nil hlevel hlines hsection hnil
  · have hlast : p.inside.getLast? = some last := by rw [hinside, List.getLast?_concat]
    exact exists_open_of_concat hlevel hlines hsection hinside (hfilled last hlast)

end Place

/-! ## New sections -/

theorem not_delimiter_prefix_of_level? (hlevel : Heading.level? heading = some level) :
    ¬ FrontMatter.delimiter <+: heading := by
  rintro ⟨rest, rfl⟩
  rw [FrontMatter.delimiter, List.cons_append, Heading.level?_cons_of_ne (by decide)] at hlevel
  cases hlevel

/-- The lines in front of a new section are those of the note, apart from blanks. -/
theorem trimEnd_ne_of_mem_lines {front blanks gap : Text} (hne : heading ≠ [])
    (hheading : ∀ l ∈ Text.lines (front ++ blanks), Text.trimEnd l ≠ heading)
    (hblanks : Text.isBlankText blanks = true) (hgap : Text.isBlankText gap = true) :
    ∀ l ∈ Text.lines (front ++ gap), Text.trimEnd l ≠ heading := by
  intro l hl heq
  have hrow : Text.HasRow heading (front ++ gap) :=
    (Text.hasRow_iff_exists_line hne).mpr ⟨l, hl, heq⟩
  rw [Text.hasRow_append_blank hne hgap, ← Text.hasRow_append_blank hne hblanks,
    Text.hasRow_iff_exists_line hne] at hrow
  obtain ⟨l, hl, heq⟩ := hrow
  exact hheading l hl heq

/-- The first item of a new section opens a place for all items. -/
theorem exists_open_of_headed {body body' : Text} (hlevel : Heading.level? heading = some level)
    (hline : '\n' ∉ heading) (htrim : Text.trimEnd heading = heading)
    (hheading : ∀ l ∈ Text.lines body, Text.trimEnd l ≠ heading)
    (hchange : BodyChange [] heading link body body') :
    ∃ q : Layout, q.IsSection heading level ∧ q.IsOpen ∧ q.others = [] ∧
      body' = (q.fill [link]).lines.flatten := by
  have hne : heading ≠ [] := by
    rintro rfl
    cases hlevel
  cases hchange with
  | mention hanchor => cases hanchor
  | item hfound =>
      obtain ⟨l, hl, heq⟩ := hfound
      exact absurd heq (hheading l hl)
  | @headed front blanks gap _ hblanks hgap =>
      have hblank : Text.isBlankText gap = true := by
        rcases hgap with rfl | ⟨-, rfl | rfl⟩ <;> rfl
      have hended : front ++ gap = [] ∨ (front ++ gap).getLast? = some '\n' := by
        rcases hgap with rfl | ⟨rfl, rfl | rfl⟩
        · exact .inr (List.getLast?_append_of_ne_nil _ (by simp))
        · exact .inl rfl
        · exact .inr rfl
      refine ⟨⟨Text.lines (front ++ gap), heading ++ ['\n'], [['\n']], []⟩, ⟨?_, ?_, ?_, ?_⟩,
        ⟨?_, rfl⟩, rfl, ?_⟩
      · exact trimEnd_ne_of_mem_lines hne hheading hblanks hblank
      · have hblank : Text.isBlankText ['\n'] = true := rfl
        rw [Text.trimEnd_append, if_pos hblank, htrim]
      · exact List.forall_mem_singleton.mpr rfl
      · exact endsSection_nil level
      · refine List.forall_mem_append.mpr ⟨Text.isEnded_of_mem_lines hended, ?_⟩
        exact List.forall_mem_cons.mpr ⟨⟨heading, hline, rfl⟩,
          List.forall_mem_singleton.mpr ⟨[], List.not_mem_nil, rfl⟩⟩
      · rw [Layout.flatten_lines_fill]
        simp [Layout.upper, Layout.lower, item]

/-- What stands in front of the first item of a new section. -/
def introduction (content heading : Text) : Text :=
  (if Text.isBlankText content then [] else Text.trimEnd content ++ ['\n', '\n']) ++
    heading ++ ['\n', '\n']

theorem startSection_eq (content heading link : Text) :
    startSection content heading link = introduction content heading ++ item link := by
  have hempty : (Text.trimEnd content).isEmpty = Text.isBlankText content := by
    rw [Bool.eq_iff_iff, List.isEmpty_iff, Text.trimEnd_eq_nil_iff]
  simp only [startSection, introduction, hempty]
  simp

theorem foldl_listLink_of_new (hlevel : Heading.level? (Text.trim heading) = some level)
    (hline : '\n' ∉ Text.trim heading)
    (hheading : ∀ l ∈ Text.lines (FrontMatter.body content), Text.trimEnd l ≠ Text.trim heading)
    {links : List Text} (hne : links ≠ []) (hlinks : ∀ link ∈ links, '\n' ∉ link) :
    links.foldl (fun t link => listLink t heading link) content =
      introduction content (Text.trim heading) ++ links.flatMap item := by
  obtain ⟨link, next, rfl⟩ := List.exists_cons_of_ne_nil hne
  obtain ⟨hlink, hnext⟩ := List.forall_mem_cons.mp hlinks
  have hfirst : listLink content heading link =
      introduction content (Text.trim heading) ++ item link := by
    rcases Edit.listing_cases content heading link with ⟨-, hnew⟩ | ⟨upper, last, rest, hitem⟩
    · rw [← Edit.after_listing, hnew, Edit.after_newSection, startSection_eq]
    · obtain ⟨l, hl, heq⟩ := hitem.heading_mem
      refine absurd heq (hheading l ?_)
      rw [hitem.lines_eq, List.append_cons]
      exact List.mem_append_left rest hl
  have hchange : BodyChange [] (Text.trim heading) link (FrontMatter.body content)
      (FrontMatter.body (listLink content heading link)) := by
    rw [hfirst, ← startSection_eq, ← Edit.after_newSection]
    exact bodyChange_of_newSection hheading
      (split?_after_newSection hlink hline (not_delimiter_prefix_of_level? hlevel))
  obtain ⟨q, hsection, hopen, hothers, hbody⟩ := exists_open_of_headed hlevel hline
    (Text.trimEnd_trimEnd _) hheading hchange
  have hlower : q.lower = [] := by rw [Layout.lower, hothers]; rfl
  have hupper : FrontMatter.front (listLink content heading link) ++ q.upper =
      introduction content (Text.trim heading) := by
    have hwhole := FrontMatter.front_append_body (listLink content heading link)
    rw [hbody, Layout.flatten_lines_fill, hlower] at hwhole
    have hbefore : FrontMatter.front (listLink content heading link) ++ q.upper ++ item link =
        introduction content (Text.trim heading) ++ item link := by
      rw [← hfirst]
      simpa using hwhole
    exact List.append_cancel_right hbefore
  obtain ⟨hfront, hrest⟩ := front_and_body_of_foldl hlevel hsection hopen (List.cons_ne_nil link [])
    (List.forall_mem_singleton.mpr hlink) hbody next hnext
  rw [List.foldl_cons, ← FrontMatter.front_append_body
    (next.foldl (fun t link => listLink t heading link) (listLink content heading link)), hfront,
    hrest, Layout.flatten_lines_fill, hlower, ← hupper]
  simp

/-! ## All items of a section -/

/-- The items of a section that is there stand at the place that the first one opens. -/
theorem front_and_body_of_opens {p q : Layout}
    (hlevel : Heading.level? (Text.trim heading) = some level)
    (hlines : Text.lines (FrontMatter.body content) = p.lines)
    (hline : Text.trimEnd p.line = Text.trim heading) (hopens : Opens content heading level p q)
    {links : List Text} (hne : links ≠ []) (hlinks : ∀ link ∈ links, '\n' ∉ link) :
    FrontMatter.front (links.foldl (fun t link => listLink t heading link) content) =
        FrontMatter.front content ∧
      FrontMatter.body (links.foldl (fun t link => listLink t heading link) content) =
        (q.fill links).lines.flatten := by
  obtain ⟨link, next, rfl⟩ := List.exists_cons_of_ne_nil hne
  obtain ⟨hlink, hnext⟩ := List.forall_mem_cons.mp hlinks
  have hheading : ∃ l ∈ Text.lines (FrontMatter.body content), Text.trimEnd l = Text.trim heading :=
    ⟨p.line, hlines ▸ List.mem_append_right p.above List.mem_cons_self, hline⟩
  obtain ⟨hfront, hbody⟩ := front_and_body_of_listLink hheading hlink (hopens.listLink_eq link)
  obtain ⟨hfront', hbody'⟩ := front_and_body_of_foldl hlevel hopens.isSection hopens.isOpen
    (List.cons_ne_nil link []) (List.forall_mem_singleton.mpr hlink) hbody next hnext
  exact ⟨hfront'.trans hfront, hbody'⟩

/-- Links that are listed one after another stand in their order between two parts of the note
that do not depend on them. If no line of the body is the heading, these are the introduction
of a new section and nothing. If there is such a line, then the items belong to its section: in
front of them is the first such line and no other heading line of its level or a higher one, behind
them are blank lines up to the next one, and nothing but line feeds is put in beside them. -/
theorem items_listed_in_order (content heading : Text) {level : Nat}
    (hline : '\n' ∉ Text.trim heading)
    (hlevel : Heading.level? (Text.trim heading) = some level) :
    ∃ front back : Text,
      (∀ links : List Text, links ≠ [] → (∀ link ∈ links, '\n' ∉ link) →
        links.foldl (fun t link => listLink t heading link) content =
          front ++ links.flatMap item ++ back) ∧
      ((∀ l ∈ Text.lines (FrontMatter.body content), Text.trimEnd l ≠ Text.trim heading) →
        front = introduction content (Text.trim heading) ∧ back = []) ∧
      ∀ above line below, Text.lines (FrontMatter.body content) = above ++ line :: below →
        (∀ l ∈ above, Text.trimEnd l ≠ Text.trim heading) →
        Text.trimEnd line = Text.trim heading →
        IsOpenedAt content front back ∧
        ∃ inside others : List Text,
          front = FrontMatter.front content ++
            (above ++ (line ++ missingLineFeed line) :: inside).flatten ∧
          back = others.flatten ∧ (∀ l ∈ inside, closesSection level l = false) ∧
          EndsSection level others ∧
          ∀ links : List Text, links ≠ [] → (∀ link ∈ links, '\n' ∉ link) →
            Text.lines (FrontMatter.body
                (links.foldl (fun t link => listLink t heading link) content)) =
              above ++ (line ++ missingLineFeed line) :: (inside ++ links.map item ++ others) := by
  cases hsplit : splitAtHeading? (Text.trim heading) (Text.lines (FrontMatter.body content)) with
  | none =>
      have hnone := Edit.splitAtHeading?_eq_none hsplit
      refine ⟨introduction content (Text.trim heading), [], ?_, fun _ => ⟨rfl, rfl⟩, ?_⟩
      · intro links hne hlinks
        rw [List.append_nil, foldl_listLink_of_new hlevel hline hnone hne hlinks]
      · intro above line below hlines _ hfound
        exact absurd hfound (hnone line (by simp [hlines]))
  | some parts =>
      obtain ⟨above, line, below⟩ := parts
      obtain ⟨hparts, hfound⟩ := Edit.splitAtHeading?_eq_some hsplit
      obtain ⟨p, rfl, rfl, rfl, hsection, hfilled⟩ :=
        exists_layout hlevel (ne_of_splitAtHeading? hsplit) hfound below
      obtain ⟨q, hopens⟩ := exists_opens hlevel hparts hsection hfilled
      have hall {links : List Text} (hne : links ≠ []) (hlinks : ∀ link ∈ links, '\n' ∉ link) :=
        front_and_body_of_opens hlevel hparts hfound hopens hne hlinks
      refine ⟨FrontMatter.front content ++ q.upper, q.lower, ?_, fun hnone => ?_, ?_⟩
      · intro links hne hlinks
        rw [← FrontMatter.front_append_body
          (links.foldl (fun t link => listLink t heading link) content), (hall hne hlinks).1,
          (hall hne hlinks).2, Layout.flatten_lines_fill]
        simp
      · exact absurd hfound (hnone p.line (by simp [hparts]))
      · intro above line below hlines habove hline
        rw [hlines, splitAtHeading?_append habove hline] at hsplit
        obtain ⟨rfl, hrest⟩ := Prod.mk.inj (Option.some.inj hsplit)
        obtain ⟨rfl, -⟩ := Prod.mk.inj hrest
        refine ⟨hopens.isOpenedAt, q.inside, q.others, ?_, rfl, hopens.isSection.inside,
          hopens.isSection.others, fun links hne hlinks => ?_⟩
        · rw [Layout.upper, hopens.above_eq, hopens.line_eq]
        · rw [(hall hne hlinks).2, (hopens.isOpen.fill hlinks).lines_flatten, Layout.lines,
            Layout.fill, hopens.above_eq, hopens.line_eq, List.append_assoc]

/-- An empty section without a blank line, in front of another section: the heading line has
blanks at its end, and both items come in front of the next heading. -/
theorem items_in_front_of_next_heading :
    let content := "About.\n## Links  \n# End".toList
    ('\n' ∉ Text.trim " ## Links".toList ∧
        Heading.level? (Text.trim " ## Links".toList) = some 2) ∧
      ∃ front back, IsOpenedAt content front back ∧
        ["[[A]]".toList, "[B](b.md)".toList].foldl
            (fun t link => listLink t " ## Links".toList link) content =
          front ++ "- [[A]]\n- [B](b.md)\n".toList ++ back ∧
        front ++ "- [[A]]\n- [B](b.md)\n".toList ++ back =
          "About.\n## Links  \n\n- [[A]]\n- [B](b.md)\n\n# End".toList := by
  intro content
  have hline : '\n' ∉ Text.trim " ## Links".toList := by decide
  have hlevel : Heading.level? (Text.trim " ## Links".toList) = some 2 := by decide
  obtain ⟨front, back, hall, -, hsection⟩ :=
    items_listed_in_order content " ## Links".toList hline hlevel
  have hitems := hall ["[[A]]".toList, "[B](b.md)".toList] (by decide) (by decide)
  have hlines : Text.lines (FrontMatter.body content) =
      ["About.\n".toList] ++ "## Links  \n".toList :: ["# End".toList] := by decide
  obtain ⟨hopened, -⟩ := hsection _ _ _ hlines (by decide) (by decide)
  refine ⟨⟨hline, hlevel⟩, front, back, hopened, hitems, ?_⟩
  exact hitems.symm.trans (by decide)

end NoteLinks.Insertion
