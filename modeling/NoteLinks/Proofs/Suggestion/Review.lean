/-
# What the tables show

The tables in which suggestions are reviewed can be read back. In a markdown table the cells of a
line are what stands between its bars. The bars within the cells are escaped, so none of them has a
space in front of it, and each takes its backslash away with it when the cell is read. This is why
a backslash itself need not be escaped.

In a plain table the columns are as wide as their longest cells, and every line has room for all
of them. So a column starts at the same position in all lines. At the end of a line the blanks are
left out, which can be seen in the last column only: every other one has a bar behind it.
-/
import Mathlib.Data.List.Fold
import NoteLinks.Proofs.Text.Columns
import NoteLinks.Proofs.Text.Lines
import NoteLinks.Proofs.Text.Words
import NoteLinks.Suggestion.Review

namespace NoteLinks.Review

variable {c : Char} {t cell : Text} {cells : List Text} {rows : List (List Text)}

/-! ## Reading markdown -/

/-- The texts between the separators ` | ` of a line. The bar of a separator has a space in front
of it, hence no backslash. -/
def splitAtBars : Text → List Text
  | [] => [[]]
  | ' ' :: '|' :: ' ' :: t => [] :: splitAtBars t
  | c :: t =>
    match splitAtBars t with
    | [] => [[c]]
    | first :: others => (c :: first) :: others

/-- A text with a bar in place of every backslash that has a bar behind it, and of that bar. -/
def unescapeBars : Text → Text
  | [] => []
  | '\\' :: '|' :: t => '|' :: unescapeBars t
  | c :: t => c :: unescapeBars t

/-- The cells of a line of a markdown table. -/
def markdownCells? (line : Text) : Option (List Text) := do
  let inner ← Text.dropPrefix? ['|', ' '] line
  let inner ← Text.dropSuffix? [' ', '|', '\n'] inner
  some ((splitAtBars inner).map unescapeBars)

/-! ### Cells -/

theorem escapeBars_cons_bar (t : Text) : escapeBars ('|' :: t) = '\\' :: '|' :: escapeBars t := rfl

theorem escapeBars_cons_of_ne (hc : c ≠ '|') (t : Text) :
    escapeBars (c :: t) = c :: escapeBars t := by
  rw [escapeBars, Text.replaceChar, List.flatMap_cons, if_neg hc]
  rfl

theorem head?_escapeBars_ne (cell : Text) : (escapeBars cell).head? ≠ some '|' := by
  cases cell with
  | nil => simp [escapeBars, Text.replaceChar]
  | cons c t =>
      by_cases hc : c = '|'
      · rw [hc, escapeBars_cons_bar]
        simp
      · rw [escapeBars_cons_of_ne hc]
        simpa using hc

theorem unescapeBars_cons (h : t.head? ≠ some '|') :
    unescapeBars (c :: t) = c :: unescapeBars t := by
  rw [unescapeBars]
  rintro u - rfl
  exact h rfl

theorem unescapeBars_escapeBars (cell : Text) : unescapeBars (escapeBars cell) = cell := by
  induction cell with
  | nil => rfl
  | cons c t ih =>
      by_cases hc : c = '|'
      · rw [hc, escapeBars_cons_bar, unescapeBars, ih]
      · rw [escapeBars_cons_of_ne hc, unescapeBars_cons (head?_escapeBars_ne t), ih]

theorem splitAtBars_cons {first : Text} {others : List Text} (h : c ≠ ' ' ∨ t.head? ≠ some '|')
    (ht : splitAtBars t = first :: others) : splitAtBars (c :: t) = (c :: first) :: others := by
  rw [splitAtBars, ht]
  rintro u rfl rfl
  exact h.elim (fun h => h rfl) fun h => h rfl

/-- There is no separator in an escaped cell, nor where it ends. -/
theorem splitAtBars_escapeBars_append (cell : Text) {first : Text} {others : List Text}
    (hhead : t.head? ≠ some '|') (ht : splitAtBars t = first :: others) :
    splitAtBars (escapeBars cell ++ t) = (escapeBars cell ++ first) :: others := by
  induction cell with
  | nil => exact ht
  | cons c cell ih =>
      by_cases hc : c = '|'
      · rw [hc, escapeBars_cons_bar]
        exact splitAtBars_cons (.inl (by decide)) (splitAtBars_cons (.inl (by decide)) ih)
      · rw [escapeBars_cons_of_ne hc]
        refine splitAtBars_cons (.inr ?_) ih
        -- A space of the cell starts no separator: a bar that comes next has its backslash first,
        -- and none follows the cell.
        show (escapeBars cell ++ t).head? ≠ some '|'
        rw [List.head?_append]
        cases hcell : (escapeBars cell).head? with
        | none => exact hhead
        | some d =>
            rw [Option.some_or, ← hcell]
            exact head?_escapeBars_ne cell

theorem splitAtBars_join (hne : cells ≠ []) :
    splitAtBars (Text.join [' ', '|', ' '] (cells.map escapeBars)) = cells.map escapeBars := by
  induction cells with
  | nil => exact absurd rfl hne
  | cons cell cells ih =>
      cases cells with
      | nil =>
          have hlast : splitAtBars (escapeBars cell ++ []) = [escapeBars cell ++ []] :=
            splitAtBars_escapeBars_append cell (by decide) rfl
          rwa [List.append_nil] at hlast
      | cons next cells =>
          have hnext : splitAtBars (' ' :: '|' :: ' ' ::
              Text.join [' ', '|', ' '] ((next :: cells).map escapeBars)) =
                [] :: (next :: cells).map escapeBars := by
            rw [splitAtBars, ih (List.cons_ne_nil next cells)]
          rw [List.map_cons, List.map_cons, Text.join, List.append_assoc, ← List.map_cons]
          have hfirst := splitAtBars_escapeBars_append cell (by simp) hnext
          rwa [List.append_nil] at hfirst

/-! ### Lines -/

/-- The cells of a line are read back, whatever is in them. -/
theorem markdownCells?_markdownLine (hne : cells ≠ []) :
    markdownCells? (markdownLine (cells.map escapeBars)) = some cells := by
  have hinner (inner : Text) : Text.dropSuffix? [' ', '|', '\n'] (inner ++ [' ', '|', '\n']) =
      some inner := Text.dropSuffix?_eq_some_iff.mpr rfl
  have hcells : (cells.map escapeBars).map unescapeBars = cells := by
    rw [List.map_map]
    exact List.map_id'' unescapeBars_escapeBars cells
  rw [markdownCells?, markdownLine]
  simp [Text.dropPrefix?, hinner, splitAtBars_join hne, hcells]

theorem isEnded_markdownLine (h : ∀ cell ∈ cells, '\n' ∉ cell) :
    Text.IsEnded (markdownLine cells) := by
  refine ⟨'|' :: ' ' :: Text.join [' ', '|', ' '] cells ++ [' ', '|'], ?_, by simp [markdownLine]⟩
  have hjoin : '\n' ∉ Text.join [' ', '|', ' '] cells := by
    intro hmem
    rcases Text.mem_join hmem with hsep | ⟨cell, hcell, hmem⟩
    · exact absurd hsep (by decide)
    · exact h cell hcell hmem
  simpa using hjoin

theorem newline_not_mem_escapeBars (h : '\n' ∉ cell) : '\n' ∉ escapeBars cell := by
  rw [escapeBars, Text.replaceChar, List.mem_flatMap]
  rintro ⟨c, hc, hmem⟩
  split at hmem
  next => exact absurd hmem (by decide)
  next =>
    rw [← List.mem_singleton.mp hmem] at hc
    exact h hc

theorem lines_markdown (hne : rows ≠ []) (h : ∀ row ∈ rows, ∀ cell ∈ row, '\n' ∉ cell) :
    Text.lines (markdown rows) =
      markdownLine columns :: markdownLine (columns.map fun _ => ['-', '-', '-']) ::
        rows.map fun row => markdownLine (row.map escapeBars) := by
  refine Eq.trans (congrArg Text.lines ?_) (Text.lines_flatten ?_)
  · rw [markdown, if_neg (by simpa using hne), List.append_assoc]
    rfl
  · simp only [List.forall_mem_cons, List.forall_mem_map]
    refine ⟨isEnded_markdownLine (by decide), isEnded_markdownLine (by decide), ?_⟩
    intro row hrow
    apply isEnded_markdownLine
    simp only [List.forall_mem_map]
    exact fun cell hcell => newline_not_mem_escapeBars (h row hrow cell hcell)

/-! ## Columns of the plain table -/

/-- The length of the longest cell in a column, or of its heading. -/
def columnWidth (rows : List (List Text)) (i : Nat) : Nat :=
  (rows.map fun row => (row.getD i []).length).foldr max (columns.getD i []).length

/-- The position at which a column starts: behind the columns to the left of it, and three
characters for each of them. -/
def columnStart (rows : List (List Text)) (i : Nat) : Nat :=
  ((List.range i).map (columnWidth rows)).sum + 3 * i

/-- A text filled up to the width of its column. -/
def filled (rows : List (List Text)) (cells : List Text) (i : Nat) : Text :=
  Text.padRight (columnWidth rows i) (cells.getD i [])

/-- A line in columns: every column has its text, and behind it the divider between it and the
next one. At the end of the line, blanks are left out. -/
structure IsLaidOut (rows : List (List Text)) (divider : Text) (text : Nat → Text)
    (line : Text) : Prop where
  column : ∀ i, i + 1 < columns.length →
    Text.slice (columnStart rows i) (columnWidth rows i) line = text i
  last : ∀ i, i + 1 = columns.length →
    Text.slice (columnStart rows i) (columnWidth rows i) line = Text.trimEnd (text i)
  divider : ∀ i, i + 1 < columns.length →
    Text.slice (columnStart rows i + columnWidth rows i) divider.length line = divider

/-! ### Widths -/

theorem zipWith_map_range {α : Type} (f : Nat → Text → α) (cells : List Text) (n : Nat)
    (hlen : cells.length = n) (g : Nat → Nat) :
    List.zipWith f ((List.range n).map g) cells =
      (List.range n).map fun i => f (g i) (cells.getD i []) := by
  apply List.ext_getElem
  · simp [hlen]
  · intro i hi hi'
    have hcells : i < cells.length := by
      rw [List.length_zipWith] at hi
      omega
    simp [hcells]

theorem foldl_widths (h : ∀ row ∈ rows, row.length = columns.length) (g : Nat → Nat) :
    rows.foldl (fun widths row => List.zipWith (fun w cell => max w cell.length) widths row)
        ((List.range columns.length).map g) =
      (List.range columns.length).map fun i =>
        (rows.map fun row => (row.getD i []).length).foldl max (g i) := by
  induction rows generalizing g with
  | nil => rfl
  | cons row rows ih =>
      -- One row makes other widths of the same number, so the start of each maximum is general.
      obtain ⟨hrow, hrows⟩ := List.forall_mem_cons.mp h
      rw [List.foldl_cons, zipWith_map_range _ row _ hrow, ih hrows]
      rfl

theorem widths_eq (h : ∀ row ∈ rows, row.length = columns.length) :
    widths rows = (List.range columns.length).map (columnWidth rows) := by
  have hcolumns : columns.map List.length =
      (List.range columns.length).map fun i => (columns.getD i []).length := rfl
  rw [widths, hcolumns, foldl_widths h]
  refine List.map_congr_left fun i _ => ?_
  rw [columnWidth, List.foldl_eq_foldr]

theorem le_foldr_max {ns : List Nat} {n start : Nat} (h : n = start ∨ n ∈ ns) :
    n ≤ ns.foldr max start := by
  induction ns with
  | nil =>
      rcases h with rfl | h
      · exact Nat.le_refl _
      · cases h
  | cons m ns ih =>
      rw [List.mem_cons] at h
      rcases h with h | rfl | h
      · exact (ih (.inl h)).trans (Nat.le_max_right _ _)
      · exact Nat.le_max_left _ _
      · exact (ih (.inr h)).trans (Nat.le_max_right _ _)

/-- A column has room for all its cells, and for its heading. -/
theorem length_filled (h : cells ∈ columns :: rows) (i : Nat) :
    (filled rows cells i).length = columnWidth rows i := by
  have hfits : (cells.getD i []).length ≤ columnWidth rows i := by
    apply le_foldr_max
    rcases List.mem_cons.mp h with rfl | h
    · exact .inl rfl
    · exact .inr (List.mem_map.mpr ⟨cells, h, rfl⟩)
  rw [filled, Text.padRight, List.length_append, List.length_replicate]
  omega

/-! ### Lines -/

/-- The line that is put together from the texts of its columns. -/
def lineOf (sep : Text) (text : Nat → Text) : Text :=
  Text.trimEnd (Text.join sep ((List.range columns.length).map text))

/-- Texts that are as long as the columns are wide make up a line in columns. -/
theorem isLaidOut_lineOf (sep : Text) {text : Nat → Text} (hsep : Text.isBlankText sep = false)
    (hthree : sep.length = 3) (htext : ∀ i, (text i).length = columnWidth rows i) :
    IsLaidOut rows (Text.trimEnd sep) text (lineOf sep text) := by
  have hstart (i : Nat) (hi : i < columns.length) :
      Text.pieceStart sep ((List.range columns.length).map text) i = columnStart rows i := by
    have hwidths : List.length ∘ text = columnWidth rows := funext htext
    rw [Text.pieceStart, columnStart, hthree, ← List.map_take, List.take_range,
      Nat.min_eq_left (Nat.le_of_lt hi), List.map_map, hwidths]
  have hcount : ((List.range columns.length).map text).length = columns.length := by
    rw [List.length_map, List.length_range]
  have hpiece (i : Nat) (hi : i < ((List.range columns.length).map text).length) :
      ((List.range columns.length).map text)[i] = text i := by
    rw [List.getElem_map, List.getElem_range]
  have hwhole (i : Nat) (hi : i + 1 < columns.length) :=
    Text.slice_trimEnd_join ((List.range columns.length).map text) hsep (hcount.symm ▸ hi)
  constructor
  · intro i hi
    obtain ⟨hslice, -⟩ := hwhole i hi
    rwa [hstart i (by omega), hpiece, htext] at hslice
  · intro i hi
    have hslice := Text.slice_trimEnd_join_last sep ((List.range columns.length).map text)
      (by omega : i < _) (by omega)
    rwa [hstart i (by omega), hpiece, htext] at hslice
  · intro i hi
    obtain ⟨-, hslice⟩ := hwhole i hi
    rwa [hstart i (by omega), hpiece, htext] at hslice

theorem tableLine_eq (hrows : ∀ row ∈ rows, row.length = columns.length)
    (hcells : cells.length = columns.length) :
    tableLine (widths rows) cells = lineOf [' ', '|', ' '] (filled rows cells) ++ ['\n'] := by
  rw [tableLine, widths_eq hrows, zipWith_map_range Text.padRight cells _ hcells]
  rfl

/-- Dashes up to the width of a column. -/
def dashes (rows : List (List Text)) (i : Nat) : Text := List.replicate (columnWidth rows i) '-'

theorem tableRule_eq (hrows : ∀ row ∈ rows, row.length = columns.length) :
    tableRule (widths rows) = lineOf ['-', '+', '-'] (dashes rows) ++ ['\n'] := by
  -- The rule is not trimmed, but there are no blanks in it.
  rw [tableRule, widths_eq hrows, List.map_map, lineOf, Text.trimEnd_eq_self]
  · rfl
  · intro c hc
    rcases Text.mem_join hc with hsep | ⟨piece, hpiece, hmem⟩
    · simp only [List.mem_cons, List.not_mem_nil, or_false] at hsep
      rcases hsep with rfl | rfl | rfl <;> rfl
    · obtain ⟨i, -, rfl⟩ := List.mem_map.mp hpiece
      rw [List.eq_of_mem_replicate hmem]
      rfl

theorem newline_not_mem_filled (h : ∀ cell ∈ cells, '\n' ∉ cell) (i : Nat) :
    '\n' ∉ filled rows cells i := by
  have hcell : '\n' ∉ cells.getD i [] := by
    rw [List.getD_eq_getElem?_getD]
    cases hget : cells[i]? with
    | none => exact List.not_mem_nil
    | some cell => exact h cell (List.mem_of_getElem? hget)
  rw [filled, Text.padRight, List.mem_append, not_or]
  exact ⟨hcell, by simp⟩

theorem isEnded_lineOf {sep : Text} {text : Nat → Text} (hsep : '\n' ∉ sep)
    (htext : ∀ i, '\n' ∉ text i) : Text.IsEnded (lineOf sep text ++ ['\n']) := by
  refine ⟨lineOf sep text, fun hmem => ?_, rfl⟩
  rcases Text.mem_join ((Text.trimEnd_isPrefix _).subset hmem) with hmem | ⟨piece, hpiece, hmem⟩
  · exact hsep hmem
  · obtain ⟨i, -, rfl⟩ := List.mem_map.mp hpiece
    exact htext i hmem

theorem lines_table (hne : rows ≠ []) (hrows : ∀ row ∈ rows, row.length = columns.length)
    (hcells : ∀ row ∈ rows, ∀ cell ∈ row, '\n' ∉ cell) :
    Text.lines (table rows) =
      (lineOf [' ', '|', ' '] (filled rows columns) :: lineOf ['-', '+', '-'] (dashes rows) ::
        rows.map fun row => lineOf [' ', '|', ' '] (filled rows row)).map (· ++ ['\n']) := by
  have hbelow : rows.flatMap (tableLine (widths rows)) =
      (rows.map fun row => lineOf [' ', '|', ' '] (filled rows row) ++ ['\n']).flatten := by
    rw [List.flatMap_def, List.map_congr_left fun row hrow => tableLine_eq hrows (hrows row hrow)]
  refine Eq.trans (congrArg Text.lines ?_) (Text.lines_flatten ?_)
  · rw [table, if_neg (by simpa using hne), List.append_assoc, tableLine_eq hrows rfl,
      tableRule_eq hrows, hbelow, List.map_cons, List.map_cons, List.map_map]
    rfl
  · simp only [List.forall_mem_map, List.forall_mem_cons]
    refine ⟨?_, ?_, fun row hrow => ?_⟩
    · exact isEnded_lineOf (by decide) (newline_not_mem_filled (by decide))
    · exact isEnded_lineOf (by decide) fun i => by simp [dashes]
    · exact isEnded_lineOf (by decide) (newline_not_mem_filled (hcells row hrow))

/-! ## Both tables -/

/-- A table has a line for each row below its two lines at the top. From the line of a markdown
table the cells are read back. In the lines of a plain table every column starts at the same
position. It has the heading in the first line, dashes in the second one, and the cells in the
others, all of them filled up to the width of the column. -/
theorem tables_show_all_cells (rows : List (List Text)) (hne : rows ≠ [])
    (hrows : ∀ row ∈ rows, row.length = 6) (hcells : ∀ row ∈ rows, ∀ cell ∈ row, '\n' ∉ cell) :
    (∃ heading rule lines, Text.lines (markdown rows) = heading :: rule :: lines ∧
      markdownCells? heading = some columns ∧ lines.map markdownCells? = rows.map some) ∧
    ∃ heading rule lines,
      Text.lines (table rows) = (heading :: rule :: lines).map (· ++ ['\n']) ∧
      IsLaidOut rows [' ', '|'] (filled rows columns) heading ∧
      IsLaidOut rows ['-', '+', '-'] (dashes rows) rule ∧
      List.Forall₂ (fun row => IsLaidOut rows [' ', '|'] (filled rows row)) rows lines := by
  have hshown (cells : List Text) (h : cells ∈ columns :: rows) :
      IsLaidOut rows [' ', '|'] (filled rows cells) (lineOf [' ', '|', ' '] (filled rows cells)) :=
    isLaidOut_lineOf [' ', '|', ' '] rfl rfl (length_filled h)
  constructor
  · refine ⟨_, _, _, lines_markdown hne hcells, rfl, ?_⟩
    rw [List.map_map]
    refine List.map_congr_left fun row hrow => markdownCells?_markdownLine ?_
    rintro rfl
    cases hrows _ hrow
  · refine ⟨_, _, _, lines_table hne hrows hcells, hshown columns List.mem_cons_self,
      isLaidOut_lineOf ['-', '+', '-'] rfl rfl fun i => List.length_replicate, ?_⟩
    rw [List.forall₂_map_right_iff, List.forall₂_same]
    exact fun row hrow => hshown row (List.mem_cons_of_mem columns hrow)

/-- Cells with bars and backslashes, one that looks like a separator, and one of blanks. -/
def trickyRows : List (List Text) :=
  [["a|b.md".toList, "\\".toList, "0.90".toList, "high".toList, "tag".toList, " | ".toList],
    ["日記.md".toList, "x\\| y".toList, "0.30".toList, "low".toList, "concept".toList,
      "\u3000".toList]]

/-- A backslash in front of a bar is not taken for the one that escapes the bar. Where the last
cell is blank, nothing of its column is left in the plain table. -/
theorem tables_show_bars_and_blanks :
    (trickyRows ≠ [] ∧ (∀ row ∈ trickyRows, row.length = 6) ∧
        ∀ row ∈ trickyRows, ∀ cell ∈ row, '\n' ∉ cell) ∧
      ((Text.lines (markdown trickyRows)).drop 2).map markdownCells? = trickyRows.map some ∧
      (Text.lines (markdown trickyRows))[3]? =
        some "| 日記.md | x\\\\| y | 0.30 | low | concept | \u3000 |\n".toList ∧
      columnStart trickyRows 5 = 52 ∧
      ∃ line, (Text.lines (table trickyRows))[3]? = some (line ++ ['\n']) ∧
        Text.slice 9 6 line = "x\\| y ".toList ∧ Text.slice 15 2 line = " |".toList ∧
        Text.slice 52 7 line = [] := by
  have hne : trickyRows ≠ [] := by decide
  have hrows : ∀ row ∈ trickyRows, row.length = 6 := by decide
  have hcells : ∀ row ∈ trickyRows, ∀ cell ∈ row, '\n' ∉ cell := by decide
  obtain ⟨⟨_, _, lines, hmarkdown, -, hread⟩, _, _, _, htable, -, -, hshown⟩ :=
    tables_show_all_cells trickyRows hne hrows hcells
  refine ⟨⟨hne, hrows, hcells⟩, ?_, by decide +kernel, by decide, ?_⟩
  · rw [hmarkdown]
    exact hread
  · cases hshown with
    | cons _ hshown =>
        cases hshown with
        | @cons _ line _ _ hline _ =>
            refine ⟨line, ?_, hline.column 1 (by decide), hline.divider 1 (by decide),
              hline.last 5 rfl⟩
            rw [htable]
            rfl

end NoteLinks.Review
