/-
# What patterns match

The runs of a match fit the parts of the pattern, one after another. Conversely, where some runs
fit there is a match, although its runs may be others: which of them count is a matter of their
lengths. Often that is all one needs to know.

A pattern for whole lines of which no run takes a line feed matches a line as a whole or not at
all, and it looks at nothing behind the line. So its matches in a text are its matches in the
lines of the text. A pattern that does not ask where lines start finds what a recogniser finds.
-/
import NoteLinks.Proofs.Text.Cutting
import NoteLinks.Proofs.Text.Lines
import NoteLinks.Proofs.Text.Scan
import NoteLinks.Text.Pattern

namespace NoteLinks.Pattern

variable {p parts : Pattern} {starts : Bool} {t u row : Text} {runs : List Text}

/-! ## Runs that fit -/

/-- Runs fit the parts of a pattern in front of a rest. -/
inductive Fits : Pattern → (starts : Bool) → List Text → (rest : Text) → Prop
  | nil {starts : Bool} {rest : Text} : Fits [] starts [] rest
  | lineStart {parts : Pattern} {runs : List Text} {rest : Text} (h : Fits parts true runs rest) :
      Fits (.lineStart :: parts) true runs rest
  | lineEnd {parts : Pattern} {starts : Bool} {runs : List Text} {rest : Text}
      (hend : lineEndsBefore (runs.flatten ++ rest) = true) (h : Fits parts starts runs rest) :
      Fits (.lineEnd :: parts) starts runs rest
  | run {inClass : Char → Bool} {least : Nat} {most : Option Nat} {parts : Pattern}
      {starts : Bool} {taken : Text} {runs : List Text} {rest : Text}
      (hclass : ∀ c ∈ taken, inClass c = true) (hleast : least ≤ taken.length)
      (hmost : ∀ n ∈ most, taken.length ≤ n)
      (h : Fits parts (lineStartsBehind starts taken) runs rest) :
      Fits (.run inClass least most :: parts) starts (taken :: runs) rest

theorem mem_lengths_iff {inClass : Char → Bool} {least n : Nat} {most : Option Nat} :
    n ∈ lengths inClass least most t ↔
      least ≤ n ∧ (∀ m ∈ most, n ≤ m) ∧ n ≤ (t.takeWhile inClass).length := by
  cases most with
  | none =>
      simp only [lengths, List.mem_reverse, List.mem_range'_1, Option.not_mem_none,
        IsEmpty.forall_iff, implies_true, true_and]
      omega
  | some m =>
      simp only [lengths, List.mem_reverse, List.mem_range'_1, Option.mem_some_iff, forall_eq']
      omega

theorem fits_of_runs? (h : runs? p starts t = some runs) :
    ∃ rest, t = runs.flatten ++ rest ∧ Fits p starts runs rest := by
  induction p generalizing starts t runs with
  | nil =>
      obtain rfl := Option.some.inj h
      exact ⟨t, rfl, .nil⟩
  | cons part parts ih =>
      cases part with
      | lineStart =>
          rw [runs?] at h
          split at h
          next hstarts =>
            subst hstarts
            obtain ⟨rest, ht, hfits⟩ := ih h
            exact ⟨rest, ht, .lineStart hfits⟩
          next => cases h
      | lineEnd =>
          rw [runs?] at h
          split at h
          next hend =>
            obtain ⟨rest, rfl, hfits⟩ := ih h
            exact ⟨rest, rfl, .lineEnd hend hfits⟩
          next => cases h
      | run inClass least most =>
          obtain ⟨n, hn, hfound⟩ := List.exists_of_findSome?_eq_some h
          obtain ⟨behind, hbehind, rfl⟩ := Option.map_eq_some_iff.mp hfound
          obtain ⟨hleast, hmost, hlength⟩ := mem_lengths_iff.mp hn
          obtain ⟨rest, hrest, hfits⟩ := ih hbehind
          have hprefix := List.takeWhile_prefix inClass (l := t)
          have hlen : (t.take n).length = n :=
            List.length_take_of_le (hlength.trans hprefix.length_le)
          have htaken : t.take n <+: t.takeWhile inClass :=
            List.prefix_of_prefix_length_le (List.take_prefix n t) hprefix (by omega)
          refine ⟨rest, ?_, .run (fun c hc => ?_) (by omega) (fun m hm => ?_) hfits⟩
          · rw [List.flatten_cons, List.append_assoc, ← hrest, List.take_append_drop]
          · exact List.mem_takeWhile_imp (htaken.subset hc)
          · rw [hlen]
            exact hmost m hm

/-- Where some runs fit there is a match. -/
theorem exists_runs?_of_fits {rest : Text} (h : Fits p starts runs rest) :
    ∃ found, runs? p starts (runs.flatten ++ rest) = some found := by
  induction h with
  | nil => exact ⟨[], rfl⟩
  | lineStart _ ih => exact ih
  | lineEnd hend _ ih =>
      obtain ⟨found, hfound⟩ := ih
      exact ⟨found, by rw [runs?, if_pos hend, hfound]⟩
  | @run inClass least most parts starts taken runs rest hclass hleast hmost _ ih =>
      obtain ⟨found, hfound⟩ := ih
      rw [List.flatten_cons, List.append_assoc, runs?, ← Option.ne_none_iff_exists']
      intro hnone
      have hmem : taken.length ∈ lengths inClass least most (taken ++ (runs.flatten ++ rest)) := by
        refine mem_lengths_iff.mpr ⟨hleast, hmost, ?_⟩
        rw [List.takeWhile_append_of_pos hclass, List.length_append]
        exact Nat.le_add_right _ _
      have hlength := List.findSome?_eq_none_iff.mp hnone taken.length hmem
      rw [List.take_left, List.drop_left, hfound] at hlength
      cases hlength

/-! ## Greed -/

/-- A run without parts behind it takes all it can. -/
theorem runs?_lastRun (inClass : Char → Bool) (least : Nat) (starts : Bool) (t : Text) :
    runs? [.run inClass least none] starts t =
      if least ≤ (t.takeWhile inClass).length then some [t.takeWhile inClass] else none := by
  have htake : t.take (t.takeWhile inClass).length = t.takeWhile inClass :=
    (List.prefix_iff_eq_take.mp (List.takeWhile_prefix inClass)).symm
  rw [runs?]
  simp only [runs?, Option.map_some, lengths]
  split
  next hle =>
    obtain ⟨more, hmore⟩ := Nat.exists_eq_add_of_le hle
    have hcount : (t.takeWhile inClass).length + 1 - least = more + 1 := by omega
    rw [hcount, List.range'_1_concat, List.reverse_append, List.reverse_singleton,
      List.singleton_append, List.findSome?_cons, ← hmore, htake]
  next hlt =>
    have hcount : (t.takeWhile inClass).length + 1 - least = 0 := by omega
    rw [hcount]
    rfl

/-! ## One line -/

/-- A part that takes no line feed. -/
def Part.StaysInLine : Part → Prop
  | .run inClass _ _ => inClass '\n' = false
  | _ => True

/-- A pattern that takes no line feed looks at nothing behind the line. -/
theorem runs?_append_of_lineEnds (hp : ∀ part ∈ p, Part.StaysInLine part)
    (hu : lineEndsBefore u = true) : runs? p starts (row ++ u) = runs? p starts row := by
  induction p generalizing starts row with
  | nil => rfl
  | cons part parts ih =>
      obtain ⟨hpart, hparts⟩ := List.forall_mem_cons.mp hp
      cases part with
      | lineStart => rw [runs?, runs?, ih hparts]
      | lineEnd =>
          have hends : lineEndsBefore (row ++ u) = lineEndsBefore row := by
            cases row with
            | nil => exact hu
            | cons c row => rfl
          rw [runs?, runs?, hends, ih hparts]
      | run inClass least most =>
          have hstop : ∀ c, u.head? = some c → inClass c = false := by
            intro c hc
            obtain ⟨u, rfl⟩ := List.head?_eq_some_iff.mp hc
            obtain rfl : c = '\n' := by simpa [lineEndsBefore] using hu
            exact hpart
          have htake := Text.takeWhile_append_of_head? hstop row
          have hlengths :
              lengths inClass least most (row ++ u) = lengths inClass least most row := by
            simp only [lengths, htake]
          rw [runs?, runs?, hlengths, ← List.head?_filterMap, ← List.head?_filterMap]
          refine congrArg List.head? (List.filterMap_congr fun n hn => ?_)
          have hle : n ≤ row.length :=
            (mem_lengths_iff.mp hn).2.2.trans (List.takeWhile_prefix inClass).length_le
          rw [List.take_append_of_le_length hle, List.drop_append_of_le_length hle, ih hparts]

theorem lineEndsBefore_of_fits {rest : Text} (h : Fits (p ++ [.lineEnd]) starts runs rest) :
    lineEndsBefore rest = true := by
  induction p generalizing starts runs with
  | nil =>
      cases h with
      | lineEnd hend h =>
          cases h
          exact hend
  | cons part parts ih =>
      rw [List.cons_append] at h
      cases h with
      | lineStart h => exact ih h
      | lineEnd _ h => exact ih h
      | run _ _ _ h => exact ih h

/-- A match of a pattern for whole lines is the whole line. -/
theorem flatten_of_wholeLine (hrow : '\n' ∉ row)
    (h : runs? (wholeLine parts) starts row = some runs) : runs.flatten = row := by
  obtain ⟨rest, rfl, hfits⟩ := fits_of_runs? h
  have hend : lineEndsBefore rest = true :=
    lineEndsBefore_of_fits (p := .lineStart :: parts) hfits
  cases rest with
  | nil => rw [List.append_nil]
  | cons c rest =>
      obtain rfl : c = '\n' := by simpa [lineEndsBefore] using hend
      simp at hrow

/-! ## The lines of a text -/

theorem lineStartsBehind_of_not_mem (h : '\n' ∉ t) : lineStartsBehind false t = false := by
  rw [lineStartsBehind]
  split
  next c hc => exact beq_eq_false_iff_ne.mpr fun heq => h (heq ▸ List.mem_of_getLast? hc)
  next => rfl

theorem lineStartsBehind_cons (starts : Bool) (c : Char) (t : Text) :
    lineStartsBehind starts (c :: t) = lineStartsBehind (c == '\n') t := by
  rw [lineStartsBehind, lineStartsBehind, List.getLast?_cons]
  cases t.getLast? <;> rfl

theorem findingsFrom_append (p : Pattern) (position : Nat) (starts : Bool) (w t : Text) :
    findingsFrom p position w.length starts (w ++ t) =
      findingsFrom p (position + w.length) 0 (lineStartsBehind starts w) t := by
  induction w generalizing position starts with
  | nil => rfl
  | cons c w ih =>
      rw [List.cons_append, List.length_cons, findingsFrom, ih, lineStartsBehind_cons]
      congr 1
      omega

/-- Within a line nothing is found. -/
theorem findingsFrom_within (parts : Pattern) (position : Nat) {w : Text} (hw : '\n' ∉ w)
    (t : Text) :
    findingsFrom (wholeLine parts) position 0 false (w ++ t) =
      findingsFrom (wholeLine parts) (position + w.length) 0 false t := by
  induction w generalizing position with
  | nil => rfl
  | cons c w ih =>
      rw [List.mem_cons, not_or] at hw
      have hnone : runs? (wholeLine parts) false (c :: (w ++ t)) = none := rfl
      rw [List.cons_append, findingsFrom, hnone]
      dsimp only
      rw [beq_eq_false_iff_ne.mpr (Ne.symm hw.1), ih (position + 1) hw.2, List.length_cons]
      congr 1
      omega

/-- The line at the front of a text, and what is behind it. -/
theorem findingsFrom_line (hparts : ∀ part ∈ wholeLine parts, Part.StaysInLine part)
    (position : Nat) (hrow : '\n' ∉ row) (hne : row ≠ []) (hu : lineEndsBefore u = true) :
    findingsFrom (wholeLine parts) position 0 true (row ++ u) =
      ((runs? (wholeLine parts) true row).map (Finding.mk position)).toList ++
        findingsFrom (wholeLine parts) (position + row.length) 0 false u := by
  cases row with
  | nil => exact absurd rfl hne
  | cons c w =>
      have hlook : runs? (wholeLine parts) true (c :: w ++ u) =
          runs? (wholeLine parts) true (c :: w) := runs?_append_of_lineEnds hparts hu
      have hmem := List.mem_cons.not.mp hrow
      rw [not_or] at hmem
      have hc : (c == '\n') = false := beq_eq_false_iff_ne.mpr (Ne.symm hmem.1)
      have hlen : position + (c :: w).length = position + 1 + w.length := by
        rw [List.length_cons]
        omega
      rw [List.cons_append] at hlook ⊢
      rw [findingsFrom, hlook, hlen]
      cases hruns : runs? (wholeLine parts) true (c :: w) with
      | none =>
          dsimp only
          rw [hc, findingsFrom_within parts (position + 1) hmem.2]
          rfl
      | some runs =>
          have hskip : runs.flatten.length - 1 = w.length := by
            rw [flatten_of_wholeLine hrow hruns]
            rfl
          dsimp only
          rw [hc, hskip, findingsFrom_append, lineStartsBehind_of_not_mem hmem.2]
          rfl

theorem findingsFrom_newline (parts : Pattern) (position : Nat) (t : Text) :
    findingsFrom (wholeLine parts) position 0 false ('\n' :: t) =
      findingsFrom (wholeLine parts) (position + 1) 0 true t := rfl

theorem findingsFrom_wholeLine (hparts : ∀ part ∈ wholeLine parts, Part.StaysInLine part)
    (hempty : runs? (wholeLine parts) true [] = none) (position : Nat) (t : Text) :
    findingsFrom (wholeLine parts) position 0 true t =
      (Text.placedLines position (Text.lines t)).filterMap fun l =>
        (runs? (wholeLine parts) true l.2).map (Finding.mk l.1) := by
  induction t using Text.lineInduction generalizing position with
  | last row hrow =>
      cases row with
      | nil => rfl
      | cons c w =>
          have hline := findingsFrom_line hparts position hrow (List.cons_ne_nil c w)
            (show lineEndsBefore [] = true from rfl)
          rw [List.append_nil] at hline
          rw [hline, Text.lines_of_not_mem hrow (List.cons_ne_nil c w)]
          simp only [Text.placedLines, findingsFrom, List.append_nil, List.filterMap_cons,
            List.filterMap_nil]
          cases runs? (wholeLine parts) true (c :: w) <;> rfl
  | next row t hrow ih =>
      have hu : lineEndsBefore ('\n' :: t) = true := rfl
      have hlook : runs? (wholeLine parts) true (row ++ ['\n']) =
          runs? (wholeLine parts) true row :=
        runs?_append_of_lineEnds hparts (show lineEndsBefore ['\n'] = true from rfl)
      have hfront : findingsFrom (wholeLine parts) position 0 true (row ++ '\n' :: t) =
          ((runs? (wholeLine parts) true row).map (Finding.mk position)).toList ++
            findingsFrom (wholeLine parts) (position + row.length + 1) 0 true t := by
        cases row with
        | nil =>
            rw [hempty]
            have hnone : runs? (wholeLine parts) true ([] ++ '\n' :: t) = none :=
              (runs?_append_of_lineEnds hparts hu).trans hempty
            rw [List.nil_append] at hnone ⊢
            rw [findingsFrom, hnone]
            rfl
        | cons c w =>
            rw [findingsFrom_line hparts position hrow (List.cons_ne_nil c w) hu,
              findingsFrom_newline]
      have hlen : (row ++ ['\n']).length = row.length + 1 := by simp
      rw [hfront, ih, Text.lines_append_newline hrow, Text.placedLines, hlen, Nat.add_assoc,
        List.filterMap_cons, hlook]
      cases runs? (wholeLine parts) true row <;> rfl

/-- The matches of a pattern for whole lines are its matches in the lines. -/
theorem findings_wholeLine (hparts : ∀ part ∈ wholeLine parts, Part.StaysInLine part)
    (hempty : runs? (wholeLine parts) true [] = none) (t : Text) :
    findings (wholeLine parts) t =
      (Text.placedLines 0 (Text.lines t)).filterMap fun l =>
        (runs? (wholeLine parts) true l.2).map (Finding.mk l.1) :=
  findingsFrom_wholeLine hparts hempty 0 t

/-! ## Patterns without lines -/

/-- A pattern that does not ask where lines start finds what a recogniser finds that makes of every
match what is made of its runs. -/
theorem filterMap_findings {α : Type} {r : Recogniser α} {value? : List Text → Option α}
    (hr : ∀ starts t, r t = (runs? p starts t).bind fun runs =>
      (value? runs).map fun v => ⟨v, runs.flatten.length⟩)
    (hvalue : ∀ starts t runs, runs? p starts t = some runs → (value? runs).isSome = true)
    (t : Text) : ((findings p t).filterMap fun f => value? f.runs) = Text.hits r t := by
  have hscan (position skip : Nat) (starts : Bool) :
      ((findingsFrom p position skip starts t).filterMap fun f => value? f.runs) =
        (Text.piecesFrom r skip t).filterMap Piece.value? := by
    induction t generalizing position skip starts with
    | nil => rfl
    | cons c t ih =>
        cases skip with
        | succ skip => rw [findingsFrom, Text.piecesFrom, ih]
        | zero =>
            rw [findingsFrom, Text.piecesFrom, hr starts]
            cases hruns : runs? p starts (c :: t) with
            | none => exact ih _ _ _
            | some runs =>
                obtain ⟨v, hv⟩ := Option.isSome_iff_exists.mp (hvalue _ _ _ hruns)
                simp only [Option.bind_some, hv, Option.map_some, List.filterMap_cons, Piece.value?,
                  ih]
  exact hscan 0 0 true

end NoteLinks.Pattern
