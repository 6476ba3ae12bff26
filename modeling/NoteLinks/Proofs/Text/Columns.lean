/-
# Texts in columns

A text that is put together from pieces has each of them at a known position: behind the pieces in
front of it, and as many separators. Lines of which the pieces have the same lengths, one below
the other, are therefore lines in columns.

Trimming the end of such a line does nothing to the pieces but the last one, since every other
piece has a separator behind it, and a separator is not only blanks.
-/
import Mathlib.Algebra.BigOperators.Group.List.Basic
import Mathlib.Algebra.GroupWithZero.Nat
import NoteLinks.Proofs.Text.Trimming

namespace NoteLinks.Text

variable {sep t : Text} {pieces : List Text} {i : Nat}

/-! ## Pieces at their positions -/

theorem join_cons (sep piece : Text) (behind : List Text) :
    join sep (piece :: behind) = piece ++ behind.flatMap (sep ++ ·) := by
  induction behind generalizing piece with
  | nil => rw [join, List.flatMap_nil, List.append_nil]
  | cons next behind ih => rw [join, ih, List.flatMap_cons, List.append_assoc, List.append_assoc]

theorem join_append_cons (sep : Text) (before : List Text) (piece : Text) (behind : List Text) :
    join sep (before ++ piece :: behind) =
      before.flatMap (· ++ sep) ++ (piece ++ behind.flatMap (sep ++ ·)) := by
  induction before with
  | nil => exact join_cons sep piece behind
  | cons first before ih =>
      obtain ⟨next, rest, hrest⟩ : ∃ next rest, before ++ piece :: behind = next :: rest := by
        cases before <;> exact ⟨_, _, rfl⟩
      rw [List.cons_append, hrest, join, ← hrest, ih, List.flatMap_cons, ← List.append_assoc]

/-- The position at which a piece starts. -/
def pieceStart (sep : Text) (pieces : List Text) (i : Nat) : Nat :=
  ((pieces.take i).map List.length).sum + sep.length * i

/-- A piece stands at its position, and behind it a separator or nothing. -/
theorem exists_join_eq (sep : Text) (hi : i < pieces.length) : ∃ front rest,
    join sep pieces = front ++ (pieces[i] ++ rest) ∧ front.length = pieceStart sep pieces i ∧
      (i + 1 < pieces.length → sep <+: rest) ∧ (i + 1 = pieces.length → rest = []) := by
  refine ⟨(pieces.take i).flatMap (· ++ sep), (pieces.drop (i + 1)).flatMap (sep ++ ·), ?_, ?_,
    ?_, ?_⟩
  · conv_lhs => rw [← List.take_append_drop i pieces, List.drop_eq_getElem_cons hi]
    exact join_append_cons sep _ _ _
  · rw [pieceStart, List.length_flatMap]
    simp only [List.length_append]
    rw [List.sum_map_add, List.map_const', List.sum_replicate_nat, List.length_take,
      Nat.min_eq_left (Nat.le_of_lt hi), Nat.mul_comm]
  · intro hlast
    rw [List.drop_eq_getElem_cons hlast, List.flatMap_cons, List.append_assoc]
    exact List.prefix_append _ _
  · intro hlast
    rw [List.drop_of_length_le (Nat.le_of_eq hlast.symm)]
    rfl

/-! ## Slices of a text -/

/-- So many characters of a text from a position on. -/
def slice (start width : Nat) (t : Text) : Text := (t.drop start).take width

theorem slice_append (front piece rest : Text) :
    slice front.length piece.length (front ++ (piece ++ rest)) = piece := by
  rw [slice, List.drop_left, List.take_left]

/-- What has something behind it that is not only blanks is not trimmed. -/
theorem trimEnd_append_append (t : Text) {rest : Text} (hsep : isBlankText sep = false)
    (h : sep <+: rest) : ∃ rest', trimEnd (t ++ rest) = t ++ (trimEnd sep ++ rest') := by
  obtain ⟨rest, rfl⟩ := h
  have hkept : isBlankText (sep ++ rest) = false := by
    rw [isBlankText, List.all_append, ← isBlankText, hsep, Bool.false_and]
  rw [trimEnd_append, hkept, if_neg Bool.false_ne_true, trimEnd_append]
  -- Either the trimming goes on into the separator, or it ends behind it.
  split
  next => exact ⟨[], by rw [List.append_nil]⟩
  next =>
    refine ⟨sep.drop (trimEnd sep).length ++ trimEnd rest, ?_⟩
    rw [← List.append_assoc (trimEnd sep), trimEnd_append_drop]

/-- In a trimmed line the pieces are whole, except for the last one. -/
theorem slice_trimEnd_join (pieces : List Text) (hsep : isBlankText sep = false)
    (hi : i + 1 < pieces.length) :
    slice (pieceStart sep pieces i) pieces[i].length (trimEnd (join sep pieces)) = pieces[i] ∧
      slice (pieceStart sep pieces i + pieces[i].length) (trimEnd sep).length
        (trimEnd (join sep pieces)) = trimEnd sep := by
  obtain ⟨front, rest, hjoin, hfront, hbehind, -⟩ := exists_join_eq sep (Nat.lt_of_succ_lt hi)
  obtain ⟨rest', hrest⟩ := trimEnd_append_append (front ++ pieces[i]) hsep (hbehind hi)
  rw [hjoin, ← hfront, ← List.append_assoc, hrest]
  constructor
  · rw [List.append_assoc, slice_append]
  · rw [← List.length_append, slice_append]

/-- The last piece of a trimmed line is trimmed. -/
theorem slice_trimEnd_join_last (sep : Text) (pieces : List Text) (hi : i < pieces.length)
    (hlast : i + 1 = pieces.length) :
    slice (pieceStart sep pieces i) pieces[i].length (trimEnd (join sep pieces)) =
      trimEnd pieces[i] := by
  obtain ⟨front, rest, hjoin, hfront, -, hbehind⟩ := exists_join_eq sep hi
  rw [hjoin, ← hfront, hbehind hlast, List.append_nil, trimEnd_append]
  split
  next hblank =>
    -- A blank piece is gone, and blanks in front of it as well: the line ends before it starts.
    rw [trimEnd_eq_nil_iff.mpr hblank, slice, List.drop_of_length_le, List.take_nil]
    exact (trimEnd_isPrefix front).length_le
  next =>
    rw [slice, List.drop_left]
    exact List.take_of_length_le (trimEnd_isPrefix _).length_le

/-- What has no blanks is not trimmed. -/
theorem trimEnd_eq_self (h : ∀ c ∈ t, isBlank c = false) : trimEnd t = t := by
  obtain ⟨blanks, ht, hblank⟩ := exists_trimEnd_append t
  cases blanks with
  | nil =>
      rw [List.append_nil] at ht
      exact ht.symm
  | cons c blanks =>
      have hc : c ∈ t := by
        rw [ht]
        exact List.mem_append_right _ List.mem_cons_self
      rw [isBlankText, List.all_cons, h c hc] at hblank
      cases hblank

end NoteLinks.Text
