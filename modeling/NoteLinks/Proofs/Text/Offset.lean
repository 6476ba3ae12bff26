/-
# Texts cut at byte offsets

Characters take up one byte at least, so a text can be cut at an offset in one way only, and the
offset then is the number of bytes in front. A text that is put together can therefore be cut
where its parts meet.

For the same reason two offsets are in the order of the positions, and spans in bytes overlap
where the spans of the same characters do.
-/
import NoteLinks.Proofs.Text.Scan
import NoteLinks.Text.Bytes
import NoteLinks.Text.Offset

namespace NoteLinks

namespace Text

variable {n i j : Nat} {t u v : Text}

/-! ## Lengths in bytes -/

@[simp]
theorem byteLength_nil : byteLength [] = 0 := rfl

@[simp]
theorem byteLength_cons (c : Char) (t : Text) : byteLength (c :: t) = c.utf8Size + byteLength t :=
  rfl

@[simp]
theorem byteLength_append (t u : Text) : byteLength (t ++ u) = byteLength t + byteLength u := by
  induction t with
  | nil => simp
  | cons c t ih => rw [List.cons_append, byteLength_cons, byteLength_cons, ih, Nat.add_assoc]

/-- The length in bytes is the number of bytes in UTF-8. -/
theorem size_encode (t : Text) : (encode t).size = byteLength t := by
  rw [encode, String.toByteArray_ofList]
  induction t with
  | nil => rfl
  | cons c t ih =>
      rw [List.utf8Encode_cons, ByteArray.size_append, ih, List.utf8Encode_singleton,
        List.size_toByteArray, String.length_utf8EncodeChar, byteLength_cons]

theorem byteLength_pos (h : t ≠ []) : 0 < byteLength t := by
  obtain ⟨c, t, rfl⟩ := List.exists_cons_of_ne_nil h
  rw [byteLength_cons]
  exact Nat.add_pos_left c.utf8Size_pos _

/-- The offsets of positions are in the order of the positions. -/
theorem byteLength_take_lt_iff (h : j ≤ t.length) :
    byteLength (t.take i) < byteLength (t.take j) ↔ i < j := by
  constructor
  · intro hlt
    by_contra hle
    obtain ⟨v, hv⟩ := List.take_prefix_take_left (l := t) (Nat.not_lt.mp hle)
    rw [← hv, byteLength_append] at hlt
    omega
  · intro hij
    obtain ⟨v, hv⟩ := List.take_prefix_take_left (l := t) (Nat.le_of_lt hij)
    have hne : v ≠ [] := by
      rintro rfl
      have hlen := congrArg List.length hv
      rw [List.append_nil, List.length_take, List.length_take] at hlen
      omega
    rw [← hv, byteLength_append]
    exact Nat.lt_add_of_pos_right (byteLength_pos hne)

/-! ## Cutting -/

/-- An offset between two characters of a text, or at one of its ends. -/
def IsBoundary (n : Nat) (t : Text) : Prop := ∃ u v, t = u ++ v ∧ n = byteLength u

theorem isBoundary_append (t u : Text) : IsBoundary (byteLength t) (t ++ u) := ⟨t, u, rfl, rfl⟩

theorem IsBoundary.le_byteLength (h : IsBoundary n t) : n ≤ byteLength t := by
  obtain ⟨u, v, rfl, rfl⟩ := h
  rw [byteLength_append]
  exact Nat.le_add_right _ _

theorem isBoundary_take (t : Text) (i : Nat) : IsBoundary (byteLength (t.take i)) t :=
  ⟨t.take i, t.drop i, (List.take_append_drop i t).symm, rfl⟩

theorem cutAtOffset?_eq_some_iff :
    cutAtOffset? n t = some (u, v) ↔ t = u ++ v ∧ byteLength u = n := by
  constructor
  · intro h
    induction t generalizing n u with
    | nil =>
        cases n with
        | zero =>
            obtain ⟨rfl, rfl⟩ : [] = u ∧ [] = v := by simpa [cutAtOffset?] using h
            exact ⟨rfl, rfl⟩
        | succ n => cases h
    | cons c t ih =>
        cases n with
        | zero =>
            obtain ⟨rfl, rfl⟩ : [] = u ∧ c :: t = v := by simpa [cutAtOffset?] using h
            exact ⟨rfl, rfl⟩
        | succ n =>
            rw [cutAtOffset?] at h
            split at h
            next hfits =>
              obtain ⟨⟨before, after⟩, hcut, heq⟩ := Option.map_eq_some_iff.mp h
              obtain ⟨rfl, rfl⟩ : c :: before = u ∧ after = v := by simpa using heq
              obtain ⟨rfl, hlen⟩ := ih hcut
              refine ⟨rfl, ?_⟩
              rw [byteLength_cons, hlen]
              omega
            next => cases h
  · rintro ⟨rfl, rfl⟩
    induction u with
    | nil =>
        rw [List.nil_append]
        cases v <;> rfl
    | cons c u ih =>
        -- A character is never without bytes.
        obtain ⟨n, hn⟩ : ∃ n, byteLength (c :: u) = n + 1 :=
          ⟨byteLength (c :: u) - 1, by have := c.utf8Size_pos; rw [byteLength_cons]; omega⟩
        have hfits : c.utf8Size ≤ n + 1 := by
          rw [← hn, byteLength_cons]
          exact Nat.le_add_right _ _
        have hrest : n + 1 - c.utf8Size = byteLength u := by
          rw [← hn, byteLength_cons, Nat.add_sub_cancel_left]
        rw [hn, List.cons_append, cutAtOffset?, if_pos hfits, hrest, ih, Option.map_some]

@[simp]
theorem upTo_append (t u : Text) : upTo (byteLength t) (t ++ u) = .ok t := by
  rw [upTo, cutAtOffset?_eq_some_iff.mpr ⟨rfl, rfl⟩]

@[simp]
theorem behind_append (t u : Text) : behind (byteLength t) (t ++ u) = .ok u := by
  rw [behind, cutAtOffset?_eq_some_iff.mpr ⟨rfl, rfl⟩]

theorem between_append (t u v : Text) :
    between (byteLength t) (byteLength (t ++ u)) (t ++ u ++ v) = .ok u := by
  rw [between, upTo_append]
  exact behind_append t u

end Text

/-! ## Spans in bytes -/

namespace Span

/-- The span of the same characters of a text, in bytes. -/
def inBytes (t : Text) (span : Span) : Span :=
  ⟨Text.byteLength (t.take span.start), Text.byteLength (t.take span.stop)⟩

theorem inBytes_append (x w y : Text) :
    inBytes (x ++ (w ++ y)) ⟨x.length, x.length + w.length⟩ =
      ⟨Text.byteLength x, Text.byteLength x + Text.byteLength w⟩ := by
  rw [inBytes, List.take_left, List.take_length_add_append, List.take_left, Text.byteLength_append]

theorem overlaps_inBytes {t : Text} {a b : Span} (ha : a.stop ≤ t.length)
    (hb : b.stop ≤ t.length) : (a.inBytes t).overlaps (b.inBytes t) = a.overlaps b := by
  simp only [overlaps, inBytes, Text.byteLength_take_lt_iff ha, Text.byteLength_take_lt_iff hb]

end Span

namespace Text

variable {α : Type} {recognise : Recogniser α}

theorem byteSpansFrom_eq (before : Text) (ps : List (Piece α)) :
    byteSpansFrom (byteLength before) ps =
      (spansFrom before.length ps).map (Span.inBytes (before ++ ps.flatMap Piece.text)) := by
  induction ps generalizing before with
  | nil => rfl
  | cons piece ps ih =>
      have hrest := ih (before ++ piece.text)
      rw [byteLength_append, List.length_append, List.append_assoc] at hrest
      rw [List.flatMap_cons]
      cases piece with
      | plain c => exact hrest
      | hit t v =>
          rw [byteSpansFrom, spansFrom, List.map_cons]
          exact congrArg₂ List.cons (Span.inBytes_append before t _).symm hrest

/-- A scan finds the same in bytes. -/
theorem byteSpans_eq (hpos : ∀ t m, recognise t = some m → 0 < m.length) (t : Text) :
    byteSpans recognise t = (spans recognise t).map (Span.inBytes t) := by
  have h := byteSpansFrom_eq [] (pieces recognise t)
  rwa [List.nil_append, flatMap_text_pieces hpos] at h

theorem stop_le_of_mem_spans (hpos : ∀ t m, recognise t = some m → 0 < m.length) {t : Text}
    {span : Span} (h : span ∈ spans recognise t) : span.stop ≤ t.length := by
  obtain ⟨x, y, m, rfl, -, hstart, hstop⟩ := exists_match_of_mem_spansFrom hpos h
  rw [List.length_append]
  omega

/-- What is passed over is the part in front of the first character of the class. -/
theorem getD_offsetWhere? (inClass : Char → Bool) (t : Text) :
    (offsetWhere? inClass t).getD (byteLength t) =
      byteLength (t.takeWhile fun c => !inClass c) := by
  induction t with
  | nil => rfl
  | cons c t ih =>
      rw [offsetWhere?]
      cases hc : inClass c with
      | true => rw [if_pos rfl, List.takeWhile_cons_of_neg (by simp [hc])]; rfl
      | false =>
          rw [if_neg Bool.false_ne_true, List.takeWhile_cons_of_pos (by simp [hc]), byteLength_cons,
            byteLength_cons, ← ih]
          cases offsetWhere? inClass t <;> rfl

end Text

end NoteLinks
