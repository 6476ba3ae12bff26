/-
# Scanning a text

The pieces of a text can be computed from the left: a character at which nothing
is recognised is a piece of its own, and behind a match the scan starts afresh.
So a scan can be followed through a text that is put together from known parts.

Every span of a scan comes from a match in the text. And a word that is itself a
match, and that no match from further left ends within, is covered by a span,
whatever stands around it.
-/
import Mathlib.Data.List.Infix
import NoteLinks.Text.Piece

namespace NoteLinks.Text

variable {α : Type} {recognise : Recogniser α}

/-! ## Following a scan -/

theorem piecesFrom_eq_pieces_drop (skip : Nat) (t : Text) :
    piecesFrom recognise skip t = pieces recognise (t.drop skip) := by
  induction skip generalizing t with
  | zero => rfl
  | succ skip ih =>
      cases t with
      | nil => rfl
      | cons c t => rw [piecesFrom, ih, List.drop_succ_cons]

@[simp]
theorem pieces_nil : pieces recognise [] = [] := rfl

theorem pieces_cons_of_none {c : Char} {t : Text} (h : recognise (c :: t) = none) :
    pieces recognise (c :: t) = .plain c :: pieces recognise t := by
  rw [pieces, piecesFrom, h]
  rfl

theorem pieces_cons_of_some {c : Char} {t : Text} {m : Match α}
    (h : recognise (c :: t) = some m) (hpos : 0 < m.length) :
    pieces recognise (c :: t) =
      .hit ((c :: t).take m.length) m.value :: pieces recognise ((c :: t).drop m.length) := by
  rw [pieces, piecesFrom, h]
  obtain ⟨n, hn⟩ : ∃ n, m.length = n + 1 := ⟨m.length - 1, by omega⟩
  simp only [hn, Nat.add_sub_cancel, List.drop_succ_cons, piecesFrom_eq_pieces_drop]

theorem pieces_append_of_some {w t : Text} {v : α} (hw : w ≠ [])
    (h : recognise (w ++ t) = some ⟨v, w.length⟩) :
    pieces recognise (w ++ t) = .hit w v :: pieces recognise t := by
  cases w with
  | nil => exact absurd rfl hw
  | cons c w =>
      rw [List.cons_append] at h ⊢
      rw [pieces_cons_of_some h (by simp), ← List.cons_append]
      simp only [List.take_left, List.drop_left]

/-- Where no match starts, only single characters are pieces. -/
theorem pieces_append_of_none {t u : Text}
    (h : ∀ c v, c ∈ t → recognise (c :: v) = none) :
    pieces recognise (t ++ u) = t.map .plain ++ pieces recognise u := by
  induction t with
  | nil => rfl
  | cons c t ih =>
      rw [List.cons_append, pieces_cons_of_none (h c _ List.mem_cons_self),
        ih fun d v hd => h d v (List.mem_cons_of_mem c hd)]
      rfl

/-- A piece is a character of the text, or a match in it. -/
theorem of_mem_pieces {t : Text} {piece : Piece α} (h : piece ∈ pieces recognise t) :
    (∃ c ∈ t, piece = .plain c) ∨
      ∃ u m, recognise u = some m ∧ piece = .hit (u.take m.length) m.value := by
  rw [pieces] at h
  generalize 0 = skip at h
  induction t generalizing skip with
  | nil => cases h
  | cons c t ih =>
      have hrest {skip : Nat} (h : piece ∈ piecesFrom recognise skip t) :
          (∃ d ∈ c :: t, piece = .plain d) ∨
            ∃ u m, recognise u = some m ∧ piece = .hit (u.take m.length) m.value :=
        (ih skip h).imp_left fun ⟨d, hd, heq⟩ => ⟨d, List.mem_cons_of_mem c hd, heq⟩
      cases skip with
      | succ skip => exact hrest h
      | zero =>
          rw [piecesFrom] at h
          split at h
          next m hm =>
            rcases List.mem_cons.mp h with rfl | h
            · exact .inr ⟨c :: t, m, hm, rfl⟩
            · exact hrest h
          next =>
            rcases List.mem_cons.mp h with rfl | h
            · exact .inl ⟨c, List.mem_cons_self, rfl⟩
            · exact hrest h

/-- The pieces of a text make up the text. -/
theorem flatMap_text_pieces (hpos : ∀ t m, recognise t = some m → 0 < m.length) (t : Text) :
    (pieces recognise t).flatMap Piece.text = t := by
  have hskip (skip : Nat) : (piecesFrom recognise skip t).flatMap Piece.text = t.drop skip := by
    induction t generalizing skip with
    | nil => rw [piecesFrom, List.drop_nil, List.flatMap_nil]
    | cons c t ih =>
        cases skip with
        | succ skip => exact ih skip
        | zero =>
            rw [piecesFrom]
            split
            next m hm =>
              obtain ⟨n, hn⟩ := Nat.exists_eq_add_of_lt (hpos _ m hm)
              rw [List.flatMap_cons, ih, hn, Piece.text, Nat.zero_add, Nat.add_sub_cancel,
                List.take_succ_cons, List.cons_append, List.take_append_drop, List.drop_zero]
            next => rw [List.flatMap_cons, ih]; rfl
  exact hskip 0

/-! ## What is found -/

@[simp]
theorem hits_nil : hits recognise [] = [] := rfl

theorem hits_cons_of_none {c : Char} {t : Text} (h : recognise (c :: t) = none) :
    hits recognise (c :: t) = hits recognise t := by
  rw [hits, pieces_cons_of_none h]
  rfl

theorem hits_append_of_some {w t : Text} {v : α} (hw : w ≠ [])
    (h : recognise (w ++ t) = some ⟨v, w.length⟩) :
    hits recognise (w ++ t) = v :: hits recognise t := by
  rw [hits, pieces_append_of_some hw h]
  rfl

theorem hits_append_of_none {t u : Text} (h : ∀ c v, c ∈ t → recognise (c :: v) = none) :
    hits recognise (t ++ u) = hits recognise u := by
  rw [hits, pieces_append_of_none h, List.filterMap_append]
  have hplain : (t.map Piece.plain).filterMap (Piece.value? (α := α)) = [] := by
    simp [List.filterMap_map, Function.comp_def, Piece.value?]
  rw [hplain]
  rfl

/-- What is found in the front of a text is found again in the text if the recogniser does
not look behind the front, and then what is found in the back. -/
theorem hits_append {x y : Text}
    (h : ∀ u, u ≠ [] → u <:+ x → recognise (u ++ y) = recognise u ∧
      ∀ m, recognise u = some m → 0 < m.length ∧ m.length ≤ u.length) :
    hits recognise (x ++ y) = hits recognise x ++ hits recognise y := by
  induction hlen : x.length using Nat.strong_induction_on generalizing x with
  | _ len ih =>
      subst hlen
      cases x with
      | nil => rfl
      | cons c x =>
          obtain ⟨hsame, hwithin⟩ := h (c :: x) (List.cons_ne_nil c x) (List.suffix_refl _)
          rw [List.cons_append] at hsame ⊢
          cases hrec : recognise (c :: x) with
          | none =>
              rw [hits_cons_of_none (hsame.trans hrec), hits_cons_of_none hrec]
              apply ih x.length (Nat.lt_succ_self _) _ rfl
              exact fun u hne hsuffix => h u hne (hsuffix.trans (List.suffix_cons c x))
          | some m =>
              obtain ⟨hpos, hle⟩ := hwithin m hrec
              have hshort : ((c :: x).drop m.length).length < (c :: x).length := by
                rw [List.length_drop, List.length_cons]
                omega
              have hrest := ih _ hshort
                (fun u hne hsuffix => h u hne (hsuffix.trans (List.drop_suffix _ _))) rfl
              rw [hits, hits, pieces_cons_of_some (hsame.trans hrec) hpos,
                pieces_cons_of_some hrec hpos, ← List.cons_append,
                List.drop_append_of_le_length hle]
              exact congrArg (m.value :: ·) hrest

/-- What is found is what a match in the text means. -/
theorem exists_match_of_mem_hits {t : Text} {v : α} (h : v ∈ hits recognise t) :
    ∃ u m, recognise u = some m ∧ m.value = v := by
  obtain ⟨piece, hpiece, hv⟩ := List.mem_filterMap.mp h
  rcases of_mem_pieces hpiece with ⟨c, -, rfl⟩ | ⟨u, m, hm, rfl⟩
  · cases hv
  · exact ⟨u, m, hm, Option.some.inj hv⟩

/-! ## What is left without the matches -/

theorem withoutMatches_cons_of_none {c : Char} {t : Text} (h : recognise (c :: t) = none) :
    withoutMatches recognise (c :: t) = c :: withoutMatches recognise t := by
  rw [withoutMatches, pieces_cons_of_none h]
  rfl

theorem withoutMatches_cons_of_some {c : Char} {t : Text} {m : Match α}
    (h : recognise (c :: t) = some m) (hpos : 0 < m.length) :
    withoutMatches recognise (c :: t) = withoutMatches recognise ((c :: t).drop m.length) := by
  rw [withoutMatches, pieces_cons_of_some h hpos]
  rfl

/-- Without the matches nothing is in a text that was not there. -/
theorem mem_of_mem_withoutMatches {t : Text} {c : Char} (h : c ∈ withoutMatches recognise t) :
    c ∈ t := by
  obtain ⟨piece, hpiece, hc⟩ := List.mem_flatMap.mp h
  rcases of_mem_pieces hpiece with ⟨d, hd, rfl⟩ | ⟨u, m, -, rfl⟩
  · rwa [List.mem_singleton.mp hc]
  · cases hc

/-! ## Where it is found -/

section Spans

variable (hpos : ∀ t m, recognise t = some m → 0 < m.length)

include hpos

/-- A span of a scan is where a match stands. -/
theorem exists_match_of_mem_spansFrom {t : Text} {n : Nat} {span : Span}
    (h : span ∈ spansFrom n (pieces recognise t)) :
    ∃ x y m, t = x ++ y ∧ recognise y = some m ∧ span.start = n + x.length ∧
      span.stop = span.start + min m.length y.length := by
  induction hlen : t.length using Nat.strong_induction_on generalizing t n with
  | _ len ih =>
      subst hlen
      cases t with
      | nil => simp [spansFrom] at h
      | cons c t =>
          cases hrec : recognise (c :: t) with
          | none =>
              rw [pieces_cons_of_none hrec, spansFrom] at h
              obtain ⟨x, y, m, rfl, hm, hstart, hstop⟩ := ih t.length (by simp) h rfl
              exact ⟨c :: x, y, m, rfl, hm, by rw [hstart, List.length_cons]; omega, hstop⟩
          | some m =>
              have hm := hpos _ m hrec
              rw [pieces_cons_of_some hrec hm, spansFrom, List.mem_cons, List.length_take] at h
              rcases h with rfl | h
              · exact ⟨[], c :: t, m, rfl, hrec, rfl, rfl⟩
              · have hshort : ((c :: t).drop m.length).length < (c :: t).length := by
                  rw [List.length_drop, List.length_cons]
                  omega
                obtain ⟨x, y, m', hxy, hm', hstart, hstop⟩ := ih _ hshort h rfl
                refine ⟨(c :: t).take m.length ++ x, y, m', ?_, hm', ?_, hstop⟩
                · rw [List.append_assoc, ← hxy, List.take_append_drop]
                · rw [hstart, List.length_append, List.length_take]
                  omega

/-- A match that no match from further left ends within is covered by a span. -/
theorem exists_span_covering {x w y : Text} {v : α} (n : Nat) (hw : w ≠ [])
    (hmatch : recognise (w ++ y) = some ⟨v, w.length⟩)
    (hwithin : ∀ x' m, x' ≠ [] → recognise (x' ++ (w ++ y)) = some m →
      m.length ≤ x'.length ∨ x'.length + w.length ≤ m.length) :
    ∃ span ∈ spansFrom n (pieces recognise (x ++ (w ++ y))),
      span.start ≤ n + x.length ∧ n + x.length + w.length ≤ span.stop := by
  induction hlen : x.length using Nat.strong_induction_on generalizing x n with
  | _ len ih =>
      subst hlen
      cases x with
      | nil =>
          rw [List.nil_append, pieces_append_of_some hw hmatch, spansFrom]
          exact ⟨_, List.mem_cons_self, Nat.le_refl _, Nat.le_refl _⟩
      | cons c x =>
          rw [List.cons_append]
          cases hrec : recognise (c :: (x ++ (w ++ y))) with
          | none =>
              rw [pieces_cons_of_none hrec, spansFrom]
              obtain ⟨span, hspan, hstart, hstop⟩ := ih x.length (by simp) (n + 1) rfl
              rw [List.length_cons]
              exact ⟨span, hspan, by omega, by omega⟩
          | some m =>
              have hm := hpos _ m hrec
              rw [pieces_cons_of_some hrec hm, spansFrom]
              rcases hwithin (c :: x) m (by simp) hrec with hleft | hover
              · have hdrop : (c :: (x ++ (w ++ y))).drop m.length =
                    (c :: x).drop m.length ++ (w ++ y) := by
                  rw [← List.cons_append, List.drop_append_of_le_length hleft]
                have hshort : ((c :: x).drop m.length).length < (c :: x).length := by
                  rw [List.length_drop, List.length_cons]
                  omega
                obtain ⟨span, hspan, hstart, hstop⟩ :=
                  ih _ hshort (n + ((c :: (x ++ (w ++ y))).take m.length).length) rfl
                rw [← hdrop] at hspan
                refine ⟨span, List.mem_cons_of_mem _ hspan, ?_, ?_⟩ <;>
                · simp only [List.length_take, List.length_drop, List.length_cons,
                    List.length_append] at *
                  omega
              · refine ⟨_, List.mem_cons_self, Nat.le_add_right _ _, ?_⟩
                simp only [List.length_take, List.length_cons, List.length_append] at *
                omega

/-- If all matches have the same length, and a match that overlaps one that does not count does
not count either, then the first span that counts is found by trying all positions. -/
theorem find?_spansFrom {n : Nat} (hlength : ∀ t m, recognise t = some m →
      m.length = n ∧ n ≤ t.length) (free : Span → Bool) (start : Nat) (t : Text)
    (hskip : ∀ i j, i < j → j < i + n → (recognise (t.drop i)).isSome →
      free ⟨start + i, start + i + n⟩ = false → free ⟨start + j, start + j + n⟩ = false) :
    (spansFrom start (pieces recognise t)).find? free =
      ((List.range t.length).find? fun i =>
        (recognise (t.drop i)).isSome && free ⟨start + i, start + i + n⟩).map
          fun i => ⟨start + i, start + i + n⟩ := by
  -- Positions that do not count are passed over at once, one or as many as a match has.
  have hpass (k m start : Nat) (p : Nat → Bool) (h : ∀ i < k, p i = false) :
      ((List.range (k + m)).find? p).map (fun i => Span.mk (start + i) (start + i + n)) =
        ((List.range m).find? fun i => p (k + i)).map
          fun i => ⟨start + k + i, start + k + i + n⟩ := by
    have hnone : (List.range k).find? p = none :=
      List.find?_range_eq_none.mpr fun i hi => by rw [h i hi]; rfl
    rw [List.range_add, List.find?_append, hnone, Option.none_or, List.find?_map, Option.map_map]
    simp only [Function.comp_def, Nat.add_assoc]
  induction hlen : t.length using Nat.strong_induction_on generalizing t start with
  | _ len ih =>
      subst hlen
      have hrest (k : Nat) (hk : 0 < k) (hle : k ≤ t.length)
          (hnone : ∀ i < k, ((recognise (t.drop i)).isSome &&
            free ⟨start + i, start + i + n⟩) = false) :
          (spansFrom (start + k) (pieces recognise (t.drop k))).find? free =
            ((List.range t.length).find? fun i =>
              (recognise (t.drop i)).isSome && free ⟨start + i, start + i + n⟩).map
                fun i => ⟨start + i, start + i + n⟩ := by
        have hshort : (t.drop k).length < t.length := by
          rw [List.length_drop]
          omega
        have hlater := ih _ hshort (start + k) (t.drop k) (fun i j hij hjn hhit hfree => by
          rw [List.drop_drop] at hhit
          simp only [Nat.add_assoc start k] at hfree ⊢
          exact hskip (k + i) (k + j) (by omega) (by omega) hhit hfree) rfl
        obtain ⟨m, hm⟩ := Nat.exists_eq_add_of_le hle
        rw [hlater, hm, hpass k m start _ hnone]
        simp only [List.length_drop, hm, Nat.add_sub_cancel_left, List.drop_drop,
          Nat.add_assoc start k]
      cases t with
      | nil => rfl
      | cons c t =>
          cases hrec : recognise (c :: t) with
          | none =>
              rw [pieces_cons_of_none hrec, spansFrom]
              refine hrest 1 (by decide) (by simp) fun i hi => ?_
              obtain rfl : i = 0 := by omega
              rw [List.drop_zero, hrec]
              rfl
          | some m =>
              obtain ⟨hm, hle⟩ := hlength _ m hrec
              have hmpos := hpos _ m hrec
              rw [pieces_cons_of_some hrec hmpos, spansFrom, List.length_take, hm,
                Nat.min_eq_left hle]
              cases hfree : free ⟨start, start + n⟩ with
              | true =>
                  rw [List.find?_cons_of_pos hfree, List.length_cons, List.range_succ_eq_map,
                    List.find?_cons_of_pos]
                  · rfl
                  · rw [List.drop_zero, hrec]
                    exact hfree
              | false =>
                  rw [List.find?_cons_of_neg (by simp [hfree])]
                  refine hrest n (hm ▸ hmpos) hle fun i hi => ?_
                  rcases Nat.eq_zero_or_pos i with rfl | hi'
                  · rw [Nat.add_zero, hfree, Bool.and_false]
                  · have hhit : (recognise ((c :: t).drop 0)).isSome := by
                      rw [List.drop_zero, hrec]
                      rfl
                    rw [hskip 0 i hi' (by omega) hhit hfree, Bool.and_false]

end Spans

end NoteLinks.Text
