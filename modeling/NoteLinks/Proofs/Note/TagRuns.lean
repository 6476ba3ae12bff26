/-
# Tags are the runs behind hashes

A scan for tags goes on behind what it has found. It misses no hash by that, for a tag has no hash
in it, and behind a hash without a tag it goes on with the next character. So the tags in a body are
all the runs of tag characters that stand behind a hash and cannot go on. Where such a run ends
depends only on the character behind it, and therefore a body can be cut at any blank.
-/
import NoteLinks.Note.Pattern
import NoteLinks.Proofs.Note.Tag
import NoteLinks.Proofs.Ordered.KeySet
import NoteLinks.Proofs.Text.Pattern

namespace NoteLinks.Tag

variable {body tag t : Text}

/-! ## Runs behind hashes -/

/-- A tag is written in a body: it is a run of tag characters behind a hash, as long as it can
be. -/
def IsWritten (body tag : Text) : Prop :=
  ∃ front back, body = front ++ '#' :: (tag ++ back) ∧ tag ≠ [] ∧
    (∀ c ∈ tag, isTagChar c = true) ∧ ∀ c, back.head? = some c → isTagChar c = false

theorem IsWritten.append (h : IsWritten t tag) (front : Text) : IsWritten (front ++ t) tag := by
  obtain ⟨before, back, rfl, hrun⟩ := h
  exact ⟨front ++ before, back, by rw [List.append_assoc], hrun⟩

theorem hits_hash (t : Text) :
    Text.hits recognise ('#' :: t) =
      if t.takeWhile isTagChar = [] then Text.hits recognise t
      else t.takeWhile isTagChar :: Text.hits recognise (t.dropWhile isTagChar) := by
  have hrec := recognise_hash t
  split at hrec
  next hnil => rw [if_pos hnil, Text.hits_cons_of_none hrec]
  next hne =>
    have hparts := List.takeWhile_append_dropWhile (p := isTagChar) (l := t)
    generalize t.takeWhile isTagChar = run at *
    generalize t.dropWhile isTagChar = rest at *
    subst hparts
    rw [if_neg hne]
    exact Text.hits_append_of_some (w := '#' :: run) (List.cons_ne_nil _ _) hrec

theorem isWritten_of_mem_hits (h : tag ∈ Text.hits recognise body) : IsWritten body tag := by
  -- Behind a tag the scan goes on with a shorter text, though not with the next character.
  induction hlen : body.length using Nat.strong_induction_on generalizing body with
  | _ len ih =>
      subst hlen
      cases body with
      | nil => cases h
      | cons c t =>
          by_cases hc : c = '#'
          · subst hc
            rw [hits_hash] at h
            split at h
            next => exact (ih t.length (Nat.lt_succ_self _) h rfl).append ['#']
            next hne =>
              have hparts := List.takeWhile_append_dropWhile (p := isTagChar) (l := t)
              rcases List.mem_cons.mp h with rfl | h
              · refine ⟨[], t.dropWhile isTagChar, by rw [hparts]; rfl, hne,
                  fun d hd => List.mem_takeWhile_imp hd, fun d hd => ?_⟩
                have hends := List.head?_dropWhile_not isTagChar t
                rw [hd] at hends
                simpa using hends
              · have hshort := (List.dropWhile_suffix isTagChar (l := t)).length_le
                have hwritten := (ih _ (Nat.lt_succ_of_le hshort) h rfl).append
                  ('#' :: t.takeWhile isTagChar)
                rwa [List.cons_append, hparts] at hwritten
          · rw [Text.hits_cons_of_none (recognise_cons_of_ne hc t)] at h
            exact (ih t.length (Nat.lt_succ_self _) h rfl).append [c]

theorem mem_hits_of_isWritten (h : IsWritten body tag) : tag ∈ Text.hits recognise body := by
  obtain ⟨front, back, rfl, hne, hrun, hback⟩ := h
  have hhash : ∀ c, ('#' :: (tag ++ back)).head? = some c → isTagChar c = false := by
    rintro c ⟨⟩
    decide +kernel
  have htake : (tag ++ back).takeWhile isTagChar = tag := by
    rw [Text.takeWhile_append_of_head? hback, List.takeWhile_eq_self_iff.mpr hrun]
  rw [hits_append hhash, hits_hash, htake, if_neg hne]
  exact List.mem_append_right _ List.mem_cons_self

theorem mem_hits_iff : tag ∈ Text.hits recognise body ↔ IsWritten body tag :=
  ⟨isWritten_of_mem_hits, mem_hits_of_isWritten⟩

/-! ## The pattern for tags -/

theorem runs?_pattern_hash (starts : Bool) (t : Text) :
    Pattern.runs? pattern starts ('#' :: t) =
      if t.takeWhile isTagChar = [] then none else some [['#'], t.takeWhile isTagChar] := by
  have hone : Pattern.lengths (· == '#') 1 (some 1) ('#' :: t) = [1] := by
    simp [Pattern.lengths]
  have hlast (starts : Bool) : Pattern.runs? [.run isTagChar 1 none] starts t =
      if t.takeWhile isTagChar = [] then none else some [t.takeWhile isTagChar] := by
    rw [Pattern.runs?_lastRun]
    cases t.takeWhile isTagChar <;> simp
  rw [pattern, Pattern.runs?, hone, List.findSome?_singleton]
  simp only [List.take_succ_cons, List.take_zero, List.drop_succ_cons, List.drop_zero, hlast]
  split <;> rfl

theorem runs?_pattern_of_head_ne (starts : Bool) (h : t.head? ≠ some '#') :
    Pattern.runs? pattern starts t = none := by
  have hnone : Pattern.lengths (· == '#') 1 (some 1) t = [] := by
    cases t with
    | nil => rfl
    | cons c t =>
        have hc : c ≠ '#' := fun heq => h (congrArg some heq)
        simp [Pattern.lengths, hc]
  rw [pattern, Pattern.runs?, hnone]
  rfl

theorem recognise_of_head_ne (h : t.head? ≠ some '#') : recognise t = none := by
  cases t with
  | nil => rfl
  | cons c t => exact recognise_cons_of_ne (fun heq => h (congrArg some heq)) t

/-- The pattern for tags finds what the scan finds. -/
theorem found_eq_hits (body : Text) : found body = Text.hits recognise body := by
  refine Pattern.filterMap_findings (fun starts t => ?_) (fun starts t runs h => ?_) body
  · by_cases h : t.head? = some '#'
    · obtain ⟨t, rfl⟩ := List.head?_eq_some_iff.mp h
      rw [runs?_pattern_hash, recognise_hash]
      split
      next => rfl
      next => simp [ofRuns?, Nat.add_comm]
    · rw [runs?_pattern_of_head_ne starts h, recognise_of_head_ne h]
      rfl
  · by_cases hhead : t.head? = some '#'
    · obtain ⟨t, rfl⟩ := List.head?_eq_some_iff.mp hhead
      rw [runs?_pattern_hash] at h
      split at h
      next => cases h
      next =>
        cases h
        rfl
    · rw [runs?_pattern_of_head_ne starts hhead] at h
      cases h

/-! ## All tags of a note -/

/-- The tags of a note are in strictly ascending order. They are those of the front matter and what
the pattern for tags finds in the body: all runs of tag characters behind hashes, and nothing else.
At a blank the body can be cut, and what is found on both sides is what is found in the whole. -/
theorem tags_are_declared_or_written (declared : List Text) (body : Text) :
    (all declared body).Pairwise (· < ·) ∧
      all declared body = (KeySet.ofList (declared ++ found body)).toList ∧
      (∀ tag, tag ∈ all declared body ↔ tag ∈ declared ∨ IsWritten body tag) ∧
      ∀ x w y, Text.isBlank w = true → body = x ++ w :: y →
        all declared body = (KeySet.ofList (all declared x ++ all declared y)).toList := by
  have hmem (body tag : Text) : tag ∈ all declared body ↔ tag ∈ declared ∨ IsWritten body tag := by
    rw [all, KeySet.mem_toList_ofList, List.mem_append, mem_hits_iff]
  refine ⟨KeySet.ascending _, by rw [found_eq_hits, all], hmem body, ?_⟩
  rintro x w y hw rfl
  refine congrArg KeySet.toList (KeySet.ofList_congr fun tag => ?_)
  rw [hits_append_blank_cons hw, List.mem_append, List.mem_append, List.mem_append, hmem, hmem,
    mem_hits_iff, mem_hits_iff]
  tauto

theorem tags_on_both_sides_of_a_blank :
    Text.isBlank '\u2003' = true ∧
      all ["b".toList] "##a/b-c#é; #\u2003[x](#y) #b #1".toList =
        ["1".toList, "a/b-c".toList, "b".toList, "y".toList, "é".toList] ∧
      (all ["b".toList] "##a/b-c#é; #\u2003[x](#y) #b #1".toList =
        (KeySet.ofList (all ["b".toList] "##a/b-c#é; #".toList ++
          all ["b".toList] "[x](#y) #b #1".toList)).toList) := by
  refine ⟨by decide, by decide +kernel, ?_⟩
  exact (tags_are_declared_or_written ["b".toList] "##a/b-c#é; #\u2003[x](#y) #b #1".toList).2.2.2
    "##a/b-c#é; #".toList '\u2003' "[x](#y) #b #1".toList (by decide) (by decide +kernel)

end NoteLinks.Tag
