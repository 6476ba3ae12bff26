/-
# Tags and seams

A tag goes on to the first character that tags are not made of. So where such a character
follows, or nothing, a text can be cut without harm to its tags. Without a hash there is no
tag, and the hashes of a heading line are none.
-/
import NoteLinks.Note.Tag
import NoteLinks.Proofs.Text.Cutting
import NoteLinks.Proofs.Text.Scan

namespace NoteLinks.Tag

variable {t u : Text}

/-- Tags have no blanks. -/
theorem isTagChar_eq_false_of_isBlank {c : Char} (h : Text.isBlank c = true) :
    isTagChar c = false := by
  have hblanks : ∀ n ∈ [0x09, 0x0A, 0x0B, 0x0C, 0x0D, 0x20, 0x85, 0xA0, 0x1680, 0x2000, 0x2001,
      0x2002, 0x2003, 0x2004, 0x2005, 0x2006, 0x2007, 0x2008, 0x2009, 0x200A, 0x2028, 0x2029, 0x202F,
      0x205F, 0x3000], isTagChar (Char.ofNat n) = false := by decide +kernel
  have hc := hblanks c.toNat (by
    simp only [Text.isBlank, Bool.or_eq_true, Bool.and_eq_true, decide_eq_true_eq, beq_iff_eq] at h
    simp only [List.mem_cons, List.not_mem_nil, or_false]
    omega)
  rwa [Char.ofNat_toNat] at hc

theorem recognise_cons_of_ne {c : Char} (hc : c ≠ '#') (t : Text) : recognise (c :: t) = none := by
  unfold recognise
  split
  next heq => exact absurd (List.cons.inj heq).1 hc
  next => rfl

theorem recognise_hash (t : Text) :
    recognise ('#' :: t) =
      if t.takeWhile isTagChar = [] then none
      else some ⟨t.takeWhile isTagChar, (t.takeWhile isTagChar).length + 1⟩ := by
  simp only [recognise, List.isEmpty_iff]

/-- Before a character that tags are not made of, a text can be cut. -/
theorem hits_append (h : ∀ c, u.head? = some c → isTagChar c = false) :
    Text.hits recognise (t ++ u) = Text.hits recognise t ++ Text.hits recognise u := by
  apply Text.hits_append
  intro w hne _
  obtain ⟨c, w, rfl⟩ := List.exists_cons_of_ne_nil hne
  by_cases hc : c = '#'
  · subst hc
    rw [List.cons_append, recognise_hash, recognise_hash, Text.takeWhile_append_of_head? h w]
    refine ⟨rfl, ?_⟩
    intro m hm
    split at hm
    next => cases hm
    next =>
      obtain rfl := Option.some.inj hm
      have hle := (List.takeWhile_prefix isTagChar (l := w)).length_le
      exact ⟨Nat.succ_pos _, Nat.succ_le_succ hle⟩
  · rw [List.cons_append, recognise_cons_of_ne hc, recognise_cons_of_ne hc]
    exact ⟨rfl, fun m hm => nomatch hm⟩

/-- Without a hash nothing is found. -/
theorem hits_append_of_not_mem (h : '#' ∉ t) (u : Text) :
    Text.hits recognise (t ++ u) = Text.hits recognise u :=
  Text.hits_append_of_none fun _ v hc => recognise_cons_of_ne (fun heq => h (heq ▸ hc)) v

theorem hits_of_not_mem (h : '#' ∉ t) : Text.hits recognise t = [] := by
  have hhits := hits_append_of_not_mem h []
  rwa [List.append_nil] at hhits

/-- At a blank a text can be cut. -/
theorem hits_append_blank_cons {w : Char} (hw : Text.isBlank w = true) (t u : Text) :
    Text.hits recognise (t ++ w :: u) = Text.hits recognise t ++ Text.hits recognise u := by
  have hbreak : ∀ c, (w :: u).head? = some c → isTagChar c = false := by
    rintro c ⟨⟩
    exact isTagChar_eq_false_of_isBlank hw
  have hhash : w ≠ '#' := by
    rintro rfl
    cases hw
  rw [hits_append hbreak, Text.hits_cons_of_none (recognise_cons_of_ne hhash u)]

theorem hits_append_newline (t u : Text) :
    Text.hits recognise (t ++ '\n' :: u) = Text.hits recognise t ++ Text.hits recognise u :=
  hits_append_blank_cons rfl t u

/-- Blanks have no tags, and take none away. -/
theorem hits_append_blank (t : Text) {blanks : Text} (h : Text.isBlankText blanks = true) :
    Text.hits recognise (t ++ blanks) = Text.hits recognise t := by
  have hbreak : ∀ c, blanks.head? = some c → isTagChar c = false := fun c hc =>
    isTagChar_eq_false_of_isBlank (List.all_eq_true.mp h c (List.mem_of_head? hc))
  have hhash : '#' ∉ blanks := fun hmem => by
    cases List.all_eq_true.mp h '#' hmem
  rw [hits_append hbreak, hits_of_not_mem hhash, List.append_nil]

/-- Hashes in front of a character that tags are not made of are no tags. -/
theorem hits_replicate_append (n : Nat) {c : Char} (hc : isTagChar c = false) (rest : Text) :
    Text.hits recognise (List.replicate n '#' ++ c :: rest) = Text.hits recognise (c :: rest) := by
  induction n with
  | zero => rfl
  | succ n ih =>
      have hnone : recognise ('#' :: (List.replicate n '#' ++ c :: rest)) = none := by
        rw [recognise_hash, if_pos]
        cases n with
        | zero => simp [hc]
        | succ n =>
            have hhash : isTagChar '#' = false := by decide +kernel
            simp [List.replicate_succ, hhash]
      rw [List.replicate_succ, List.cons_append, Text.hits_cons_of_none hnone, ih]

end NoteLinks.Tag
