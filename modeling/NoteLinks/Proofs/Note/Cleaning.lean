/-
# Clean phrases

A phrase is cleaned in two steps: markup tags are taken out of it, and then its blanks are made
single spaces. Neither step leaves a tag behind. A bracket opens a tag exactly if another one
closes it further on, and not at once. Taking tags out adds no closing bracket, and one that
closes at once stays where it is. Brackets are no blanks, so the second step adds none either, and
what was closed at once still is.

So there is nothing left to do for either step, and a clean phrase stays as it is.
-/
import NoteLinks.Note.Concept
import NoteLinks.Proofs.Text.Cutting
import NoteLinks.Proofs.Text.Scan
import NoteLinks.Proofs.Text.Words

namespace NoteLinks.Concept

variable {c : Char} {inside t u : Text}

/-- Whether there is a markup tag somewhere in the text. -/
def HasMarkup (t : Text) : Prop :=
  ∃ inside, inside ≠ [] ∧ '>' ∉ inside ∧ '<' :: (inside ++ ['>']) <:+: t

/-! ## The tags of a text -/

theorem not_hasMarkup_nil : ¬ HasMarkup [] := by
  rintro ⟨inside, -, -, hinfix⟩
  cases List.eq_nil_of_infix_nil hinfix

/-- A tag stands at the start of a text or further on. -/
theorem hasMarkup_cons :
    HasMarkup (c :: t) ↔ (c = '<' ∧ '>' ∈ t ∧ t.head? ≠ some '>') ∨ HasMarkup t := by
  constructor
  · rintro ⟨inside, hne, hinside, hinfix⟩
    rcases List.infix_cons_iff.mp hinfix with ⟨u, heq⟩ | hinfix
    · obtain ⟨rfl, rfl⟩ := List.cons.inj heq
      obtain ⟨d, inside, rfl⟩ := List.exists_cons_of_ne_nil hne
      refine .inl ⟨rfl, by simp, fun hhead => hinside ?_⟩
      rw [← Option.some.inj hhead]
      exact List.mem_cons_self
    · exact .inr ⟨inside, hne, hinside, hinfix⟩
  · rintro (⟨rfl, hmem, hhead⟩ | ⟨inside, hne, hinside, hinfix⟩)
    · obtain ⟨inside, u, rfl, hinside⟩ := List.eq_append_cons_of_mem hmem
      refine ⟨inside, ?_, hinside, [], u, by simp⟩
      rintro rfl
      exact hhead rfl
    · exact ⟨inside, hne, hinside, List.infix_cons hinfix⟩

/-! ## Taking the tags out -/

theorem recogniseMarkup_cons_of_ne (hc : c ≠ '<') (t : Text) :
    recogniseMarkup (c :: t) = none := by
  unfold recogniseMarkup
  split
  next heq => exact absurd (List.cons.inj heq).1 hc
  next => rfl

theorem recogniseMarkup_lt (hne : inside ≠ []) (hinside : '>' ∉ inside) (t : Text) :
    recogniseMarkup ('<' :: (inside ++ '>' :: t)) = some ⟨(), inside.length + 2⟩ := by
  obtain ⟨d, inside, rfl⟩ := List.exists_cons_of_ne_nil hne
  simp only [recogniseMarkup, Text.takeWhile_ne_append hinside, Text.dropWhile_ne_append hinside]

/-- A bracket that opens no tag is closed at once, if it is closed at all. -/
theorem head?_of_recogniseMarkup_eq_none (h : recogniseMarkup ('<' :: t) = none) (hmem : '>' ∈ t) :
    t.head? = some '>' := by
  obtain ⟨inside, u, rfl, hinside⟩ := List.eq_append_cons_of_mem hmem
  cases inside with
  | nil => rfl
  | cons d inside =>
      rw [recogniseMarkup_lt (List.cons_ne_nil d inside) hinside] at h
      cases h

theorem length_pos_of_recogniseMarkup {m : Match Unit} (h : recogniseMarkup t = some m) :
    0 < m.length := by
  unfold recogniseMarkup at h
  split at h
  next =>
    dsimp only at h
    split at h
    next =>
      obtain rfl := Option.some.inj h
      exact Nat.succ_pos _
    next => cases h
  next => cases h

theorem not_hasMarkup_withoutMatches (t : Text) :
    ¬ HasMarkup (Text.withoutMatches recogniseMarkup t) := by
  induction hlen : t.length using Nat.strong_induction_on generalizing t with
  | _ len ih =>
      subst hlen
      cases t with
      | nil => exact not_hasMarkup_nil
      | cons c t =>
          cases hrec : recogniseMarkup (c :: t) with
          | some m =>
              have hpos := length_pos_of_recogniseMarkup hrec
              rw [Text.withoutMatches_cons_of_some hrec hpos]
              apply ih _ _ _ rfl
              rw [List.length_drop, List.length_cons]
              omega
          | none =>
              rw [Text.withoutMatches_cons_of_none hrec, hasMarkup_cons, not_or]
              refine ⟨?_, ih t.length (Nat.lt_succ_self _) t rfl⟩
              rintro ⟨rfl, hmem, hhead⟩
              apply hhead
              have hclosed :=
                head?_of_recogniseMarkup_eq_none hrec (Text.mem_of_mem_withoutMatches hmem)
              obtain ⟨u, rfl⟩ := List.head?_eq_some_iff.mp hclosed
              rw [Text.withoutMatches_cons_of_none (recogniseMarkup_cons_of_ne (by decide) u)]
              rfl

theorem hasMarkup_of_recogniseMarkup {m : Match Unit} (h : recogniseMarkup t = some m) :
    HasMarkup t := by
  unfold recogniseMarkup at h
  split at h
  next rest =>
    dsimp only at h
    split at h
    next d inside u hinside hclose =>
      obtain ⟨-, hrest⟩ := Text.dropWhile_ne_eq_cons_iff.mp hclose
      refine ⟨d :: inside, List.cons_ne_nil d inside, ?_, [], u, ?_⟩
      · rw [← hinside]
        exact Text.not_mem_takeWhile_ne '>' rest
      · rw [hinside] at hrest
        rw [hrest]
        simp
    next => cases h
  next => cases h

/-- Where there are no tags nothing is taken out. -/
theorem withoutMatches_of_not_hasMarkup (h : ¬ HasMarkup t) :
    Text.withoutMatches recogniseMarkup t = t := by
  induction t with
  | nil => rfl
  | cons c t ih =>
      cases hrec : recogniseMarkup (c :: t) with
      | some m => exact absurd (hasMarkup_of_recogniseMarkup hrec) h
      | none =>
          rw [Text.withoutMatches_cons_of_none hrec,
            ih fun hmarkup => h (hasMarkup_cons.mpr (.inr hmarkup))]

/-! ## Making the blanks single spaces -/

/-- What is a tag after blanks have been taken away was one before. -/
theorem hasMarkup_of_collapses (h : Text.Collapses t u) (hu : HasMarkup u) : HasMarkup t := by
  induction h with
  | nil => exact hu
  | @keep c t u hc h ih =>
      rw [hasMarkup_cons] at hu ⊢
      refine hu.imp ?_ ih
      rintro ⟨rfl, hmem, hhead⟩
      exact ⟨rfl, h.mem rfl hmem, fun hclosed => hhead (h.head? rfl hclosed)⟩
  | @drop c t u hc h ih => exact hasMarkup_cons.mpr (.inr (ih hu))
  | @space c t u hc h ih =>
      rcases hasMarkup_cons.mp hu with ⟨hspace, -⟩ | hu
      · cases hspace
      · exact hasMarkup_cons.mpr (.inr (ih hu))

/-! ## Both steps -/

/-- No markup is left in a clean phrase. -/
theorem not_hasMarkup_clean (phrase : Text) : ¬ HasMarkup (clean phrase) := fun h =>
  not_hasMarkup_withoutMatches phrase
    (hasMarkup_of_collapses (Text.collapses_join_words _).1 h)

theorem isSingleSpaced_clean (phrase : Text) : Text.IsSingleSpaced (clean phrase) :=
  Text.isSingleSpaced_join_words _

theorem words_clean (phrase : Text) :
    Text.words (clean phrase) = Text.words (Text.withoutMatches recogniseMarkup phrase) :=
  Text.words_join fun _ => Text.of_mem_words

/-- A clean phrase is not changed by being cleaned again. It has no blanks but single spaces
between other characters, and no tags. -/
theorem clean_is_final (phrase : Text) :
    clean (clean phrase) = clean phrase ∧ Text.IsSingleSpaced (clean phrase) ∧
      ¬ HasMarkup (clean phrase) := by
  refine ⟨?_, isSingleSpaced_clean phrase, not_hasMarkup_clean phrase⟩
  calc clean (clean phrase)
      = Text.join [' '] (Text.words (clean phrase)) := by
        rw [clean, withoutMatches_of_not_hasMarkup (not_hasMarkup_clean phrase)]
    _ = clean phrase := by
        rw [words_clean]
        rfl

/-- The first tag has a bracket within it, and the second one nothing but a blank. Brackets with
nothing at all between them are no tag. -/
example : clean "\t<<i>b> <\u3000>  <>\nc ".toList = "b> <> c".toList := by decide +kernel

end NoteLinks.Concept
