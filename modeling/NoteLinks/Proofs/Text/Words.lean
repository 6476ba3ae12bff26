/-
# Words and the blanks between them

The words of a text are its runs without blanks. Put together again with spaces they make a text
in which each run of blanks has become a single space, and the blanks at the ends are gone. Nothing
else happens to the text: what is no blank stays, in its order, and two characters that are
neighbours stay so.
-/
import NoteLinks.Proofs.Text.Seam
import NoteLinks.Proofs.Text.Splitting
import NoteLinks.Proofs.Text.Trimming

namespace NoteLinks.Text

variable {c : Char} {t word : Text}

/-! ## The words of a text -/

theorem words_cons (c : Char) (t : Text) :
    words (c :: t) =
      if isBlank c then words t
      else match t, words t with
        | d :: _, w :: ws => if isBlank d then [c] :: w :: ws else (c :: w) :: ws
        | _, ws => [c] :: ws := rfl

theorem words_cons_ne_nil (hc : isBlank c = false) (t : Text) : words (c :: t) ≠ [] := by
  rw [words_cons, if_neg (by simp [hc])]
  split
  next => split <;> exact List.cons_ne_nil _ _
  next => exact List.cons_ne_nil _ _

/-- A character is a blank, or a word of its own in front of a blank or the end, or it begins the
first word of what follows. -/
theorem words_cons_cases (c : Char) (t : Text) :
    isBlank c = true ∧ words (c :: t) = words t ∨
      isBlank c = false ∧ (∀ d, t.head? = some d → isBlank d = true) ∧
        words (c :: t) = [c] :: words t ∨
      isBlank c = false ∧ ∃ w ws, words t = w :: ws ∧ words (c :: t) = (c :: w) :: ws := by
  rw [words_cons]
  split
  next hc => exact .inl ⟨hc, rfl⟩
  next hc =>
    rw [Bool.not_eq_true] at hc
    right
    split
    next d t w ws heq =>
      split
      next hd =>
        refine .inl ⟨hc, ?_, by rw [heq]⟩
        rintro _ ⟨⟩
        exact hd
      next => exact .inr ⟨hc, w, ws, heq, rfl⟩
    next hother =>
      refine .inl ⟨hc, fun d hd => ?_, rfl⟩
      obtain ⟨t, rfl⟩ := List.head?_eq_some_iff.mp hd
      by_contra hletter
      rw [Bool.not_eq_true] at hletter
      obtain ⟨w, ws, heq⟩ := List.exists_cons_of_ne_nil (words_cons_ne_nil hletter t)
      exact hother d t w ws rfl heq

/-- Words are not empty and have no blanks. -/
theorem of_mem_words (hword : word ∈ words t) :
    word ≠ [] ∧ ∀ c ∈ word, isBlank c = false := by
  induction t generalizing word with
  | nil => exact absurd hword List.not_mem_nil
  | cons c t ih =>
      rcases words_cons_cases c t with ⟨-, heq⟩ | ⟨hc, -, heq⟩ | ⟨hc, w, ws, hwords, heq⟩
      · rw [heq] at hword
        exact ih hword
      · rw [heq, List.mem_cons] at hword
        rcases hword with rfl | hword
        · exact ⟨List.cons_ne_nil _ _, by simpa using hc⟩
        · exact ih hword
      · rw [heq, List.mem_cons] at hword
        rw [hwords] at ih
        rcases hword with rfl | hword
        · exact ⟨List.cons_ne_nil _ _, List.forall_mem_cons.mpr ⟨hc, (ih List.mem_cons_self).2⟩⟩
        · exact ih (List.mem_cons_of_mem w hword)

/-- A word in front of a blank or the end is the first word, whatever follows. -/
theorem words_append {rest : Text} (hne : word ≠ []) (hword : ∀ c ∈ word, isBlank c = false)
    (hrest : ∀ d, rest.head? = some d → isBlank d = true) :
    words (word ++ rest) = word :: words rest := by
  induction word with
  | nil => exact absurd rfl hne
  | cons c word ih =>
      obtain ⟨hc, hword⟩ := List.forall_mem_cons.mp hword
      rw [List.cons_append, words_cons, if_neg (by simp [hc])]
      cases word with
      | nil =>
          cases rest with
          | nil => rfl
          | cons d rest =>
              rw [List.nil_append]
              cases words (d :: rest) with
              | nil => rfl
              | cons first others => exact if_pos (hrest d rfl)
      | cons d word =>
          have hd := hword d List.mem_cons_self
          rw [ih (List.cons_ne_nil d word) hword, List.cons_append]
          exact if_neg (by simp [hd])

/-! ## Words put together with spaces -/

/-- A text has no blanks but single spaces between other characters. -/
structure IsSingleSpaced (t : Text) : Prop where
  eq_space : ∀ c ∈ t, isBlank c = true → c = ' '
  not_double : ¬ [' ', ' '] <:+: t
  trimmed : trim t = t

theorem mem_join {sep : Text} {ts : List Text} (h : c ∈ join sep ts) :
    c ∈ sep ∨ ∃ t ∈ ts, c ∈ t := by
  induction ts with
  | nil => cases h
  | cons t ts ih =>
      cases ts with
      | nil => exact .inr ⟨t, List.mem_cons_self, h⟩
      | cons u ts =>
          rw [join, List.mem_append, List.mem_append] at h
          rcases h with (h | h) | h
          · exact .inr ⟨t, List.mem_cons_self, h⟩
          · exact .inl h
          · rcases ih h with h | ⟨w, hw, hc⟩
            · exact .inl h
            · exact .inr ⟨w, List.mem_cons_of_mem t hw, hc⟩

section Join

variable {ws : List Text} (h : ∀ word ∈ ws, word ≠ [] ∧ ∀ c ∈ word, isBlank c = false)

include h

/-- Words put together begin as the first of them does. -/
theorem exists_join_eq_cons (hws : ws ≠ []) :
    ∃ c rest, join [' '] ws = c :: rest ∧ isBlank c = false := by
  obtain ⟨word, ws, rfl⟩ := List.exists_cons_of_ne_nil hws
  obtain ⟨⟨hne, hword⟩, -⟩ := List.forall_mem_cons.mp h
  obtain ⟨c, word, rfl⟩ := List.exists_cons_of_ne_nil hne
  have hc := hword c List.mem_cons_self
  cases ws with
  | nil => exact ⟨c, word, rfl, hc⟩
  | cons next ws => exact ⟨c, _, join_cons_cons _ _ _, hc⟩

theorem isBlank_of_getLast?_join (hc : (join [' '] ws).getLast? = some c) :
    isBlank c = false := by
  induction ws with
  | nil => cases hc
  | cons word ws ih =>
      obtain ⟨⟨-, hword⟩, hrest⟩ := List.forall_mem_cons.mp h
      cases ws with
      | nil => exact hword c (List.mem_of_getLast? hc)
      | cons next ws =>
          apply ih hrest
          obtain ⟨d, rest, hjoin, -⟩ := exists_join_eq_cons hrest (List.cons_ne_nil _ _)
          rw [join_cons_cons, hjoin, List.getLast?_append_of_ne_nil _ (List.cons_ne_nil _ _)] at hc
          rwa [hjoin]

/-- There is one space only between two words, since no word begins with another one. -/
theorem not_double_join : ¬ [' ', ' '] <:+: join [' '] ws := by
  induction ws with
  | nil => decide
  | cons word ws ih =>
      obtain ⟨⟨-, hword⟩, hrest⟩ := List.forall_mem_cons.mp h
      have hspace : ' ' ∉ word := fun hmem => by cases hword ' ' hmem
      rintro ⟨x, y, hxy⟩
      rw [List.append_assoc] at hxy
      cases ws with
      | nil =>
          rw [join] at hxy
          simp [← hxy] at hspace
      | cons next ws =>
          rw [join_cons_cons] at hxy
          obtain ⟨z, -, hz⟩ := exists_eq_append_of_not_mem hspace hxy.symm
          obtain ⟨d, rest, hjoin, hd⟩ := exists_join_eq_cons hrest (List.cons_ne_nil _ _)
          cases z with
          | nil =>
              rw [hjoin] at hz
              obtain rfl : d = ' ' := (List.cons.inj (List.cons.inj hz).2).1
              cases hd
          | cons e z => exact ih hrest ⟨z, y, by simpa using (List.cons.inj hz).2.symm⟩

theorem isSingleSpaced_join : IsSingleSpaced (join [' '] ws) where
  eq_space c hc hblank := by
    rcases mem_join hc with hspace | ⟨word, hword, hc⟩
    · exact List.mem_singleton.mp hspace
    · rw [(h word hword).2 c hc] at hblank
      cases hblank
  not_double := not_double_join h
  trimmed := by
    refine trim_eq_self (fun c hc => ?_) fun _ => isBlank_of_getLast?_join h
    have hws : ws ≠ [] := by
      rintro rfl
      cases hc
    obtain ⟨d, rest, hjoin, hd⟩ := exists_join_eq_cons h hws
    rw [hjoin] at hc
    rwa [← Option.some.inj hc]

/-- Words are read back as they were put together. -/
theorem words_join : words (join [' '] ws) = ws := by
  induction ws with
  | nil => rfl
  | cons word ws ih =>
      obtain ⟨⟨hne, hword⟩, hrest⟩ := List.forall_mem_cons.mp h
      cases ws with
      | nil =>
          have hlast : words (word ++ []) = [word] :=
            words_append hne hword fun _ hd => nomatch hd
          rwa [List.append_nil] at hlast
      | cons next ws =>
          have hspace : ∀ d, (' ' :: join [' '] (next :: ws)).head? = some d → isBlank d = true := by
            rintro _ ⟨⟩
            rfl
          have hblank : words (' ' :: join [' '] (next :: ws)) = words (join [' '] (next :: ws)) :=
            rfl
          rw [join_cons_cons, words_append hne hword hspace, hblank, ih hrest]

end Join

theorem isSingleSpaced_join_words (t : Text) : IsSingleSpaced (join [' '] (words t)) :=
  isSingleSpaced_join fun _ => of_mem_words

/-! ## What becomes of the blanks -/

/-- A text from which blanks have been taken away, or have become spaces. -/
inductive Collapses : Text → Text → Prop
  | nil : Collapses [] []
  | keep {c : Char} {t u : Text} (hc : isBlank c = false) (h : Collapses t u) :
      Collapses (c :: t) (c :: u)
  | drop {c : Char} {t u : Text} (hc : isBlank c = true) (h : Collapses t u) : Collapses (c :: t) u
  | space {c : Char} {t u : Text} (hc : isBlank c = true) (h : Collapses t u) :
      Collapses (c :: t) (' ' :: u)

/-- What is no blank has been there before. -/
theorem Collapses.mem {u : Text} (h : Collapses t u) (hc : isBlank c = false) (hmem : c ∈ u) :
    c ∈ t := by
  induction h with
  | nil => exact hmem
  | @keep d t u hd h ih =>
      rcases List.mem_cons.mp hmem with rfl | hmem
      · exact List.mem_cons_self
      · exact List.mem_cons_of_mem d (ih hmem)
  | @drop d t u hd h ih => exact List.mem_cons_of_mem d (ih hmem)
  | @space d t u hd h ih =>
      rcases List.mem_cons.mp hmem with rfl | hmem
      · cases hc
      · exact List.mem_cons_of_mem d (ih hmem)

/-- What is no blank stays in front. -/
theorem Collapses.head? {u : Text} (h : Collapses t u) (hc : isBlank c = false)
    (hhead : t.head? = some c) : u.head? = some c := by
  cases h with
  | nil => cases hhead
  | keep => exact hhead
  | drop hd =>
      rw [Option.some.inj hhead, hc] at hd
      cases hd
  | space hd =>
      rw [Option.some.inj hhead, hc] at hd
      cases hd

/-- What is put together from the words of a text has lost nothing but blanks. Behind a word the
first blank becomes the space in front of the next word. -/
theorem collapses_join_words (t : Text) :
    Collapses t (join [' '] (words t)) ∧
      ((∀ d, t.head? = some d → isBlank d = true) → words t ≠ [] →
        Collapses t (' ' :: join [' '] (words t))) := by
  induction t with
  | nil => exact ⟨.nil, fun _ hne => absurd rfl hne⟩
  | cons c t ih =>
      rcases words_cons_cases c t with ⟨hc, heq⟩ | ⟨hc, hbreak, heq⟩ | ⟨hc, w, ws, hwords, heq⟩
      · rw [heq]
        exact ⟨.drop hc ih.1, fun _ _ => .space hc ih.1⟩
      · refine ⟨?_, fun hblank _ => absurd (hblank c rfl) (by simp [hc])⟩
        rw [heq]
        cases hwords : words t with
        | nil =>
            rw [hwords] at ih
            exact .keep hc ih.1
        | cons w ws =>
            rw [hwords] at ih
            rw [join_cons_cons]
            exact .keep hc (ih.2 hbreak (List.cons_ne_nil _ _))
      · refine ⟨?_, fun hblank _ => absurd (hblank c rfl) (by simp [hc])⟩
        rw [hwords] at ih
        rw [heq]
        have hjoin : join [' '] ((c :: w) :: ws) = c :: join [' '] (w :: ws) := by
          cases ws with
          | nil => rfl
          | cons next ws => rw [join_cons_cons, join_cons_cons, List.cons_append]
        rw [hjoin]
        exact .keep hc ih.1

end NoteLinks.Text
