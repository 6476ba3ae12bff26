/-
# Cutting texts apart

What the functions that take a text apart say about the text as a whole. A cut
gives back parts that make up the text again, and it is decided by the text up
to the end of what is looked for: whatever follows may be exchanged.
-/
import Mathlib.Data.List.Infix
import Mathlib.Data.List.TakeWhile
import NoteLinks.Text.Basic

namespace NoteLinks.Text

/-! ## Prefixes and suffixes -/

@[simp]
theorem dropPrefix?_append (p t : Text) : dropPrefix? p (p ++ t) = some t := by
  induction p with
  | nil => rfl
  | cons c p ih => simpa [dropPrefix?] using ih

theorem dropPrefix?_eq_some_iff {p t rest : Text} :
    dropPrefix? p t = some rest ↔ t = p ++ rest := by
  constructor
  · intro h
    induction p generalizing t with
    | nil => simpa [dropPrefix?] using h
    | cons c p ih =>
        cases t with
        | nil => simp [dropPrefix?] at h
        | cons d t =>
            rw [dropPrefix?] at h
            split at h
            next hcd => rw [hcd, ih h, List.cons_append]
            next => cases h
  · rintro rfl
    exact dropPrefix?_append p rest

theorem dropPrefix?_eq_none_iff {p t : Text} : dropPrefix? p t = none ↔ ¬ p <+: t := by
  constructor
  · rintro h ⟨rest, rfl⟩
    rw [dropPrefix?_append] at h
    cases h
  · intro h
    cases hdrop : dropPrefix? p t with
    | none => rfl
    | some rest => exact absurd ⟨rest, (dropPrefix?_eq_some_iff.mp hdrop).symm⟩ h

theorem startsWith_iff {p t : Text} : startsWith p t = true ↔ p <+: t := by
  rw [startsWith, Option.isSome_iff_ne_none, ne_eq, dropPrefix?_eq_none_iff, not_not]

theorem dropSuffix?_eq_some_iff {s t rest : Text} :
    dropSuffix? s t = some rest ↔ t = rest ++ s := by
  rw [dropSuffix?, Option.map_eq_some_iff]
  constructor
  · rintro ⟨u, hu, rfl⟩
    rw [← List.reverse_inj, dropPrefix?_eq_some_iff.mp hu, List.reverse_append,
      List.reverse_reverse]
  · rintro rfl
    exact ⟨rest.reverse, by rw [List.reverse_append, dropPrefix?_append], List.reverse_reverse _⟩

/-! ## Cutting at the first occurrence -/

theorem eq_append_of_cutAt? {p t before after : Text} (h : cutAt? p t = some (before, after)) :
    t = before ++ p ++ after := by
  induction t generalizing before with
  | nil =>
      cases p with
      | nil =>
          obtain ⟨rfl, rfl⟩ : [] = before ∧ [] = after := by simpa [cutAt?] using h
          rfl
      | cons c p => simp [cutAt?] at h
  | cons c t ih =>
      rw [cutAt?] at h
      split at h
      next rest hdrop =>
        obtain ⟨rfl, rfl⟩ : [] = before ∧ rest = after := by simpa using h
        rw [dropPrefix?_eq_some_iff.mp hdrop, List.nil_append]
      next =>
        obtain ⟨⟨before', after'⟩, hcut, heq⟩ := Option.map_eq_some_iff.mp h
        obtain ⟨rfl, rfl⟩ : c :: before' = before ∧ after' = after := by simpa using heq
        rw [ih hcut, List.cons_append, List.cons_append]

/-- The cut stays where it is if another text follows. -/
theorem cutAt?_exchange {p t before after : Text} (h : cutAt? p t = some (before, after))
    (after' : Text) : cutAt? p (before ++ p ++ after') = some (before, after') := by
  induction t generalizing before with
  | nil =>
      cases p with
      | nil =>
          obtain ⟨rfl, rfl⟩ : [] = before ∧ [] = after := by simpa [cutAt?] using h
          cases after' <;> rfl
      | cons c p => simp [cutAt?] at h
  | cons c t ih =>
      rw [cutAt?] at h
      split at h
      next rest hdrop =>
        obtain ⟨rfl, rfl⟩ : [] = before ∧ rest = after := by simpa using h
        cases p with
        | nil => cases after' <;> rfl
        | cons d p =>
            rw [List.nil_append, List.cons_append, cutAt?, ← List.cons_append, dropPrefix?_append]
      next hdrop =>
        obtain ⟨⟨before', rest⟩, hcut, heq⟩ := Option.map_eq_some_iff.mp h
        obtain ⟨rfl, rfl⟩ : c :: before' = before ∧ rest = after := by simpa using heq
        -- A prefix of the exchanged text is as long as `p`, hence one of the text itself.
        have hnone : dropPrefix? p (c :: (before' ++ p ++ after')) = none := by
          rw [dropPrefix?_eq_none_iff] at hdrop ⊢
          intro hstart
          have hkept : c :: (before' ++ p) <+: c :: (before' ++ p ++ after') := ⟨after', by simp⟩
          have hshort : p <+: c :: (before' ++ p) :=
            List.prefix_of_prefix_length_le hstart hkept (by simp; omega)
          refine hdrop (hshort.trans ⟨rest, ?_⟩)
          rw [eq_append_of_cutAt? hcut, List.cons_append]
        rw [List.cons_append, List.cons_append, cutAt?, hnone]
        simp only [ih hcut, Option.map_some]

theorem cutAt?_eq_none_iff {p t : Text} : cutAt? p t = none ↔ ¬ p <:+: t := by
  induction t with
  | nil => cases p <;> simp [cutAt?]
  | cons c t ih =>
      rw [cutAt?, List.infix_cons_iff, not_or, ← ih, ← dropPrefix?_eq_none_iff]
      split
      next rest hdrop => simp [hdrop]
      next hdrop => simp [hdrop]

/-- Nothing shorter is in front of an occurrence than what is cut off. -/
theorem length_le_of_cutAt? {p t before after x y : Text} (h : cutAt? p t = some (before, after))
    (ht : t = x ++ p ++ y) : before.length ≤ x.length := by
  induction t generalizing before x with
  | nil =>
      obtain ⟨rfl, -⟩ : before = [] ∧ p = [] ∧ after = [] := by simpa using eq_append_of_cutAt? h
      exact Nat.zero_le _
  | cons c t ih =>
      rw [cutAt?] at h
      split at h
      next rest hdrop =>
        obtain ⟨rfl, -⟩ : [] = before ∧ rest = after := by simpa using h
        exact Nat.zero_le _
      next hdrop =>
        obtain ⟨⟨before', after'⟩, hcut, heq⟩ := Option.map_eq_some_iff.mp h
        obtain ⟨rfl, rfl⟩ : c :: before' = before ∧ after' = after := by simpa using heq
        cases x with
        | nil => exact absurd ⟨y, ht.symm⟩ (dropPrefix?_eq_none_iff.mp hdrop)
        | cons d x => exact Nat.succ_le_succ (ih hcut (List.cons.inj ht).2)

/-- A text is cut where the shortest text is in front. -/
theorem cutAt?_eq_some_iff {p t before after : Text} :
    cutAt? p t = some (before, after) ↔ t = before ++ p ++ after ∧
      ∀ x y, t = x ++ p ++ y → before.length ≤ x.length := by
  constructor
  · exact fun h => ⟨eq_append_of_cutAt? h, fun _ _ => length_le_of_cutAt? h⟩
  · rintro ⟨rfl, hshortest⟩
    cases hcut : cutAt? p (before ++ p ++ after) with
    | none => exact absurd ⟨before, after, rfl⟩ (cutAt?_eq_none_iff.mp hcut)
    | some parts =>
        obtain ⟨x, y⟩ := parts
        have hxy := eq_append_of_cutAt? hcut
        have hlen := Nat.le_antisymm (length_le_of_cutAt? hcut rfl) (hshortest x y hxy)
        rw [List.append_assoc, List.append_assoc] at hxy
        obtain ⟨rfl, hback⟩ := List.append_inj hxy.symm hlen
        rw [List.append_cancel_left hback]

theorem cutAt?_char_eq_some_iff {c : Char} {t before after : Text} :
    cutAt? [c] t = some (before, after) ↔ t = before ++ c :: after ∧ c ∉ before := by
  constructor
  · intro h
    refine ⟨by rw [eq_append_of_cutAt? h, List.append_assoc]; rfl, ?_⟩
    induction t generalizing before with
    | nil => simp [cutAt?] at h
    | cons d t ih =>
        rw [cutAt?] at h
        split at h
        next rest hdrop =>
          obtain ⟨rfl, rfl⟩ : [] = before ∧ rest = after := by simpa using h
          exact List.not_mem_nil
        next hdrop =>
          obtain ⟨⟨before', after'⟩, hcut, heq⟩ := Option.map_eq_some_iff.mp h
          obtain ⟨rfl, rfl⟩ : d :: before' = before ∧ after' = after := by simpa using heq
          have hne : c ≠ d := by
            rintro rfl
            simp [dropPrefix?] at hdrop
          exact List.not_mem_cons_of_ne_of_not_mem hne (ih hcut)
  · rintro ⟨rfl, hc⟩
    induction before with
    | nil => simp [cutAt?, dropPrefix?]
    | cons d before ih =>
        rw [List.mem_cons, not_or] at hc
        obtain ⟨hne, hc⟩ := hc
        simp [cutAt?, dropPrefix?, hne, ih hc]

theorem eq_append_of_cutLast? {c : Char} {t before after : Text}
    (h : cutLast? c t = some (before, after)) : t = before ++ c :: after := by
  induction t generalizing before with
  | nil => cases h
  | cons d t ih =>
      rw [cutLast?] at h
      split at h
      next front back hcut =>
        obtain ⟨rfl, rfl⟩ := Prod.mk.inj (Option.some.inj h)
        rw [ih hcut, List.cons_append]
      next =>
        split at h
        next hd =>
          obtain ⟨rfl, rfl⟩ := Prod.mk.inj (Option.some.inj h)
          rw [hd, List.nil_append]
        next => cases h

theorem cutLast?_eq_none_iff {c : Char} {t : Text} : cutLast? c t = none ↔ c ∉ t := by
  induction t with
  | nil => simp [cutLast?]
  | cons d t ih =>
      rw [cutLast?, List.mem_cons, not_or, ← ih]
      cases hcut : cutLast? c t with
      | none => simp [eq_comm]
      | some cut => simp

theorem cutLast?_eq_some_iff {c : Char} {t before after : Text} :
    cutLast? c t = some (before, after) ↔ t = before ++ c :: after ∧ c ∉ after := by
  constructor
  · intro h
    refine ⟨eq_append_of_cutLast? h, ?_⟩
    induction t generalizing before with
    | nil => cases h
    | cons d t ih =>
        rw [cutLast?] at h
        split at h
        next front back hcut =>
          obtain ⟨rfl, rfl⟩ := Prod.mk.inj (Option.some.inj h)
          exact ih hcut
        next hcut =>
          split at h
          next =>
            obtain ⟨rfl, rfl⟩ := Prod.mk.inj (Option.some.inj h)
            exact cutLast?_eq_none_iff.mp hcut
          next => cases h
  · rintro ⟨rfl, hc⟩
    induction before with
    | nil =>
        rw [List.nil_append, cutLast?, cutLast?_eq_none_iff.mpr hc]
        exact if_pos rfl
    | cons d before ih => rw [List.cons_append, cutLast?, ih]

/-! ## Runs of characters -/

/-- A run does not go on into a text that begins with another character. -/
theorem takeWhile_append_of_head? {p : Char → Bool} {u : Text}
    (h : ∀ c, u.head? = some c → p c = false) (t : Text) :
    (t ++ u).takeWhile p = t.takeWhile p := by
  have hnil : u.takeWhile p = [] := by
    cases u with
    | nil => rfl
    | cons c u => simp [h c rfl]
  rw [List.takeWhile_append, hnil, List.append_nil]
  split
  next hall => exact ((List.takeWhile_prefix p).eq_of_length hall).symm
  next => rfl

theorem takeWhile_ne_append {c : Char} {t : Text} (h : c ∉ t) (u : Text) :
    (t ++ c :: u).takeWhile (· != c) = t := by
  rw [List.takeWhile_append_of_pos]
  · simp
  · intro d hd
    exact bne_iff_ne.mpr fun heq => h (heq ▸ hd)

theorem dropWhile_ne_append {c : Char} {t : Text} (h : c ∉ t) (u : Text) :
    (t ++ c :: u).dropWhile (· != c) = c :: u := by
  rw [List.dropWhile_append_of_pos]
  · simp
  · intro d hd
    exact bne_iff_ne.mpr fun heq => h (heq ▸ hd)

/-- A character cuts a text at its first occurrence in one way only. -/
theorem eq_of_append_cons_eq {c : Char} {t t' u u' : Text} (ht : c ∉ t) (ht' : c ∉ t')
    (h : t ++ c :: u = t' ++ c :: u') : t = t' ∧ u = u' := by
  have htt : t = t' := by
    rw [← takeWhile_ne_append ht u, h, takeWhile_ne_append ht' u']
  subst htt
  exact ⟨rfl, (List.cons.inj (List.append_cancel_left h)).2⟩

theorem not_mem_takeWhile_ne (c : Char) (t : Text) : c ∉ t.takeWhile (· != c) := by
  intro hmem
  simpa using List.mem_takeWhile_imp hmem

/-- A run that is followed by something is followed by its character. -/
theorem dropWhile_ne_eq_cons_iff {c d : Char} {t rest : Text} :
    t.dropWhile (· != c) = d :: rest ↔ d = c ∧ t = t.takeWhile (· != c) ++ c :: rest := by
  constructor
  · intro h
    have hd : d = c := by
      have := List.head?_dropWhile_not (· != c) t
      rw [h] at this
      simpa using this
    refine ⟨hd, ?_⟩
    conv_lhs => rw [← List.takeWhile_append_dropWhile (p := (· != c)) (l := t), h, hd]
  · rintro ⟨rfl, ht⟩
    rw [ht, dropWhile_ne_append (not_mem_takeWhile_ne d t)]

end NoteLinks.Text
