/-
# Keys

Sets and maps of this library are kept in ascending order of their keys, because
that is the order in which everything is reported. A key is a text, or a list of
texts when it names a place in a directory tree. Both are lists compared from
the left, so one order on lists serves for both.
-/
import NoteLinks.Text.Basic

namespace NoteLinks

/-- The keys are strictly and totally ordered. -/
class LawfulKey (κ : Type) [LT κ] : Prop where
  irrefl : ∀ a : κ, ¬ a < a
  trans : ∀ {a b c : κ}, a < b → b < c → a < c
  connected : ∀ {a b : κ}, ¬ a < b → ¬ b < a → a = b

namespace LawfulKey

variable {κ : Type} [LT κ] [LawfulKey κ]

theorem asymm {a b : κ} (h : a < b) : ¬ b < a := fun h' => irrefl a (trans h h')

theorem ne_of_lt {a b : κ} (h : a < b) : a ≠ b := by
  rintro rfl
  exact irrefl a h

end LawfulKey

instance : LawfulKey Char where
  irrefl := Char.lt_irrefl
  trans := Char.lt_trans
  connected := fun hab hba => Char.le_antisymm (Char.not_lt.1 hba) (Char.not_lt.1 hab)

/-- Lists of keys are ordered from the left. -/
instance {κ : Type} [LT κ] [LawfulKey κ] : LawfulKey (List κ) where
  irrefl := by
    intro a
    induction a with
    | nil => exact List.not_lt_nil []
    | cons x a ih =>
      rw [List.cons_lt_cons_iff]
      rintro (h | ⟨-, h⟩)
      · exact LawfulKey.irrefl x h
      · exact ih h
  trans := by
    intro a b c
    induction a generalizing b c with
    | nil =>
      intro hab hbc
      cases b with
      | nil => exact absurd hab (List.not_lt_nil _)
      | cons y b =>
        cases c with
        | nil => exact absurd hbc (List.not_lt_nil _)
        | cons z c => exact List.nil_lt_cons _ _
    | cons x a ih =>
      intro hab hbc
      cases b with
      | nil => exact absurd hab (List.not_lt_nil _)
      | cons y b =>
        cases c with
        | nil => exact absurd hbc (List.not_lt_nil _)
        | cons z c =>
          rw [List.cons_lt_cons_iff] at *
          rcases hab with hxy | ⟨rfl, hab⟩ <;> rcases hbc with hyz | ⟨rfl, hbc⟩
          · exact .inl (LawfulKey.trans hxy hyz)
          · exact .inl hxy
          · exact .inl hyz
          · exact .inr ⟨rfl, ih hab hbc⟩
  connected := by
    intro a b
    induction a generalizing b with
    | nil =>
      intro hab _
      cases b with
      | nil => rfl
      | cons y b => exact absurd (List.nil_lt_cons _ _) hab
    | cons x a ih =>
      intro hab hba
      cases b with
      | nil => exact absurd (List.nil_lt_cons _ _) hba
      | cons y b =>
        rw [List.cons_lt_cons_iff] at hab hba
        have hxy : x = y :=
          LawfulKey.connected (fun h => hab (.inl h)) (fun h => hba (.inl h))
        subst hxy
        rw [ih (fun h => hab (.inr ⟨rfl, h⟩)) (fun h => hba (.inr ⟨rfl, h⟩))]

end NoteLinks
