/-
# Texts with links woven in

A text without opening brackets has no link. If links are put into it, all its
opening brackets are those of the links: the text is woven from stretches without
opening bracket and the links between them, each behind a space. An edit that cuts
no link up weaves one more link in, wherever it is.

The order of the links in a woven text is that of the text. It need not be the
order in which they were put in.
-/
import NoteLinks.Proofs.Insertion.Edit
import NoteLinks.Proofs.Insertion.Spelling
import NoteLinks.Proofs.LinkFormat

namespace NoteLinks.Insertion

/-- A text is woven from the links of some suggestions and stretches without opening
bracket. -/
inductive Woven (format : LinkFormat) : List Suggestion → Text → Prop
  | bare {t : Text} (hbare : '[' ∉ t) : Woven format [] t
  | link {t rest : Text} {s : Suggestion} {links : List Suggestion} (hbare : '[' ∉ t)
      (hrest : Woven format links rest) :
      Woven format (s :: links) (t ++ ' ' :: format.render s.target s.targetTitle ++ rest)

namespace Woven

variable {format : LinkFormat} {links more : List Suggestion} {text other : Text}

theorem bare_append {t : Text} (ht : '[' ∉ t) (h : Woven format links text) :
    Woven format links (t ++ text) := by
  cases h with
  | bare hbare => exact .bare (by simp [ht, hbare])
  | @link u rest s links hbare hrest =>
      have hwoven : Woven format (s :: links)
          (t ++ u ++ ' ' :: format.render s.target s.targetTitle ++ rest) :=
        .link (by simp [ht, hbare]) hrest
      simpa only [List.append_assoc] using hwoven

theorem append (h : Woven format links text) (h' : Woven format more other) :
    Woven format (links ++ more) (text ++ other) := by
  induction h with
  | bare hbare => exact h'.bare_append hbare
  | link hbare _ ih =>
      rw [List.append_assoc, List.cons_append]
      exact .link hbare ih

theorem isInfix_of_mem (h : Woven format links text) {s : Suggestion} (hs : s ∈ links) :
    ' ' :: format.render s.target s.targetTitle <:+: text := by
  induction h with
  | bare => cases hs
  | @link t rest s' links _ _ ih =>
      rcases List.mem_cons.mp hs with rfl | hs
      · exact ⟨t, rest, rfl⟩
      · exact (ih hs).trans (List.suffix_append _ rest).isInfix

theorem eq_nil_of_not_mem (h : Woven format links text) (hbare : '[' ∉ text) : links = [] := by
  cases h with
  | bare => rfl
  | @link t rest s links _ _ =>
      obtain ⟨start, hstart⟩ := LinkFormat.exists_render_eq_cons format s.target s.targetTitle
      simp [hstart] at hbare

/-! ## Weaving in -/

/-- A seam that cuts no link up divides a woven text into two. -/
theorem split {front back : Text} (h : Woven format links text) (htext : text = front ++ back)
    (hcut : ∀ s ∈ links,
      Text.Uncut (' ' :: format.render s.target s.targetTitle) front back) :
    ∃ before behind, links = before ++ behind ∧ Woven format before front ∧
      Woven format behind back := by
  induction h generalizing front with
  | bare hbare =>
      rw [htext, List.mem_append, not_or] at hbare
      exact ⟨[], [], rfl, .bare hbare.1, .bare hbare.2⟩
  | @link t rest s links hbare hrest ih =>
      rcases hcut s List.mem_cons_self t rest htext.symm with ⟨z, rfl⟩ | ⟨z, hz⟩
      · have hz : rest = z ++ back := by simpa using htext
        obtain ⟨before, behind, rfl, hbefore, hbehind⟩ := ih hz fun s' hs' =>
          (hcut s' (List.mem_cons_of_mem s hs')).of_append
        exact ⟨s :: before, behind, rfl, .link hbare hbefore, hbehind⟩
      · obtain rfl := Text.start_eq_of_back_eq htext.symm hz
        rw [List.mem_append, not_or] at hbare
        refine ⟨[], s :: links, rfl, .bare hbare.1, ?_⟩
        rw [hz]
        exact .link hbare.2 hrest

/-- An edit that cuts no link up weaves its link in. -/
theorem after {e : Edit} {s : Suggestion} (h : Woven format links e.before)
    (hlink : e.link = format.render s.target s.targetTitle) (hlead : '[' ∉ e.lead)
    (htail : '[' ∉ e.tail)
    (hcut : ∀ s ∈ links,
      Text.Uncut (' ' :: format.render s.target s.targetTitle) e.front e.back) :
    ∃ before behind, links = before ++ behind ∧ Woven format (before ++ s :: behind) e.after := by
  obtain ⟨before, behind, rfl, hfront, hback⟩ := h.split rfl hcut
  have hkept : Woven format behind e.kept := by
    rcases e.kept_back with hkept | ⟨hkept, hblank⟩
    · rwa [hkept]
    · have hbare : '[' ∉ e.back := fun hmem => by
        cases List.all_eq_true.mp hblank '[' hmem
      rw [hback.eq_nil_of_not_mem hbare, hkept]
      exact .bare List.not_mem_nil
  refine ⟨before, behind, rfl, ?_⟩
  have hwoven : Woven format (before ++ s :: behind)
      (e.front ++ (e.lead ++ ' ' :: format.render s.target s.targetTitle ++ (e.tail ++ e.kept))) :=
    hfront.append (.link hlead (hkept.bare_append htail))
  have hafter : e.after =
      e.front ++ (e.lead ++ ' ' :: format.render s.target s.targetTitle ++ (e.tail ++ e.kept)) := by
    simp [Edit.after, Edit.inserted, hlink]
  rwa [hafter]

end Woven

/-! ## The links of a woven text -/

section Links

variable {format : LinkFormat} {path title : Text}

variable {path' title' u w y rest : Text}

theorem eq_markdown_of_isLinkTo (h : PlainNames path title) (h' : PlainNames path' title')
    (hw : IsLinkTo path' title' w)
    (heq : '[' :: (title ++ ']' :: '(' :: (path ++ ')' :: rest)) = u ++ (w ++ y))
    (hlen : u.length < title.length + path.length + 4) :
    w = '[' :: (title ++ ']' :: '(' :: (path ++ [')'])) := by
  have hopen : '[' ∉ title ∧ '[' ∉ path := ⟨h.title.not_mem (by decide), h.path.not_mem (by decide)⟩
  have hclose : ']' ∉ title := h.title.not_mem (by decide)
  cases u with
  | cons c u =>
      -- There is no second opening bracket.
      exfalso
      obtain ⟨w', rfl⟩ := hw.exists_eq_cons
      have htail : title ++ ']' :: '(' :: (path ++ [')']) ++ rest = u ++ '[' :: (w' ++ y) := by
        simpa using (List.cons.inj heq).2
      have hmem := Text.mem_of_append_eq_append_cons htail (by simp at hlen ⊢; omega)
      simp [hopen] at hmem
  | nil =>
      cases hw with
      | wikilink =>
          simp only [List.nil_append, List.cons_append, List.cons.injEq, true_and] at heq
          exact absurd heq (h.title_append_ne _ _)
      | @markdown label written _ hlabel hwritten =>
          simp only [List.nil_append, List.cons_append, List.append_assoc, List.cons.injEq,
            true_and] at heq
          obtain ⟨rfl, hbehind⟩ := Text.eq_of_append_cons_eq hclose hlabel heq
          have hpath : ')' ∉ path := h.path.not_mem (by decide)
          have hwritten' : ')' ∉ written := hwritten.not_mem rfl (h'.path.not_mem (by decide))
          obtain ⟨rfl, -⟩ := Text.eq_of_append_cons_eq hpath hwritten' (List.cons.inj hbehind).2
          simp

theorem eq_wikilink_of_isLinkTo (h : PlainNames path title) (h' : PlainNames path' title')
    (hw : IsLinkTo path' title' w)
    (heq : '[' :: '[' :: (title ++ ']' :: ']' :: rest) = u ++ (w ++ y))
    (hlen : u.length < title.length + 4) :
    w = '[' :: '[' :: (title ++ [']', ']']) := by
  have hopen : '[' ∉ title := h.title.not_mem (by decide)
  have hclose : ']' ∉ title := h.title.not_mem (by decide)
  rcases u with _ | ⟨c, _ | ⟨d, u⟩⟩
  · cases hw with
    | @wikilink added _ hadded =>
        simp only [List.nil_append, List.cons_append, List.append_assoc, List.cons.injEq,
          true_and] at heq
        rw [← List.append_assoc] at heq
        have htitle : ']' ∉ title' ++ added := by
          simp [h'.title.not_mem (c := ']') (by decide), hadded.not_mem]
        obtain ⟨rfl, -⟩ := Text.eq_of_append_cons_eq hclose htitle heq
        simp
    | @markdown label written _ hlabel _ =>
        simp only [List.nil_append, List.cons_append, List.append_assoc, List.cons.injEq,
          true_and] at heq
        have htitle : ']' ∉ '[' :: title := List.not_mem_cons_of_ne_of_not_mem (by decide) hclose
        obtain ⟨-, hbehind⟩ := Text.eq_of_append_cons_eq htitle hlabel heq
        cases (List.cons.inj hbehind).1
  · -- The second bracket does not begin a link.
    exfalso
    cases hw with
    | wikilink =>
        simp only [List.nil_append, List.cons_append, List.cons.injEq, true_and] at heq
        exact h.title_append_ne _ _ heq.2
    | @markdown label written _ hlabel _ =>
        simp only [List.nil_append, List.cons_append, List.append_assoc, List.cons.injEq,
          true_and] at heq
        obtain ⟨-, hbehind⟩ := Text.eq_of_append_cons_eq hclose hlabel heq.2
        cases (List.cons.inj hbehind).1
  · -- There is no third one.
    exfalso
    obtain ⟨w', rfl⟩ := hw.exists_eq_cons
    have htail : title ++ [']', ']'] ++ rest = u ++ '[' :: (w' ++ y) := by
      simpa using (List.cons.inj (List.cons.inj heq).2).2
    have hmem := Text.mem_of_append_eq_append_cons htail (by simp at hlen ⊢; omega)
    simp [hopen] at hmem

/-- A plain link that begins within another one is that one. -/
theorem eq_render_of_isLinkTo (h : PlainNames path title) (h' : PlainNames path' title')
    (hw : IsLinkTo path' title' w) (heq : format.render path title ++ rest = u ++ (w ++ y))
    (hlen : u.length < (format.render path title).length) : w = format.render path title := by
  cases format with
  | markdown =>
      simp only [LinkFormat.render, List.cons_append, List.append_assoc, List.nil_append,
        List.length_append, List.length_cons, List.length_nil] at heq hlen ⊢
      exact eq_markdown_of_isLinkTo h h' hw heq (by omega)
  | wikilink =>
      simp only [LinkFormat.render, List.cons_append, List.append_assoc, List.nil_append,
        List.length_append, List.length_cons, List.length_nil] at heq hlen ⊢
      exact eq_wikilink_of_isLinkTo h h' hw heq (by omega)

/-- The only plain links in a woven text are those that are woven in. -/
theorem Woven.exists_eq_render {links : List Suggestion} {text x : Text}
    (hwoven : Woven format links text) (hplain : ∀ s ∈ links, PlainNames s.target s.targetTitle)
    (h' : PlainNames path' title') (hw : IsLinkTo path' title' w) (htext : text = x ++ (w ++ y)) :
    ∃ s ∈ links, w = format.render s.target s.targetTitle := by
  obtain ⟨w', hcons⟩ := hw.exists_eq_cons
  induction hwoven generalizing x with
  | bare hbare =>
      simp [htext, hcons] at hbare
  | @link t rest s links hbare _ ih =>
      have hs := hplain s List.mem_cons_self
      have htext' : t ++ [' '] ++ (format.render s.target s.targetTitle ++ rest) =
          x ++ '[' :: (w' ++ y) := by
        simpa [hcons] using htext
      obtain ⟨u, -, hu⟩ := Text.exists_eq_append_of_not_mem (by simp [hbare]) htext'
      have hu : format.render s.target s.targetTitle ++ rest = u ++ (w ++ y) := by
        rw [hu, hcons, List.cons_append]
      rcases lt_or_ge u.length (format.render s.target s.targetTitle).length with hwithin | hpast
      · exact ⟨s, List.mem_cons_self, eq_render_of_isLinkTo hs h' hw hu hwithin⟩
      · obtain ⟨v, rfl⟩ := List.prefix_of_prefix_length_le ⟨_, rfl⟩ ⟨_, hu.symm⟩ hpast
        rw [List.append_assoc _ v] at hu
        obtain ⟨s', hs', heq⟩ := ih (fun s' hs' => hplain s' (List.mem_cons_of_mem s hs'))
          (List.append_cancel_left hu)
        exact ⟨s', List.mem_cons_of_mem s hs', heq⟩

end Links

end NoteLinks.Insertion
