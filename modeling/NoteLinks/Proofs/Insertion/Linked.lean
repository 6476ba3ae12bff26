/-
# After a pass every suggested note is linked

A pass goes over a suggestion without inserting its link only if it finds one. In a note
without opening brackets that is a link which the pass has put in itself, for another
suggestion. Found as a wikilink it has the same title; found as a markdown link it has a path
that differs in blanks at most. So if no two paths differ like this, the link is one to the
suggested note in either case, and no note of the suggestions is a candidate afterwards.
-/
import NoteLinks.Proofs.Insertion.Idempotence
import NoteLinks.Proofs.Insertion.ReadBack

namespace NoteLinks.Insertion

open Link (NoteNames nameInLink)

variable {format : LinkFormat} {path title path' title' : Text}

theorem spells_of_isLinkTo_markdown (h' : NoteNames path' title')
    (hw : IsLinkTo path title (LinkFormat.markdown.render path' title')) : Spells path path' := by
  generalize hlink : LinkFormat.markdown.render path' title' = w at hw
  cases hw with
  | wikilink =>
      simp only [LinkFormat.render, List.cons_append, List.append_assoc, List.cons.injEq,
        true_and] at hlink
      exact absurd hlink (h'.plain.title_append_ne _ _)
  | @markdown label written _ hlabel hwritten =>
      simp only [LinkFormat.render, List.cons_append, List.append_assoc, List.cons.injEq,
        true_and] at hlink
      obtain ⟨-, hbehind⟩ :=
        Text.eq_of_append_cons_eq (h'.title.not_mem (by decide)) hlabel hlink
      obtain rfl := List.append_cancel_right (List.cons.inj hbehind).2
      exact hwritten

theorem title_eq_of_isLinkTo_wikilink (h' : NoteNames path' title')
    (hw : IsLinkTo path title (LinkFormat.wikilink.render path' title')) : title = title' := by
  generalize hlink : LinkFormat.wikilink.render path' title' = w at hw
  cases hw with
  | @wikilink added _ hadded =>
      simp only [LinkFormat.render, List.cons_append, List.append_assoc, List.cons.injEq,
        true_and] at hlink
      rw [← List.append_assoc] at hlink
      have htitle := List.append_cancel_right hlink
      cases hadded with
      | none => rw [htitle, List.append_nil]
      | named name _ _ =>
          have hbar : '|' ∈ title' := by simp [htitle]
          exact absurd hbar (h'.title.not_mem (by decide))
  | @markdown label written _ hlabel _ =>
      simp only [LinkFormat.render, List.cons_append, List.append_assoc, List.cons.injEq,
        true_and] at hlink
      have hclosed : ']' ∉ '[' :: title' :=
        List.not_mem_cons_of_ne_of_not_mem (by decide) (h'.title.not_mem (by decide))
      obtain ⟨-, hbehind⟩ := Text.eq_of_append_cons_eq hclosed hlabel hlink
      cases (List.cons.inj hbehind).1

/-- A rendered link to another note has the name of the note, unless the paths differ in
blanks. -/
theorem nameInLink_eq_of_isLinkTo (h' : NoteNames path' title')
    (hspelled : format = .markdown → Spells path path' → path = path')
    (hw : IsLinkTo path title (format.render path' title')) :
    nameInLink format path title = nameInLink format path' title' := by
  cases format with
  | markdown => exact hspelled rfl (spells_of_isLinkTo_markdown h' hw)
  | wikilink => exact title_eq_of_isLinkTo_wikilink h' hw

/-- After a pass over a note without opening brackets, no note of the suggestions is a
candidate. -/
theorem Pass.accepts_eq_false {style : Style} {content final path : Text}
    {suggestions links : List Suggestion} (h : Pass style content suggestions links final)
    (hcontent : '[' ∉ content) (hheading : '[' ∉ style.heading)
    (hline : '\n' ∉ Text.trim style.heading)
    (hstart : ¬ FrontMatter.delimiter <+: Text.trim style.heading)
    (hnames : ∀ s ∈ suggestions, NoteNames s.target s.targetTitle)
    (hspelled : style.format = .markdown → ∀ s ∈ suggestions, ∀ s' ∈ suggestions,
      Spells s.target s'.target → s.target = s'.target) :
    ∀ s ∈ suggestions,
      Candidate.accepts path (Note.read path final).links s.target (some s.targetTitle) =
        false := by
  intro s hs
  obtain ⟨s', hs', hw⟩ := h.exists_isLinkTo_of_woven hheading (fun s hs => (hnames s hs).plain)
    (by simp) (.bare hcontent) s hs
  rw [List.nil_append] at hs'
  have hbody := FrontMatter.not_mem_body hcontent
  apply accepts_eq_false_of_nameInLink style.format (hnames s hs)
  rw [nameInLink_eq_of_isLinkTo (hnames s' (h.subset hs'))
    (fun hformat => hspelled hformat s hs s' (h.subset hs')) hw]
  show _ ∈ Link.targets _
  rw [h.targets_eq hbody hheading hline hstart hnames, KeySet.mem_toList_ofList]
  exact List.mem_map_of_mem hs'

end NoteLinks.Insertion
