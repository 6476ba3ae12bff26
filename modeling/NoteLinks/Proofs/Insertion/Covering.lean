/-
# Plain links stay whole

No link that starts further left can end within a plain link. So a span of the
scan for links always covers a plain link, whatever brackets are around it, and
if there is a space in front of the link then no insertion cuts it up.

The space matters. Without it a mention could end directly in front of the link,
and the phrase in which the mention ends would go on into the link.
-/
import NoteLinks.Proofs.Insertion.Edit
import NoteLinks.Proofs.Insertion.Mention
import NoteLinks.Proofs.LinkFormat
import NoteLinks.Proofs.Note.Link

namespace NoteLinks.Insertion

open LinkFormat (IsClosed)

variable {format : LinkFormat} {path title : Text}

/-! ## The scan for links -/

/-- What is recognised as a link is not empty and ends like one. -/
theorem exists_closed_of_recogniseLink {t : Text} {m : Match Unit}
    (h : recogniseLink t = some m) :
    ∃ w y, t = w ++ y ∧ m.length = w.length ∧ w ≠ [] ∧ IsClosed w := by
  simp only [recogniseLink, Option.orElse_eq_orElse, Option.orElse_eq_or,
    Option.or_eq_some_iff] at h
  rcases h with hwiki | ⟨-, hmarkdown⟩
  · split at hwiki
    next inside =>
      split at hwiki
      next rest hdrop =>
        obtain rfl := Option.some.inj hwiki
        obtain ⟨-, hinside⟩ := Text.dropWhile_ne_eq_cons_iff.mp hdrop
        generalize inside.takeWhile (· != ']') = label at hinside
        refine ⟨'[' :: '[' :: label ++ [']', ']'], rest, by simp [hinside], ?_, by simp,
          .inr ⟨'[' :: '[' :: label, rfl⟩⟩
        simp [hinside]
        omega
      next => cases hwiki
    next => cases hwiki
  · split at hmarkdown
    next rest hlabel =>
      split at hmarkdown
      next after hdrop =>
        obtain rfl := Option.some.inj hmarkdown
        obtain ⟨label, -, -, rfl⟩ := Link.dropLabel?_eq_some_iff.mp hlabel
        obtain ⟨-, hrest⟩ := Text.dropWhile_ne_eq_cons_iff.mp hdrop
        generalize rest.takeWhile (· != ')') = target at hrest
        refine ⟨'[' :: label ++ ']' :: '(' :: target ++ [')'], after, by simp [hrest], ?_, by simp,
          .inl ⟨'[' :: label ++ ']' :: '(' :: target, rfl⟩⟩
        simp [hrest]
        omega
      next => cases hmarkdown
    next => cases hmarkdown

theorem length_pos_of_recogniseLink (t : Text) (m : Match Unit) (h : recogniseLink t = some m) :
    0 < m.length := by
  obtain ⟨w, -, -, hlen, hne, -⟩ := exists_closed_of_recogniseLink h
  rw [hlen]
  exact List.length_pos_iff.mpr hne

theorem recogniseLink_render_append (h : PlainNames path title) (y : Text) :
    recogniseLink (format.render path title ++ y) =
      some ⟨(), (format.render path title).length⟩ := by
  have htitle : ']' ∉ title := h.title.not_mem (by decide)
  have hpath : ')' ∉ path := h.path.not_mem (by decide)
  cases format with
  | wikilink =>
      have hdrop := Text.dropWhile_ne_append htitle (']' :: y)
      simp [LinkFormat.render, recogniseLink, hdrop]
      omega
  | markdown =>
      have hlabel : Link.dropLabel? ('[' :: (title ++ ']' :: '(' :: (path ++ ')' :: y))) =
          some ('(' :: (path ++ ')' :: y)) :=
        Link.dropLabel?_eq_some_iff.mpr ⟨title, h.title_ne, htitle, by simp⟩
      have hdrop := Text.dropWhile_ne_append hpath y
      obtain ⟨c, rest, rfl⟩ := List.exists_cons_of_ne_nil h.title_ne
      have hc : c ≠ '[' := by
        rintro rfl
        exact h.title.not_mem (c := '[') (by decide) List.mem_cons_self
      simp only [List.cons_append] at hlabel
      simp [LinkFormat.render, recogniseLink, hlabel, hdrop, hc]
      omega

/-- No link that starts further left ends within a plain link. -/
theorem not_within_render (h : PlainNames path title) {x y : Text} {m : Match Unit}
    (hm : recogniseLink (x ++ (format.render path title ++ y)) = some m) :
    m.length ≤ x.length ∨ x.length + (format.render path title).length ≤ m.length := by
  obtain ⟨w, rest, heq, hlen, -, hclosed⟩ := exists_closed_of_recogniseLink hm
  rw [hlen]
  rw [← List.append_assoc] at heq
  rcases Text.occurrence_cases heq.symm with ⟨z, rfl⟩ | ⟨z, hz⟩ | ⟨u, v, hu, hv, hlink, rfl, -⟩
  · exact .inr (by simp)
  · rw [Text.start_eq_of_back_eq heq.symm hz]
    exact .inl (by simp)
  · exfalso
    obtain ⟨start, hstart⟩ := LinkFormat.exists_render_eq_cons format path title
    obtain ⟨c, u, rfl⟩ := List.exists_cons_of_ne_nil hu
    obtain rfl : c = '[' := by
      rw [hstart] at hlink
      exact (List.cons.inj hlink).1.symm
    exact LinkFormat.not_isClosed_of_render_eq_append h hlink hv hclosed.of_append

/-- Wherever a plain link stands in a body, a span of the scan covers it. -/
theorem exists_span_covering_render (format : LinkFormat) (h : PlainNames path title) (x y : Text) :
    ∃ span ∈ excludedSpans (x ++ (format.render path title ++ y)),
      span.start ≤ x.length ∧ x.length + (format.render path title).length ≤ span.stop := by
  have hne := LinkFormat.render_ne_nil format path title
  obtain ⟨span, hspan, hstart, hstop⟩ := Text.exists_span_covering
    length_pos_of_recogniseLink (x := x) 0 hne
    (recogniseLink_render_append h y) fun x' m _ hm => not_within_render h hm
  refine ⟨span, List.mem_append_left _ hspan, by omega, by omega⟩

/-! ## Edits and plain links -/

/-- A position for a link is never inside a plain link with a space in front of it,
nor between the space and the link. -/
theorem uncut_of_linkPosition? (h : PlainNames path title) {content : Text} {anchors : List Text}
    {position : Nat} (hposition : linkPosition? content anchors = some position) :
    Text.Uncut (' ' :: format.render path title) (content.take position)
      (content.drop position) := by
  obtain ⟨c, hlast, hc⟩ := LinkFormat.exists_getLast?_space_render format path title
  have hline : '\n' ∉ ' ' :: format.render path title :=
    LinkFormat.newline_not_mem_space_render h
  apply Text.Uncut.of_length
  intro x y heq
  rw [List.take_append_drop] at heq
  have hlen : content.length = x.length + (' ' :: format.render path title).length + y.length := by
    rw [heq, List.length_append, List.length_append]
  rw [List.length_take]
  rcases FrontMatter.front_or_body heq hline hlast hc with hfront | ⟨z, rfl, hbody⟩
  · -- The link stands in the front matter.
    have hle := front_le_of_linkPosition? hposition
    omega
  · -- The link stands in the body, where a span covers it.
    have hbody : FrontMatter.body content = z ++ [' '] ++ (format.render path title ++ y) := by
      rw [hbody]
      simp
    obtain ⟨span, hspan, hstart, hstop⟩ :=
      exists_span_covering_render format h (z ++ [' ']) y
    rw [← hbody] at hspan
    rw [List.length_append, List.length_singleton] at hstart hstop
    rw [List.length_append] at hlen ⊢
    rcases position_outside hposition hbody hspan hstart hstop with hle | hge
    · exact .inr (by omega)
    · refine .inl ?_
      rw [List.length_cons] at hlen ⊢
      omega

theorem uncut_of_edit? (format : LinkFormat) (h : PlainNames path title) {style : Style}
    {content : Text} {s : Suggestion} {e : Edit} {placement : Placement}
    (hedit : edit? style content s = some (e, placement)) :
    Text.Uncut (' ' :: format.render path title) e.front e.back := by
  rcases (edit?_eq_some_iff.mp hedit).2 with ⟨position, hposition, rfl, -⟩ | ⟨-, rfl, -⟩
  · exact uncut_of_linkPosition? h hposition
  · obtain ⟨c, hlast, hc⟩ := LinkFormat.exists_getLast?_space_render format path title
    exact (Edit.atLineStart_listing content style.heading _).uncut
      (LinkFormat.newline_not_mem_space_render h) hlast hc

/-- A plain link with a space in front of it is still there after an insertion. -/
theorem isInfix_after_of_edit? (format : LinkFormat) (h : PlainNames path title) {style : Style}
    {content : Text} {s : Suggestion} {e : Edit} {placement : Placement}
    (hedit : edit? style content s = some (e, placement))
    (hlink : ' ' :: format.render path title <:+: e.before) :
    ' ' :: format.render path title <:+: e.after := by
  obtain ⟨c, hlast, hc⟩ := LinkFormat.exists_getLast?_space_render format path title
  exact e.isInfix_after (uncut_of_edit? format h hedit) hlast hc hlink

end NoteLinks.Insertion
