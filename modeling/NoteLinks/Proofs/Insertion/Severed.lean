/-
# Links that an insertion severs

No mention counts within a link. But the new link goes behind the phrase in which
the mention ends, and a phrase that is directly followed by a link goes on into it,
up to the first blank. There the link is severed. A section of related notes can
also end between two lines that belong to one link.

So an insertion keeps a link exactly if the link stands on one side of the seam, or
another one to the same note does, or the text put in happens to complete one. A
link on a single line is never severed by a listing.
-/
import NoteLinks.Proofs.Insertion.Covering
import NoteLinks.Proofs.Insertion.Spelling

namespace NoteLinks.Insertion

namespace Edit

/-- A link to the note reaches into the text that is put in, or stretches across
it. -/
def Bridges (e : Edit) (path title : Text) : Prop :=
  ∃ x w y, e.after = x ++ w ++ y ∧ IsLinkTo path title w ∧
    x.length < e.front.length + e.inserted.length ∧ e.front.length < x.length + w.length

variable (e : Edit) {path title : Text}

/-- What is dropped behind the seam has no link. -/
theorem linkExists_kept : linkExists e.kept path title = linkExists e.back path title := by
  rw [Bool.eq_iff_iff]
  constructor
  · intro h
    have hpart : e.kept <:+: e.back := by
      rcases e.kept_back with hkept | ⟨hkept, -⟩
      · rw [hkept]
      · rw [hkept]
        exact List.nil_infix
    exact linkExists_of_isInfix hpart h
  · intro h
    obtain ⟨x, w, y, hback, hw⟩ := linkExists_iff.mp h
    obtain ⟨c, hlast, hc⟩ := hw.exists_getLast?
    rwa [e.kept_eq_of_back_eq hback hlast hc]

/-- A link after an edit stands in front of the seam, or behind it, or bridges it. -/
theorem linkExists_after_iff :
    linkExists e.after path title = true ↔
      linkExists e.front path title = true ∨ linkExists e.back path title = true ∨
        e.Bridges path title := by
  constructor
  · intro h
    obtain ⟨x, w, y, hafter, hw⟩ := linkExists_iff.mp h
    have hleft : e.front ++ (e.inserted ++ e.kept) = x ++ w ++ y := by
      rw [← hafter, after, List.append_assoc]
    have hright : e.front ++ e.inserted ++ e.kept = x ++ (w ++ y) := by
      rw [← List.append_assoc, ← hafter, after]
    rcases le_or_gt (x ++ w).length e.front.length with hfront | hreach
    · obtain ⟨z, hz⟩ := List.prefix_of_prefix_length_le ⟨y, hleft.symm⟩ ⟨_, rfl⟩ hfront
      exact .inl (linkExists_iff.mpr ⟨x, w, z, hz.symm, hw⟩)
    · rcases le_or_gt (e.front ++ e.inserted).length x.length with hback | hstart
      · obtain ⟨z, rfl⟩ := List.prefix_of_prefix_length_le ⟨_, rfl⟩ ⟨_, hright.symm⟩ hback
        rw [List.append_assoc _ z] at hright
        have hkept := List.append_cancel_left hright
        refine .inr (.inl ?_)
        rw [← linkExists_kept]
        exact linkExists_iff.mpr ⟨z, w, y, by rw [hkept, List.append_assoc], hw⟩
      · rw [List.length_append] at hreach hstart
        exact .inr (.inr ⟨x, w, y, hafter, hw, hstart, hreach⟩)
  · rintro (h | h | ⟨x, w, y, hafter, hw, -, -⟩)
    · exact linkExists_of_isInfix ⟨[], e.inserted ++ e.kept, by simp [after]⟩ h
    · rw [← linkExists_kept] at h
      exact linkExists_of_isInfix (List.suffix_append _ e.kept).isInfix h
    · exact linkExists_iff.mpr ⟨x, w, y, hafter, hw⟩

end Edit

/-! ## Links that are kept -/

/-- A link without line feed is still there after a listing. -/
theorem isInfix_after_of_listing {style : Style} {content : Text} {s : Suggestion} {e : Edit}
    (hedit : edit? style content s = some (e, .listing)) {path title x w y : Text}
    (hcontent : content = x ++ w ++ y) (hw : IsLinkTo path title w) (hline : '\n' ∉ w) :
    w <:+: e.after := by
  obtain ⟨c, hlast, hc⟩ := hw.exists_getLast?
  have hcut : Text.Uncut w e.front e.back := by
    rcases (edit?_eq_some_iff.mp hedit).2 with ⟨_, -, -, hplacement⟩ | ⟨-, rfl, -⟩
    · cases hplacement
    · exact (Edit.atLineStart_listing content style.heading _).uncut hline hlast hc
  exact e.isInfix_after hcut hlast hc ⟨x, y, by rw [before_eq_of_edit? hedit, hcontent]⟩

/-- A link is severed only if the seam is inside it, and by a listing only if it goes
over several lines. -/
theorem isInfix_after_or_seam_within {style : Style} {content : Text} {s : Suggestion} {e : Edit}
    {placement : Placement} (hedit : edit? style content s = some (e, placement))
    {path title x w y : Text} (hcontent : content = x ++ w ++ y) (hw : IsLinkTo path title w) :
    w <:+: e.after ∨ x.length < e.front.length ∧ e.front.length < x.length + w.length ∧
      (placement = .mention ∨ '\n' ∈ w) := by
  obtain ⟨c, hlast, hc⟩ := hw.exists_getLast?
  have hbefore : e.before = x ++ w ++ y := by rw [before_eq_of_edit? hedit, hcontent]
  by_cases hseam : x.length < e.front.length ∧ e.front.length < x.length + w.length
  · cases placement with
    | mention => exact .inr ⟨hseam.1, hseam.2, .inl rfl⟩
    | listing =>
        by_cases hline : '\n' ∈ w
        · exact .inr ⟨hseam.1, hseam.2, .inr hline⟩
        · exact .inl (isInfix_after_of_listing hedit hcontent hw hline)
  · have hside : x.length + w.length ≤ e.front.length ∨ e.front.length ≤ x.length := by omega
    exact .inl (e.isInfix_after_of_outside hbefore hside hlast hc)

/-- In front of a link there is a mention of an anchor, and the phrase in which it ends
goes on into the link and ends there. -/
def RunsInto (anchors : List Text) (x link : Text) : Prop :=
  ∃ anchor ∈ anchors, ∃ start written between, x = start ++ written ++ between ∧
    List.Forall₂ (fun a c => Text.alike a c = true) (Text.trim anchor) written ∧
    (∀ c ∈ between, endsPhrase c = false) ∧ ∃ c ∈ link, endsPhrase c = true

/-- A run that ends within a word goes over all that is in front of the word, and
something in the word ends it. -/
theorem run_within {between w y : Text} {p : Char → Bool}
    (hstart : between.length < ((between ++ (w ++ y)).takeWhile p).length)
    (hstop : ((between ++ (w ++ y)).takeWhile p).length < between.length + w.length) :
    (∀ c ∈ between, p c = true) ∧ ∃ c ∈ w, p c = false := by
  have hbetween : ∀ c ∈ between, p c = true := by
    rw [List.takeWhile_append] at hstart
    split at hstart
    next hlen => exact List.takeWhile_eq_self_iff.mp ((List.takeWhile_prefix p).eq_of_length hlen)
    next =>
      have hle := (List.takeWhile_prefix p (l := between)).length_le
      omega
  refine ⟨hbetween, ?_⟩
  by_contra hnone
  have hw : ∀ c ∈ w, p c = true := by
    intro c hc
    by_contra hfalse
    exact hnone ⟨c, hc, by simpa using hfalse⟩
  rw [List.takeWhile_append_of_pos hbetween, List.takeWhile_append_of_pos hw] at hstop
  simp only [List.length_append] at hstop
  omega

/-- A plain link is severed only if the phrase of a mention runs into it. -/
theorem isInfix_after_or_runsInto {style : Style} {content : Text} {s : Suggestion} {e : Edit}
    {placement : Placement} (hedit : edit? style content s = some (e, placement))
    (format : LinkFormat) {path title x y : Text} (h : PlainNames path title)
    (hcontent : content = x ++ format.render path title ++ y) :
    format.render path title <:+: e.after ∨
      placement = .mention ∧ RunsInto s.anchors x (format.render path title) := by
  obtain ⟨c, hlast, hc⟩ := LinkFormat.exists_getLast?_render format path title
  have hline : '\n' ∉ format.render path title := LinkFormat.newline_not_mem_render h
  have hbefore : e.before = x ++ format.render path title ++ y := by
    rw [before_eq_of_edit? hedit, hcontent]
  rcases (edit?_eq_some_iff.mp hedit).2 with ⟨position, hposition, rfl, rfl⟩ | ⟨-, rfl, rfl⟩
  · have hbehind (hle : x.length + (format.render path title).length ≤ position ∨
        position ≤ x.length) :
        format.render path title <:+:
          (Edit.mention content position (style.format.render s.target s.targetTitle)).after := by
      refine Edit.isInfix_after_of_outside _ hbefore ?_ hlast hc
      have hlen := congrArg List.length hcontent
      simp only [Edit.mention, List.length_take, List.length_append] at hlen ⊢
      omega
    rcases FrontMatter.front_or_body hcontent hline hlast hc with hfront | ⟨z, rfl, hbody⟩
    · have hle := front_le_of_linkPosition? hposition
      exact .inl (hbehind (by omega))
    · rw [List.append_assoc] at hbody
      obtain ⟨span, hspan, hstart, hstop⟩ := exists_span_covering_render format h z y
      rw [← hbody] at hspan
      rw [List.length_append] at hbehind
      rcases position_cases hposition hbody hspan hstart hstop with
        hge | ⟨anchor, hanchor, before, written, between, after, hm, rfl, rfl, rfl⟩
      · exact .inl (hbehind (by omega))
      · simp only [List.length_append] at hbehind
        by_cases hinside : between.length <
            ((between ++ (format.render path title ++ y)).takeWhile fun c => !endsPhrase c).length ∧
          ((between ++ (format.render path title ++ y)).takeWhile fun c => !endsPhrase c).length <
            between.length + (format.render path title).length
        · obtain ⟨hrun, c, hc, hends⟩ := run_within hinside.1 hinside.2
          refine .inr ⟨rfl, anchor, hanchor, FrontMatter.front content ++ before, written, between,
            by simp, hm.alike, fun c hc => by simpa using hrun c hc, c, hc, by simpa using hends⟩
        · exact .inl (hbehind (by omega))
  · exact .inl (isInfix_after_of_listing hedit hcontent (isLinkTo_render format h) hline)

/-! ## What an insertion does to the links of a note -/

/-- After an insertion the note has a link exactly if one stood on one side of the
seam or the text that is put in takes part in one. A link is severed only where the
seam is inside it: by a listing only if it goes over several lines, and if it is plain,
only by a mention whose phrase runs into it. -/
theorem linkExists_after_insertion_iff {style : Style} {content content' : Text} {s : Suggestion}
    {placement : Placement} (h : insert? style content s = some (content', placement)) :
    ∃ e, edit? style content s = some (e, placement) ∧ e.before = content ∧ e.after = content' ∧
      (∀ path title, linkExists content' path title = true ↔
        linkExists e.front path title = true ∨ linkExists e.back path title = true ∨
          e.Bridges path title) ∧
      (∀ path title x w y, IsLinkTo path title w → content = x ++ w ++ y →
        linkExists content' path title = true ∨
          x.length < e.front.length ∧ e.front.length < x.length + w.length ∧
            (placement = .mention ∨ '\n' ∈ w)) ∧
      ∀ format path title x y, PlainNames path title →
        content = x ++ LinkFormat.render format path title ++ y →
          linkExists content' path title = true ∨
            placement = .mention ∧ RunsInto s.anchors x (format.render path title) := by
  obtain ⟨e, hedit, rfl⟩ := exists_edit_of_insert? h
  refine ⟨e, hedit, before_eq_of_edit? hedit, rfl, fun _ _ => e.linkExists_after_iff, ?_, ?_⟩
  · intro path title x w y hw hcontent
    exact (isInfix_after_or_seam_within hedit hcontent hw).imp_left hw.linkExists_of_isInfix
  · intro format path title x y hplain hcontent
    exact (isInfix_after_or_runsInto hedit format hplain hcontent).imp_left
      (isLinkTo_render format hplain).linkExists_of_isInfix

/-- A link with a space in front of it is on one side of the seam. -/
theorem linkExists_beside_mention :
    insert? ⟨.markdown, defaultHeading⟩ "rust [[My Note]] rules.\n".toList
        (suggestionOf "r.md".toList "R".toList [⟨.sharedConcept, "rust".toList⟩]) =
        some ("rust [R](r.md) [[My Note]] rules.\n".toList, .mention) ∧
      ∃ e : Edit, e.front = "rust".toList ∧ e.back = " [[My Note]] rules.\n".toList ∧
        (linkExists "rust [R](r.md) [[My Note]] rules.\n".toList "m.md".toList
            "My Note".toList = true ↔
          linkExists e.front "m.md".toList "My Note".toList = true ∨
            linkExists e.back "m.md".toList "My Note".toList = true ∨
              e.Bridges "m.md".toList "My Note".toList) := by
  have hinsert : insert? ⟨.markdown, defaultHeading⟩ "rust [[My Note]] rules.\n".toList
      (suggestionOf "r.md".toList "R".toList [⟨.sharedConcept, "rust".toList⟩]) =
      some ("rust [R](r.md) [[My Note]] rules.\n".toList, .mention) := rfl
  obtain ⟨e, hedit, -, -, hiff, -⟩ := linkExists_after_insertion_iff hinsert
  obtain rfl := (Prod.mk.inj (Option.some.inj hedit)).1
  exact ⟨hinsert, _, rfl, rfl, hiff _ _⟩

/-- The mention ends directly in front of a link, and the phrase goes on to the space in
it. -/
theorem link_severed_by_mention :
    linkExists "rust[[My Note]] rules.\n".toList "m.md".toList "My Note".toList = true ∧
      insert? ⟨.markdown, defaultHeading⟩ "rust[[My Note]] rules.\n".toList
        (suggestionOf "r.md".toList "R".toList [⟨.sharedConcept, "rust".toList⟩]) =
        some ("rust[[My [R](r.md) Note]] rules.\n".toList, .mention) ∧
      linkExists "rust[[My [R](r.md) Note]] rules.\n".toList "m.md".toList "My Note".toList =
        false := by
  exact ⟨rfl, rfl, rfl⟩

end NoteLinks.Insertion
