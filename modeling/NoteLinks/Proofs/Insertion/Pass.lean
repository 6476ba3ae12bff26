/-
# A pass over the suggestions of a note

A pass takes the suggestions one after another. Each is either passed over, since
its link is there already, or its link is put into the text that the ones before
it have left. So what one insertion keeps, a pass keeps, and in particular every
plain link that it has put in itself.
-/
import NoteLinks.Proofs.Insertion.Covering
import NoteLinks.Proofs.Insertion.Spelling

namespace NoteLinks.Insertion

/-- The suggestions of which a pass inserts the links. -/
def inserted (style : Style) : Text → List Suggestion → List Suggestion
  | _, [] => []
  | content, s :: suggestions =>
    match insert? style content s with
    | some (content', _) => s :: inserted style content' suggestions
    | none => inserted style content suggestions

/-- A pass from one text to another, the suggestions it goes over and those whose
links it inserts. -/
inductive Pass (style : Style) : Text → List Suggestion → List Suggestion → Text → Prop
  | done {content : Text} : Pass style content [] [] content
  | keep {content final : Text} {s : Suggestion} {suggestions links : List Suggestion}
      (hlink : linkExists content s.target s.targetTitle = true)
      (hrest : Pass style content suggestions links final) :
      Pass style content (s :: suggestions) links final
  | insert {content final : Text} {s : Suggestion} {suggestions links : List Suggestion}
      {e : Edit} {placement : Placement}
      (hedit : edit? style content s = some (e, placement))
      (hrest : Pass style e.after suggestions links final) :
      Pass style content (s :: suggestions) (s :: links) final

/-! ## Plans are made by passes -/

namespace Plan

variable {style : Style}

theorem foldl_add (p : Plan) (suggestions : List Suggestion) :
    suggestions.foldl (add style) p =
      { content := (make style p.content suggestions).content
        links := p.links + (make style p.content suggestions).links
        mentions := p.mentions + (make style p.content suggestions).mentions
        listings := p.listings + (make style p.content suggestions).listings } := by
  induction suggestions generalizing p with
  | nil => rfl
  | cons s suggestions ih =>
      rw [make, List.foldl_cons, List.foldl_cons, ih, ih (add style { content := p.content } s)]
      simp only [add]
      cases hinsert : insert? style p.content s with
      | none => simp
      | some result =>
          obtain ⟨content, placement⟩ := result
          cases placement with
          | mention => simp [count, Nat.add_assoc]
          | listing => simp [count, Nat.add_assoc]

theorem make_cons_of_none {content : Text} {s : Suggestion} (suggestions : List Suggestion)
    (h : insert? style content s = none) :
    make style content (s :: suggestions) = make style content suggestions := by
  rw [make, List.foldl_cons, add, h]
  rfl

theorem make_cons_of_some {content content' : Text} {s : Suggestion} {placement : Placement}
    (suggestions : List Suggestion) (h : insert? style content s = some (content', placement)) :
    (make style content (s :: suggestions)).content = (make style content' suggestions).content ∧
      (make style content (s :: suggestions)).links =
        (make style content' suggestions).links + 1 := by
  have hadd : add style { content } s = count { content } content' placement := by
    simp only [add, h]
  rw [make, List.foldl_cons, hadd, foldl_add]
  cases placement with
  | mention => exact ⟨rfl, Nat.add_comm _ _⟩
  | listing => exact ⟨rfl, Nat.add_comm _ _⟩

/-- The number of links of a plan is that of the suggestions whose links it has. -/
theorem links_make (content : Text) (suggestions : List Suggestion) :
    (make style content suggestions).links = (inserted style content suggestions).length := by
  induction suggestions generalizing content with
  | nil => rfl
  | cons s suggestions ih =>
      rw [inserted]
      cases hinsert : insert? style content s with
      | none => rw [make_cons_of_none suggestions hinsert, ih]
      | some result =>
          obtain ⟨content', placement⟩ := result
          rw [(make_cons_of_some suggestions hinsert).2, ih, List.length_cons]

theorem links_add {p : Plan} (h : p.links = p.mentions + p.listings) (s : Suggestion) :
    (add style p s).links = (add style p s).mentions + (add style p s).listings := by
  rw [add]
  split
  next content placement _ =>
    cases placement with
    | mention =>
        show p.links + 1 = p.mentions + 1 + p.listings
        omega
    | listing =>
        show p.links + 1 = p.mentions + (p.listings + 1)
        omega
  next => exact h

/-- Every link of a plan is behind a mention or in the section of related notes. -/
theorem links_eq_add (style : Style) (content : Text) (suggestions : List Suggestion) :
    (make style content suggestions).links =
      (make style content suggestions).mentions + (make style content suggestions).listings := by
  have hfold (p : Plan) (h : p.links = p.mentions + p.listings) :
      (suggestions.foldl (add style) p).links =
        (suggestions.foldl (add style) p).mentions +
          (suggestions.foldl (add style) p).listings := by
    induction suggestions generalizing p with
    | nil => exact h
    | cons s suggestions ih => exact ih _ (links_add h s)
  exact hfold { content } rfl

/-- Where all links are there already, nothing is planned. -/
theorem make_eq_of_linkExists {content : Text} {suggestions : List Suggestion}
    (h : ∀ s ∈ suggestions, linkExists content s.target s.targetTitle = true) :
    make style content suggestions = { content } := by
  induction suggestions with
  | nil => rfl
  | cons s suggestions ih =>
      have hnone : insert? style content s = none :=
        insert?_eq_none_iff.mpr (h s List.mem_cons_self)
      rw [make_cons_of_none suggestions hnone]
      exact ih fun s' hs' => h s' (List.mem_cons_of_mem s hs')

end Plan

/-- A plan is made by a pass. -/
theorem pass_make (style : Style) (content : Text) (suggestions : List Suggestion) :
    Pass style content suggestions (inserted style content suggestions)
      (Plan.make style content suggestions).content := by
  induction suggestions generalizing content with
  | nil => exact .done
  | cons s suggestions ih =>
      rw [inserted]
      cases hinsert : insert? style content s with
      | none =>
          rw [Plan.make_cons_of_none suggestions hinsert]
          exact .keep (insert?_eq_none_iff.mp hinsert) (ih content)
      | some result =>
          obtain ⟨content', placement⟩ := result
          obtain ⟨e, hedit, rfl⟩ := exists_edit_of_insert? hinsert
          rw [(Plan.make_cons_of_some suggestions hinsert).1]
          exact .insert hedit (ih e.after)

/-! ## What a pass keeps -/

namespace Pass

variable {style : Style} {content final : Text} {suggestions links : List Suggestion}

theorem subset (h : Pass style content suggestions links final) : links ⊆ suggestions := by
  induction h with
  | done => exact List.Subset.refl _
  | keep _ _ ih => exact List.subset_cons_of_subset _ ih
  | insert _ _ ih => exact List.cons_subset_cons _ ih

/-- A plain link with a space in front of it is still there after a pass. -/
theorem isInfix (format : LinkFormat) {path title : Text} (hplain : PlainNames path title)
    (h : Pass style content suggestions links final)
    (hlink : ' ' :: format.render path title <:+: content) :
    ' ' :: format.render path title <:+: final := by
  induction h with
  | done => exact hlink
  | keep _ _ ih => exact ih hlink
  | insert hedit _ ih =>
      rw [← before_eq_of_edit? hedit] at hlink
      exact ih (isInfix_after_of_edit? format hplain hedit hlink)

/-- A plain link that is put in has a space in front of it, and so it is there at
the end of the pass. -/
theorem isInfix_of_mem (h : Pass style content suggestions links final)
    (hplain : ∀ s ∈ links, PlainNames s.target s.targetTitle) {s : Suggestion} (hs : s ∈ links) :
    ' ' :: style.format.render s.target s.targetTitle <:+: final := by
  induction h with
  | done => cases hs
  | keep _ _ ih => exact ih hplain hs
  | insert hedit hrest ih =>
      rcases List.mem_cons.mp hs with rfl | hs
      · apply hrest.isInfix style.format (hplain s List.mem_cons_self)
        rw [← link_eq_of_edit? hedit]
        exact Edit.isInfix_after_link _
      · exact ih (fun s' hs' => hplain s' (List.mem_cons_of_mem _ hs')) hs

/-- A pass puts in no other characters than those of links, items and the heading. -/
theorem not_mem (h : Pass style content suggestions links final) {c : Char}
    (hc : c ∉ ['\n', '-', ' ', '[', ']', '(', ')']) (hheading : c ∉ style.heading)
    (hcontent : c ∉ content)
    (hnames : ∀ s ∈ suggestions, c ∉ s.target ∧ c ∉ s.targetTitle) : c ∉ final := by
  induction h with
  | done => exact hcontent
  | keep _ _ ih => exact ih hcontent (List.forall_mem_cons.mp hnames).2
  | insert hedit _ ih =>
      obtain ⟨hs, hnames⟩ := List.forall_mem_cons.mp hnames
      simp only [List.mem_cons, List.not_mem_nil, not_or] at hc
      refine ih (not_mem_after_of_edit? hedit (by simp [hc]) hheading hcontent ?_) hnames
      exact LinkFormat.not_mem_render (by simp [hc]) hs.1 hs.2

end Pass

end NoteLinks.Insertion
