/-
# A second pass

A pass finds the links again that an earlier pass has put in, also if it writes
links in another format or lists them under another heading. So the suggestions
of which the first pass has inserted the links are all passed over.

Suggestions that the first pass has passed over had a link already, but perhaps
one that it has cut up later. In a note without opening brackets all links come
from the pass itself, and then the second pass adds nothing at all.
-/
import NoteLinks.Proofs.Insertion.Pass
import NoteLinks.Proofs.Insertion.Woven

namespace NoteLinks.Insertion

theorem linkExists_of_space_isInfix {content path title w : Text} (hw : IsLinkTo path title w)
    (h : ' ' :: w <:+: content) : linkExists content path title = true :=
  hw.linkExists_of_isInfix ((List.suffix_cons ' ' w).isInfix.trans h)

namespace Pass

variable {style : Style} {content final : Text} {suggestions links : List Suggestion}

/-- The links that a pass puts in are there at its end. -/
theorem linkExists_of_mem (h : Pass style content suggestions links final)
    (hplain : ∀ s ∈ suggestions, PlainNames s.target s.targetTitle) {s : Suggestion}
    (hs : s ∈ links) : linkExists final s.target s.targetTitle = true := by
  have hlinks : ∀ s ∈ links, PlainNames s.target s.targetTitle :=
    fun s' hs' => hplain s' (h.subset hs')
  exact linkExists_of_space_isInfix (isLinkTo_render style.format (hlinks s hs))
    (h.isInfix_of_mem hlinks hs)

/-- In a woven text every suggestion of a pass has a link: its own, or one that was woven in
or put in earlier. -/
theorem exists_isLinkTo_of_woven {put : List Suggestion}
    (h : Pass style content suggestions links final) (hheading : '[' ∉ style.heading)
    (hplain : ∀ s ∈ suggestions, PlainNames s.target s.targetTitle)
    (hput : ∀ s ∈ put, PlainNames s.target s.targetTitle)
    (hwoven : Woven style.format put content) :
    ∀ s ∈ suggestions, ∃ s' ∈ put ++ links,
      IsLinkTo s.target s.targetTitle (style.format.render s'.target s'.targetTitle) := by
  induction h generalizing put with
  | done => simp
  | @keep content final s suggestions links hlink hrest ih =>
      obtain ⟨hs, hplain⟩ := List.forall_mem_cons.mp hplain
      refine List.forall_mem_cons.mpr ⟨?_, ih hplain hput hwoven⟩
      -- The link that was found is one of those that are woven in.
      obtain ⟨x, w, y, htext, hw⟩ := linkExists_iff.mp hlink
      obtain ⟨s', hs', rfl⟩ := hwoven.exists_eq_render hput hs hw (by rw [htext, List.append_assoc])
      exact ⟨s', List.mem_append_left links hs', hw⟩
  | @insert content final s suggestions links e placement hedit hrest ih =>
      obtain ⟨hs, hplain⟩ := List.forall_mem_cons.mp hplain
      have hlink := link_eq_of_edit? hedit
      obtain ⟨hlead, htail⟩ := not_mem_around_of_edit? hedit (c := '[') (by decide) hheading
      rw [← before_eq_of_edit? hedit] at hwoven
      obtain ⟨before, behind, rfl, hafter⟩ := hwoven.after hlink hlead htail
        fun s' hs' => uncut_of_edit? style.format (hput s' hs') hedit
      obtain ⟨hbefore, hbehind⟩ := List.forall_mem_append.mp hput
      have hput' : ∀ s' ∈ before ++ s :: behind, PlainNames s'.target s'.targetTitle :=
        List.forall_mem_append.mpr ⟨hbefore, List.forall_mem_cons.mpr ⟨hs, hbehind⟩⟩
      have hown : ∃ s' ∈ before ++ behind ++ s :: links,
          IsLinkTo s.target s.targetTitle (style.format.render s'.target s'.targetTitle) :=
        ⟨s, by simp, isLinkTo_render style.format hs⟩
      refine List.forall_mem_cons.mpr ⟨hown, ?_⟩
      intro s' hs'
      obtain ⟨s'', hs'', hw⟩ := ih hplain hput' hafter s' hs'
      have hperm : (before ++ s :: behind ++ links).Perm (before ++ behind ++ s :: links) := by
        rw [List.append_assoc, List.append_assoc]
        exact List.Perm.append_left before List.perm_middle.symm
      exact ⟨s'', hperm.mem_iff.mp hs'', hw⟩

/-- In a woven text a pass leaves a link for every suggestion. -/
theorem linkExists_of_woven {put : List Suggestion}
    (h : Pass style content suggestions links final) (hheading : '[' ∉ style.heading)
    (hplain : ∀ s ∈ suggestions, PlainNames s.target s.targetTitle)
    (hput : ∀ s ∈ put, PlainNames s.target s.targetTitle)
    (hwoven : Woven style.format put content) :
    ∀ s ∈ suggestions, linkExists final s.target s.targetTitle = true := by
  intro s hs
  obtain ⟨s', hs', hw⟩ := h.exists_isLinkTo_of_woven hheading hplain hput hwoven s hs
  apply linkExists_of_space_isInfix hw
  rcases List.mem_append.mp hs' with hs' | hs'
  · exact h.isInfix style.format (hput s' hs') (hwoven.isInfix_of_mem hs')
  · exact h.isInfix_of_mem (fun s hs => hplain s (h.subset hs)) hs'

end Pass

/-- A second pass, in whatever style, puts in none of the links that the first pass
has put in. In a note without opening brackets and under a heading without them,
it puts in no link at all. -/
theorem second_pass_inserts_nothing (style again : Style) (content : Text)
    (suggestions : List Suggestion)
    (hplain : ∀ s ∈ suggestions, PlainNames s.target s.targetTitle) :
    (∀ s ∈ inserted style content suggestions,
        linkExists (Plan.make style content suggestions).content s.target s.targetTitle = true) ∧
      Plan.make again (Plan.make style content suggestions).content
          (inserted style content suggestions) =
        { content := (Plan.make style content suggestions).content } ∧
      ('[' ∉ content → '[' ∉ style.heading →
        Plan.make again (Plan.make style content suggestions).content suggestions =
          { content := (Plan.make style content suggestions).content }) := by
  have hpass := pass_make style content suggestions
  have hlinks : ∀ s ∈ inserted style content suggestions,
      linkExists (Plan.make style content suggestions).content s.target s.targetTitle = true :=
    fun s hs => hpass.linkExists_of_mem hplain hs
  refine ⟨hlinks, Plan.make_eq_of_linkExists hlinks, ?_⟩
  intro hcontent hheading
  exact Plan.make_eq_of_linkExists
    (hpass.linkExists_of_woven hheading hplain (by simp) (.bare hcontent))

/-- One link behind a mention and one in the section, in the format of wikilinks; the
second pass looks for markdown links as well. -/
theorem second_pass_after_mention_and_listing :
    (Plan.make ⟨.wikilink, defaultHeading⟩ "About rust.\n".toList
        [suggestionOf "r.md".toList "Rust".toList [⟨.sharedConcept, "rust".toList⟩],
          suggestionOf "g.md".toList "Go".toList []]).content =
        "About rust [[Rust]].\n\n## Related Notes\n\n- [[Go]]\n".toList ∧
      Plan.make ⟨.markdown, "## See also".toList⟩
          "About rust [[Rust]].\n\n## Related Notes\n\n- [[Go]]\n".toList
          [suggestionOf "r.md".toList "Rust".toList [⟨.sharedConcept, "rust".toList⟩],
            suggestionOf "g.md".toList "Go".toList []] =
        { content := "About rust [[Rust]].\n\n## Related Notes\n\n- [[Go]]\n".toList } := by
  refine ⟨rfl, ?_⟩
  have hagain := second_pass_inserts_nothing ⟨.wikilink, defaultHeading⟩
    ⟨.markdown, "## See also".toList⟩ "About rust.\n".toList
    [suggestionOf "r.md".toList "Rust".toList [⟨.sharedConcept, "rust".toList⟩],
      suggestionOf "g.md".toList "Go".toList []]
    (List.forall_mem_cons.mpr ⟨⟨by decide, by decide, by decide⟩,
      List.forall_mem_singleton.mpr ⟨by decide, by decide, by decide⟩⟩)
  exact hagain.2.2 (by decide) (by decide)

end NoteLinks.Insertion
