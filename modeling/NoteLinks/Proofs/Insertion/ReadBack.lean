/-
# Links are read back

In a body that is woven from links the scans for links see these links and nothing
else. So the links of a note that had none are those that have been inserted, and none
of their notes is suggested to it again.
-/
import NoteLinks.Note.Reading
import NoteLinks.Proofs.Insertion.Body
import NoteLinks.Proofs.Insertion.Pass
import NoteLinks.Proofs.Insertion.Woven
import NoteLinks.Proofs.Note.Scans
import NoteLinks.Proofs.Ordered.KeySet
import NoteLinks.Suggestion.Candidate

namespace NoteLinks.Insertion

open Link (IsName NoteNames nameInLink otherThan scanFor)

/-! ## The links of a woven body -/

section Targets

variable {format : LinkFormat} {links : List Suggestion} {text : Text}

/-- A scan of a woven text finds what it finds in each of the links. -/
theorem Woven.hits_eq_flatMap (scanned : LinkFormat) (found : Suggestion → List Text)
    (h : Woven format links text)
    (hfound : ∀ s ∈ links, ∀ t,
      Text.hits (scanFor scanned) (format.render s.target s.targetTitle ++ t) =
        found s ++ Text.hits (scanFor scanned) t) :
    Text.hits (scanFor scanned) text = links.flatMap found := by
  induction h with
  | @bare t hbare =>
      rw [← List.append_nil t]
      exact Link.hits_scanFor_append scanned hbare []
  | @link t rest s links hbare _ ih =>
      obtain ⟨hs, hfound⟩ := List.forall_mem_cons.mp hfound
      have hskip : '[' ∉ t ++ [' '] := by simp [hbare]
      calc Text.hits (scanFor scanned) (t ++ ' ' :: format.render s.target s.targetTitle ++ rest)
          = Text.hits (scanFor scanned)
              (t ++ [' '] ++ (format.render s.target s.targetTitle ++ rest)) := by simp
        _ = Text.hits (scanFor scanned) (format.render s.target s.targetTitle ++ rest) :=
            Link.hits_scanFor_append scanned hskip _
        _ = (s :: links).flatMap found := by rw [hs, ih hfound, List.flatMap_cons]

/-- The links of a woven body are those that are woven in. -/
theorem Woven.targets_eq (h : Woven format links text)
    (hnames : ∀ s ∈ links, NoteNames s.target s.targetTitle) :
    Link.targets text =
      (KeySet.ofList (links.map fun s => nameInLink format s.target s.targetTitle)).toList := by
  have hname : ∀ s ∈ links, IsName (nameInLink format s.target s.targetTitle) :=
    fun s hs => (hnames s hs).isName_nameInLink format
  have hwritten : Text.hits Link.recogniseWiki text ++ Text.hits Link.recogniseMarkdown text =
      links.map fun s => nameInLink format s.target s.targetTitle := by
    have hown : Text.hits (scanFor format) text =
        links.map fun s => nameInLink format s.target s.targetTitle := by
      rw [h.hits_eq_flatMap format (fun s => [nameInLink format s.target s.targetTitle])]
      · exact List.map_eq_flatMap.symm
      · intro s hs t
        exact Text.hits_append_of_some (LinkFormat.render_ne_nil _ _ _)
          (Link.scanFor_render_append (hnames s hs) t)
    have hother : Text.hits (scanFor (otherThan format)) text = [] := by
      rw [h.hits_eq_flatMap (otherThan format) fun _ => []]
      · simp
      · intro s hs t
        exact Link.hits_otherThan_render_append (hnames s hs) t
    cases format with
    | markdown =>
        rw [otherThan, scanFor] at hother
        rw [scanFor] at hown
        rw [hother, hown, List.nil_append]
    | wikilink =>
        rw [otherThan, scanFor] at hother
        rw [scanFor] at hown
        rw [hother, hown, List.append_nil]
  have htrim : (links.map fun s => nameInLink format s.target s.targetTitle).map Text.trim =
      links.map fun s => nameInLink format s.target s.targetTitle := by
    rw [List.map_map]
    exact List.map_congr_left fun s hs => (hname s hs).trimmed
  have hfilter : (links.map fun s => nameInLink format s.target s.targetTitle).filter
      (fun name => !name.isEmpty) = links.map fun s => nameInLink format s.target s.targetTitle := by
    rw [List.filter_eq_self]
    intro name hmem
    obtain ⟨s, hs, rfl⟩ := List.mem_map.mp hmem
    simpa using (hname s hs).ne_nil
  rw [Link.targets, hwritten, htrim, hfilter]

end Targets

/-- A pass over a woven body weaves in the links that it inserts. -/
theorem Pass.exists_woven {style : Style} {content final : Text}
    {suggestions links put : List Suggestion} (h : Pass style content suggestions links final)
    (hheading : '[' ∉ style.heading) (hline : '\n' ∉ Text.trim style.heading)
    (hstart : ¬ FrontMatter.delimiter <+: Text.trim style.heading)
    (hplain : ∀ s ∈ suggestions, PlainNames s.target s.targetTitle)
    (hput : ∀ s ∈ put, PlainNames s.target s.targetTitle)
    (hwoven : Woven style.format put (FrontMatter.body content)) :
    ∃ put', put'.Perm (put ++ links) ∧ Woven style.format put' (FrontMatter.body final) := by
  induction h generalizing put with
  | done => exact ⟨put, by simp, hwoven⟩
  | keep _ _ ih => exact ih (List.forall_mem_cons.mp hplain).2 hput hwoven
  | @insert content final s suggestions links e placement hedit hrest ih =>
      obtain ⟨hs, hplain⟩ := List.forall_mem_cons.mp hplain
      obtain ⟨part, hpart⟩ := exists_bodyEdit hs hheading hline hstart hedit
      have hlink : part.link = style.format.render s.target s.targetTitle := by
        rw [hpart.link_eq, link_eq_of_edit? hedit]
      rw [← before_eq_of_edit? hedit, ← hpart.before_eq] at hwoven
      obtain ⟨before, behind, rfl, hafter⟩ := hwoven.after hlink hpart.around.1 hpart.around.2
        fun s' hs' => hpart.uncut _ (uncut_of_edit? style.format (hput s' hs') hedit)
      rw [hpart.after_eq] at hafter
      obtain ⟨hbefore, hbehind⟩ := List.forall_mem_append.mp hput
      have hput' : ∀ s' ∈ before ++ s :: behind, PlainNames s'.target s'.targetTitle :=
        List.forall_mem_append.mpr ⟨hbefore, List.forall_mem_cons.mpr ⟨hs, hbehind⟩⟩
      obtain ⟨put', hperm, hfinal⟩ := ih hplain hput' hafter
      refine ⟨put', hperm.trans ?_, hfinal⟩
      have hfirst : (before ++ s :: (behind ++ links)).Perm (s :: (before ++ (behind ++ links))) :=
        List.perm_middle
      have hlast : (before ++ behind ++ s :: links).Perm (s :: (before ++ behind ++ links)) :=
        List.perm_middle
      simpa only [List.append_assoc, List.cons_append] using hfirst.trans (by simpa using hlast.symm)

/-- After a pass over a note without links, its links are those that have been inserted. -/
theorem Pass.targets_eq {style : Style} {content final : Text} {suggestions links : List Suggestion}
    (h : Pass style content suggestions links final) (hbody : '[' ∉ FrontMatter.body content)
    (hheading : '[' ∉ style.heading) (hline : '\n' ∉ Text.trim style.heading)
    (hstart : ¬ FrontMatter.delimiter <+: Text.trim style.heading)
    (hnames : ∀ s ∈ suggestions, NoteNames s.target s.targetTitle) :
    Link.targets (FrontMatter.body final) =
      (KeySet.ofList (links.map fun s => nameInLink style.format s.target s.targetTitle)).toList := by
  obtain ⟨put, hperm, hwoven⟩ := h.exists_woven hheading hline hstart
    (fun s hs => (hnames s hs).plain) (by simp) (.bare hbody)
  rw [List.nil_append] at hperm
  rw [hwoven.targets_eq fun s hs => hnames s (h.subset (hperm.mem_iff.mp hs))]
  exact congrArg KeySet.toList (KeySet.ofList_congr fun x => (hperm.map _).mem_iff)

/-! ## Notes that are linked already -/

theorem linkedName_of_isName {t : Text} (h : IsName t) : Candidate.linkedName t = Text.lower t := by
  have hnone : Text.cutAt? ['#'] t = none := by
    rw [Text.cutAt?_eq_none_iff, List.singleton_infix_iff]
    exact h.not_mem (by decide)
  rw [Candidate.linkedName, hnone]
  simp only [h.trimmed]

/-- The name in a link to a note is one of those under which the note may be linked. -/
theorem linkedName_mem_namesOf {path title : Text} (format : LinkFormat)
    (h : NoteNames path title) :
    Candidate.linkedName (nameInLink format path title) ∈
      Candidate.namesOf path (some title) := by
  rw [linkedName_of_isName (h.isName_nameInLink format)]
  cases format with
  | markdown => simp [nameInLink, Candidate.namesOf]
  | wikilink => simp [nameInLink, Candidate.namesOf, h.title.trimmed]

/-- A note is no candidate if one of its names is linked. -/
theorem accepts_eq_false {path link target : Text} {links : List Text} {title : Option Text}
    (hlink : link ∈ links) (hne : Candidate.linkedName link ≠ [])
    (hname : Candidate.linkedName link ∈ Candidate.namesOf target title) :
    Candidate.accepts path links target title = false := by
  have hlinked : ((Candidate.namesOf target title).any
      ((links.map Candidate.linkedName).filter fun name => !name.isEmpty).contains) = true := by
    rw [List.any_eq_true]
    refine ⟨_, hname, ?_⟩
    rw [List.contains_iff_mem, List.mem_filter]
    exact ⟨List.mem_map_of_mem hlink, by simpa using hne⟩
  rw [Candidate.accepts]
  simp only [hlinked, Bool.not_true, Bool.and_false]

/-- A note is no candidate if a link has the name that a link to it has. -/
theorem accepts_eq_false_of_nameInLink (format : LinkFormat) {path target title : Text}
    {links : List Text} (h : NoteNames target title)
    (hlink : nameInLink format target title ∈ links) :
    Candidate.accepts path links target (some title) = false := by
  refine accepts_eq_false hlink ?_ (linkedName_mem_namesOf format h)
  rw [linkedName_of_isName (h.isName_nameInLink format)]
  exact Text.lower_ne_nil (h.isName_nameInLink format).ne_nil

/-- After a pass over a note without links, its links are those that have been inserted,
and none of their notes is a candidate for it any more. -/
theorem inserted_links_are_read_back (style : Style) (content path : Text)
    (suggestions : List Suggestion) (hbody : '[' ∉ FrontMatter.body content)
    (hheading : '[' ∉ style.heading) (hline : '\n' ∉ Text.trim style.heading)
    (hstart : ¬ FrontMatter.delimiter <+: Text.trim style.heading)
    (hnames : ∀ s ∈ suggestions, NoteNames s.target s.targetTitle) :
    Link.targets (FrontMatter.body (Plan.make style content suggestions).content) =
        (KeySet.ofList ((inserted style content suggestions).map fun s =>
          nameInLink style.format s.target s.targetTitle)).toList ∧
      ∀ s ∈ inserted style content suggestions,
        Candidate.accepts path
          (Note.read path (Plan.make style content suggestions).content).links s.target
          (some s.targetTitle) = false := by
  have hpass := pass_make style content suggestions
  have htargets := hpass.targets_eq hbody hheading hline hstart hnames
  refine ⟨htargets, ?_⟩
  intro s hs
  apply accepts_eq_false_of_nameInLink style.format (hnames s (hpass.subset hs))
  show _ ∈ Link.targets _
  rw [htargets, KeySet.mem_toList_ofList]
  exact List.mem_map_of_mem hs

/-- One link behind a mention, among brackets of the text, and one in the section. -/
theorem links_read_back_among_brackets :
    (Plan.make ⟨.markdown, defaultHeading⟩ "All (about rust] of a.md).\n".toList
        [suggestionOf "r.md".toList "Rust".toList [⟨.sharedConcept, "rust".toList⟩],
          suggestionOf "d/g.md".toList "Go".toList []]).content =
        "All (about rust] [Rust](r.md) of a.md).\n\n## Related Notes\n\n- [Go](d/g.md)\n".toList ∧
      Link.targets (FrontMatter.body
        "All (about rust] [Rust](r.md) of a.md).\n\n## Related Notes\n\n- [Go](d/g.md)\n".toList) =
        ["d/g.md".toList, "r.md".toList] ∧
      Candidate.accepts "n.md".toList (Note.read "n.md".toList
        "All (about rust] [Rust](r.md) of a.md).\n\n## Related Notes\n\n- [Go](d/g.md)\n".toList).links
        "r.md".toList (some "Rust".toList) = false := by
  have hread := inserted_links_are_read_back ⟨.markdown, defaultHeading⟩
    "All (about rust] of a.md).\n".toList "n.md".toList
    [suggestionOf "r.md".toList "Rust".toList [⟨.sharedConcept, "rust".toList⟩],
      suggestionOf "d/g.md".toList "Go".toList []]
    (by decide) (by decide) (by decide) (by decide)
    (List.forall_mem_cons.mpr
      ⟨⟨⟨"r".toList, by decide, rfl⟩, by decide, by decide⟩,
        List.forall_mem_singleton.mpr
          ⟨⟨"d/g".toList, by decide, rfl⟩, by decide, by decide⟩⟩)
  exact ⟨rfl, hread.1, hread.2 _ List.mem_cons_self⟩

/-- A heading may start with three dashes when the blanks around it are taken off. Its
section can then close a front matter, and a link in there is lost. -/
theorem link_enclosed_by_heading :
    ('[' ∉ FrontMatter.body "---\nAbout rust.\n".toList ∧ '[' ∉ " --- Links".toList ∧
        '\n' ∉ " --- Links".toList ∧ ¬ FrontMatter.delimiter <+: " --- Links".toList ∧
        NoteNames "r.md".toList "Rust".toList ∧ NoteNames "g.md".toList "Go".toList) ∧
      (Plan.make ⟨.markdown, " --- Links".toList⟩ "---\nAbout rust.\n".toList
        [suggestionOf "r.md".toList "Rust".toList [⟨.sharedConcept, "rust".toList⟩],
          suggestionOf "g.md".toList "Go".toList []]).content =
        "---\nAbout rust [Rust](r.md).\n\n--- Links\n\n- [Go](g.md)\n".toList ∧
      inserted ⟨.markdown, " --- Links".toList⟩ "---\nAbout rust.\n".toList
        [suggestionOf "r.md".toList "Rust".toList [⟨.sharedConcept, "rust".toList⟩],
          suggestionOf "g.md".toList "Go".toList []] =
        [suggestionOf "r.md".toList "Rust".toList [⟨.sharedConcept, "rust".toList⟩],
          suggestionOf "g.md".toList "Go".toList []] ∧
      Link.targets (FrontMatter.body
        "---\nAbout rust [Rust](r.md).\n\n--- Links\n\n- [Go](g.md)\n".toList) =
        ["g.md".toList] ∧
      Candidate.accepts "n.md".toList (Note.read "n.md".toList
        "---\nAbout rust [Rust](r.md).\n\n--- Links\n\n- [Go](g.md)\n".toList).links
        "r.md".toList (some "Rust".toList) = true := by
  refine ⟨⟨by decide, by decide, by decide, by decide, ?_, ?_⟩, rfl, rfl, rfl, rfl⟩
  · exact ⟨⟨"r".toList, by decide, rfl⟩, by decide, by decide⟩
  · exact ⟨⟨"g".toList, by decide, rfl⟩, by decide, by decide⟩

end NoteLinks.Insertion
