/-
# A run changes what it reports

A run without copies rewrites texts in their places. Keys may escape the vault, name what is
not there, or name one file several times; still every file below the vault's directory ends
up with the text that is planned for it when all keys that lead to it are gone over in
ascending order, and nothing else in the tree changes. The files stay the same files, so each
key leads where it led at first, and what becomes of it can be read off the first tree and the
keys in front of it.
-/
import NoteLinks.Proofs.Insertion.Lossless
import NoteLinks.Proofs.Vault.Outcome

namespace NoteLinks

open Insertion (Plan)

namespace Tree

variable {t t' t'' : Tree} {place : Place} {content : Text} {f g : Place → Text → Text}

/-- The texts in a tree have been rewritten, and nothing else has changed. -/
structure Rewritten (t t' : Tree) (f : Place → Text → Text) : Prop where
  text : ∀ place content, t.HasText place content →
    t'.find? place = some (.file (Text.encode (f place content)))
  other : ∀ place, (∀ content, ¬ t.HasText place content) → t'.find? place = t.find? place

theorem HasText.isFile (h : t.HasText place content) : t.isFile place = true := by
  obtain ⟨bytes, hfind, -⟩ := h
  exact isFile_iff.mpr ⟨bytes, hfind⟩

theorem HasText.find?_eq (h : t.HasText place content) :
    t.find? place = some (.file (Text.encode content)) := by
  obtain ⟨bytes, hfind, hdecode⟩ := h
  rw [hfind, Text.encode_of_decode? hdecode]

theorem hasText_of_find?_eq (h : t.find? place = some (.file (Text.encode content))) :
    t.HasText place content :=
  ⟨_, h, Text.decode?_encode content⟩

theorem Rewritten.refl (t : Tree) (h : ∀ place content, t.HasText place content →
    f place content = content) : Rewritten t t f where
  text place content htext := by
    rw [h place content htext]
    exact htext.find?_eq
  other _ _ := rfl

theorem Rewritten.hasText (h : Rewritten t t' f) (htext : t.HasText place content) :
    t'.HasText place (f place content) :=
  hasText_of_find?_eq (h.text place content htext)

theorem Rewritten.exists_hasText (h : Rewritten t t' f) (htext : t'.HasText place content) :
    ∃ old, t.HasText place old ∧ content = f place old := by
  by_cases hold : ∃ old, t.HasText place old
  · obtain ⟨old, hold⟩ := hold
    exact ⟨old, hold, htext.unique (h.hasText hold)⟩
  · rw [not_exists] at hold
    exact absurd (htext.of_find?_eq (h.other place hold).symm) (hold content)

theorem Rewritten.isFile_eq (h : Rewritten t t' f) (place : Place) :
    t'.isFile place = t.isFile place := by
  by_cases hold : ∃ old, t.HasText place old
  · obtain ⟨old, hold⟩ := hold
    rw [hold.isFile, (h.hasText hold).isFile]
  · rw [not_exists] at hold
    exact isFile_congr (h.other place hold)

theorem Rewritten.trans (h : Rewritten t t' f) (h' : Rewritten t' t'' g) :
    Rewritten t t'' fun place content => g place (f place content) where
  text place content htext := h'.text place _ (h.hasText htext)
  other place hnone := by
    have hnone' (content : Text) : ¬ t'.HasText place content := by
      intro htext
      obtain ⟨old, hold, -⟩ := h.exists_hasText htext
      exact hnone old hold
    rw [h'.other place hnone', h.other place hnone]

theorem Rewritten.congr (h : Rewritten t t' f)
    (hfg : ∀ place content, t.HasText place content → f place content = g place content) :
    Rewritten t t' g where
  text place content htext := by
    rw [← hfg place content htext]
    exact h.text place content htext
  other := h.other

end Tree

namespace Insertion.Plan

variable {style : Insertion.Style} {content : Text} {suggestions : List Suggestion}

/-- A plan leaves a text as it is exactly if it has no links. -/
theorem content_eq_iff :
    (Plan.make style content suggestions).content = content ↔
      (Plan.make style content suggestions).links = 0 := by
  rw [links_make]
  exact (pass_make style content suggestions).eq_iff

theorem make_eq_of_content_eq (h : (Plan.make style content suggestions).content = content) :
    Plan.make style content suggestions = { content } := by
  have hlinks := content_eq_iff.mp h
  have hsum := links_eq_add style content suggestions
  rw [hlinks, eq_comm, Nat.add_eq_zero_iff] at hsum
  cases hplan : Plan.make style content suggestions
  simp_all

end Insertion.Plan

namespace Vault

variable {t t' : Tree} {v : Vault} {o : ApplyOptions} {clock : Clock} {key : Text} {place : Place}
  {content : Text} {suggestions : List Suggestion} {l : List (Text × List Suggestion)}
  {m : SuggestionMap} {f : Place → Text → Text}

/-! ## What becomes of a text -/

/-- The text that a file comes to have when entries are gone over: what is accepted for each
key that leads to the file is inserted, in the order of the entries. -/
def planned (t : Tree) (v : Vault) (o : ApplyOptions) (l : List (Text × List Suggestion))
    (place : Place) (content : Text) : Text :=
  (l.filter fun e => v.leadsTo t e.1 place).foldl
    (fun content e => (Plan.make o.style content (accepted o e.2)).content) content

theorem planned_cons (t : Tree) (v : Vault) (o : ApplyOptions) (key : Text)
    (suggestions : List Suggestion) (l : List (Text × List Suggestion)) (place : Place)
    (content : Text) :
    v.planned t o ((key, suggestions) :: l) place content =
      v.planned t o l place (if v.leadsTo t key place then
        (Plan.make o.style content (accepted o suggestions)).content else content) := by
  cases hleads : v.leadsTo t key place with
  | true => simp [planned, hleads]
  | false => simp [planned, hleads]

theorem planned_congr (hfile : t.isFile place = true)
    (hfile' : t'.isFile place = true) (l : List (Text × List Suggestion)) (content : Text) :
    v.planned t' o l place content = v.planned t o l place content := by
  have hleads : (fun e : Text × List Suggestion => v.leadsTo t' e.1 place) =
      fun e => v.leadsTo t e.1 place := by
    funext e
    exact leadsTo_congr hfile hfile'
  rw [planned, planned, hleads]

/-- No key leads to a place outside the vault. -/
theorem planned_outside (hfile : t.isFile place = true) (houtside : ¬ v.place <+: place)
    (l : List (Text × List Suggestion)) (content : Text) :
    v.planned t o l place content = content := by
  have hnone : l.filter (fun e => v.leadsTo t e.1 place) = [] := by
    rw [List.filter_eq_nil_iff]
    intro e _ hleads
    exact houtside ((leadsTo_iff_targets hfile).mp hleads).isPrefix
  rw [planned, hnone, List.foldl_nil]

/-- Where the texts have been rewritten, the keys lead to the files that they led to. -/
theorem leadsTo_of_rewritten (h : Tree.Rewritten t t' f) (hfile : t'.isFile place = true)
    (hleads : v.leadsTo t' key place = true) : v.leadsTo t key place = true := by
  rw [← hleads]
  exact leadsTo_congr hfile (h.isFile_eq place ▸ hfile)

theorem leadsToNoFile_of_rewritten (h : Tree.Rewritten t t' f) (hnone : v.LeadsToNoFile t' key) :
    v.LeadsToNoFile t key := by
  rw [leadsToNoFile_iff] at hnone ⊢
  intro place htargets
  rw [← h.isFile_eq place]
  exact hnone place htargets

/-! ## Runs -/

section Plain

variable (hdry : o.dryRun = false) (hbackup : o.backup = false)
include hdry hbackup

/-- Going over one key rewrites the text that the key leads to. -/
theorem rewritten_update (t : Tree) (v : Vault) (stamp key : Text)
    (accepted : List Suggestion) :
    Tree.Rewritten t (v.update t o stamp key accepted).1 fun place content =>
      if v.leadsTo t key place then (Plan.make o.style content accepted).content else content := by
  have hstep := step_update t v o stamp key accepted
  generalize v.update t o stamp key accepted = result at hstep ⊢
  cases hstep with
  | refused hadmits =>
      apply Tree.Rewritten.refl
      intro place content _
      rw [leadsTo, hadmits, Bool.false_and, if_neg Bool.false_ne_true]
  | missing _ hnone =>
      apply Tree.Rewritten.refl
      intro place content htext
      rw [if_neg]
      intro hleads
      have hnofile := hnone place hleads
      rw [htext.isFile] at hnofile
      cases hnofile
  | @unreadable place bytes hleads hfind hdecode =>
      apply Tree.Rewritten.refl
      intro place' content htext
      rw [if_neg]
      intro hleads'
      obtain rfl := leadsTo_unique hleads hleads'
      obtain ⟨bytes', hfind', hdecode'⟩ := htext
      cases hfind.symm.trans hfind'
      cases hdecode.symm.trans hdecode'
  | @unchanged place content hleads htext hsame =>
      apply Tree.Rewritten.refl
      intro place' content' htext'
      split
      next hleads' =>
        obtain rfl := leadsTo_unique hleads hleads'
        obtain rfl := htext.unique htext'
        exact hsame
      next => rfl
  | @replaced place bytes content hleads hfind hdecode hchanged =>
      have htext : t.HasText place content := ⟨bytes, hfind, hdecode⟩
      simp only [replace, hdry, hbackup, Bool.false_eq_true, if_false]
      constructor
      · intro place' content' htext'
        rw [Tree.find?_overwrite htext.isFile]
        split
        next heq =>
          subst heq
          obtain rfl := htext.unique htext'
          rw [if_pos hleads]
        next hne =>
          have hother : ¬ v.leadsTo t key place' = true := fun hleads' =>
            hne (leadsTo_unique hleads' hleads)
          rw [if_neg hother]
          exact htext'.find?_eq
      · intro place' hnone
        rw [Tree.find?_overwrite htext.isFile, if_neg]
        rintro rfl
        exact hnone content htext

/-- A run rewrites every text as it is planned. -/
theorem rewritten_updateAll (t : Tree) (v : Vault) (clock : Clock)
    (hasked : ∀ e ∈ l, (accepted o e.2).isEmpty = false) :
    Tree.Rewritten t (v.updateAll t o clock l).1 (v.planned t o l) := by
  induction l generalizing t with
  | nil => exact Tree.Rewritten.refl t fun _ _ _ => rfl
  | cons e rest ih =>
      obtain ⟨key, suggestions⟩ := e
      obtain ⟨hfirst, hrest⟩ := List.forall_mem_cons.mp hasked
      have hstep := rewritten_update hdry hbackup t v (clock.stamp key) key (accepted o suggestions)
      rw [updateAll_cons hfirst]
      apply (hstep.trans (ih _ hrest)).congr
      intro place content htext
      rw [planned_cons]
      exact planned_congr htext.isFile (hstep.hasText htext).isFile ..

end Plain

/-! ## Reports -/

/-- A key that is empty, starts from the root or leads back. -/
def LeavesVault (key : Text) : Prop :=
  key = [] ∨ key.head? = some '/' ∨ ['.', '.'] ∈ Path.segments key

theorem not_leavesVault_iff : ¬ LeavesVault key ↔ admits key = true := by
  rw [admits_iff, LeavesVault, not_or, not_or]

theorem leavesVault_of_admits (h : admits key = false) : LeavesVault key := by
  by_contra hstays
  rw [not_leavesVault_iff.mp hstays] at h
  cases h

/-- How a report accounts for a key with accepted suggestions, in view of the first tree and of
the entries in front of the key. -/
inductive Settled (t : Tree) (v : Vault) (o : ApplyOptions)
    (before : List (Text × List Suggestion)) (r : Report) (key : Text)
    (accepted : List Suggestion) : Prop
  | refused (hleaves : LeavesVault key) (hreport : (key, .outsideVault key) ∈ r.failed)
  | unreadable {place : Place} {bytes : ByteArray} (hleads : v.leadsTo t key place = true)
      (hfind : t.find? place = some (.file bytes)) (hdecode : Text.decode? bytes = none)
      (hreport : (key, .disk .notText) ∈ r.failed)
  | missing (hstays : ¬ LeavesVault key) (hnone : v.LeadsToNoFile t key)
      (hreport : key ∈ r.missing)
  | changed {place : Place} {content : Text} {plan : Plan}
      (hleads : v.leadsTo t key place = true) (htext : t.HasText place content)
      (hplan : Plan.make o.style (v.planned t o before place content) accepted = plan)
      (hlinks : 0 < plan.links)
      (hreport : ⟨key, plan.links, plan.mentions, plan.listings, none⟩ ∈ r.changes)
  | unreported {place : Place} {content : Text} (hleads : v.leadsTo t key place = true)
      (htext : t.HasText place content)
      (hplan : Plan.make o.style (v.planned t o before place content) accepted =
        { content := v.planned t o before place content })
      (hreport : key ∉ r.reported)

/-- In ascending entries the ones in front of a key are those with smaller keys. -/
theorem filter_lt_eq_before {before behind : List (Text × List Suggestion)}
    (h : (before ++ (key, suggestions) :: behind).Pairwise fun a b => a.1 < b.1) :
    (before ++ (key, suggestions) :: behind).filter (fun e => e.1 < key) = before := by
  obtain ⟨-, hbehind, hbefore⟩ := List.pairwise_append.mp h
  have hfirst : before.filter (fun e => decide (e.1 < key)) = before := by
    rw [List.filter_eq_self]
    intro e he
    exact decide_eq_true (hbefore e he _ List.mem_cons_self)
  have hrest : ((key, suggestions) :: behind).filter (fun e => decide (e.1 < key)) = [] := by
    rw [List.filter_eq_nil_iff]
    intro e he hlt
    rcases List.mem_cons.mp he with rfl | he
    · exact LawfulKey.irrefl key (of_decide_eq_true hlt)
    · exact LawfulKey.asymm ((List.pairwise_cons.mp hbehind).1 e he) (of_decide_eq_true hlt)
  rw [List.filter_append, hfirst, hrest, List.append_nil]

theorem nodup_keys_asked (m : SuggestionMap) : ((asked o m.entries).map Prod.fst).Nodup :=
  m.nodup_keys.sublist (List.filter_sublist.map _)

theorem nodup_outcomes (t : Tree) (v : Vault) (o : ApplyOptions) (clock : Clock)
    (m : SuggestionMap) : ((v.outcomes t o clock m).map Prod.fst).Nodup := by
  rw [outcomes, map_fst_updateAll]
  exact nodup_keys_asked m

theorem exists_asked_of_mem_reported
    (h : key ∈ (v.apply t o clock m).2.reported) :
    ∃ suggestions, (key, suggestions) ∈ asked o m.entries := by
  obtain ⟨x, hmem, -⟩ := tells_apply.mem_reported_iff.mp h
  exact exists_asked_of_mem_updateAll hmem

/-- Every key with accepted suggestions is accounted for. -/
theorem settled_apply (hdry : o.dryRun = false) (hbackup : o.backup = false) (t : Tree)
    (v : Vault) (clock : Clock) (hmem : (key, suggestions) ∈ asked o m.entries) :
    v.Settled t o ((asked o m.entries).filter fun e => e.1 < key) (v.apply t o clock m).2 key
      (accepted o suggestions) := by
  obtain ⟨before, behind, hsplit⟩ := List.append_of_mem hmem
  have hempty := accepted_isEmpty_of_mem_asked hmem
  have hascending : (asked o m.entries).Pairwise fun a b => a.1 < b.1 := m.ascending.filter _
  rw [hsplit] at hascending ⊢
  rw [filter_lt_eq_before hascending]
  -- The tree that the keys in front have left has the same files as the first one.
  have hbefore : ∀ e ∈ before, (accepted o e.2).isEmpty = false := by
    intro e he
    have hasked : (e.1, e.2) ∈ asked o m.entries := by
      rw [hsplit]
      exact List.mem_append_left _ he
    exact accepted_isEmpty_of_mem_asked hasked
  have hrun := rewritten_updateAll hdry hbackup t v clock hbefore
  have houtcome : (key, (v.update (v.updateAll t o clock before).1 o (clock.stamp key) key
      (accepted o suggestions)).2) ∈ v.outcomes t o clock m := by
    rw [outcomes, ← updateAll_asked, hsplit]
    exact mem_updateAll t hempty
  have hstep := step_update (v.updateAll t o clock before).1 v o (clock.stamp key) key
    (accepted o suggestions)
  generalize v.update (v.updateAll t o clock before).1 o (clock.stamp key) key
    (accepted o suggestions) = result at hstep houtcome
  cases hstep with
  | refused hadmits =>
      exact .refused (leavesVault_of_admits hadmits) (tells_apply.mem_failed_iff.mpr houtcome)
  | missing hadmits hnone =>
      exact .missing (not_leavesVault_iff.mpr hadmits) (leadsToNoFile_of_rewritten hrun hnone)
        (tells_apply.mem_missing_iff.mpr houtcome)
  | @unreadable place bytes hleads hfind hdecode =>
      have hnotext (content : Text) : ¬ t.HasText place content := by
        intro htext
        obtain ⟨bytes', hfind', hdecode'⟩ := hrun.hasText htext
        cases hfind.symm.trans hfind'
        cases hdecode.symm.trans hdecode'
      have hfile := Tree.isFile_iff.mpr ⟨bytes, hfind⟩
      rw [hrun.other place hnotext] at hfind
      exact .unreadable (leadsTo_of_rewritten hrun hfile hleads) hfind hdecode
        (tells_apply.mem_failed_iff.mpr houtcome)
  | @unchanged place content hleads htext hsame =>
      obtain ⟨old, hold, rfl⟩ := hrun.exists_hasText htext
      apply Settled.unreported (leadsTo_of_rewritten hrun htext.isFile hleads) hold
        (Plan.make_eq_of_content_eq hsame)
      intro hreported
      obtain ⟨x, hx, hne⟩ := tells_apply.mem_reported_iff.mp hreported
      exact hne (Report.outcome_unique (nodup_outcomes t v o clock m) hx houtcome)
  | @replaced place bytes content hleads hfind hdecode hchanged =>
      have htext : Tree.HasText _ place content := ⟨bytes, hfind, hdecode⟩
      obtain ⟨old, hold, rfl⟩ := hrun.exists_hasText htext
      have hlinks := Nat.pos_of_ne_zero (mt Plan.content_eq_iff.mpr hchanged)
      simp only [replace, hdry, hbackup, Bool.false_eq_true, if_false] at houtcome
      exact .changed (leadsTo_of_rewritten hrun htext.isFile hleads) hold rfl hlinks
        (tells_apply.mem_changes_iff.mpr houtcome)

/-- A change that is reported has links, each behind a mention or in the section. -/
theorem links_of_mem_changes (hdry : o.dryRun = false) (hbackup : o.backup = false)
    {change : Report.Change} (hmem : change ∈ (v.apply t o clock m).2.changes) :
    change.links = change.mentions + change.listings ∧ 0 < change.links := by
  have hunique {x y : Outcome} (hx : (change.key, x) ∈ v.outcomes t o clock m)
      (hy : (change.key, y) ∈ v.outcomes t o clock m) : x = y :=
    Report.outcome_unique (nodup_outcomes t v o clock m) hx hy
  have hreported : change.key ∈ (v.apply t o clock m).2.reported :=
    List.mem_append_right _ (List.mem_map_of_mem hmem)
  obtain ⟨suggestions, hasked⟩ := exists_asked_of_mem_reported hreported
  have houtcome := tells_apply.mem_changes_iff.mp hmem
  cases settled_apply hdry hbackup t v clock hasked with
  | refused _ hreport => cases hunique houtcome (tells_apply.mem_failed_iff.mp hreport)
  | unreadable _ _ _ hreport => cases hunique houtcome (tells_apply.mem_failed_iff.mp hreport)
  | missing _ _ hreport => cases hunique houtcome (tells_apply.mem_missing_iff.mp hreport)
  | unreported _ _ _ hnot => exact absurd hreported hnot
  | changed _ _ hplan hpos hreport =>
      subst hplan
      have hchanged := tells_apply.mem_changes_iff.mp hreport
      injection hunique houtcome hchanged with hlinks hmentions hlistings
      rw [hlinks, hmentions, hlistings]
      exact ⟨Plan.links_eq_add .., hpos⟩

/-- A run rewrites every text as it is planned for the keys that lead to it, and touches nothing
else, least of all outside the vault. Every key with accepted suggestions is accounted for, no
key is named twice in the report, none without accepted suggestions is named, and the numbers
of the report are those of its changes, each of which has links. -/
theorem apply_changes_what_it_reports (t : Tree) (v : Vault) (o : ApplyOptions) (clock : Clock)
    (m : SuggestionMap) (hdry : o.dryRun = false) (hbackup : o.backup = false) :
    Tree.Rewritten t (v.apply t o clock m).1 (v.planned t o (asked o m.entries)) ∧
      (∀ place, ¬ v.place <+: place → (v.apply t o clock m).1.find? place = t.find? place) ∧
      (∀ key suggestions, (key, suggestions) ∈ asked o m.entries →
        v.Settled t o ((asked o m.entries).filter fun e => e.1 < key) (v.apply t o clock m).2 key
          (accepted o suggestions)) ∧
      (v.apply t o clock m).2.reported.Nodup ∧
      (∀ key ∈ (v.apply t o clock m).2.reported,
        ∃ suggestions, (key, suggestions) ∈ asked o m.entries) ∧
      (v.apply t o clock m).2.filesModified = (v.apply t o clock m).2.changes.length ∧
      (v.apply t o clock m).2.linksAdded =
        ((v.apply t o clock m).2.changes.map Report.Change.links).sum ∧
      ∀ change ∈ (v.apply t o clock m).2.changes,
        change.links = change.mentions + change.listings ∧ 0 < change.links := by
  have hrun : Tree.Rewritten t (v.apply t o clock m).1 (v.planned t o (asked o m.entries)) := by
    rw [fst_apply, ← updateAll_asked]
    exact rewritten_updateAll hdry hbackup t v clock fun e he => accepted_isEmpty_of_mem_asked he
  refine ⟨hrun, ?_, fun key suggestions => settled_apply hdry hbackup t v clock,
    tells_apply.nodup_reported (nodup_outcomes t v o clock m),
    fun key => exists_asked_of_mem_reported, isBalanced_apply.filesModified,
    isBalanced_apply.linksAdded, fun change => links_of_mem_changes hdry hbackup⟩
  intro place houtside
  by_cases htext : ∃ content, t.HasText place content
  · obtain ⟨content, htext⟩ := htext
    rw [hrun.text place content htext, planned_outside htext.isFile houtside, htext.find?_eq]
  · rw [not_exists] at htext
    exact hrun.other place htext

/-- A vault with one note, and a file beside the vault. -/
def vaultBesideFile : Tree :=
  let t := treeOf [("out.md".toList, "Out.\n".toList)]
  let t := t.put [] "v".toList .directory (by decide +kernel)
  t.put ["v".toList] "a.md".toList (.file (Text.encode "Body\n".toList)) (by decide +kernel)

/-- Suggestions for the note in two spellings of its key, and for the file beside the vault. -/
def suggestionsAcross : SuggestionMap :=
  KeyMap.ofList [("a.md".toList, [Insertion.suggestionOf "b.md".toList "B".toList []]),
    ("./a.md".toList, [Insertion.suggestionOf "c.md".toList "C".toList []]),
    ("../out.md".toList, [Insertion.suggestionOf "b.md".toList "B".toList []])]

/-- The note gets the links for both spellings in the order of the keys, and the file beside
the vault is refused. -/
theorem apply_to_two_spellings :
    let v : Vault := ⟨"v".toList, ["v".toList]⟩
    let o : ApplyOptions := { floor := .low }
    (o.dryRun = false ∧ o.backup = false) ∧
      (v.apply vaultBesideFile o (.still []) suggestionsAcross).1.find?
          ["v".toList, "a.md".toList] =
        some (.file (Text.encode
          "Body\n\n## Related Notes\n\n- [C](c.md)\n- [B](b.md)\n".toList)) ∧
      (v.apply vaultBesideFile o (.still []) suggestionsAcross).1.find? ["out.md".toList] =
        vaultBesideFile.find? ["out.md".toList] ∧
      ("../out.md".toList, Error.outsideVault "../out.md".toList) ∈
        (v.apply vaultBesideFile o (.still []) suggestionsAcross).2.failed := by
  intro v o
  obtain ⟨hrun, houtside, hsettled, -⟩ :=
    apply_changes_what_it_reports vaultBesideFile v o (.still []) suggestionsAcross rfl rfl
  refine ⟨⟨rfl, rfl⟩, ?_, houtside _ (by decide), ?_⟩
  · have htext : vaultBesideFile.HasText ["v".toList, "a.md".toList] "Body\n".toList :=
      Tree.hasText_of_find?_eq (by decide +kernel)
    rw [hrun.text _ _ htext]
    decide +kernel
  · have hasked : ("../out.md".toList, [Insertion.suggestionOf "b.md".toList "B".toList []]) ∈
        asked o suggestionsAcross.entries :=
      List.mem_filter.mpr ⟨KeyMap.find?_eq_some_iff.mp rfl, rfl⟩
    have hrefused : admits "../out.md".toList = false := by decide
    cases hsettled _ _ hasked with
    | refused _ hreport => exact hreport
    | unreadable hleads => cases hrefused.symm.trans (leadsTo_iff.mp hleads).1
    | missing hstays => exact absurd (leavesVault_of_admits hrefused) hstays
    | changed hleads => cases hrefused.symm.trans (leadsTo_iff.mp hleads).1
    | unreported hleads => cases hrefused.symm.trans (leadsTo_iff.mp hleads).1

end Vault

end NoteLinks
