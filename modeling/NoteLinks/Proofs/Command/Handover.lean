/-
# What is handed on between commands

One command writes a snapshot to a file and the next one reads it, and suggestions are handed on
in the same way. Only floats need not come back as they were. These are the average of a snapshot,
which no suggestion depends on, and the scores of suggestions, which their insertion does not
depend on.
-/
import NoteLinks.Proofs.Command.Effect
import NoteLinks.Proofs.Data.File
import NoteLinks.Proofs.Note.Heading
import NoteLinks.Proofs.Suggestion.Score
import NoteLinks.Proofs.Tree.Target
import NoteLinks.Proofs.Vault.Notes

namespace NoteLinks

/-! ## What does not matter -/

section Irrelevant

theorem Insertion.Plan.make_rescore (style : Insertion.Style) (content : Text)
    (suggestions : List Suggestion) (f : Float → Float) :
    make style content (suggestions.map (Suggestion.rescore f)) =
      make style content suggestions := by
  rw [make, make, List.foldl_map]
  rfl

theorem Vault.update_rescore (t : Tree) (v : Vault) (o : ApplyOptions) (stamp key : Text)
    (accepted : List Suggestion) (f : Float → Float) :
    v.update t o stamp key (accepted.map (Suggestion.rescore f)) =
      v.update t o stamp key accepted := by
  simp only [update, Insertion.Plan.make_rescore]

theorem Vault.applyAll_rescore (t : Tree) (v : Vault) (o : ApplyOptions) (clock : Clock)
    (r : Report) (f : Float → Float) (entries : List (Text × List Suggestion)) :
    v.applyAll t o clock r (entries.map fun e => (e.1, e.2.map (Suggestion.rescore f))) =
      v.applyAll t o clock r entries := by
  induction entries generalizing t r with
  | nil => rfl
  | cons e entries ih =>
      obtain ⟨key, suggestions⟩ := e
      have hfilter : (suggestions.map (Suggestion.rescore f)).filter
          (fun s => s.confidence.atLeast o.floor) =
            (suggestions.filter fun s => s.confidence.atLeast o.floor).map (Suggestion.rescore f) :=
        List.filter_map
      simp only [List.map_cons, applyAll, hfilter, List.isEmpty_map, update_rescore, ih]

theorem Vault.apply_rescore (t : Tree) (v : Vault) (o : ApplyOptions) (clock : Clock)
    (m : SuggestionMap) (f : Float → Float) :
    v.apply t o clock (m.rescore f) = v.apply t o clock m := by
  rw [apply, apply, SuggestionMap.rescore, KeyMap.entries_map, applyAll_rescore]

theorem Command.applySuggestions_rescore (ctx : Context) (s : Settings) (vault : Text)
    (m : SuggestionMap) (f : Float → Float) (flags : ApplyFlags) :
    applySuggestions ctx s vault (m.rescore f) flags = applySuggestions ctx s vault m flags := by
  simp only [applySuggestions, Vault.apply_rescore]

theorem Command.makeSuggestions_stats (ctx : Context) (s : Settings) (snapshot : Snapshot)
    (stats : Stats) (output : Text) (eagerness : Option Eagerness) :
    makeSuggestions ctx s { snapshot with stats } output eagerness =
      makeSuggestions ctx s snapshot output eagerness := rfl

end Irrelevant

/-! ## What is read back -/

/-- A snapshot whose counts have 64 bits. -/
structure Snapshot.CountsFit (s : Snapshot) : Prop where
  wordCount : ∀ e ∈ s.files.entries, e.2.wordCount < 0x10000000000000000
  stats : s.stats.Fits

/-- So do the levels of headings, as they have six hashes at most. -/
theorem Vault.fits_analyze {t : Tree} {v : Vault} {excluded : List Text}
    (h : (v.analyze t excluded).CountsFit) : (v.analyze t excluded).Fits := by
  refine ⟨fun (key, note) he => ⟨?_, h.wordCount _ he⟩, h.stats⟩
  obtain ⟨names, bytes, -, -, rfl⟩ := find?_analyze.mp (KeyMap.find?_eq_some_iff.mpr he)
  intro heading hmem
  rw [noteOf] at hmem
  split at hmem
  next => exact (Heading.level_le_of_mem_all hmem).trans_lt (by decide)
  next => cases hmem

open Magnitude (Under Normal) in
/-- The average is small, as counts are. -/
theorem Snapshot.under_linksPerFile {files : KeyMap Text Note} (h : (ofNotes files).stats.Fits) :
    Under 69 (ofNotes files).stats.linksPerFile := by
  have hfiles : files.size < 2 ^ 64 := h.totalFiles
  have hlinks : (ofNotes files).stats.totalLinks < 2 ^ 64 := h.totalLinks
  show Under 69 (if files.size = 0 then 0.0
    else Float.ofNat (ofNotes files).stats.totalLinks / Float.ofNat files.size)
  split
  next => decide +kernel
  next hne =>
    have hlog := (Nat.log2_lt hne).mpr hfiles
    have hdivisor : Normal 0 66 (Float.ofNat files.size) :=
      (Magnitude.normal_ofNat (Nat.pos_of_ne_zero hne) (by omega)).mono (by omega) (by omega)
    exact ((Magnitude.under_ofNat hlinks (by decide)).div hdivisor (by decide) (by decide)).mono
      (by decide)

/-- A snapshot that has been written to a file is read from it, but for the average. -/
theorem Vault.exists_load_of_save {t t₁ t' : Tree} {v : Vault} {excluded : List Text} {here : Place}
    {path : Text} (h : (v.analyze t excluded).CountsFit)
    (hsave : (v.analyze t excluded).save t₁ here path = .ok t') :
    ∃ stats, Snapshot.load t' here path = .ok { v.analyze t excluded with stats } := by
  obtain ⟨average, haverage⟩ := Json.exists_float?_ofFloat (Snapshot.under_linksPerFile h.stats)
  exact ⟨_, Snapshot.load_of_save (fits_analyze h) haverage hsave⟩

/-- Suggestions that have been written to a file are read from it, but for the scores. -/
theorem Snapshot.exists_readSuggestions_of_save {s : Snapshot} {thresholds : Thresholds}
    {t t' : Tree} {ctx : Command.Context} {path : Text}
    (hsave : (s.suggestions thresholds).save t ctx.here path = .ok t') :
    ∃ f, Command.effect t' (Command.readSuggestions ctx path) =
      (.ok ((s.suggestions thresholds).rescore f), t') := by
  have hscores : ∀ e ∈ (s.suggestions thresholds).entries, ∀ x ∈ e.2,
      Json.float? (.ofFloat x.score) =
        some ((Json.float? (.ofFloat x.score)).getD x.score) := by
    intro e he x hx
    obtain ⟨y, hy⟩ := exists_float?_score he hx
    rw [hy, Option.getD_some]
  refine ⟨fun score => (Json.float? (.ofFloat score)).getD score, ?_⟩
  have hread := Command.readSuggestions_of_save (f := fun score =>
    (Json.float? (.ofFloat score)).getD score) hscores hsave []
  rw [Command.effect, Command.effectIn, hread]

end NoteLinks
