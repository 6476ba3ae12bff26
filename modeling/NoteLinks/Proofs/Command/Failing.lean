/-
# What a failing command leaves behind

Every stage of a command finds out all that can be wrong before it writes, and each has one thing
to write. So a stage that fails leaves the tree as it was. A command of one stage that fails has
changed nothing, then, and the command that does all three has written at most the files of the
stages before: its snapshot, or its snapshot and its suggestions.

Not every failure can come late. What a setting says is looked at only when a stage needs it, and a
file may turn out not to be writable. All other failures come before anything is written: the
vault that the first stage has found is still there for the last one, and a snapshot that has
just been made is consistent.
-/
import NoteLinks.Proofs.Command.Stages

namespace NoteLinks

/-! ## Failures that come late -/

/-- What is wrong with settings that have been read, and is found out when they are used. -/
inductive SettingsError.OnUse : SettingsError → Prop
  | unknownOverride (key : Text) (e : Error) : OnUse (.unknownOverride key e)
  | scoreOutOfRange (eagerness : Eagerness) (score : Float) :
      OnUse (.scoreOutOfRange eagerness score)
  | unknownName (e : Error) : OnUse (.unknownName e)

namespace Settings

variable {s : Settings} {e : SettingsError}

theorem onUse_of_choose {α : Type} {flag : Option α} {name : Option Text}
    {ofName : Text → Except Error α} {default : α}
    (h : choose flag name ofName default = .error e) : e.OnUse := by
  cases flag with
  | some a => cases h
  | none =>
      cases name with
      | none => cases h
      | some name =>
          change (ofName name).mapError SettingsError.unknownName = .error e at h
          cases hname : ofName name with
          | ok a =>
              rw [hname] at h
              cases h
          | error cause =>
              rw [hname] at h
              cases h
              exact .unknownName cause

theorem onUse_of_checkOverrides {keys : List Text} (h : checkOverrides keys = .error e) :
    e.OnUse := by
  induction keys with
  | nil => cases h
  | cons key keys ih =>
      rw [checkOverrides] at h
      split at h
      next => exact ih h
      next cause _ =>
        cases h
        exact .unknownOverride key cause

theorem onUse_of_overriddenScore {eagerness : Eagerness} {o : Override}
    (h : overriddenScore eagerness o = .error e) : e.OnUse := by
  rw [overriddenScore] at h
  split at h
  next => cases h
  next score _ =>
    split at h
    next => cases h
    next =>
      cases h
      exact .scoreOutOfRange eagerness score

theorem onUse_of_thresholds {eagerness : Eagerness} (h : s.thresholds eagerness = .error e) :
    e.OnUse := by
  rw [thresholds] at h
  cases hcheck : checkOverrides s.overrides.keys with
  | error cause =>
      rw [hcheck] at h
      cases h
      exact onUse_of_checkOverrides hcheck
  | ok _ =>
      rw [hcheck] at h
      simp only [bind, Except.bind] at h
      split at h
      next => cases h
      next o _ =>
        cases hscore : overriddenScore eagerness o with
        | error cause =>
            rw [hscore] at h
            cases h
            exact onUse_of_overriddenScore hscore
        | ok score =>
            rw [hscore] at h
            cases h

end Settings

namespace Command

/-- A failure that may come after something has been written. -/
inductive Failure.IsLate : Failure → Prop
  | settings {e : SettingsError} (h : e.OnUse) : IsLate (.settings e)
  | writing (path : Text) (e : DiskError) : IsLate (.writing path e)

/-! ## Stages that fail -/

section Stages

variable {ctx : Context} {s : Settings} {snapshot : Snapshot} {m : SuggestionMap}
  {vault output : Text} {eagerness : Option Eagerness} {flags : ApplyFlags} {f : Failure}
  {t t' : Tree}

theorem failed_analyzeVault (h : effect t (analyzeVault ctx s vault output) = (.error f, t')) :
    t' = t := by
  obtain ⟨session, hrun, rfl⟩ := exists_session_of_failed h
  rcases failed_of_orFail (failed_of_get hrun) with ⟨rfl, -⟩ | ⟨v, -, hrun⟩
  · rfl
  rcases failed_of_bind hrun with hsave | ⟨_, _, _, hprint⟩
  · rw [(change_eq_error hsave).1]
  · cases hprint

/-- Suggestions can only fail late, or because the snapshot is not consistent. -/
theorem failed_makeSuggestions
    (h : effect t (makeSuggestions ctx s snapshot output eagerness) = (.error f, t')) :
    t' = t ∧ (f.IsLate ∨ ∃ reference, snapshot.dangling? = some reference) := by
  obtain ⟨session, hrun, rfl⟩ := exists_session_of_failed h
  rcases failed_of_orFail hrun with ⟨rfl, e, he, rfl⟩ | ⟨chosen, -, hrun⟩
  · exact ⟨rfl, .inl (.settings (Settings.onUse_of_choose he))⟩
  rcases failed_of_orFail hrun with ⟨rfl, e, he, rfl⟩ | ⟨thresholds, -, hrun⟩
  · exact ⟨rfl, .inl (.settings (Settings.onUse_of_thresholds he))⟩
  cases hdangling : snapshot.dangling? with
  | some reference =>
      simp only [hdangling] at hrun
      cases hrun
      exact ⟨rfl, .inr ⟨reference, rfl⟩⟩
  | none =>
      simp only [hdangling] at hrun
      rcases failed_of_bind hrun with hsave | ⟨_, _, _, hprint⟩
      · obtain ⟨rfl, e, -, rfl⟩ := change_eq_error hsave
        exact ⟨rfl, .inl (.writing output e)⟩
      · cases hprint

theorem effect_readSuggestions_snd (ctx : Context) (path : Text) (t : Tree) :
    (effect t (readSuggestions ctx path)).2 = t := by
  show (effect t (orFail (.reading path) (t.readText ctx.here path) >>= fun text => _)).2 = t
  cases t.readText ctx.here path with
  | error e => rfl
  | ok text =>
      show (effect t (pure text >>= fun text => _)).2 = t
      rw [pure_bind]
      split <;> rfl

/-- The insertion of links can only fail late, or because there is no vault. -/
theorem failed_applySuggestions
    (h : effect t (applySuggestions ctx s vault m flags) = (.error f, t')) :
    t' = t ∧ (f.IsLate ∨ ∃ e, Vault.find t ctx.here vault = .error e) := by
  obtain ⟨session, hrun, rfl⟩ := exists_session_of_failed h
  rcases failed_of_orFail hrun with ⟨rfl, e, he, rfl⟩ | ⟨floor, -, hrun⟩
  · exact ⟨rfl, .inl (.settings (Settings.onUse_of_choose he))⟩
  rcases failed_of_orFail hrun with ⟨rfl, e, he, rfl⟩ | ⟨format, -, hrun⟩
  · exact ⟨rfl, .inl (.settings (Settings.onUse_of_choose he))⟩
  rcases failed_of_orFail (failed_of_get hrun) with ⟨rfl, e, he, rfl⟩ | ⟨v, -, hprint⟩
  · exact ⟨rfl, .inr ⟨e, he⟩⟩
  · cases hprint

end Stages

/-! ## Commands that fail -/

/-- The tree that is left by a command that fails. -/
inductive LeftBy (ctx : Context) (t : Tree) : Command → Failure → Tree → Prop
  | unchanged (c : Command) (f : Failure) : LeftBy ctx t c f t
  /-- A run has written the snapshot of its vault. -/
  | snapshot {vault analysis suggestions : Text} {eagerness : Option Eagerness}
      {flags : ApplyFlags} {f : Failure} {v : Vault} {excluded : List Text} {t₁ : Tree}
      (hfind : Vault.find t ctx.here vault = .ok v) (hlate : f.IsLate)
      (hsave : (v.analyze t excluded).save t ctx.here analysis = .ok t₁) :
      LeftBy ctx t (.run vault analysis suggestions eagerness flags) f t₁
  /-- A run has written the snapshot of its vault and suggestions for it. -/
  | suggestions {vault analysis suggestions : Text} {eagerness : Option Eagerness}
      {flags : ApplyFlags} {f : Failure} {v : Vault} {excluded : List Text}
      {thresholds : Thresholds} {t₁ t₂ : Tree}
      (hfind : Vault.find t ctx.here vault = .ok v) (hlate : f.IsLate)
      (hsave : (v.analyze t excluded).save t ctx.here analysis = .ok t₁)
      (hsave₂ : ((v.analyze t excluded).suggestions thresholds).save t₁ ctx.here suggestions =
        .ok t₂) :
      LeftBy ctx t (.run vault analysis suggestions eagerness flags) f t₂

section Commands

variable {ctx : Context} {flag : Option Text} {vault analysis suggestions : Text}
  {eagerness : Option Eagerness} {flags : ApplyFlags} {f : Failure} {c : Command} {t t' : Tree}

/-- A file that has been written is no directory, and so the vault is still there. -/
theorem find_of_write {path : Text} {bytes : ByteArray} (h : t.write ctx.here path bytes = .ok t') :
    Vault.find t' ctx.here vault = Vault.find t ctx.here vault := by
  obtain ⟨place, -, hwritten⟩ := Tree.exists_target?_of_write h
  exact Vault.find_congr hwritten.isDirectory_eq ctx.here vault

/-- If a sequence has failed, then its first part has, or the second one behind the first. -/
theorem failed_of_proceed {α β : Type} {r : Except Failure α × Tree}
    {g : α → Tree → Except Failure β × Tree} (h : proceed r g = (.error f, t')) :
    r = (.error f, t') ∨ ∃ x t₁, r = (.ok x, t₁) ∧ g x t₁ = (.error f, t') := by
  obtain ⟨e | x, t₁⟩ := r
  · cases h
    exact .inl rfl
  · exact .inr ⟨x, t₁, rfl, h⟩

theorem unchanged_of_proceed {α β : Type} {r : Except Failure α × Tree}
    {g : α → Tree → Except Failure β × Tree} (hr : r.2 = t)
    (hg : ∀ x f t', g x t = (.error f, t') → t' = t) (h : proceed r g = (.error f, t')) :
    t' = t := by
  rcases failed_of_proceed h with rfl | ⟨x, t₁, rfl, hfailed⟩
  · exact hr
  · obtain rfl : t₁ = t := hr
    exact hg x f t' hfailed

/-- What comes last does not fail. -/
theorem unchanged_of_last {α : Type} {r : Except Failure α × Tree}
    (hr : ∀ f t', r = (.error f, t') → t' = t)
    (h : proceed r (fun _ t => (.ok (), t)) = (.error f, t')) : t' = t := by
  rcases failed_of_proceed h with hfailed | ⟨x, t₁, -, hlast⟩
  · exact hr f t' hfailed
  · cases hlast

theorem effect_loadSettings_snd (ctx : Context) (flag : Option Text) (vault : Text) (t : Tree) :
    (effect t (loadSettings ctx flag vault)).2 = t := by
  rw [effect_loadSettings]

theorem leftBy_run
    (h : effect t (perform ctx flag (.run vault analysis suggestions eagerness flags)) =
      (.error f, t')) :
    LeftBy ctx t (.run vault analysis suggestions eagerness flags) f t' := by
  rw [effect_run] at h
  have hload := effect_loadSettings_snd ctx flag vault t
  rcases failed_of_proceed h with hs | ⟨s, t₀, hs, hrest⟩
  · rw [hs] at hload
    obtain rfl : t' = t := hload
    exact .unchanged _ _
  rw [hs] at hload
  obtain rfl : t₀ = t := hload
  rcases failed_of_proceed hrest with ha | ⟨snapshot, t₁, ha, hrest⟩
  · obtain rfl := failed_analyzeVault ha
    exact .unchanged _ _
  obtain ⟨v, hfind, rfl, hsave⟩ := exists_snapshot_of_analyzeVault ha
  rcases failed_of_proceed hrest with hm | ⟨m, t₂, hm, hrest⟩
  · obtain ⟨rfl, hlate | ⟨reference, hdangling⟩⟩ := failed_makeSuggestions hm
    · exact .snapshot hfind hlate hsave
    · cases hdangling.symm.trans (Snapshot.dangling?_ofNotes _)
  obtain ⟨thresholds, rfl, hsave₂⟩ := exists_thresholds_of_makeSuggestions hm
  obtain ⟨rfl, hlate | ⟨e, hnone⟩⟩ := failed_applySuggestions hrest
  · exact .suggestions hfind hlate hsave hsave₂
  · have hstill := (find_of_write hsave₂).trans ((find_of_write hsave).trans hfind)
    cases hstill.symm.trans hnone

/-- A command that fails has changed nothing, unless it is a run that fails late. -/
theorem leftBy_of_failed (h : effect t (perform ctx flag c) = (.error f, t')) :
    LeftBy ctx t c f t' := by
  have hsettings (vault : Text) := effect_loadSettings_snd ctx flag vault t
  cases c with
  | run vault analysis suggestions eagerness flags => exact leftBy_run h
  | analyze vault output =>
      rw [effect_analyze] at h
      obtain rfl := unchanged_of_proceed (hsettings vault)
        (fun s f t' => unchanged_of_last fun f t' => failed_analyzeVault) h
      exact .unchanged _ _
  | suggest vault analysis output eagerness =>
      rw [effect_suggest] at h
      obtain rfl := unchanged_of_proceed (hsettings vault)
        (fun s f t' => unchanged_of_proceed rfl fun snapshot f t' =>
          unchanged_of_last fun f t' hfailed => (failed_makeSuggestions hfailed).1) h
      exact .unchanged _ _
  | apply vault suggestions flags =>
      rw [effect_apply] at h
      obtain rfl := unchanged_of_proceed (hsettings vault)
        (fun s f t' => unchanged_of_proceed (effect_readSuggestions_snd ctx suggestions t)
          fun m f t' hfailed => (failed_applySuggestions hfailed).1) h
      exact .unchanged _ _
  | review suggestions format floor =>
      rw [perform, effect_bind fun m => Blind.print _] at h
      obtain rfl := unchanged_of_proceed (effect_readSuggestions_snd ctx suggestions t)
        (fun m f t' hprint => by cases hprint) h
      exact .unchanged _ _

/-- Failures that do not come late leave the tree as it was. -/
theorem LeftBy.eq_of_not_isLate (h : LeftBy ctx t c f t') (hlate : ¬ f.IsLate) : t' = t := by
  cases h with
  | unchanged => rfl
  | snapshot _ hf => exact absurd hf hlate
  | suggestions _ hf => exact absurd hf hlate

/-- Nothing but the files that a run writes for itself is changed. -/
theorem LeftBy.exists_run_of_find?_ne {p : Place} (h : LeftBy ctx t c f t')
    (hne : t'.find? p ≠ t.find? p) :
    ∃ vault analysis suggestions eagerness flags,
      c = .run vault analysis suggestions eagerness flags ∧
      (t.target? ctx.here analysis = some p ∨ t.target? ctx.here suggestions = some p) := by
  cases h with
  | unchanged => exact absurd rfl hne
  | snapshot _ _ hsave =>
      obtain ⟨place, htarget, hwritten⟩ := Tree.exists_target?_of_write hsave
      refine ⟨_, _, _, _, _, rfl, .inl ?_⟩
      by_contra hother
      exact hne (hwritten.find?_of_ne fun hp => hother (hp ▸ htarget))
  | suggestions _ _ hsave hsave₂ =>
      obtain ⟨place, htarget, hwritten⟩ := Tree.exists_target?_of_write hsave
      obtain ⟨place₂, htarget₂, hwritten₂⟩ := Tree.exists_target?_of_write hsave₂
      rw [hwritten.target?_eq] at htarget₂
      refine ⟨_, _, _, _, _, rfl, ?_⟩
      by_contra hother
      rw [not_or] at hother
      have hp : p ≠ place := fun hp => hother.1 (hp ▸ htarget)
      have hp₂ : p ≠ place₂ := fun hp => hother.2 (hp ▸ htarget₂)
      exact hne ((hwritten₂.find?_of_ne hp₂).trans (hwritten.find?_of_ne hp))

end Commands

/-- A command line that makes no sense changes nothing, and neither does a command that fails,
unless it is a run that has written its snapshot, or its snapshot and its suggestions. Files that
the run does not write for itself are as before, and so are all files after a failure that does not
come late. -/
theorem failing_command_spares_files {ctx : Context} {line : List Text} {t : Tree}
    (hfail : (outcome ctx line t).2.exitCode ≠ 0) :
    ((outcome ctx line t).2 = .misused ∧ (outcome ctx line t).1 = t ∨
      ∃ flag c f, ofLine? line = some (.command flag c) ∧ (outcome ctx line t).2 = .failed f ∧
        LeftBy ctx t c f (outcome ctx line t).1) ∧
    (∀ p, (outcome ctx line t).1.find? p ≠ t.find? p →
      ∃ flag vault analysis suggestions eagerness flags,
        ofLine? line = some (.command flag (.run vault analysis suggestions eagerness flags)) ∧
        (t.target? ctx.here analysis = some p ∨ t.target? ctx.here suggestions = some p)) ∧
    ∀ f, (outcome ctx line t).2 = .failed f → ¬ f.IsLate → (outcome ctx line t).1 = t := by
  cases hline : ofLine? line with
  | none =>
      have houtcome : outcome ctx line t = (t, .misused) := by
        rw [outcome, execute, hline]
      rw [houtcome]
      exact ⟨.inl ⟨rfl, rfl⟩, fun p hne => absurd rfl hne, fun _ _ _ => rfl⟩
  | some request =>
      cases request with
      | version =>
          have houtcome : (outcome ctx line t).2 = .done := by rw [outcome, execute, hline]
          rw [houtcome] at hfail
          exact absurd rfl hfail
      | command flag c =>
          have houtcome : outcome ctx line t = conclude (effect t (perform ctx flag c)) :=
            outcome_eq hline t
          rcases hperform : effect t (perform ctx flag c) with ⟨f | _, t'⟩
          · have hleft := leftBy_of_failed hperform
            rw [houtcome, hperform]
            refine ⟨.inr ⟨flag, c, f, rfl, rfl, hleft⟩, fun p hne => ?_, fun f' hf' hlate => ?_⟩
            · obtain ⟨vault, analysis, suggestions, eagerness, flags, rfl, htarget⟩ :=
                hleft.exists_run_of_find?_ne hne
              exact ⟨flag, vault, analysis, suggestions, eagerness, flags, rfl, htarget⟩
            · cases hf'
              exact hleft.eq_of_not_isLate hlate
          · rw [houtcome, hperform] at hfail
            exact absurd rfl hfail

/-- There is no directory for the suggestions. The snapshot has been written, and the notes are as
they were. -/
theorem run_without_room :
    let ctx : Context := ⟨[], none, "20240101_120000".toList⟩
    let line := ["run", ".", "--analysis", "a.json", "--suggestions", "no/s.json"].map String.toList
    (outcome ctx line notesOnSubject).2.exitCode ≠ 0 ∧
      (outcome ctx line notesOnSubject).1.find? ["a.md".toList] =
        notesOnSubject.find? ["a.md".toList] := by
  intro ctx line
  have hfail : (outcome ctx line notesOnSubject).2.exitCode ≠ 0 := by decide +kernel
  obtain ⟨-, hspared, -⟩ := failing_command_spares_files hfail
  refine ⟨hfail, ?_⟩
  by_contra hne
  obtain ⟨flag, vault, analysis, suggestions, eagerness, flags, hline, htarget⟩ := hspared _ hne
  have hrun : ofLine? line =
      some (.command none (.run ['.'] "a.json".toList "no/s.json".toList none {})) := by rfl
  cases hline.symm.trans hrun
  revert htarget
  decide +kernel

end Command

end NoteLinks
