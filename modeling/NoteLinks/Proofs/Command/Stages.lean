/-
# The whole program and its stages

One command does all that the other three do one after another. It hands on the snapshot and the
suggestions in memory and reads the settings once. The separate commands read both from files, and
each of them reads the settings anew. They find what the whole command has in hand, and so they
leave the same tree, and the first failure is the same.

The files that are written must not be the file with settings. Apart from that they may be any
files: the same one twice, or notes of the vault.
-/
import NoteLinks.Proofs.Command.Handover

namespace NoteLinks.Command

variable {ctx : Context} {flag : Option Text} {vault analysis suggestions path : Text}
  {eagerness : Option Eagerness} {flags : ApplyFlags} {t t' : Tree} {bytes : ByteArray}

/-! ## The settings -/

/-- The path names another file than the one with settings, if there is one, or where one would
be. -/
def SparesSettings (ctx : Context) (flag : Option Text) (vault : Text) (t : Tree) (path : Text) :
    Prop :=
  ∀ source ∈ Settings.source? flag ctx.settingsPath (some vault), ∀ place,
    t.target? ctx.here path = some place → t.target? ctx.here source.1 ≠ some place

/-- A file that is written under such a path leaves the settings as they are. -/
theorem load_of_write (hspares : SparesSettings ctx flag vault t path)
    (h : t.write ctx.here path bytes = .ok t') :
    Settings.load t' ctx.here flag ctx.settingsPath (some vault) =
      Settings.load t ctx.here flag ctx.settingsPath (some vault) := by
  obtain ⟨place, htarget, hwritten⟩ := Tree.exists_target?_of_write h
  exact Settings.load_written hwritten fun source hsource => hspares source hsource place htarget

/-- What paths name is as before. -/
theorem SparesSettings.of_write {other : Text} (hspares : SparesSettings ctx flag vault t path)
    (h : t.write ctx.here other bytes = .ok t') : SparesSettings ctx flag vault t' path := by
  obtain ⟨place, -, hwritten⟩ := Tree.exists_target?_of_write h
  intro source hsource q hq
  rw [hwritten.target?_eq] at hq ⊢
  exact hspares source hsource q hq

/-! ## The commands as compositions -/

theorem effect_analyze (t : Tree) : effect t (perform ctx flag (.analyze vault analysis)) =
    proceed (effect t (loadSettings ctx flag vault)) fun s t =>
      proceed (effect t (analyzeVault ctx s vault analysis)) fun _ t => (.ok (), t) := by
  rw [perform, effect_bind fun s => blind_analyzeVault.bind fun _ => .pure ()]
  simp only [effect_bind fun _ => Blind.pure (), effect_pure]

theorem effect_suggest (t : Tree) :
    effect t (perform ctx flag (.suggest vault analysis suggestions eagerness)) =
      proceed (effect t (loadSettings ctx flag vault)) fun s t =>
        proceed ((Snapshot.load t ctx.here analysis).mapError (.loading analysis), t)
          fun snapshot t =>
            proceed (effect t (makeSuggestions ctx s snapshot suggestions eagerness))
              fun _ t => (.ok (), t) := by
  have hmake (s : Settings) (snapshot : Snapshot) :
      Blind (makeSuggestions ctx s snapshot suggestions eagerness >>= fun _ => pure ()) :=
    blind_makeSuggestions.bind fun _ => .pure ()
  have hload (s : Settings) (t : Tree) :
      Blind (orFail (.loading analysis) (Snapshot.load t ctx.here analysis) >>= fun snapshot =>
        makeSuggestions ctx s snapshot suggestions eagerness >>= fun _ => pure ()) :=
    (Blind.orFail _ _).bind (hmake s)
  rw [perform, effect_bind fun s => .ofSession fun t => hload s t t]
  congr 1
  funext s t
  show effect t (orFail (.loading analysis) (Snapshot.load t ctx.here analysis) >>=
    fun snapshot => makeSuggestions ctx s snapshot suggestions eagerness >>= fun _ => pure ()) = _
  rw [effect_bind (hmake s), effect_orFail]
  simp only [effect_bind fun _ => Blind.pure (), effect_pure]

theorem effect_apply (t : Tree) :
    effect t (perform ctx flag (.apply vault suggestions flags)) =
      proceed (effect t (loadSettings ctx flag vault)) fun s t =>
        proceed (effect t (readSuggestions ctx suggestions)) fun m t =>
          effect t (applySuggestions ctx s vault m flags) := by
  rw [perform, effect_bind fun s => blind_readSuggestions.bind fun m => blind_applySuggestions]
  simp only [effect_bind fun m => blind_applySuggestions]

theorem effect_run (t : Tree) :
    effect t (perform ctx flag (.run vault analysis suggestions eagerness flags)) =
      proceed (effect t (loadSettings ctx flag vault)) fun s t =>
        proceed (effect t (analyzeVault ctx s vault analysis)) fun snapshot t =>
          proceed (effect t (makeSuggestions ctx s snapshot suggestions eagerness)) fun m t =>
            effect t (applySuggestions ctx s vault m flags) := by
  have happly (s : Settings) (m : SuggestionMap) :
      Blind (print ['\n'] >>= fun _ => applySuggestions ctx s vault m flags) :=
    (Blind.print _).bind fun _ => blind_applySuggestions
  have hmake (s : Settings) (snapshot : Snapshot) :
      Blind (makeSuggestions ctx s snapshot suggestions eagerness >>= fun m =>
        print ['\n'] >>= fun _ => applySuggestions ctx s vault m flags) :=
    blind_makeSuggestions.bind (happly s)
  rw [perform, effect_bind fun s => blind_analyzeVault.bind fun snapshot =>
    (Blind.print _).bind fun _ => hmake s snapshot]
  simp only [effect_bind fun snapshot => (Blind.print _).bind fun _ => hmake _ snapshot,
    effect_bind fun _ => hmake _ _, effect_bind (happly _),
    effect_bind fun _ => blind_applySuggestions, effect_print, proceed_ok]

/-- The counts of the snapshot that is made of a vault have 64 bits. -/
def CountsFit (ctx : Context) (flag : Option Text) (vault : Text) (t : Tree) : Prop :=
  ∀ s v, Settings.load t ctx.here flag ctx.settingsPath (some vault) = .ok s →
    Vault.find t ctx.here vault = .ok v → (v.analyze t s.excluded).CountsFit

/-- The whole has the effect of its stages. -/
theorem effect_run_eq_stages (hanalysis : SparesSettings ctx flag vault t analysis)
    (hsuggestions : SparesSettings ctx flag vault t suggestions)
    (hcounts : CountsFit ctx flag vault t) :
    effect t (perform ctx flag (.run vault analysis suggestions eagerness flags)) =
      proceed (effect t (perform ctx flag (.analyze vault analysis))) fun _ t =>
        proceed (effect t (perform ctx flag (.suggest vault analysis suggestions eagerness)))
          fun _ t => effect t (perform ctx flag (.apply vault suggestions flags)) := by
  rw [effect_run, effect_analyze, effect_loadSettings]
  cases hs : Settings.load t ctx.here flag ctx.settingsPath (some vault) with
  | error e => rfl
  | ok s =>
      simp only [Except.mapError, proceed_ok]
      rcases ha : effect t (analyzeVault ctx s vault analysis) with ⟨_ | snapshot, t₁⟩
      · rfl
      · obtain ⟨v, hfind, rfl, hsave⟩ := exists_snapshot_of_analyzeVault ha
        -- The second stage finds the same settings, and a snapshot with the same notes and indexes.
        have hs₁ := (load_of_write hanalysis hsave).trans hs
        obtain ⟨stats, hload⟩ := Vault.exists_load_of_save (hcounts s v hs hfind) hsave
        simp only [proceed_ok, effect_suggest, effect_loadSettings, hs₁, hload, Except.mapError,
          makeSuggestions_stats]
        rcases hm : effect t₁ (makeSuggestions ctx s (v.analyze t s.excluded) suggestions eagerness)
          with ⟨_ | m, t₂⟩
        · rfl
        · obtain ⟨thresholds, rfl, hsave₂⟩ := exists_thresholds_of_makeSuggestions hm
          -- The third finds the same settings, and the same suggestions with other scores perhaps.
          have hs₂ := (load_of_write (hsuggestions.of_write hsave) hsave₂).trans hs₁
          obtain ⟨f, hread⟩ := Snapshot.exists_readSuggestions_of_save hsave₂
          simp only [proceed_ok, effect_apply, effect_loadSettings, hs₂, hread, Except.mapError,
            applySuggestions_rescore]

/-! ## Command lines -/

/-- The tree that a command line leaves, and how it ends. -/
def outcome (ctx : Context) (line : List Text) (t : Tree) : Tree × Ending :=
  let (session, ending) := execute ctx line { tree := t }
  (session.tree, ending)

/-- What is left by command lines that are carried out one after another, each at its own time,
until one fails. -/
def inTurn (ctx : Context) : List (Clock × List Text) → Tree → Tree × Ending
  | [], t => (t, .done)
  | (time, line) :: rest, t =>
    match outcome { ctx with stamp := time } line t with
    | (t, .done) => inTurn ctx rest t
    | stopped => stopped

/-- Each of the command lines exits with zero. -/
def AllExitWithZero (ctx : Context) : List (Clock × List Text) → Tree → Prop
  | [], _ => True
  | (time, line) :: rest, t =>
    (outcome { ctx with stamp := time } line t).2.exitCode = 0 ∧
      AllExitWithZero ctx rest (outcome { ctx with stamp := time } line t).1

theorem exitCode_inTurn_eq_zero_iff (lines : List (Clock × List Text)) (t : Tree) :
    (inTurn ctx lines t).2.exitCode = 0 ↔ AllExitWithZero ctx lines t := by
  induction lines generalizing t with
  | nil => exact iff_of_true rfl trivial
  | cons stage rest ih =>
      obtain ⟨time, line⟩ := stage
      rw [inTurn, AllExitWithZero]
      rcases outcome { ctx with stamp := time } line t with ⟨t', ending⟩
      cases ending with
      | done => simpa [Ending.exitCode] using ih t'
      | failed f => simp [Ending.exitCode]
      | misused => simp [Ending.exitCode]

/-- The ending of a command. -/
def conclude (r : Except Failure Unit × Tree) : Tree × Ending :=
  match r with
  | (.ok _, t) => (t, .done)
  | (.error f, t) => (t, .failed f)

theorem outcome_eq {line : List Text} {c : Command} (h : ofLine? line = some (.command flag c))
    (t : Tree) : outcome ctx line t = conclude (effect t (perform ctx flag c)) := by
  rw [outcome, execute, h, effect, effectIn]
  dsimp only
  cases perform ctx flag c { tree := t } <;> rfl

theorem inTurn_cons {r : Except Failure Unit × Tree} {f : Tree → Except Failure Unit × Tree}
    {line : List Text} {rest : List (Clock × List Text)} {time : Clock}
    (h : outcome { ctx with stamp := time } line t = conclude r)
    (hrest : ∀ t, inTurn ctx rest t = conclude (f t)) :
    inTurn ctx ((time, line) :: rest) t = conclude (proceed r fun _ t => f t) := by
  rw [inTurn, h]
  obtain ⟨_ | _, t'⟩ := r
  · rfl
  · exact hrest t'

theorem inTurn_singleton {line : List Text} {time : Clock} :
    inTurn ctx [(time, line)] t = outcome { ctx with stamp := time } line t := by
  rw [inTurn]
  rcases outcome { ctx with stamp := time } line t with ⟨t', _ | _ | _⟩ <;> rfl

/-- To run the program is to run its stages one after another. -/
theorem run_is_stages_in_turn {line analyzeLine suggestLine applyLine : List Text}
    (hrun : ofLine? line =
      some (.command flag (.run vault analysis suggestions eagerness flags)))
    (hanalyze : ofLine? analyzeLine = some (.command flag (.analyze vault analysis)))
    (hsuggest : ofLine? suggestLine =
      some (.command flag (.suggest vault analysis suggestions eagerness)))
    (happly : ofLine? applyLine = some (.command flag (.apply vault suggestions flags)))
    (hanalysis : SparesSettings ctx flag vault t analysis)
    (hsuggestions : SparesSettings ctx flag vault t suggestions)
    (hcounts : CountsFit ctx flag vault t) (noon evening : Clock) :
    let stages := [(noon, analyzeLine), (evening, suggestLine), (ctx.stamp, applyLine)]
    outcome ctx line t = inTurn ctx stages t ∧
      ((outcome ctx line t).2.exitCode = 0 ↔ AllExitWithZero ctx stages t) := by
  intro stages
  -- Only the last stage tells the time.
  have hfirst (t : Tree) : outcome { ctx with stamp := noon } analyzeLine t =
      conclude (effect t (perform ctx flag (.analyze vault analysis))) := outcome_eq hanalyze t
  have hsecond (t : Tree) : outcome { ctx with stamp := evening } suggestLine t =
      conclude (effect t (perform ctx flag (.suggest vault analysis suggestions eagerness))) :=
    outcome_eq hsuggest t
  have hturn : outcome ctx line t = inTurn ctx stages t := by
    rw [outcome_eq hrun, effect_run_eq_stages hanalysis hsuggestions hcounts]
    exact (inTurn_cons (hfirst t) fun t₁ => inTurn_cons (hsecond t₁) fun t₂ =>
      inTurn_singleton.trans (outcome_eq happly t₂)).symm
  exact ⟨hturn, hturn ▸ exitCode_inTurn_eq_zero_iff stages t⟩

/-- Two notes on the same subject. -/
def notesOnSubject : Tree :=
  Vault.treeOf [("a.md".toList, "# A\n\nOn **Rust**.\n".toList),
    ("b.md".toList, "# B\n\nOn **Rust** too.\n".toList)]

theorem countsFit_notesOnSubject (clock : Clock) :
    CountsFit ⟨[], none, clock⟩ none ['.'] notesOnSubject := by
  intro s v hsettings hvault
  have hnone : Settings.load notesOnSubject [] none none (some ['.']) = .ok {} := by rfl
  have hfind : Vault.find notesOnSubject [] ['.'] = .ok ⟨['.'], []⟩ := by rfl
  obtain rfl := Except.ok.inj (hnone.symm.trans hsettings)
  obtain rfl := Except.ok.inj (hfind.symm.trans hvault)
  refine ⟨?_, ?_, ?_, ?_, ?_, ?_, ?_⟩ <;> decide +kernel

/-- The snapshot may take the place of one of the notes. -/
theorem run_over_note :
    let ctx : Context := ⟨[], none, "20240101_120000".toList⟩
    let a := "b.md".toList
    let s := "s.json".toList
    let line := ["run", ".", "--analysis", "b.md", "--suggestions", "s.json", "--backup"].map
      String.toList
    let analyzeLine := ["analyze", ".", "-o", "b.md"].map String.toList
    let suggestLine := ["suggest", ".", "-a", "b.md", "-o", "s.json"].map String.toList
    let applyLine := ["apply", ".", "-s", "s.json", "--backup"].map String.toList
    let stages := [(.still [], analyzeLine), (.still [], suggestLine), (ctx.stamp, applyLine)]
    (ofLine? line = some (.command none (.run ['.'] a s none { backup := true })) ∧
        ofLine? analyzeLine = some (.command none (.analyze ['.'] a)) ∧
        ofLine? suggestLine = some (.command none (.suggest ['.'] a s none)) ∧
        ofLine? applyLine = some (.command none (.apply ['.'] s { backup := true })) ∧
        SparesSettings ctx none ['.'] notesOnSubject a ∧
        SparesSettings ctx none ['.'] notesOnSubject s ∧ CountsFit ctx none ['.'] notesOnSubject) ∧
      outcome ctx line notesOnSubject = inTurn ctx stages notesOnSubject ∧
      ((outcome ctx line notesOnSubject).2.exitCode = 0 ↔
        AllExitWithZero ctx stages notesOnSubject) := by
  intro ctx a s line analyzeLine suggestLine applyLine stages
  have hspares {path : Text} (h : notesOnSubject.target? [] "./.vlb.toml".toList ≠
      notesOnSubject.target? [] path) : SparesSettings ctx none ['.'] notesOnSubject path := by
    intro source hsource place hplace
    obtain rfl := Option.some.inj hsource
    rw [← hplace]
    exact h
  have hrun : ofLine? line = some (.command none (.run ['.'] a s none { backup := true })) := by rfl
  have hanalyze : ofLine? analyzeLine = some (.command none (.analyze ['.'] a)) := by rfl
  have hsuggest : ofLine? suggestLine = some (.command none (.suggest ['.'] a s none)) := by rfl
  have happly : ofLine? applyLine = some (.command none (.apply ['.'] s { backup := true })) := by
    rfl
  have hanalysis : SparesSettings ctx none ['.'] notesOnSubject a := hspares (by decide +kernel)
  have hsuggestions : SparesSettings ctx none ['.'] notesOnSubject s := hspares (by decide +kernel)
  have hcounts := countsFit_notesOnSubject ctx.stamp
  exact ⟨⟨hrun, hanalyze, hsuggest, happly, hanalysis, hsuggestions, hcounts⟩,
    run_is_stages_in_turn hrun hanalyze hsuggest happly hanalysis hsuggestions hcounts _ _⟩

end NoteLinks.Command
