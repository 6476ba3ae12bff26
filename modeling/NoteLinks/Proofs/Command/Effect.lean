/-
# What commands do to the tree

What has been printed is never looked at. So an action can be taken for a function on trees, and a
sequence of actions for the composition of these functions, up to the first failure.
-/
import NoteLinks.Command.Run

namespace NoteLinks.Command

variable {α β ε : Type}

/-- How an action ends when it starts in a session, and the tree that it leaves. -/
def effectIn (session : Session) (a : Action α) : Except Failure α × Tree :=
  match a session with
  | .ok x session => (.ok x, session.tree)
  | .error f session => (.error f, session.tree)

/-- How an action ends, and the tree that it leaves. -/
def effect (t : Tree) (a : Action α) : Except Failure α × Tree := effectIn { tree := t } a

/-- An action that does not look at what has been printed. -/
def Blind (a : Action α) : Prop := ∀ t printed, effectIn ⟨t, printed⟩ a = effect t a

/-- What follows an action is done in the tree that it leaves, unless it fails. -/
def proceed (result : Except Failure α × Tree) (f : α → Tree → Except Failure β × Tree) :
    Except Failure β × Tree :=
  match result with
  | (.ok x, t) => f x t
  | (.error e, t) => (.error e, t)

@[simp]
theorem proceed_ok (x : α) (t : Tree) (f : α → Tree → Except Failure β × Tree) :
    proceed (.ok x, t) f = f x t := rfl

@[simp]
theorem proceed_error (e : Failure) (t : Tree) (f : α → Tree → Except Failure β × Tree) :
    proceed (.error e, t) f = (.error e, t) := rfl

section Blind

variable {a : Action α} {f : α → Action β} {g : Tree → Action β} {t : Tree}

theorem effectIn_bind (hf : ∀ x, Blind (f x)) (session : Session) :
    effectIn session (a >>= f) = proceed (effectIn session a) fun x t => effect t (f x) := by
  rw [effectIn, effectIn]
  simp only [bind, EStateM.bind]
  cases a session with
  | ok x session => exact hf x session.tree session.printed
  | error e session => rfl

theorem effect_bind (hf : ∀ x, Blind (f x)) (t : Tree) :
    effect t (a >>= f) = proceed (effect t a) fun x t => effect t (f x) := effectIn_bind hf _

theorem Blind.bind (ha : Blind a) (hf : ∀ x, Blind (f x)) : Blind (a >>= f) := fun t printed => by
  rw [effectIn_bind hf, effect_bind hf, ha]

theorem Blind.pure (x : α) : Blind (pure x) := fun _ _ => rfl

theorem Blind.throw (e : Failure) : Blind (throw e : Action α) := fun _ _ => rfl

theorem Blind.print (text : Text) : Blind (print text) := fun _ _ => rfl

theorem Blind.orFail (failure : ε → Failure) (result : Except ε α) :
    Blind (orFail failure result) := by
  cases result with
  | ok x => exact .pure x
  | error e => exact .throw _

/-- Of a session the tree may be looked at. -/
theorem Blind.ofSession {f : Session → Action β}
    (hf : ∀ t printed, effectIn ⟨t, printed⟩ (f ⟨t, printed⟩) = effect t (f ⟨t, []⟩)) :
    Blind (get >>= f) := hf

theorem Blind.modifyTree (t : Tree) : Blind (modify fun session => { session with tree := t }) :=
  fun _ _ => rfl

theorem Blind.change (failure : ε → Failure) (f : Tree → Except ε Tree) :
    Blind (change failure f) := by
  have hwrite (t : Tree) : Blind (Command.orFail failure (f t) >>= fun tree =>
      modify fun session => { session with tree := tree }) :=
    (Blind.orFail failure (f t)).bind fun tree => .modifyTree tree
  exact .ofSession fun t => hwrite t t

end Blind

/-! ## The effects of actions -/

section Effects

variable {t : Tree}

theorem effect_print (text : Text) : effect t (print text) = (.ok (), t) := rfl

theorem effect_pure (x : α) : effect t (pure x : Action α) = (.ok x, t) := rfl

theorem effect_orFail (failure : ε → Failure) (result : Except ε α) (t : Tree) :
    effect t (orFail failure result) = (result.mapError failure, t) := by
  cases result <;> rfl

end Effects

/-! ## What has succeeded -/

section Success

variable {a : Action α} {f : α → Action β} {session session' : Session} {x : α} {y : β}
  {t t' : Tree} {failure : ε → Failure}

theorem exists_session_of_effect (h : effect t a = (.ok x, t')) :
    ∃ session, a { tree := t } = .ok x session ∧ session.tree = t' := by
  rw [effect, effectIn] at h
  split at h
  next y session heq =>
    cases h
    exact ⟨session, heq, rfl⟩
  next => cases h

/-- If two actions have succeeded one after the other, then both have. -/
theorem exists_of_bind (h : (a >>= f) session = .ok y session') :
    ∃ x session₁, a session = .ok x session₁ ∧ f x session₁ = .ok y session' := by
  simp only [bind, EStateM.bind] at h
  split at h
  next x session₁ heq => exact ⟨x, session₁, heq, h⟩
  next => cases h

theorem orFail_eq_ok {result : Except ε α} (h : orFail failure result session = .ok x session') :
    result = .ok x ∧ session = session' := by
  cases result with
  | ok x =>
      cases h
      exact ⟨rfl, rfl⟩
  | error e => cases h

theorem exists_of_orFail {result : Except ε α}
    (h : (orFail failure result >>= f) session = .ok y session') :
    ∃ x, result = .ok x ∧ f x session = .ok y session' := by
  obtain ⟨x, _, hfail, h⟩ := exists_of_bind h
  obtain ⟨hresult, rfl⟩ := orFail_eq_ok hfail
  exact ⟨x, hresult, h⟩

theorem change_eq_ok {f : Tree → Except ε Tree} {u : Unit}
    (h : change failure f session = .ok u session') : f session.tree = .ok session'.tree := by
  obtain ⟨_, _, hget, h⟩ := exists_of_bind h
  cases hget
  obtain ⟨t', htree, h⟩ := exists_of_orFail h
  cases h
  exact htree

end Success

/-! ## What has failed -/

section Failed

variable {a : Action α} {f : α → Action β} {session session' : Session} {e : Failure}
  {t t' : Tree} {failure : ε → Failure}

theorem exists_session_of_failed (h : effect t a = (.error e, t')) :
    ∃ session, a { tree := t } = .error e session ∧ session.tree = t' := by
  rw [effect, effectIn] at h
  split at h
  next => cases h
  next e session heq =>
    cases h
    exact ⟨session, heq, rfl⟩

/-- If one action after another has failed, then the first one has, or the second one after the
first has succeeded. -/
theorem failed_of_bind (h : (a >>= f) session = .error e session') :
    a session = .error e session' ∨
      ∃ x session₁, a session = .ok x session₁ ∧ f x session₁ = .error e session' := by
  simp only [bind, EStateM.bind] at h
  split at h
  next x session₁ heq => exact .inr ⟨x, session₁, heq, h⟩
  next heq =>
    cases h
    exact .inl heq

theorem orFail_eq_error {result : Except ε α}
    (h : orFail failure result session = .error e session') :
    session' = session ∧ ∃ cause, result = .error cause ∧ e = failure cause := by
  cases result with
  | ok x => cases h
  | error cause =>
      cases h
      exact ⟨rfl, cause, rfl, rfl⟩

theorem failed_of_orFail {result : Except ε α}
    (h : (orFail failure result >>= f) session = .error e session') :
    (session' = session ∧ ∃ cause, result = .error cause ∧ e = failure cause) ∨
      ∃ x, result = .ok x ∧ f x session = .error e session' := by
  rcases failed_of_bind h with hfail | ⟨x, _, hfail, h⟩
  · exact .inl (orFail_eq_error hfail)
  · obtain ⟨hresult, rfl⟩ := orFail_eq_ok hfail
    exact .inr ⟨x, hresult, h⟩

/-- A look at the session does not fail. -/
theorem failed_of_get {f : Session → Action β} (h : (get >>= f) session = .error e session') :
    f session session = .error e session' := h

/-- What cannot be written leaves the tree as it is. -/
theorem change_eq_error {f : Tree → Except ε Tree}
    (h : change failure f session = .error e session') :
    session' = session ∧ ∃ cause, f session.tree = .error cause ∧ e = failure cause := by
  rcases failed_of_orFail (failed_of_get h) with hfail | ⟨t', -, h⟩
  · exact hfail
  · cases h

end Failed

/-! ## The stages -/

section Stages

variable {ctx : Context} {s : Settings} {snapshot : Snapshot} {m : SuggestionMap}
  {vault output : Text} {flag : Option Text} {t : Tree}

theorem effect_loadSettings (ctx : Context) (flag : Option Text) (vault : Text) (t : Tree) :
    effect t (loadSettings ctx flag vault) =
      ((Settings.load t ctx.here flag ctx.settingsPath (some vault)).mapError .settings, t) :=
  effect_orFail ..

theorem blind_analyzeVault : Blind (analyzeVault ctx s vault output) := by
  refine .ofSession fun t => ?_
  dsimp only
  exact ((Blind.orFail _ _).bind fun v => (Blind.change _ _).bind fun _ =>
    (Blind.print _).bind fun _ => .pure _) t

theorem blind_makeSuggestions {eagerness : Option Eagerness} :
    Blind (makeSuggestions ctx s snapshot output eagerness) := by
  refine (Blind.orFail _ _).bind fun eagerness => (Blind.orFail _ _).bind fun thresholds => ?_
  split
  next => exact .throw _
  next => exact (Blind.change _ _).bind fun _ => (Blind.print _).bind fun _ => .pure _

theorem blind_applySuggestions {flags : ApplyFlags} :
    Blind (applySuggestions ctx s vault m flags) := by
  refine (Blind.orFail _ _).bind fun floor => (Blind.orFail _ _).bind fun format => ?_
  refine .ofSession fun t => ?_
  dsimp only
  exact ((Blind.orFail _ _).bind fun v => (Blind.modifyTree _).bind fun _ => .print _) t

theorem blind_readSuggestions : Blind (readSuggestions ctx output) := by
  refine .ofSession fun t => ?_
  dsimp only
  refine ((Blind.orFail _ _).bind fun text => ?_) t
  split
  next => exact .pure _
  next => exact .throw _

theorem exists_snapshot_of_analyzeVault {t' : Tree}
    (h : effect t (analyzeVault ctx s vault output) = (.ok snapshot, t')) :
    ∃ v, Vault.find t ctx.here vault = .ok v ∧ snapshot = v.analyze t s.excluded ∧
      snapshot.save t ctx.here output = .ok t' := by
  obtain ⟨session, hrun, rfl⟩ := exists_session_of_effect h
  obtain ⟨_, _, hget, hrun⟩ := exists_of_bind hrun
  cases hget
  obtain ⟨v, hfind, hrun⟩ := exists_of_orFail hrun
  obtain ⟨_, _, hsave, hrun⟩ := exists_of_bind hrun
  obtain ⟨_, _, hprint, hrun⟩ := exists_of_bind hrun
  cases hrun
  cases hprint
  exact ⟨v, hfind, rfl, change_eq_ok hsave⟩

theorem exists_thresholds_of_makeSuggestions {eagerness : Option Eagerness} {t' : Tree}
    (h : effect t (makeSuggestions ctx s snapshot output eagerness) = (.ok m, t')) :
    ∃ thresholds, m = snapshot.suggestions thresholds ∧ m.save t ctx.here output = .ok t' := by
  obtain ⟨session, hrun, rfl⟩ := exists_session_of_effect h
  obtain ⟨_, -, hrun⟩ := exists_of_orFail hrun
  obtain ⟨thresholds, -, hrun⟩ := exists_of_orFail hrun
  cases hdangling : snapshot.dangling? with
  | some reference =>
      simp only [hdangling] at hrun
      cases hrun
  | none =>
      simp only [hdangling] at hrun
      obtain ⟨_, _, hsave, hrun⟩ := exists_of_bind hrun
      obtain ⟨_, _, hprint, hrun⟩ := exists_of_bind hrun
      cases hrun
      cases hprint
      exact ⟨thresholds, rfl, change_eq_ok hsave⟩

end Stages

end NoteLinks.Command
