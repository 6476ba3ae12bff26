/-
# Keys lead to their notes

A note is known by its key: the names on the way to it from the vault's directory, with
slashes between them. By whatever path the vault is known, the key of a file is made of these
names alone, no two files have the same key, and followed from the vault's directory it leads
to the file again. So a key stays in the vault.
-/
import Mathlib.Data.List.Induction
import NoteLinks.Proofs.Text.Splitting
import NoteLinks.Vault.Apply

namespace NoteLinks

/-- The key of what stands below the vault's directory under these names. -/
abbrev keyOf (names : Place) : Text := Text.join ['/'] names

section Names

variable {names : Place}

theorem not_mem_of_isName {name : Text} (h : isName name = true) : '/' ∉ name := by
  simp only [isName, Bool.and_eq_true, List.all_eq_true, bne_iff_ne] at h
  exact fun hmem => h.2 '/' hmem rfl

theorem segments_keyOf (hne : names ≠ []) (h : ∀ name ∈ names, isName name = true) :
    Path.segments (keyOf names) = names :=
  Text.splitOn_join hne fun name hname => not_mem_of_isName (h name hname)

theorem keyOf_injective {names' : Place} (hne : names ≠ []) (hne' : names' ≠ [])
    (h : ∀ name ∈ names, isName name = true) (h' : ∀ name ∈ names', isName name = true)
    (heq : keyOf names = keyOf names') : names = names' := by
  rw [← segments_keyOf hne h, heq, segments_keyOf hne' h']

end Names

namespace Path

/-! ## Components -/

theorem ofSegment?_of_isName {name : Text} (h : isName name = true) :
    Component.ofSegment? name = some (.name name) := by
  simp only [isName, Bool.and_eq_true, Bool.not_eq_true', bne_iff_ne] at h
  obtain ⟨⟨⟨hempty, hdot⟩, hdots⟩, -⟩ := h
  simp [Component.ofSegment?, hempty, hdot, hdots]

theorem filterMap_ofSegment? {names : Place} (h : ∀ name ∈ names, isName name = true) :
    names.filterMap Component.ofSegment? = names.map Component.name := by
  rw [← List.filterMap_eq_map]
  exact List.filterMap_congr fun name hname => ofSegment?_of_isName (h name hname)

/-- A path has only the components of its segments, unless it starts at the root or with the
directory that one works in. -/
theorem components_eq_filterMap {path : Text} (hroot : ∀ t, path ≠ '/' :: t)
    (hdot : path ≠ ['.']) (hhere : ∀ t, path ≠ '.' :: '/' :: t) :
    components path = (segments path).filterMap Component.ofSegment? := by
  unfold components
  split
  next t => exact absurd rfl (hroot t)
  next => exact absurd rfl hdot
  next t => exact absurd rfl (hhere t)
  next => rfl

/-- What follows a slash adds the components of its segments. -/
theorem components_append {x : Text} (hx : x ≠ []) (y : Text) :
    components (x ++ '/' :: y) = components x ++ (segments y).filterMap Component.ofSegment? := by
  have hadded : (segments (x ++ '/' :: y)).filterMap Component.ofSegment? =
      (segments x).filterMap Component.ofSegment? ++
        (segments y).filterMap Component.ofSegment? := by
    rw [segments, Text.splitOn_append_cons, List.filterMap_append]
    rfl
  -- The two paths start alike.
  have hlead (first : Component)
      (hfirst : components x = first :: (segments x).filterMap Component.ofSegment?)
      (hboth : components (x ++ '/' :: y) =
        first :: (segments (x ++ '/' :: y)).filterMap Component.ofSegment?) :
      components (x ++ '/' :: y) =
        components x ++ (segments y).filterMap Component.ofSegment? := by
    rw [hfirst, hboth, hadded, List.cons_append]
  obtain ⟨c, x, rfl⟩ := List.exists_cons_of_ne_nil hx
  by_cases hroot : c = '/'
  · subst hroot
    exact hlead .root rfl rfl
  · by_cases hhere : c = '.' ∧ (x = [] ∨ ∃ t, x = '/' :: t)
    · obtain ⟨rfl, rfl | ⟨t, rfl⟩⟩ := hhere
      · exact hlead .here rfl rfl
      · exact hlead .here rfl rfl
    · rw [components_eq_filterMap, components_eq_filterMap, hadded]
      · simpa using hroot
      · rintro ⟨rfl, rfl⟩
        exact hhere ⟨rfl, .inl rfl⟩
      · rintro t ⟨rfl, rfl⟩
        exact hhere ⟨rfl, .inr ⟨t, rfl⟩⟩
      · simpa using hroot
      · simp
      · intro t heq
        obtain ⟨rfl, htail⟩ := List.cons.inj heq
        refine hhere ⟨rfl, ?_⟩
        cases x with
        | nil => exact .inl rfl
        | cons d x => exact .inr ⟨x, congrArg (· :: x) (List.cons.inj htail).1⟩

theorem components_keyOf {names : Place} (hne : names ≠ [])
    (h : ∀ name ∈ names, isName name = true) :
    components (keyOf names) = names.map Component.name := by
  have hsegments := segments_keyOf hne h
  have hfirst {first : Text} {rest : List Text} (heq : names = first :: rest) :
      isName first = true := h first (heq ▸ List.mem_cons_self)
  rw [components_eq_filterMap, hsegments, filterMap_ofSegment? h]
  · intro t heq
    rw [heq, segments, Text.splitOn_cons_self] at hsegments
    cases hfirst hsegments.symm
  · intro heq
    rw [heq] at hsegments
    cases hfirst hsegments.symm
  · intro t heq
    have hdot : segments ('.' :: '/' :: t) = ['.'] :: Text.splitOn '/' t :=
      Text.splitOn_append_cons '/' ['.'] t
    rw [heq, hdot] at hsegments
    cases hfirst hsegments.symm

theorem components_below {names : Place} (dir : Text) (hne : names ≠ [])
    (h : ∀ name ∈ names, isName name = true) :
    components (below dir (keyOf names)) = components dir ++ names.map Component.name := by
  have hkey := components_keyOf hne h
  have hsegments := segments_keyOf hne h
  unfold below
  split
  next t ht =>
    rw [ht, segments, Text.splitOn_cons_self] at hsegments
    cases h [] (hsegments ▸ List.mem_cons_self)
  next =>
    split
    next hdir =>
      rw [Bool.or_eq_true, List.isEmpty_iff, beq_iff_eq] at hdir
      rcases hdir with rfl | hlast
      · rw [List.nil_append, hkey]
        rfl
      · obtain ⟨start, rfl⟩ := List.getLast?_eq_some_iff.mp hlast
        have hbelow := congrArg components (List.append_cons start '/' (keyOf names)).symm
        cases start with
        | nil =>
            have hroot : components ('/' :: keyOf names) =
                .root :: (segments ('/' :: keyOf names)).filterMap Component.ofSegment? := rfl
            have hempty : segments ('/' :: keyOf names) = [] :: segments (keyOf names) :=
              Text.splitOn_cons_self '/' (keyOf names)
            show components ('/' :: keyOf names) = _
            rw [hroot, hempty, List.filterMap_cons_none rfl, hsegments, filterMap_ofSegment? h]
            rfl
        | cons c start =>
            have hslash : components (c :: start ++ ['/']) = components (c :: start) := by
              rw [components_append (List.cons_ne_nil _ _)]
              simp [segments, Text.splitOn, Component.ofSegment?]
            rw [hslash, hbelow, components_append (List.cons_ne_nil _ _), hsegments,
              filterMap_ofSegment? h]
    next hdir =>
      rw [Bool.or_eq_true, not_or] at hdir
      rw [components_append (by simpa using hdir.1), hsegments, filterMap_ofSegment? h]

theorem dropComponents?_append (cs added : List Component) :
    dropComponents? cs (cs ++ added) = some added := by
  induction cs with
  | nil => rfl
  | cons c cs ih => rw [List.cons_append, dropComponents?, if_pos rfl, ih]

end Path

namespace Tree

/-! ## Names that lead to a place -/

variable {t : Tree} {place names : Place}

theorem isName_of_isSome (h : (t.find? (place ++ names)).isSome) :
    ∀ name ∈ names, isName name = true := by
  have hall := t.named _ h
  rw [List.all_append, Bool.and_eq_true] at hall
  exact List.all_eq_true.mp hall.2

/-- What is on the way to a place is there. -/
theorem isSome_of_append (h : (t.find? (place ++ names)).isSome) : (t.find? place).isSome := by
  induction names using List.reverseRecOn with
  | nil => rwa [List.append_nil] at h
  | append_singleton names name ih =>
      rw [← List.append_assoc] at h
      refine ih ?_
      rw [find?, t.rooted _ _ h]
      rfl

theorem follow_names (h : (t.find? (place ++ names)).isSome) :
    t.follow place names = .ok (place ++ names) := by
  induction names generalizing place with
  | nil => rw [follow, List.append_nil]
  | cons name names ih =>
      have hname := isName_of_isSome h name List.mem_cons_self
      simp only [isName, Bool.and_eq_true, Bool.not_eq_true', bne_iff_ne] at hname
      obtain ⟨⟨⟨hempty, hdot⟩, hdots⟩, -⟩ := hname
      have happend : place ++ name :: names = place ++ [name] ++ names := by simp
      rw [happend] at h ⊢
      have hsome := isSome_of_append h
      have hdir : t.isDirectory place = true := decide_eq_true (t.rooted place name hsome)
      rw [follow, hdir, hsome, ih h]
      simp [hempty, hdot, hdots]

end Tree

namespace Vault

/-- The key of a file does not depend on the path by which the vault is known. -/
theorem key?_eq (v : Vault) {names : Place} (hne : names ≠ [])
    (h : ∀ name ∈ names, isName name = true) : v.key? names = some (keyOf names) := by
  have hnames : (names.map Path.Component.name).filterMap Path.Component.name? = names := by
    rw [List.filterMap_map]
    exact List.filterMap_some
  rw [key?, pathOf, Path.key?, Path.components_below v.path hne h, Path.dropComponents?_append]
  simp only [hnames]
  rw [if_neg (by simpa using hne)]

/-- The key of a file stays in the vault. -/
theorem admits_keyOf {names : Place} (hne : names ≠ [])
    (h : ∀ name ∈ names, isName name = true) : admits (keyOf names) = true := by
  have hkey : keyOf names ≠ [] := by
    intro hnil
    have hsegments := segments_keyOf hne h
    rw [hnil] at hsegments
    cases h [] (hsegments ▸ List.mem_cons_self)
  rw [admits, Path.components_keyOf hne h]
  simpa using hkey

/-- The key of what is there leads to it. -/
theorem locate_keyOf {t : Tree} {v : Vault} {names : Place} (hne : names ≠ [])
    (h : (t.find? (v.place ++ names)).isSome) :
    v.locate t (keyOf names) = .ok (v.place ++ names) := by
  rw [locate, segments_keyOf hne (Tree.isName_of_isSome h), Tree.follow_names h]

end Vault

end NoteLinks
