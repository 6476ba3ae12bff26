/-
# Files beside a file

The path of another file in the same directory is made from the path of the first one by its
text alone. On the way some segments that lead nowhere are left out, so the two paths need not
agree in front of the names. Still they lead to the same directory: what is left out stands
at the end, where there is nothing to be missed.
-/
import NoteLinks.Proofs.Text.Cutting
import NoteLinks.Proofs.Tree.Following

namespace NoteLinks

namespace Path

variable {path last name : Text} {above : List Text}

/-! ## Names -/

theorem fileName_of_segments (h : segments path = above ++ [last]) : fileName path = last := by
  rw [fileName]
  split
  next dir name hcut =>
    obtain ⟨rfl, hname⟩ := Text.cutLast?_eq_some_iff.mp hcut
    rw [segments, Text.splitOn_append_cons, Text.splitOn_of_not_mem hname] at h
    exact (List.cons.inj (List.append_inj' h rfl).2).1
  next hnone =>
    rw [segments, Text.splitOn_of_not_mem (Text.cutLast?_eq_none_iff.mp hnone)] at h
    have hsingle : [] ++ [path] = above ++ [last] := h
    exact (List.cons.inj (List.append_inj' hsingle rfl).2).1

/-! ## Segments of the other path -/

/-- Segments without the ones at the end that lead nowhere. -/
theorem exists_idle_end (segments : List Text) :
    ∃ idle, segments = (segments.reverse.dropWhile isIdle).reverse ++ idle ∧
      ∀ s ∈ idle, isIdle s = true := by
  refine ⟨(segments.reverse.takeWhile isIdle).reverse, ?_, ?_⟩
  · rw [← List.reverse_append, List.takeWhile_append_dropWhile, List.reverse_reverse]
  · intro s hs
    exact List.mem_takeWhile_imp (List.mem_reverse.mp hs)

theorem sibling_eq_join (path name : Text) :
    sibling path name = Text.join ['/'] ((segments path).dropLast.take 1 ++
      (((segments path).dropLast.drop 1).reverse.dropWhile isIdle).reverse ++ [name]) := by
  have hidle : isIdle = fun s : Text => s.isEmpty || s == ['.'] := rfl
  rw [sibling, hidle]
  split
  next hroot =>
    rw [hroot]
    rfl
  next => rfl

theorem segments_sibling (h : segments path = above ++ [last]) (hne : above ≠ [])
    (hname : '/' ∉ name) :
    ∃ kept idle, above = kept ++ idle ∧ kept ≠ [] ∧ (∀ s ∈ idle, isIdle s = true) ∧
      segments (sibling path name) = kept ++ [name] := by
  obtain ⟨first, rest, rfl⟩ := List.exists_cons_of_ne_nil hne
  obtain ⟨idle, hrest, hidle⟩ := exists_idle_end rest
  refine ⟨first :: (rest.reverse.dropWhile isIdle).reverse, idle, ?_, List.cons_ne_nil _ _, hidle,
    ?_⟩
  · rw [List.cons_append, ← hrest]
  · have hpieces : ∀ piece ∈ first :: (rest.reverse.dropWhile isIdle).reverse ++ [name],
        '/' ∉ piece := by
      intro piece hpiece
      rcases List.mem_append.mp hpiece with hpiece | hpiece
      · have hmem : piece ∈ segments path := by
          rw [h, hrest, ← List.cons_append, List.append_assoc]
          exact List.mem_append_left _ hpiece
        exact Text.not_mem_of_mem_splitOn hmem
      · obtain rfl := List.mem_singleton.mp hpiece
        exact hname
    have hsibling : sibling path name =
        Text.join ['/'] (first :: (rest.reverse.dropWhile isIdle).reverse ++ [name]) := by
      rw [sibling_eq_join, h, List.dropLast_concat]
      rfl
    rw [hsibling, segments]
    exact Text.splitOn_join (by simp) hpieces

/-! ## Paths of what is below a directory -/

/-- The segments of a path below a directory are those of the two paths, apart from one that
leads nowhere. -/
theorem exists_segments_below {dir : Text} (hdir : dir ≠ []) (hpath : path.head? ≠ some '/') :
    ∃ front slash, front ≠ [] ∧ segments dir = front ++ slash ∧
      (∀ s ∈ slash, isIdle s = true) ∧ segments (below dir path) = front ++ segments path ∧
      ∃ behind, below dir path = dir ++ behind := by
  unfold below
  split
  next rest => exact absurd rfl hpath
  next =>
    split
    next hend =>
      rw [Bool.or_eq_true, List.isEmpty_iff, beq_iff_eq] at hend
      obtain ⟨start, rfl⟩ := List.getLast?_eq_some_iff.mp (hend.resolve_left hdir)
      refine ⟨segments start, [[]], Text.splitOn_ne_nil '/' start,
        Text.splitOn_append_cons '/' start [], by simp [isIdle], ?_, path, rfl⟩
      rw [List.append_assoc, List.singleton_append]
      exact Text.splitOn_append_cons '/' start path
    next =>
      exact ⟨segments dir, [], Text.splitOn_ne_nil '/' dir, (List.append_nil _).symm, by simp,
        Text.splitOn_append_cons '/' dir path, '/' :: path, rfl⟩

end Path

namespace Tree

open NoteLinks.Path (segments isIdle)

variable {t : Tree} {here place dir q : Place} {path path' name last : Text}
  {before idle : List Text}

theorem follow_append_idle (hidle : ∀ s ∈ idle, isIdle s = true)
    (h : t.follow place (before ++ idle) = .ok q) : t.follow place before = .ok q := by
  induction idle generalizing before with
  | nil => rwa [List.append_nil] at h
  | cons s idle ih =>
      obtain ⟨hs, hrest⟩ := List.forall_mem_cons.mp hidle
      rw [List.append_cons] at h
      obtain ⟨p, hbefore, hlast⟩ := exists_follow_of_append (ih hrest h)
      cases hdir : t.isDirectory p with
      | false =>
          rw [follow_cons_of_not_isDirectory hdir] at hlast
          cases hlast
      | true =>
          rw [follow_cons_of_idle hdir hs, follow] at hlast
          rwa [← Except.ok.inj hlast]

/-! ## Where a path starts -/

theorem start_append (hne : path ≠ []) (behind : Text) :
    start here (path ++ behind) = start here path := by
  obtain ⟨c, path, rfl⟩ := List.exists_cons_of_ne_nil hne
  by_cases hc : c = '/'
  · rw [hc]
    rfl
  · simp [start, hc]

/-- If there are several segments, the first one shows where a path starts. -/
theorem start_eq {first second : Text} {rest : List Text}
    (h : segments path = first :: second :: rest) :
    start here path = if first = [] then [] else here := by
  cases path with
  | nil => cases h
  | cons c path =>
      by_cases hc : c = '/'
      · rw [hc, segments, Text.splitOn_cons_self] at h
        rw [hc, if_pos (List.cons.inj h).1.symm]
        rfl
      · obtain ⟨b, behind, hpieces⟩ := Text.exists_splitOn_eq_cons '/' path
        rw [segments, Text.splitOn_cons_of_ne hc hpieces] at h
        rw [if_neg]
        · simp [start, hc]
        · rw [← (List.cons.inj h).1]
          exact List.cons_ne_nil _ _

/-! ## Where a path leads -/

theorem locate_of_ne_nil (hne : path ≠ []) :
    t.locate here path = t.follow (start here path) (segments path) := by
  rw [locate, if_neg]
  simpa using hne

theorem ne_nil_of_locate (h : t.locate here path = .ok place) : path ≠ [] := by
  rintro rfl
  cases h

/-- A path below a directory leads on from the directory. -/
theorem locate_below {path' : Text} (hdir : t.locate here path = .ok dir)
    (hpath : path'.head? ≠ some '/') :
    t.locate here (Path.below path path') = t.follow dir (segments path') := by
  have hne := ne_nil_of_locate hdir
  obtain ⟨front, slash, -, hsegments, hslash, hbelow, behind, heq⟩ :=
    Path.exists_segments_below hne hpath
  rw [locate_of_ne_nil hne, hsegments] at hdir
  have hne' : Path.below path path' ≠ [] := by
    rw [heq]
    exact List.append_ne_nil_of_left_ne_nil hne _
  rw [locate_of_ne_nil hne', hbelow, heq, start_append hne, follow_append,
    follow_append_idle hslash hdir]
  rfl

/-- The path of another file in the directory of what is at the end of a path leads there. -/
theorem locate_sibling {above : List Text} (hplace : t.locate here path = .ok (dir ++ [last]))
    (hsegments : segments path = above ++ [last]) (habove : above ≠ [])
    (hlast : isName last = true) (hname : isName name = true)
    (hthere : (t.find? (dir ++ [name])).isSome) :
    t.locate here (Path.sibling path name) = .ok (dir ++ [name]) := by
  have hup (n : Text) (hn : isName n = true) : n ≠ ['.', '.'] := by
    rintro rfl
    cases hn
  obtain ⟨kept, idle, hkept, hne, hidle, hsibling⟩ :=
    Path.segments_sibling hsegments habove (not_mem_of_isName hname)
  -- Both paths start in the same directory.
  have hstart : start here (Path.sibling path name) = start here path := by
    obtain ⟨first, kept, rfl⟩ := List.exists_cons_of_ne_nil hne
    have hcons (first : Text) (rest : List Text) (last : Text) :
        ∃ second rest', first :: rest ++ [last] = first :: second :: rest' := by
      cases rest with
      | nil => exact ⟨last, [], rfl⟩
      | cons second rest => exact ⟨second, rest ++ [last], rfl⟩
    obtain ⟨second, rest, hpath⟩ := hcons first (kept ++ idle) last
    obtain ⟨second', rest', hother⟩ := hcons first kept name
    rw [hkept, List.cons_append, hpath] at hsegments
    rw [hother] at hsibling
    rw [start_eq hsegments, start_eq hsibling]
  -- The directory is where the first path gets to in front of its last name.
  have hdir : t.follow (start here path) above = .ok dir := by
    rw [locate_of_ne_nil (ne_nil_of_locate hplace), hsegments] at hplace
    obtain ⟨p, habove, hend⟩ := exists_follow_of_append hplace
    cases hp : t.isDirectory p with
    | false =>
        rw [follow_cons_of_not_isDirectory hp] at hend
        cases hend
    | true =>
        rw [follow_cons_name hp (Path.isIdle_of_isName hlast) (hup last hlast)] at hend
        split at hend
        next =>
          rw [follow] at hend
          rwa [← (List.append_inj' (Except.ok.inj hend) rfl).1]
        next => cases hend
  have hisdir : t.isDirectory dir = true := isDirectory_of_append_cons hthere
  have hne' : Path.sibling path name ≠ [] := by
    intro hnil
    rw [hnil] at hsibling
    have hsingle : [] ++ [[]] = kept ++ [name] := hsibling
    obtain ⟨rfl, -⟩ := List.append_inj' hsingle rfl
    exact hne rfl
  rw [hkept] at hdir
  rw [locate_of_ne_nil hne', hstart, hsibling, follow_append, follow_append_idle hidle hdir]
  show t.follow dir [name] = _
  rw [follow_cons_name hisdir (Path.isIdle_of_isName hname) (hup name hname), if_pos hthere, follow]

end Tree

end NoteLinks
