/-
# Paths as texts

A path ends in the name of a file, and the name in an extension, or not. When a path is put into
lower case, its separators and dots stay where they are and no others appear, and the extension of
notes comes from no letters but its own. So the last segment and the stem of a path in lower case
are the forms that these parts have within the path. Only the stem may have another form by itself,
where it ends a word with a capital sigma and the extension goes on with a letter.
-/
import NoteLinks.Path
import NoteLinks.Proofs.Text.Cutting
import NoteLinks.Proofs.Text.Lowering

namespace NoteLinks.Path

/-! ## Names of files -/

theorem fileName_suffix (path : Text) : fileName path <:+ path := by
  rw [fileName]
  split
  next dir name hcut =>
    obtain ⟨rfl, -⟩ := Text.cutLast?_eq_some_iff.mp hcut
    exact ⟨dir ++ ['/'], by rw [List.append_assoc, List.singleton_append]⟩
  next => exact List.suffix_refl path

/-- An end of a path without a slash is an end of its last segment. -/
theorem suffix_fileName {path ending : Text} (h : ending <:+ path) (hslash : '/' ∉ ending) :
    ending <:+ fileName path := by
  rw [fileName]
  split
  next dir name hcut =>
    obtain ⟨rfl, -⟩ := Text.cutLast?_eq_some_iff.mp hcut
    rcases List.suffix_or_suffix_of_suffix h (List.suffix_append dir ('/' :: name)) with
      hend | hend
    · rcases List.suffix_cons_iff.mp hend with rfl | hend
      · exact absurd List.mem_cons_self hslash
      · exact hend
    · exact absurd (hend.subset List.mem_cons_self) hslash
  next => exact h

/-- What follows the stem in the last segment of a path. -/
def stemEnd (path : Text) : Text := (fileName path).drop (stem path).length

theorem nameStem_isPrefix (name : Text) : nameStem name <+: name := by
  rw [nameStem]
  split
  next stem ext hcut =>
    split
    next => exact List.prefix_refl name
    next => exact ⟨'.' :: ext, (Text.eq_append_of_cutLast? hcut).symm⟩
  next => exact List.prefix_refl name

/-- The stem of a name ends at the last dot, if there is anything in front of it. -/
theorem nameStem_append_dot {base ext : Text} (hbase : base ≠ []) (hext : '.' ∉ ext) :
    nameStem (base ++ '.' :: ext) = base := by
  have hcut : Text.cutLast? '.' (base ++ '.' :: ext) = some (base, ext) :=
    Text.cutLast?_eq_some_iff.mpr ⟨rfl, hext⟩
  rw [nameStem, hcut]
  simp [hbase]

theorem nameStem_dot_cons {ext : Text} (hext : '.' ∉ ext) : nameStem ('.' :: ext) = '.' :: ext := by
  have hcut : Text.cutLast? '.' ('.' :: ext) = some ([], ext) :=
    Text.cutLast?_eq_some_iff.mpr ⟨rfl, hext⟩
  rw [nameStem, hcut]
  rfl

/-- A file that has a name has a stem. -/
theorem stem_ne_nil {path : Text} (h : fileName path ≠ []) : stem path ≠ [] := by
  rw [stem, nameStem]
  split
  next =>
    split
    next => exact h
    next hempty => simpa using hempty
  next => exact h

theorem stem_append_stemEnd (path : Text) : stem path ++ stemEnd path = fileName path := by
  have hprefix : stem path <+: fileName path := nameStem_isPrefix (fileName path)
  rw [stemEnd]
  exact List.prefix_iff_eq_append.mp hprefix

/-! ## Lower case -/

theorem lower_append_slash (dir name : Text) :
    Text.lower (dir ++ '/' :: name) = Text.lower dir ++ '/' :: Text.lower name := by
  rw [Text.lower_append, Text.lowerBefore_of_not_cased (Text.cased_slash_cons name),
    Text.lowerFrom_eq, Text.lowerBetween_cons, Text.lowerAt_of_lt (by decide), ← Text.lowerFrom_eq,
    Text.lowerFrom_of_not_cased (Text.cased_slash_cons _)]
  rfl

theorem fileName_lower (path : Text) : fileName (Text.lower path) = Text.lower (fileName path) := by
  rw [fileName, fileName]
  cases hcut : Text.cutLast? '/' path with
  | none =>
      have hslash : '/' ∉ Text.lower path := by
        rw [Text.mem_lower_iff (by decide) (by decide)]
        exact Text.cutLast?_eq_none_iff.mp hcut
      rw [Text.cutLast?_eq_none_iff.mpr hslash]
  | some cut =>
      obtain ⟨dir, name⟩ := cut
      obtain ⟨rfl, hname⟩ := Text.cutLast?_eq_some_iff.mp hcut
      have hslash : '/' ∉ Text.lower name := by
        rwa [Text.mem_lower_iff (by decide) (by decide)]
      rw [Text.cutLast?_eq_some_iff.mpr ⟨lower_append_slash dir name, hslash⟩]

theorem lower_append_dot (t u : Text) : ∃ v, Text.lower (t ++ '.' :: u) =
    Text.lowerBefore ('.' :: u) t ++ '.' :: v ∧ ('.' ∉ u → '.' ∉ v) := by
  refine ⟨Text.lowerBetween ('.' :: t.reverse) [] u, ?_, ?_⟩
  · rw [Text.lower_append, Text.lowerFrom_eq, Text.lowerBetween_cons,
      Text.lowerAt_of_lt (by decide)]
    rfl
  · intro hdot
    rwa [Text.mem_lowerBetween_iff (by decide) (by decide)]

/-- The stem of a name in lower case has the form that the stem has in front of the rest. -/
theorem nameStem_lower (name : Text) : nameStem (Text.lower name) =
    Text.lowerBefore (name.drop (nameStem name).length) (nameStem name) := by
  have hwhole : Text.lowerBefore (name.drop name.length) name = Text.lower name := by
    rw [List.drop_length, ← Text.lower_eq]
  cases hcut : Text.cutLast? '.' name with
  | none =>
      have hdot : '.' ∉ Text.lower name := by
        rw [Text.mem_lower_iff (by decide) (by decide)]
        exact Text.cutLast?_eq_none_iff.mp hcut
      simp only [nameStem, hcut, Text.cutLast?_eq_none_iff.mpr hdot, hwhole]
  | some cut =>
      obtain ⟨stem, ext⟩ := cut
      obtain ⟨hname, hext⟩ := Text.cutLast?_eq_some_iff.mp hcut
      obtain ⟨ext', hlower, hext'⟩ := lower_append_dot stem ext
      rw [← hname] at hlower
      have hcut' := Text.cutLast?_eq_some_iff.mpr ⟨hlower, hext' hext⟩
      cases stem with
      | nil =>
          -- A dot at the front begins no extension, in lower case neither.
          have hnil : Text.lowerBefore ('.' :: ext) [] = [] := rfl
          simp only [nameStem, hcut, hcut', hnil, List.isEmpty_nil, if_true, hwhole]
      | cons c stem =>
          have hne : (Text.lowerBefore ('.' :: ext) (c :: stem)).isEmpty = false := by
            simp [Text.lowerBefore]
          have hrest : name.drop (c :: stem).length = '.' :: ext := by
            rw [hname, List.drop_left]
          simp only [nameStem, hcut, hcut', hne, List.isEmpty_cons, Bool.false_eq_true, if_false,
            hrest]

theorem stem_lower (path : Text) :
    stem (Text.lower path) = Text.lowerBefore (stemEnd path) (stem path) := by
  rw [stem, fileName_lower, nameStem_lower]
  rfl

/-! ## The extension of notes -/

/-- A path without the extension of notes, in whatever case this is written. -/
def withoutExtension (path : Text) : Text :=
  if Text.lowerAscii (path.drop (path.length - 3)) = '.' :: noteExtension then
    path.take (path.length - 3)
  else path

/-- The end of a path that is left out. -/
def extensionEnd (path : Text) : Text := path.drop (withoutExtension path).length

theorem lowerAscii_eq_extension_iff {t : Text} : Text.lowerAscii t = '.' :: noteExtension ↔
    ∃ a b c, t = [a, b, c] ∧ a.toLower = '.' ∧ b.toLower = 'm' ∧ c.toLower = 'd' := by
  rw [Text.lowerAscii, noteExtension, List.map_eq_cons_iff]
  constructor
  · rintro ⟨a, t, rfl, ha, ht⟩
    obtain ⟨b, t, rfl, hb, ht⟩ := List.map_eq_cons_iff.mp ht
    obtain ⟨c, t, rfl, hc, ht⟩ := List.map_eq_cons_iff.mp ht
    obtain rfl := List.map_eq_nil_iff.mp ht
    exact ⟨a, b, c, rfl, ha, hb, hc⟩
  · rintro ⟨a, b, c, rfl, ha, hb, hc⟩
    exact ⟨a, [b, c], rfl, ha, by simp [hb, hc]⟩

/-- A path has the extension at its end, or it has not. -/
theorem withoutExtension_cases (path : Text) :
    (path = withoutExtension path ++ extensionEnd path ∧
      Text.lowerAscii (extensionEnd path) = '.' :: noteExtension) ∨
    (withoutExtension path = path ∧ extensionEnd path = [] ∧
      ∀ front ending, path = front ++ ending → Text.lowerAscii ending ≠ '.' :: noteExtension) := by
  rw [extensionEnd, withoutExtension]
  split
  next hext =>
    refine .inl ⟨?_, ?_⟩
    · rw [List.length_take, Nat.min_eq_left (Nat.sub_le _ _), List.take_append_drop]
    · rwa [List.length_take, Nat.min_eq_left (Nat.sub_le _ _)]
  next hext =>
    refine .inr ⟨rfl, List.drop_length, ?_⟩
    rintro front ending rfl hending
    apply hext
    obtain ⟨a, b, c, rfl, -⟩ := lowerAscii_eq_extension_iff.mp hending
    rwa [List.length_append, List.length_cons, List.length_cons, List.length_singleton,
      Nat.add_sub_cancel, List.drop_left]

/-- A path in lower case has the extension if the path has it in whatever case. -/
theorem exists_of_lower_eq_append {path front : Text}
    (h : Text.lower path = front ++ '.' :: noteExtension) :
    ∃ bare ending, path = bare ++ ending ∧ Text.lowerAscii ending = '.' :: noteExtension := by
  have hsplit : Text.lowerBetween [] [] path = front ++ ['.'] ++ ['m'] ++ ['d'] := by
    rw [← Text.lowerFrom_eq, ← Text.lower, h, noteExtension]
    simp
  obtain ⟨t, c, rfl, hc, ht⟩ := Text.exists_of_lowerBetween_eq_concat (by decide) (by decide)
    (by decide) (by decide) hsplit
  obtain ⟨t, b, rfl, hb, ht⟩ := Text.exists_of_lowerBetween_eq_concat (by decide) (by decide)
    (by decide) (by decide) ht
  obtain ⟨t, a, rfl, ha, ht⟩ := Text.exists_of_lowerBetween_eq_concat (by decide) (by decide)
    (by decide) (by decide) ht
  exact ⟨t, [a, b, c], by simp, lowerAscii_eq_extension_iff.mpr ⟨a, b, c, rfl, ha, hb, hc⟩⟩

theorem lower_append_extension (bare : Text) {ending : Text}
    (h : Text.lowerAscii ending = '.' :: noteExtension) :
    Text.lower (bare ++ ending) = Text.lowerBefore ending bare ++ '.' :: noteExtension := by
  obtain ⟨a, b, c, rfl, ha, hb, hc⟩ := lowerAscii_eq_extension_iff.mp h
  have hascii : a.toNat < 128 ∧ b.toNat < 128 ∧ c.toNat < 128 := by
    refine ⟨?_, ?_, ?_⟩ <;> apply Text.lt_of_toLower_lt
    · rw [ha]; decide
    · rw [hb]; decide
    · rw [hc]; decide
  rw [Text.lower_append, Text.lowerFrom_eq]
  simp only [Text.lowerBetween, Text.lowerAt_of_lt hascii.1, Text.lowerAt_of_lt hascii.2.1,
    Text.lowerAt_of_lt hascii.2.2, ha, hb, hc]
  rfl

/-- The path in lower case without the extension has the form that the path without the extension
has in front of it. -/
theorem dropSuffix?_lower (path : Text) :
    (Text.dropSuffix? ('.' :: noteExtension) (Text.lower path)).getD (Text.lower path) =
      Text.lowerBefore (extensionEnd path) (withoutExtension path) := by
  rcases withoutExtension_cases path with ⟨hpath, hext⟩ | ⟨hsame, hnone, hext⟩
  · have hlower := lower_append_extension (withoutExtension path) hext
    rw [← hpath] at hlower
    rw [Text.dropSuffix?_eq_some_iff.mpr hlower, Option.getD_some]
  · rw [hsame, hnone, ← Text.lower_eq]
    cases hdrop : Text.dropSuffix? ('.' :: noteExtension) (Text.lower path) with
    | none => rfl
    | some front =>
        obtain ⟨bare, ending, hpath, hending⟩ :=
          exists_of_lower_eq_append (Text.dropSuffix?_eq_some_iff.mp hdrop)
        exact absurd hending (hext bare ending hpath)

/-! ## File names that end a word with a sigma -/

/-- The name of a file ends a word with a capital sigma, and the extension goes on with a letter. -/
def EndsInSigma (path : Text) : Prop :=
  Text.EndsInSigma (stem path) ∧ Text.cased (stemEnd path) = true

/-- A path ends in its file name, and what is in front of it has no case. -/
theorem exists_append_fileName (path : Text) :
    ∃ dir, path = dir ++ fileName path ∧ Text.cased dir.reverse = Text.cased [] := by
  rw [fileName]
  split
  next dir name hcut =>
    refine ⟨dir ++ ['/'], by simpa using Text.eq_append_of_cutLast? hcut, ?_⟩
    rw [List.reverse_append]
    exact Text.cased_slash_cons _
  next => exact ⟨[], rfl, rfl⟩

/-- The stem has a form in the path in lower case that it has not by itself. -/
theorem EndsInSigma.append_ne_lower_stem {path : Text} (h : EndsInSigma path) (x y : Text) :
    x ++ Text.lowerBefore (stemEnd path) (stem path) ++ y ≠ Text.lower (stem path) := by
  obtain ⟨u, v, hlower, hbefore⟩ := h.1.exists_lowerBefore h.2
  intro heq
  rw [hlower, hbefore] at heq
  have hlen := congrArg List.length heq
  simp only [List.length_append, List.length_cons] at hlen
  obtain rfl : x = [] := List.length_eq_zero_iff.mp (by omega)
  obtain rfl : y = [] := List.length_eq_zero_iff.mp (by omega)
  rw [List.nil_append, List.append_nil] at heq
  exact absurd (List.cons.inj (List.append_cancel_left heq)).1 (by decide)

/-- In the path in lower case the stem has the form that it has in front of the rest. -/
theorem exists_lower_eq_append (path : Text) : ∃ x y,
    Text.lower path = x ++ Text.lowerBefore (stemEnd path) (stem path) ++ y := by
  obtain ⟨dir, hpath, hdir⟩ := exists_append_fileName path
  have hname : Text.lowerFrom dir.reverse (fileName path) =
      Text.lowerBefore (stemEnd path) (stem path) ++
        Text.lowerFrom ((stem path).reverse ++ dir.reverse) (stemEnd path) := by
    rw [← stem_append_stemEnd, Text.lowerFrom_append, Text.lowerBetween_congr hdir rfl (stem path)]
    rfl
  have hlower : Text.lower path =
      Text.lowerBefore (fileName path) dir ++ Text.lowerFrom dir.reverse (fileName path) := by
    conv_lhs => rw [hpath, Text.lower_append]
  refine ⟨Text.lowerBefore (fileName path) dir,
    Text.lowerFrom ((stem path).reverse ++ dir.reverse) (stemEnd path), ?_⟩
  rw [List.append_assoc, ← hname, hlower]

/-- Without the extension a path ends in the stem, unless there is nothing in front of the
extension in the last segment. -/
theorem exists_withoutExtension_eq_append {path : Text}
    (h : Text.lowerAscii (extensionEnd path) = '.' :: noteExtension)
    (hpath : path = withoutExtension path ++ extensionEnd path) :
    ∃ dir, Text.cased dir.reverse = Text.cased [] ∧
      (withoutExtension path = dir ∧ stemEnd path = [] ∨
        withoutExtension path = dir ++ stem path ∧ stemEnd path = extensionEnd path) := by
  obtain ⟨a, b, c, hend, ha, hb, hc⟩ := lowerAscii_eq_extension_iff.mp h
  obtain rfl : a = '.' :=
    Text.eq_of_toLower_eq (Text.lt_of_toLower_lt (ha ▸ by decide)) (by decide) ha
  have hplain {d : Char} (hd : d.toLower = d) (hb' : d ≠ 'm') (hc' : d ≠ 'd') : d ∉ [b, c] := by
    rw [List.mem_cons, List.mem_singleton, not_or]
    constructor
    · rintro rfl
      exact hb' (hd.symm.trans hb)
    · rintro rfl
      exact hc' (hd.symm.trans hc)
  have hdot : '.' ∉ [b, c] := hplain (by decide) (by decide) (by decide)
  have hslash : '/' ∉ extensionEnd path := by
    rw [hend, List.mem_cons, not_or]
    exact ⟨by decide, hplain (by decide) (by decide) (by decide)⟩
  obtain ⟨dir, hfront, hdir⟩ := exists_append_fileName path
  obtain ⟨base, hbase⟩ := suffix_fileName ⟨_, hpath.symm⟩ hslash
  have hwithout : withoutExtension path = dir ++ base := by
    have hboth : withoutExtension path ++ extensionEnd path = dir ++ base ++ extensionEnd path := by
      rw [← hpath, List.append_assoc, hbase, ← hfront]
    exact List.append_cancel_right hboth
  refine ⟨dir, hdir, ?_⟩
  cases base with
  | nil =>
      refine .inl ⟨by rw [hwithout, List.append_nil], ?_⟩
      have hstem : stem path = fileName path := by
        rw [stem, ← hbase, hend]
        exact nameStem_dot_cons hdot
      rw [stemEnd, hstem, List.drop_length]
  | cons d base =>
      have hstem : stem path = d :: base := by
        rw [stem, ← hbase, hend]
        exact nameStem_append_dot (List.cons_ne_nil d base) hdot
      exact .inr ⟨hwithout.trans (by rw [hstem]), by rw [stemEnd, hstem, ← hbase, List.drop_left]⟩

/-- If the path without the extension ends a word with a sigma, so does the name of the file. -/
theorem endsInSigma_of_withoutExtension {path : Text}
    (h : Text.EndsInSigma (withoutExtension path)) (hend : Text.cased (extensionEnd path) = true) :
    EndsInSigma path := by
  rcases withoutExtension_cases path with ⟨hpath, hext⟩ | ⟨-, hnone, -⟩
  · obtain ⟨dir, hdir, ⟨hwithout, -⟩ | ⟨hwithout, hsame⟩⟩ :=
      exists_withoutExtension_eq_append hext hpath
    · rw [hwithout] at h
      cases hdir.symm.trans (Text.EndsInSigma.cased_reverse h)
    · rw [hwithout] at h
      exact ⟨Text.EndsInSigma.of_append h hdir, hsame ▸ hend⟩
  · rw [hnone] at hend
    cases hend

/-- If the name of the file ends a word with a sigma, the path without the extension has in lower
case the form of it that the path has. -/
theorem EndsInSigma.exists_withoutExtension_eq_append {path : Text} (h : EndsInSigma path) :
    ∃ x y, Text.lowerBefore (extensionEnd path) (withoutExtension path) =
      x ++ Text.lowerBefore (stemEnd path) (stem path) ++ y := by
  rcases withoutExtension_cases path with ⟨hpath, hext⟩ | ⟨hsame, hnone, -⟩
  · obtain ⟨dir, hdir, ⟨-, hnone⟩ | ⟨hwithout, hsame⟩⟩ :=
      Path.exists_withoutExtension_eq_append hext hpath
    · have hcased := h.2
      rw [hnone] at hcased
      cases hcased
    · refine ⟨Text.lowerBefore (stem path ++ stemEnd path) dir, [], ?_⟩
      rw [hwithout, ← hsame, Text.lowerBefore, Text.lowerBetween_append, List.append_nil,
        List.append_nil, Text.lowerBetween_congr hdir rfl (stem path)]
      rfl
  · rw [hsame, hnone, ← Text.lower_eq]
    exact exists_lower_eq_append path

end NoteLinks.Path
