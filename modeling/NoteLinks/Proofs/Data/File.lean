/-
# Data files are read back

Whatever texts a snapshot or suggestions are made of, they are read from their file as they were
when it was written, and suggestions also from the text that is shown of them. Of floats it has
to be assumed that their numerals are read back: the reader takes as many leading digits as 64
bits hold and scales them by a power of ten, which need not give the nearest float.
-/
import NoteLinks.Command.Run
import NoteLinks.Proofs.Data.Suggestion
import NoteLinks.Proofs.Decimal.Binary
import NoteLinks.Proofs.Tree.Writing

namespace NoteLinks

/-! ## Floats -/

/-- A float that is read from its own numeral. -/
def Float.ReadsBack (x : Float) : Prop :=
  ∀ n, Float.numeral? x = some n → n.scaledFloat? = some x

/-- A finite float has a numeral. -/
theorem Float.exists_numeral? {x : Float} (h : x.isFinite = true) :
    ∃ n, Float.numeral? x = some n := by
  obtain ⟨negative, m, q, hvalue⟩ := FloatValue.exists_ofFloat_of_isFinite h
  rw [Float.numeral?, hvalue]
  exact ⟨_, rfl⟩

theorem Json.float?_ofFloat {x : Float} (hfinite : x.isFinite = true) (hx : Float.ReadsBack x) :
    float? (ofFloat x) = some x := by
  obtain ⟨n, hn⟩ := Float.exists_numeral? hfinite
  rw [ofFloat, hn]
  exact hx n hn

theorem Float.eq_of_toBits {x y : Float} (h : x.toBits = y.toBits) : x = y := by
  obtain ⟨bits, hx⟩ := x
  obtain ⟨bits', hy⟩ := y
  obtain rfl : bits = bits' := h
  rfl

/-- One half is written with a single digit behind the point, and read back from it. -/
theorem Float.readsBack_half : Float.ReadsBack 0.5 := by
  have hnumeral : Float.numeral? 0.5 = some ⟨false, ['0'], ['5'], none⟩ := by decide +kernel
  have hread : (Numeral.scaledFloat? ⟨false, ['0'], ['5'], none⟩).map Float.toBits =
      some (0.5 : Float).toBits := by decide +kernel
  intro n hn
  rw [hnumeral] at hn
  obtain rfl := Option.some.inj hn
  obtain ⟨x, hx, hbits⟩ := Option.map_eq_some_iff.mp hread
  rw [hx, Float.eq_of_toBits hbits]

/-! ## Files -/

section Files

variable {t t' : Tree} {here : Place} {path : Text} {j : Json}

theorem Json.ofBytes?_fileBytes (hj : j.IsProper) : ofBytes? (fileBytes j) = some j := by
  rw [ofBytes?, fileBytes, Text.decode?_encode]
  exact ofText?_pretty hj (IsGap.cons rfl nofun)

/-- A file that holds a value is read as the text of that value. -/
theorem Tree.readText_fileBytes (h : t.write here path (Json.fileBytes j) = .ok t') :
    t'.readText here path = .ok (Json.pretty 0 j ++ ['\n']) := by
  obtain ⟨place, hwritten, hlocate⟩ := exists_written h
  rw [readText, hlocate]
  show t'.textAt place = _
  rw [textAt, bytesAt, hwritten.find?_self]
  simp [Json.fileBytes, bind, Except.bind]

/-- A snapshot is read from its file, but for the average. -/
theorem Snapshot.load_of_save {s : Snapshot} (hs : s.Fits) {average : Float}
    (haverage : Json.float? (.ofFloat s.stats.linksPerFile) = some average)
    (h : s.save t here path = .ok t') : Snapshot.load t' here path =
      .ok { s with stats := { s.stats with linksPerFile := average } } := by
  obtain ⟨place, hwritten, hlocate⟩ := Tree.exists_written h
  rw [load, hlocate]
  simp only [hwritten.find?_self]
  rw [Json.ofBytes?_fileBytes s.isProper_toJson, Option.bind_some, ofJson?_toJson hs haverage]

/-- Suggestions are read from their text, but for the scores, also if a line ends behind it. -/
theorem SuggestionMap.ofText?_pretty {m : SuggestionMap} {f : Float → Float}
    (hscores : ∀ e ∈ m.entries, ∀ s ∈ e.2, Json.float? (.ofFloat s.score) = some (f s.score))
    (gap : Text) (hgap : Json.IsGap gap) :
    ofText? (Json.pretty 0 (toJson m) ++ gap) = some (m.rescore f) := by
  rw [ofText?, Json.ofText?_pretty (isProper_toJson m) hgap]
  exact ofJson?_toJson hscores

/-- Suggestions are read from their file, but for the scores. -/
theorem Command.readSuggestions_of_save {m : SuggestionMap} {f : Float → Float}
    (hscores : ∀ e ∈ m.entries, ∀ s ∈ e.2, Json.float? (.ofFloat s.score) = some (f s.score))
    {ctx : Context} (h : m.save t ctx.here path = .ok t') (printed : Text) :
    readSuggestions ctx path ⟨t', printed⟩ = .ok (m.rescore f) ⟨t', printed⟩ := by
  have hread := Tree.readText_fileBytes h
  have htext := SuggestionMap.ofText?_pretty hscores ['\n'] (.cons rfl nofun)
  simp only [readSuggestions, bind, EStateM.bind, get, getThe, MonadStateOf.get, EStateM.get,
    hread, orFail, pure, EStateM.pure, htext]

end Files

/-- A snapshot and suggestions are read from their files as they were. -/
theorem data_files_are_read_back :
    (∀ s : Snapshot, s.Fits → s.stats.linksPerFile.isFinite = true →
      Float.ReadsBack s.stats.linksPerFile → ∀ (t : Tree) (here : Place) (path : Text) (t' : Tree),
        s.save t here path = .ok t' → Snapshot.load t' here path = .ok s) ∧
    ∀ m : SuggestionMap, (∀ e ∈ m.entries, ∀ s ∈ e.2, s.score.isFinite = true ∧
        Float.ReadsBack s.score) →
      (∀ (t : Tree) (ctx : Command.Context) (path : Text) (t' : Tree) (printed : Text),
        m.save t ctx.here path = .ok t' →
          Command.readSuggestions ctx path ⟨t', printed⟩ = .ok m ⟨t', printed⟩) ∧
      SuggestionMap.ofText? (m.review .json) = some m := by
  refine ⟨fun s hs hfinite hback t here path t' h =>
    Snapshot.load_of_save hs (Json.float?_ofFloat hfinite hback) h, fun m hm => ?_⟩
  have hscores : ∀ e ∈ m.entries, ∀ s ∈ e.2, Json.float? (.ofFloat s.score) = some (id s.score) :=
    fun e he s hs => Json.float?_ofFloat (hm e he s hs).1 (hm e he s hs).2
  refine ⟨fun t ctx path t' printed h => ?_, ?_⟩
  · have hread := Command.readSuggestions_of_save hscores h printed
    rwa [SuggestionMap.rescore_id] at hread
  · have hread := SuggestionMap.ofText?_pretty hscores [] nofun
    rwa [SuggestionMap.rescore_id, List.append_nil] at hread

/-- Two notes, with quotation marks, control characters and far characters in their texts. -/
def oddNotes : Snapshot :=
  .ofNotes (KeyMap.ofList [
    ("\"é\\.md".toList, {
      path := "\"é\\.md".toList, title := "tab\tbell\x07".toList, tags := [['x']]
      concepts := [['∀']], links := [['b']], headings := [⟨1, ['🦀']⟩], wordCount := 3 }),
    ("b.md".toList, { path := "b.md".toList, title := [] })])

/-- A suggestion for the first of the notes. -/
def oddSuggestions : SuggestionMap :=
  KeyMap.ofList [("\"é\\.md".toList, [{
    target := "b.md".toList, targetTitle := ['\x00'], score := 0.5
    reasons := [⟨.sharedConcept, ['∀', '"']⟩], strategies := [.concept], confidence := .low }])]

theorem fits_oddNotes : oddNotes.Fits where
  files := by
    have hnotes : ∀ e ∈ oddNotes.files.entries, (∀ h ∈ e.2.headings, h.level < 256) ∧
        e.2.wordCount < 0x10000000000000000 := by decide +kernel
    exact fun e he => ⟨(hnotes e he).1, (hnotes e he).2⟩
  stats := by refine ⟨?_, ?_, ?_, ?_, ?_, ?_⟩ <;> decide +kernel

theorem exists_write_of_empty (bytes : ByteArray) :
    ∃ t, Tree.empty.write [] "a.json".toList bytes = .ok t := by
  have hroom : Tree.empty.HasRoom [] "a.json".toList := by decide
  have hwrite : Tree.empty.write [] "a.json".toList bytes =
      Tree.empty.writeAt [] "a.json".toList bytes := rfl
  exact ⟨_, hwrite.trans (dif_pos hroom)⟩

theorem odd_texts_are_read_back :
    (∃ t, oddNotes.save .empty [] "a.json".toList = .ok t ∧
      Snapshot.load t [] "a.json".toList = .ok oddNotes) ∧
    (∃ t, oddSuggestions.save .empty [] "a.json".toList = .ok t ∧
      Command.readSuggestions ⟨[], none, .still []⟩ "a.json".toList ⟨t, []⟩ =
        .ok oddSuggestions ⟨t, []⟩) ∧
    SuggestionMap.ofText? (oddSuggestions.review .json) = some oddSuggestions := by
  have haverage : oddNotes.stats.linksPerFile = 0.5 := Float.eq_of_toBits (by decide +kernel)
  have hfinite : (0.5 : Float).isFinite = true := by decide +kernel
  have hnotes := data_files_are_read_back.1 oddNotes fits_oddNotes (haverage ▸ hfinite)
    (haverage ▸ Float.readsBack_half)
  have hsuggestions := data_files_are_read_back.2 oddSuggestions fun e he s hs => by
    obtain rfl := List.mem_singleton.mp he
    obtain rfl := List.mem_singleton.mp hs
    exact ⟨hfinite, Float.readsBack_half⟩
  obtain ⟨t, ht⟩ := exists_write_of_empty (Json.fileBytes oddNotes.toJson)
  obtain ⟨u, hu⟩ := exists_write_of_empty (Json.fileBytes oddSuggestions.toJson)
  exact ⟨⟨t, ht, hnotes _ _ _ t ht⟩, ⟨u, hu, hsuggestions.1 _ ⟨[], none, .still []⟩ _ u [] hu⟩,
    hsuggestions.2⟩

end NoteLinks
