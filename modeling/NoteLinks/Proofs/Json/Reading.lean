/-
# Reading what was written

The text of a value is read back as that value if its numerals are proper and its texts and keys
are spelled by characters. The proof follows the value. What makes it go through for arrays and
objects is that a value neither starts with a blank nor with a closing bracket, and that what
stands behind a value never goes on with a numeral.

The reader spends fuel, of which it has as much as the text has characters. Every value, item and
member spends one and has at least one character, so the length of what is read is always enough.
-/
import NoteLinks.Json.Writer
import NoteLinks.Proofs.Decimal.Numeral
import NoteLinks.Proofs.Text.Splitting

namespace NoteLinks.Json

/-- A value that is read back from its text. -/
inductive IsProper : Json → Prop
  | null : IsProper .null
  | bool (b : Bool) : IsProper (.bool b)
  | number {n : Numeral} (h : n.IsProper) : IsProper (.number n)
  | text (t : Text) : IsProper (.text (some t))
  | array {items : List Json} (h : ∀ j ∈ items, IsProper j) : IsProper (.array items)
  | object {members : List (Option Text × Json)} (hkeys : ∀ m ∈ members, m.1.isSome = true)
      (h : ∀ m ∈ members, IsProper m.2) : IsProper (.object members)

/-! ## Blanks -/

section Blanks

variable {gap t : Text} {c : Char}

/-- A gap between the parts of a JSON text. -/
def IsGap (t : Text) : Prop := ∀ c ∈ t, isBlank c = true

theorem isGap_indentation (depth : Nat) : IsGap (indentation depth) := fun _ hc =>
  List.eq_of_mem_replicate hc ▸ rfl

theorem IsGap.cons (hc : isBlank c = true) (h : IsGap gap) : IsGap (c :: gap) := fun _ hd =>
  (List.mem_cons.mp hd).elim (fun heq => heq ▸ hc) (h _)

theorem skipBlanks_cons (hc : isBlank c = false) : skipBlanks (c :: t) = c :: t := by
  simp [skipBlanks, hc]

theorem skipBlanks_append (hgap : IsGap gap) (t : Text) : skipBlanks (gap ++ t) = skipBlanks t := by
  rw [skipBlanks, List.dropWhile_append_of_pos hgap, skipBlanks]

theorem skipBlanks_gap (hgap : IsGap gap) : skipBlanks gap = [] := by
  simpa [skipBlanks] using skipBlanks_append hgap []

/-- A blank does not go on with a numeral. -/
theorem endsNumeral_of_isBlank (hc : isBlank c = true) : EndsNumeral (c :: t) := by
  refine EndsNumeral.cons ?_
  simp only [isBlank, Bool.or_eq_true, beq_iff_eq] at hc
  obtain ((rfl | rfl) | rfl) | rfl := hc <;> decide

/-- A text that starts with neither a blank nor a closing bracket. -/
def IsSolid (t : Text) : Prop :=
  ∃ c u, t = c :: u ∧ isBlank c = false ∧ c ≠ ']' ∧ c ≠ '}'

theorem IsSolid.append (h : IsSolid t) (rest : Text) : IsSolid (t ++ rest) := by
  obtain ⟨c, u, rfl, hc⟩ := h
  exact ⟨c, u ++ rest, rfl, hc⟩

theorem IsSolid.skipBlanks (h : IsSolid t) : skipBlanks t = t := by
  obtain ⟨c, u, rfl, hc, -⟩ := h
  exact skipBlanks_cons hc

theorem IsSolid.join (h : IsSolid t) (sep : Text) (ts : List Text) :
    IsSolid (Text.join sep (t :: ts)) := by
  cases ts with
  | nil => exact h
  | cons =>
      rw [Text.join, List.append_assoc]
      exact h.append _

theorem IsGap.endsNumeral (hgap : IsGap gap) (ht : EndsNumeral t) : EndsNumeral (gap ++ t) := by
  cases gap with
  | nil => exact ht
  | cons c gap => exact endsNumeral_of_isBlank (hgap c List.mem_cons_self)

end Blanks

/-! ## Texts -/

section Texts

/-- The digits of the escape of a control character spell its number. -/
theorem hexValue?_control {n : Nat} (hn : n < 0x20) :
    Text.hexValue? ['0', '0', hexDigit (n / 16), hexDigit (n % 16)] = some n := by
  have h : ∀ n < 0x20,
      Text.hexValue? ['0', '0', hexDigit (n / 16), hexDigit (n % 16)] = some n := by
    decide
  exact h n hn

theorem charOf?_toNat (c : Char) : Text.charOf? c.toNat = some c :=
  dif_pos c.valid

/-- How a character stands in a text is read as that character. -/
theorem quoted?_escapeChar (c : Char) (t : Text) :
    quoted? none (escapeChar c ++ t) = (quoted? none t).cons c := by
  unfold escapeChar
  split
  next h => rw [eq_of_beq h]; rfl
  split
  next h => rw [eq_of_beq h]; rfl
  split
  next h => rw [eq_of_beq h]; rfl
  split
  next h => rw [eq_of_beq h]; rfl
  split
  next h => rw [eq_of_beq h]; rfl
  split
  next h => rw [eq_of_beq h]; rfl
  split
  next h => rw [eq_of_beq h]; rfl
  split
  next h =>
    have hhigh : isHigh c.toNat = false := by
      rw [isHigh, decide_eq_false (by omega), Bool.false_and]
    simp [quoted?, hexValue?_control h, hhigh, charOf?_toNat, Quoted.consEscape]
  next hquote hbackslash _ _ _ _ _ hcontrol =>
    have hquote : c ≠ '"' := by simpa using hquote
    have hbackslash : c ≠ '\\' := by simpa using hbackslash
    rw [List.singleton_append, quoted?]
    · simp [hcontrol, hbackslash]
    all_goals simp_all

/-- A text in quotation marks is read back behind the opening one. -/
theorem quoted?_flatMap (t rest : Text) :
    quoted? none (t.flatMap escapeChar ++ '"' :: rest) = some (some t, rest) := by
  induction t with
  | nil => rfl
  | cons c t ih =>
      rw [List.flatMap_cons, List.append_assoc, quoted?_escapeChar, ih]
      rfl

end Texts

/-! ## Values -/

section Values

variable {depth fuel : Nat} {rest : Text}

theorem prettyItems_eq_map (depth : Nat) (items : List Json) :
    prettyItems depth items = items.map (pretty depth) := by
  induction items with
  | nil => rfl
  | cons item items ih => rw [prettyItems, ih, List.map_cons]

/-- The text of a member of an object. -/
def prettyMember (depth : Nat) (m : Option Text × Json) : Text :=
  quote (m.1.getD []) ++ ':' :: ' ' :: pretty depth m.2

theorem prettyMembers_eq_map (depth : Nat) (members : List (Option Text × Json)) :
    prettyMembers depth members = members.map (prettyMember depth) := by
  induction members with
  | nil => rfl
  | cons m members ih => rw [prettyMembers, ih, List.map_cons, prettyMember]

/-- A value starts neither with a blank nor with a closing bracket. -/
theorem IsProper.isSolid_pretty {j : Json} (hj : j.IsProper) (depth : Nat) :
    IsSolid (pretty depth j) := by
  cases hj with
  | null => exact ⟨'n', _, by rw [pretty], by decide⟩
  | bool b =>
      cases b with
      | true => exact ⟨'t', _, by rw [pretty], by decide⟩
      | false => exact ⟨'f', _, by rw [pretty], by decide⟩
  | number h =>
      obtain ⟨c, t, htext, hc⟩ := exists_text_eq_cons h
      refine ⟨c, t, by rw [pretty, htext], ?_⟩
      obtain rfl | hdigit := hc
      · decide
      · refine ⟨?_, ?_, ?_⟩
        · rw [Bool.eq_false_iff]
          intro hblank
          simp only [isBlank, Bool.or_eq_true, beq_iff_eq] at hblank
          obtain ((rfl | rfl) | rfl) | rfl := hblank <;> revert hdigit <;> decide
        all_goals (rintro rfl; revert hdigit; decide)
  | text t => exact ⟨'"', _, by rw [pretty, quote, List.cons_append], by decide⟩
  | array h =>
      rw [pretty, bracketed]
      split <;> exact ⟨'[', _, rfl, by decide⟩
  | object hkeys h =>
      rw [pretty, bracketed]
      split <;> exact ⟨'{', _, rfl, by decide⟩

/-- Only a numeral starts with a minus sign or a digit. -/
theorem value?_numeral {c : Char} {t : Text} (hc : c = '-' ∨ c.isDigit = true) :
    value? (fuel + 1) (c :: t) = (numeral? (c :: t)).map fun (n, rest) => (.number n, rest) := by
  rw [value?]
  all_goals (rintro rest heq; obtain ⟨rfl, -⟩ := List.cons.inj heq; revert hc; decide)

/-- A value is read back from its text, whatever stands behind that does not go on with a
numeral. -/
def ReadsBack (depth : Nat) (j : Json) : Prop :=
  ∀ ⦃fuel : Nat⦄ ⦃rest : Text⦄, (pretty depth j).length < fuel → EndsNumeral rest →
    value? fuel (pretty depth j ++ rest) = some (j, rest)

/-- The separator between the lines of an array or an object. -/
def separator (depth : Nat) : Text := ',' :: '\n' :: indentation depth

theorem join_separator (line next : Text) (lines : List Text) (rest : Text) :
    Text.join (separator depth) (line :: next :: lines) ++ rest = line ++ ',' ::
      ('\n' :: indentation depth ++ (Text.join (separator depth) (next :: lines) ++ rest)) := by
  simp [Text.join, separator]

theorem length_join_separator (depth : Nat) (line next : Text) (lines : List Text) :
    line.length + (Text.join (separator depth) (next :: lines)).length + 2 ≤
      (Text.join (separator depth) (line :: next :: lines)).length := by
  simp only [Text.join, separator, List.length_append, List.length_cons]
  omega

/-- Behind a separator the next line is read. -/
theorem skipBlanks_separator {next : Text} (hnext : IsSolid next) (lines : List Text)
    (rest : Text) :
    skipBlanks ('\n' :: indentation depth ++
        (Text.join (separator depth) (next :: lines) ++ rest)) =
      Text.join (separator depth) (next :: lines) ++ rest := by
  rw [skipBlanks_append ((isGap_indentation depth).cons rfl),
    ((hnext.join (separator depth) lines).append rest).skipBlanks]

variable {gap t u : Text}

section Items

variable {item : Json} {items : List Json}

theorem items?_last (hgap : IsGap gap) (hread : value? fuel t = some (item, gap ++ ']' :: rest)) :
    items? (fuel + 1) t = some ([item], rest) := by
  rw [items?, hread, Option.bind_eq_bind, Option.bind_some]
  simp only [skipBlanks_append hgap, skipBlanks_cons (c := ']') rfl]

theorem items?_cons (hread : value? fuel t = some (item, ',' :: u))
    (hitems : items? fuel (skipBlanks u) = some (items, rest)) :
    items? (fuel + 1) t = some (item :: items, rest) := by
  rw [items?, hread, Option.bind_eq_bind, Option.bind_some]
  simp only [skipBlanks_cons (c := ',') rfl, hitems]
  rfl

/-- The items of an array are read back if each of them is. -/
theorem items?_join (fuel : Nat) (rest : Text) (hgap : IsGap gap) (hne : items ≠ [])
    (hproper : ∀ j ∈ items, j.IsProper) (hitems : ∀ j ∈ items, ReadsBack depth j)
    (hfuel : (Text.join (separator depth) (items.map (pretty depth))).length + 1 < fuel) :
    items? fuel (Text.join (separator depth) (items.map (pretty depth)) ++ (gap ++ ']' :: rest)) =
      some (items, rest) := by
  induction items generalizing fuel with
  | nil => exact absurd rfl hne
  | cons item items ih =>
      obtain ⟨hitem, hitems⟩ := List.forall_mem_cons.mp hitems
      obtain ⟨-, hproper⟩ := List.forall_mem_cons.mp hproper
      obtain ⟨fuel, rfl⟩ : ∃ n, fuel = n + 1 := ⟨fuel - 1, by omega⟩
      cases items with
      | nil =>
          have hends := hgap.endsNumeral (EndsNumeral.cons (c := ']') (t := rest) (by decide))
          exact items?_last hgap (hitem (by simpa [Text.join] using hfuel) hends)
      | cons next items =>
          have hlength := length_join_separator depth (pretty depth item)
            (pretty depth next) (items.map (pretty depth))
          simp only [List.map_cons] at hfuel ih ⊢
          rw [join_separator]
          refine items?_cons (hitem (by omega) (EndsNumeral.cons (by decide))) ?_
          rw [skipBlanks_separator ((hproper next List.mem_cons_self).isSolid_pretty depth)]
          exact ih _ (List.cons_ne_nil _ _) hproper hitems (by omega)

end Items

section Members

variable {key : Text} {value : Json} {members : List (Option Text × Json)}

theorem prettyMember_append (key : Text) (value : Json) (rest : Text) :
    prettyMember depth (some key, value) ++ rest = '"' :: (key.flatMap escapeChar ++
      '"' :: ':' :: ' ' :: (pretty depth value ++ rest)) := by
  simp [prettyMember, quote]

theorem isSolid_prettyMember (depth : Nat) (m : Option Text × Json) :
    IsSolid (prettyMember depth m) :=
  ⟨'"', _, by rw [prettyMember, quote, List.cons_append, List.cons_append], by decide⟩

/-- Behind the key and the colon the value is read. -/
theorem skipBlanks_value (hvalue : value.IsProper) (rest : Text) :
    skipBlanks (' ' :: (pretty depth value ++ rest)) = pretty depth value ++ rest :=
  ((hvalue.isSolid_pretty depth).append rest).skipBlanks

theorem members?_last (hgap : IsGap gap) (hvalue : value.IsProper)
    (hread : value? fuel (pretty depth value ++ (gap ++ '}' :: rest)) =
      some (value, gap ++ '}' :: rest)) :
    members? (fuel + 1) (prettyMember depth (some key, value) ++ (gap ++ '}' :: rest)) =
      some ([(some key, value)], rest) := by
  rw [prettyMember_append, members?, quoted?_flatMap, Option.bind_eq_bind, Option.bind_some]
  simp only [skipBlanks_cons (c := ':') rfl, skipBlanks_value hvalue, hread, Option.bind_eq_bind,
    Option.bind_some, skipBlanks_append hgap, skipBlanks_cons (c := '}') rfl]

theorem members?_cons (hvalue : value.IsProper)
    (hread : value? fuel (pretty depth value ++ ',' :: u) = some (value, ',' :: u))
    (hmembers : members? fuel (skipBlanks u) = some (members, rest)) :
    members? (fuel + 1) (prettyMember depth (some key, value) ++ ',' :: u) =
      some ((some key, value) :: members, rest) := by
  rw [prettyMember_append, members?, quoted?_flatMap, Option.bind_eq_bind, Option.bind_some]
  simp only [skipBlanks_cons (c := ':') rfl, skipBlanks_value hvalue, hread, Option.bind_eq_bind,
    Option.bind_some, skipBlanks_cons (c := ',') rfl, hmembers]

theorem length_pretty_lt (depth : Nat) (key : Option Text) (value : Json) :
    (pretty depth value).length + 2 ≤ (prettyMember depth (key, value)).length := by
  simp only [prettyMember, List.length_append, List.length_cons]
  omega

/-- The members of an object are read back if their keys are texts and their values are read
back. -/
theorem members?_join (fuel : Nat) (rest : Text) (hgap : IsGap gap) (hne : members ≠ [])
    (hkeys : ∀ m ∈ members, m.1.isSome = true) (hproper : ∀ m ∈ members, m.2.IsProper)
    (hmembers : ∀ m ∈ members, ReadsBack depth m.2)
    (hfuel : (Text.join (separator depth) (members.map (prettyMember depth))).length < fuel) :
    members? fuel (Text.join (separator depth) (members.map (prettyMember depth)) ++
      (gap ++ '}' :: rest)) = some (members, rest) := by
  induction members generalizing fuel with
  | nil => exact absurd rfl hne
  | cons m members ih =>
      obtain ⟨hkey, hkeys'⟩ := List.forall_mem_cons.mp hkeys
      obtain ⟨hvalue, hproper'⟩ := List.forall_mem_cons.mp hproper
      obtain ⟨hmember, hmembers'⟩ := List.forall_mem_cons.mp hmembers
      obtain ⟨fuel, rfl⟩ : ∃ n, fuel = n + 1 := ⟨fuel - 1, by omega⟩
      obtain ⟨key, hm⟩ := Option.isSome_iff_exists.mp hkey
      obtain ⟨_, value⟩ := m
      obtain rfl : _ = some key := hm
      have hlt := length_pretty_lt depth (some key) value
      simp only at hvalue hmember
      cases members with
      | nil =>
          have hends := hgap.endsNumeral (EndsNumeral.cons (c := '}') (t := rest) (by decide))
          simp only [List.map_singleton, Text.join] at hfuel ⊢
          exact members?_last hgap hvalue (hmember (by omega) hends)
      | cons next members =>
          have hlength := length_join_separator depth
            (prettyMember depth (some key, value)) (prettyMember depth next)
            (members.map (prettyMember depth))
          simp only [List.map_cons] at hfuel ih ⊢
          rw [join_separator]
          refine members?_cons hvalue (hmember (by omega) (EndsNumeral.cons (by decide))) ?_
          rw [skipBlanks_separator (isSolid_prettyMember depth next)]
          exact ih _ (List.cons_ne_nil _ _) hkeys' hproper' hmembers' (by omega)

end Members

theorem length_bracketed (depth : Nat) (opening closing : Char) {lines : List Text}
    (hne : lines ≠ []) : (Text.join (separator (depth + 1)) lines).length + 4 ≤
      (bracketed opening closing depth lines).length := by
  simp only [bracketed, List.isEmpty_iff, hne, if_false, separator, List.length_append,
    List.length_cons]
  omega

theorem bracketed_append (opening closing : Char) {lines : List Text} (hne : lines ≠ []) :
    bracketed opening closing depth lines ++ rest = opening :: ('\n' :: indentation (depth + 1) ++
      (Text.join (separator (depth + 1)) lines ++
        ('\n' :: indentation depth ++ closing :: rest))) := by
  simp [bracketed, hne, separator]

/-- An array that does not close at once is read by its items. -/
theorem value?_array (hu : skipBlanks u = t) (ht : IsSolid t) :
    value? (fuel + 1) ('[' :: u) =
      (items? fuel t).map fun (items, rest) => (.array items, rest) := by
  obtain ⟨c, t, rfl, -, hc, -⟩ := ht
  simp [value?, hu, hc]

/-- An object that does not close at once is read by its members. -/
theorem value?_object (hu : skipBlanks u = t) (ht : IsSolid t) :
    value? (fuel + 1) ('{' :: u) =
      (members? fuel t).map fun (members, rest) => (.object members, rest) := by
  obtain ⟨c, t, rfl, -, -, hc⟩ := ht
  simp [value?, hu, hc]

/-- There is fuel for one step at least. -/
theorem readsBack_of_step {j : Json} (h : ∀ fuel rest, (pretty depth j).length < fuel + 1 →
    EndsNumeral rest → value? (fuel + 1) (pretty depth j ++ rest) = some (j, rest)) :
    ReadsBack depth j := by
  intro fuel rest hfuel hrest
  obtain ⟨fuel, rfl⟩ : ∃ n, fuel = n + 1 := ⟨fuel - 1, by omega⟩
  exact h fuel rest hfuel hrest

theorem ReadsBack.array {items : List Json} (hproper : ∀ j ∈ items, j.IsProper)
    (hitems : ∀ j ∈ items, ReadsBack (depth + 1) j) : ReadsBack depth (.array items) := by
  refine readsBack_of_step fun fuel rest hfuel _ => ?_
  rw [pretty, prettyItems_eq_map] at hfuel ⊢
  cases items with
  | nil => rfl
  | cons item items =>
      have hne : (item :: items).map (pretty (depth + 1)) ≠ [] := by simp
      have hgap : IsGap ('\n' :: indentation depth) := (isGap_indentation depth).cons rfl
      have hlength := length_bracketed depth '[' ']' hne
      have hread := items?_join fuel rest hgap (List.cons_ne_nil item items) hproper hitems
        (by omega)
      have hsolid := (hproper item List.mem_cons_self).isSolid_pretty (depth + 1)
      simp only [List.map_cons] at hne hread ⊢
      rw [bracketed_append _ _ hne, value?_array (skipBlanks_separator hsolid _ _)
        ((hsolid.join _ _).append _), hread]
      rfl

theorem ReadsBack.object {members : List (Option Text × Json)}
    (hkeys : ∀ m ∈ members, m.1.isSome = true) (hproper : ∀ m ∈ members, m.2.IsProper)
    (hmembers : ∀ m ∈ members, ReadsBack (depth + 1) m.2) : ReadsBack depth (.object members) := by
  refine readsBack_of_step fun fuel rest hfuel _ => ?_
  rw [pretty, prettyMembers_eq_map] at hfuel ⊢
  cases members with
  | nil => rfl
  | cons m members =>
      have hne : (m :: members).map (prettyMember (depth + 1)) ≠ [] := by simp
      have hgap : IsGap ('\n' :: indentation depth) := (isGap_indentation depth).cons rfl
      have hlength := length_bracketed depth '{' '}' hne
      have hread := members?_join fuel rest hgap (List.cons_ne_nil m members) hkeys hproper
        hmembers (by omega)
      have hsolid := isSolid_prettyMember (depth + 1) m
      simp only [List.map_cons] at hne hread ⊢
      rw [bracketed_append _ _ hne, value?_object (skipBlanks_separator hsolid _ _)
        ((hsolid.join _ _).append _), hread]
      rfl

/-- A proper value is read back from its text. -/
theorem IsProper.readsBack {j : Json} (hj : j.IsProper) (depth : Nat) : ReadsBack depth j := by
  induction hj generalizing depth with
  | null =>
      refine readsBack_of_step fun fuel rest _ _ => ?_
      rw [pretty]
      rfl
  | bool b =>
      refine readsBack_of_step fun fuel rest _ _ => ?_
      cases b <;> (rw [pretty]; rfl)
  | number h =>
      refine readsBack_of_step fun fuel rest _ hrest => ?_
      obtain ⟨c, t, htext, hc⟩ := exists_text_eq_cons h
      have hread := numeral?_append h hrest
      rw [htext, List.cons_append] at hread
      rw [pretty, htext, List.cons_append, value?_numeral hc, hread]
      rfl
  | text t =>
      refine readsBack_of_step fun fuel rest _ _ => ?_
      rw [pretty, quote]
      simp [value?, quoted?_flatMap]
  | array h ih => exact .array h fun j hj => ih j hj (depth + 1)
  | object hkeys h ih => exact .object hkeys h fun m hm => ih m hm (depth + 1)

end Values

/-! ## Whole texts -/

/-- The text of a proper value, with nothing but blanks behind it, is read as that value. -/
theorem ofText?_pretty {j : Json} (hj : j.IsProper) {gap : Text} (hgap : IsGap gap) :
    ofText? (pretty 0 j ++ gap) = some j := by
  have hread : value? ((pretty 0 j ++ gap).length + 1) (pretty 0 j ++ gap) = some (j, gap) :=
    hj.readsBack 0 (by rw [List.length_append]; omega)
      (by simpa using hgap.endsNumeral EndsNumeral.nil)
  rw [ofText?, ((hj.isSolid_pretty 0).append gap).skipBlanks, hread, Option.bind_eq_bind,
    Option.bind_some]
  simp [skipBlanks_gap hgap]

end NoteLinks.Json
