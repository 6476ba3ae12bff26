/-
# Concepts

The concepts of a note are its key phrases: the headings, what is set in bold,
and short pieces of code. Phrases are cleaned of markup and of surplus blanks,
so that the same phrase is recognised in another note.
-/
import NoteLinks.Note.Basic
import NoteLinks.Ordered.KeySet
import NoteLinks.Text.Piece

namespace NoteLinks.Concept

/-- A piece of code with more words than this is no concept. -/
def maxCodeWords : Nat := 3

/-- A phrase with fewer characters than this is no concept. -/
def minLength : Nat := 3

/-- Bold text at the start of a text: two stars on either side and none
between. -/
def recogniseBold : Recogniser Text
  | '*' :: '*' :: t =>
    let phrase := t.takeWhile (· != '*')
    match phrase, t.dropWhile (· != '*') with
    | _ :: _, '*' :: '*' :: _ => some ⟨phrase, phrase.length + 4⟩
    | _, _ => none
  | _ => none

/-- Code at the start of a text: a backquote on either side and none between. -/
def recogniseCode : Recogniser Text
  | '`' :: t =>
    let code := t.takeWhile (· != '`')
    match code, t.dropWhile (· != '`') with
    | _ :: _, '`' :: _ => some ⟨code, code.length + 2⟩
    | _, _ => none
  | _ => none

/-- A markup tag at the start of a text: something in angle brackets. -/
def recogniseMarkup : Recogniser Unit
  | '<' :: t =>
    let inside := t.takeWhile (· != '>')
    match inside, t.dropWhile (· != '>') with
    | _ :: _, '>' :: _ => some ⟨(), inside.length + 2⟩
    | _, _ => none
  | _ => none

/-- A phrase without markup tags, its words separated by single spaces. -/
def clean (phrase : Text) : Text :=
  Text.join [' '] (Text.words (Text.withoutMatches recogniseMarkup phrase))

/-- The phrases of a note that may be concepts. -/
def phrases (body : Text) (headings : List Heading) : List Text :=
  headings.map (·.text) ++ Text.hits recogniseBold body
    ++ (Text.hits recogniseCode body).filter fun code => (Text.words code).length ≤ maxCodeWords

/-- The concepts of a note, in ascending order. -/
def all (body : Text) (headings : List Heading) : List Text :=
  let cleaned := (phrases body headings).map clean
  (KeySet.ofList (cleaned.filter fun phrase => minLength ≤ phrase.length)).toList

end NoteLinks.Concept
