/-
# Links that are there already

A note is linked to already if a wikilink names its title, with or without an
alias, or if a markdown link names its path. In a markdown link every space of
the path may be written as any number of blanks, or be left out.

Whether there is such a link is a question about the suffixes of the text: it
has a link if one of them begins with one.
-/
import NoteLinks.Note.Link

namespace NoteLinks.Insertion

/-- Whether a suffix of the text, perhaps the text itself or the empty one,
passes a test. -/
def anySuffix (test : Text → Bool) : Text → Bool
  | [] => test []
  | c :: t => test (c :: t) || anySuffix test t

/-- Whether the text begins with some blanks, perhaps none, and what follows them
passes a test. -/
def afterBlanks (test : Text → Bool) : Text → Bool
  | [] => test []
  | c :: t => test (c :: t) || (Text.isBlank c && afterBlanks test t)

/-- Whether the text begins with a path, with any blanks for each of its spaces,
and what follows passes a test. -/
def afterPath (test : Text → Bool) : Text → Text → Bool
  | [], t => test t
  | c :: path, t =>
    if c = ' ' then
      if path.head? = some ' ' then afterPath test path t else afterBlanks (afterPath test path) t
    else match t with
      | d :: t => c == d && afterPath test path t
      | [] => false

/-- Whether the text begins with a wikilink to a title. -/
def isWikilinkTo (title : Text) (t : Text) : Bool :=
  match Text.dropPrefix? ('[' :: '[' :: title) t with
  | some rest => Text.startsWith [']', ']'] (Link.dropAlias rest)
  | none => false

/-- Whether the text begins with a markdown link to a path. -/
def isMarkdownLinkTo (path : Text) (t : Text) : Bool :=
  match Link.dropLabel? t with
  | some ('(' :: rest) => afterPath (fun t => t.head? == some ')') path rest
  | _ => false

/-- Whether a text has a link to the note with this path and title. An empty title
is not looked for. -/
def linkExists (content path title : Text) : Bool :=
  (!title.isEmpty && anySuffix (isWikilinkTo title) content)
    || anySuffix (isMarkdownLinkTo path) content

end NoteLinks.Insertion
