/-
# Errors

What can go wrong is told apart by its cause, and every cause has one message.
-/
import NoteLinks.Snapshot

namespace NoteLinks

/-- What is chosen by a name. -/
inductive NameKind
  | confidence
  | strategy
  | linkFormat
  | outputFormat
  deriving DecidableEq, Repr

/-- Why a file cannot be read or written. -/
inductive DiskError
  | isDirectory
  | notDirectory
  | notFound
  /-- The bytes of the file are not UTF-8. -/
  | notText
  deriving DecidableEq, Repr

/-- What can go wrong. -/
inductive Error
  /-- There is no such file or directory. -/
  | notFound (path : Text)
  /-- A note is named by a path that leaves the vault. -/
  | outsideVault (path : Text)
  | dangling (reference : DanglingReference)
  /-- A name stands for nothing of its kind. -/
  | unknownName (kind : NameKind) (name : Text)
  | disk (error : DiskError)
  /-- A data file does not hold what it should. -/
  | malformedData
  deriving DecidableEq, Repr

namespace DiskError

/-- The message for a file that cannot be read or written. -/
def message : DiskError → Text
  | isDirectory => "Is a directory (os error 21)".toList
  | notDirectory => "Not a directory (os error 20)".toList
  | notFound => "No such file or directory (os error 2)".toList
  | notText => "stream did not contain valid UTF-8".toList

end DiskError

namespace DanglingReference

/-- The message for a reference to a note that is not there. -/
def message : DanglingReference → Text
  | .concept key path =>
    "concept '".toList ++ key ++ "' references unknown document '".toList ++ path ++ ['\'']
  | .tag key path =>
    "tag '".toList ++ key ++ "' references unknown document '".toList ++ path ++ ['\'']
  | .linkSource path =>
    "link graph has an entry for unknown document '".toList ++ path ++ ['\'']

end DanglingReference

namespace NameKind

/-- What a name of this kind is called. -/
def noun : NameKind → Text
  | confidence => "confidence".toList
  | strategy => "strategy".toList
  | linkFormat => "link format".toList
  | outputFormat => "output format".toList

/-- What names are expected, as far as it is said. -/
def expectation : NameKind → Text
  | confidence => " (expected low, medium or high)".toList
  | strategy => " (expected conservative, balanced or aggressive)".toList
  | linkFormat => " (expected markdown or wikilink)".toList
  | outputFormat => []

end NameKind

namespace Error

/-- The message for what went wrong. -/
def message : Error → Text
  | notFound path => "not found: ".toList ++ path
  | outsideVault path => "vault error: ".toList ++ path ++ " is outside the vault root".toList
  | dangling reference => "snapshot error: ".toList ++ reference.message
  | unknownName kind name =>
    "config error: unknown ".toList ++ kind.noun ++ " '".toList ++ name ++ ['\''] ++ kind.expectation
  | disk error => "io error: ".toList ++ error.message
  | malformedData => "serialization error".toList

end Error

end NoteLinks
