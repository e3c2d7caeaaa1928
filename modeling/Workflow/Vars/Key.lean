import Workflow.Text.Blank
import Workflow.Text.Lowercase

/-!
# Keys of the store

Vars, catalog scripts and error slots are addressed by keys that people type in
many spellings. A key is folded before it is used: letters become lower case,
every run of separators becomes one underscore, and separators at the ends are
dropped, so that `User Name`, `user-name` and `user_name` are one key.

The fold is one pass with one bit of memory: whether a separator is owed before
the next letter. `Key.runs` says the same without the bit, as the pieces between
separators.
-/

namespace Workflow.Key

/-- Whether a character separates the words of a key. -/
def isSeparator (c : Char) : Bool :=
  Text.isBlank c || c = '-' || c = '.' || c = '/' || c = '_'

/-- Folds the characters of a key. `owed` tells that a separator was met since
the last letter, `started` that a letter was met at all. -/
def foldChars (started owed : Bool) : List Char → List Char
  | [] => []
  | c :: cs =>
    if isSeparator c then foldChars started started cs
    else (if owed then ['_'] else []) ++ Text.lowerChar c ++ foldChars true false cs

/-- The folded form of a key. -/
def normalize (key : String) : String :=
  String.ofList (foldChars false false (Text.trim key.toList))

/-- The key under which the last script error of a node is kept. -/
def ofError (nodeId : String) : String := normalize nodeId ++ "_error"

/-- The maximal runs of characters that are no separators, in lower case. -/
def runs (cs : List Char) : List (List Char) :=
  ((cs.splitOnP isSeparator).filter (· ≠ [])).map (·.flatMap Text.lowerChar)

end Workflow.Key
