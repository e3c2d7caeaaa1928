import Workflow.Fields
import Workflow.Path

/-!
# The environment

The variables that the surrounding system sets. Two texts of a configuration
depend on them: a reference `$` with a name in braces anywhere in the file, and
`~/` at the front of a path.
-/

namespace Workflow

/-- Texts under names. -/
abbrev Environment := Fields String

namespace Environment

/-- Replaces references by the values they name. A reference to a variable that is
not set stays, with the closing brace that the end of the text may have left out.
Values are not searched for references. -/
def expandFrom (env : Environment) : Nat → List Char → List Char
  | 0, _ => []
  | _, [] => []
  | fuel + 1, '$' :: '\x7b' :: rest =>
    let name := String.ofList (rest.takeWhile (· ≠ '\x7d'))
    let after := (rest.dropWhile (· ≠ '\x7d')).drop 1
    let shown :=
      match env.find? name with
      | some value => value.toList
      | none => '$' :: '\x7b' :: (name.toList ++ ['\x7d'])
    shown ++ expandFrom env fuel after
  | fuel + 1, c :: rest => c :: expandFrom env fuel rest

/-- A text with its references replaced. -/
def expand (env : Environment) (text : String) : String :=
  String.ofList (expandFrom env (text.toList.length + 1) text.toList)

/-- The names in the references of a text. -/
def referencesFrom : Nat → List Char → List String
  | 0, _ => []
  | _, [] => []
  | fuel + 1, '$' :: '\x7b' :: rest =>
    String.ofList (rest.takeWhile (· ≠ '\x7d')) ::
      referencesFrom fuel ((rest.dropWhile (· ≠ '\x7d')).drop 1)
  | fuel + 1, _ :: rest => referencesFrom fuel rest

/-- The names in the references of a text: no other variables matter to `expand`. -/
def references (text : String) : List String :=
  referencesFrom (text.toList.length + 1) text.toList

/-- The variable that names the home directory. -/
def homeVariable : String := "HOME"

/-- A path with `~/` at its front seen from the home directory, if one is set. -/
def expandHome (env : Environment) (path : String) : String :=
  match path.toList, env.find? homeVariable with
  | '~' :: '/' :: rest, some home => Path.join home (String.ofList rest)
  | _, _ => path

end Environment

end Workflow
