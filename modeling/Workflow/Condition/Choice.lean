import Workflow.Condition.Comparison
import Workflow.Definition

/-!
# Choosing an edge

After a node has run, one of the edges that leave it is followed, or none. The
rules are tried in order and the first that decides wins:

1. the only edge is taken, whatever its label;
2. the first edge whose label is a comparison that holds;
3. the first edge labelled `else`;
4. if any label reads like a condition, no edge;
5. the variable that the node's metadata asks for, found in a label;
6. a node labelled `if <var>[:<path>] is <value>`: by a pair of yes and no
   labels, else by the variable's text found in a label;
7. a node labelled `check <var>[:<path>]`, by a pair of yes and no labels;
8. the first edge.

Rules 5 to 7 look at the node, and are reached only if no label reads like a
condition.
-/

namespace Workflow.Choice

/-! ## Words for yes and no -/

/-- What a word says, if it is one of the words for yes and no. -/
def synonym? (text : String) : Option Bool :=
  match Text.trimmed text with
  | "true" | "yes" | "y" | "1" => some true
  | "false" | "no" | "n" | "0" => some false
  | _ => none

/-- Which side a value is on. -/
def side : Json → Bool
  | .bool b => b
  | .num n => n.toFloat != 0.0
  | .str s => (synonym? (Text.lowered s)).getD (!Text.isBlankText s)
  | .null => false
  | .arr _ => true
  | .obj _ => true

/-- The edge for yes and the edge for no, if there are two edges and their
labels are a word for each. -/
def yesNo? : List Edge → Option (Edge × Edge)
  | [a, b] =>
    match synonym? (Text.lowered a.labelText), synonym? (Text.lowered b.labelText) with
    | some true, some false => some (a, b)
    | some false, some true => some (b, a)
    | _, _ => none
  | _ => none

/-! ## Labels of nodes -/

/-- A reference in a node label, and the value it is tested for. -/
structure Question where
  /-- the variable -/
  var : String
  /-- the path into it -/
  path : Option String
  /-- the value asked for, where one is -/
  value : String
  deriving DecidableEq, Repr

/-- Whether a character may stand in a reference of a node label. -/
def isRefChar (c : Char) : Bool := Text.isWord c || c = '$' || c = '.' || c = '-'

/-- Whether a character is a small letter in any case. The long s is an s. -/
def isLetter (small c : Char) : Bool :=
  Text.asciiLower c = small || (small = 's' && c = 'ſ') || (small = 'k' && c = '\u212A')

/-- Removes a word, in any case, from the front. -/
def dropWord? : List Char → List Char → Option (List Char)
  | [], cs => some cs
  | _ :: _, [] => none
  | w :: ws, c :: cs => if isLetter w c then dropWord? ws cs else none

/-- Removes blanks from the front; there must be some. -/
def dropBlanks? (cs : List Char) : Option (List Char) :=
  match cs with
  | c :: rest => if Text.isBlank c then some (Text.trimStart rest) else none
  | [] => none

/-- Reads a reference `var` or `var:path`. -/
def reference? (cs : List Char) : Option (String × Option String × List Char) :=
  let var := cs.takeWhile isRefChar
  let rest := cs.dropWhile isRefChar
  if var.isEmpty then none
  else
    match rest with
    | ':' :: more =>
      let path := more.takeWhile isRefChar
      if path.isEmpty then some (String.ofList var, none, rest)
      else some (String.ofList var, some (String.ofList path), more.dropWhile isRefChar)
    | _ => some (String.ofList var, none, rest)

/-- The value asked for by the rest of a node label behind `is`. -/
def valueIn (cs : List Char) : Option (List Char) :=
  (Comparison.afterBlanks 1 cs).findSome? (Comparison.shortestBefore '?')

/-- The question in a node label `if <var>[:<path>] is <value>`. -/
def ifIs? (label : String) : Option Question := do
  let cs ← dropWord? ['i', 'f'] (Text.trimStart label.toList)
  let cs ← dropBlanks? cs
  let (var, path, cs) ← reference? cs
  let cs ← dropBlanks? cs
  let cs ← dropWord? ['i', 's'] cs
  let _ ← dropBlanks? cs
  let value ← valueIn cs
  return ⟨var, path, String.ofList value⟩

/-- The question in a node label `check <var>[:<path>]`. -/
def check? (label : String) : Option Question := do
  let cs ← dropWord? ['c', 'h', 'e', 'c', 'k'] (Text.trimStart label.toList)
  let cs ← dropBlanks? cs
  let (var, path, cs) ← reference? cs
  if Comparison.ends '?' cs then return ⟨var, path, ""⟩ else none

/-- The value that a question is about; null counts as none. -/
def Question.actual? (q : Question) (vars : Vars) : Option Json :=
  (vars.getPath? q.var q.path).bind Comparison.unlessNull

/-- The value asked for, without quotes and in lower case. -/
def Question.expected (q : Question) : String :=
  let cs := Text.trim q.value.toList
  Text.lowered (String.ofList ((Literal.unquote? cs).getD cs))

/-! ## The rules -/

/-- Whether a text occurs in another. -/
def occursIn (needle : List Char) : List Char → Bool
  | [] => needle.isEmpty
  | c :: cs => needle.isPrefixOf (c :: cs) || occursIn needle cs

/-- The first edge whose label holds a text, which is in lower case; an empty
text is held by none. -/
def labelled? (edges : List Edge) (wanted : String) : Option Edge :=
  if wanted.isEmpty then none
  else edges.find? fun e => occursIn wanted.toList (Text.lowered e.labelText).toList

/-- The text of a value as it is looked for in labels. -/
def wantedText (v : Option Json) : String :=
  (v.map fun v => Text.lowered (Text.trimmed (Comparison.valueText v))).getD ""

/-- Whether the label of an edge is a comparison that holds. -/
def matchesLabel (vars : Vars) (e : Edge) : Bool :=
  match Comparison.parse? e.labelText with
  | some c => c.holds vars
  | none => false

/-- Whether an edge is labelled `else`. -/
def isElse (e : Edge) : Bool := Text.sameIgnoringCase e.labelText "else"

/-- Rule 5. -/
def byCheckVar (edges : List Edge) (vars : Vars) (node : Node) : Option Edge :=
  node.checkVar?.bind fun (var, path) => labelled? edges (wantedText (vars.getPath? var path))

/-- Whether a value is what a question asks for. -/
def Question.answeredBy (q : Question) (actual : Option Json) : Bool :=
  match synonym? q.expected with
  | some expected => actual.map side = some expected
  | none =>
    match actual with
    | some v =>
      let text := Text.lowered (Comparison.valueText v)
      !text.isEmpty && occursIn q.expected.toList text.toList
    | none => false

/-- Rule 6. -/
def byIfIs (edges : List Edge) (vars : Vars) (node : Node) : Option Edge :=
  (ifIs? node.displayLabel).bind fun q =>
    let actual := q.actual? vars
    match yesNo? edges with
    | some (yes, no) => some (if q.answeredBy actual then yes else no)
    | none => labelled? edges (wantedText actual)

/-- Rule 7. -/
def byCheck (edges : List Edge) (vars : Vars) (node : Node) : Option Edge :=
  (check? node.displayLabel).bind fun q =>
    (yesNo? edges).map fun (yes, no) => if (q.actual? vars).isSome then yes else no

/-- The edge to follow out of a node, among the edges that leave it. -/
def chooseEdge (edges : List Edge) (vars : Vars) (node : Node) : Option Edge :=
  match edges with
  | [] => none
  | [only] => some only
  | first :: _ =>
    match edges.find? (matchesLabel vars) with
    | some e => some e
    | none =>
      match edges.find? isElse with
      | some e => some e
      | none =>
        if edges.any fun e => Comparison.looksConditional e.labelText then none
        else
          some ((((byCheckVar edges vars node).or (byIfIs edges vars node)).or
            (byCheck edges vars node)).getD first)

end Workflow.Choice
