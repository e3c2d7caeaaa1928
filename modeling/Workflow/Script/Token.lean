import Workflow.Script.Number

/-!
# Tokens of scripts

A source is read one token at a time, because a malformed token is reported only
if nothing before it is wrong. `scan` reads the token at the front of what is left
and counts lines as it goes.

A token keeps the text by which messages name it. For most tokens that is how they
are written; for a string, what was read of it with its escapes already replaced.
-/

namespace Workflow.Script

/-- A token without its text. -/
inductive TokenKind where
  /-- a name -/
  | name (n : Bytes)
  /-- a string -/
  | str (s : Bytes)
  /-- a number -/
  | number (n : Numeral)
  /-- a keyword or a mark -/
  | word (w : String)
  /-- the end of the source -/
  | stop

/-- A token. -/
structure Token where
  /-- what it is -/
  kind : TokenKind
  /-- how messages name it -/
  text : Bytes

/-- Why a source is refused. -/
inductive SyntaxFault where
  /-- it is malformed, as noticed in a line -/
  | malformed (line : Nat) (reason : Bytes)
  /-- it nests too deep -/
  | tooDeep

namespace Token

/-- The keywords. -/
def keywords : List String := ["and", "break", "do", "else", "elseif", "end", "false", "for",
  "function", "goto", "if", "in", "local", "nil", "not", "or", "repeat", "return", "then", "true",
  "until", "while"]

/-- A text between single quotes. -/
def ticked (b : Bytes) : Bytes := "'".toUTF8 ++ b ++ "'".toUTF8

/-- The token of a keyword or mark. -/
def ofWord (w : String) : Token := ⟨.word w, ticked w.toUTF8⟩

/-- The token of the end. -/
def ofEnd : Token := ⟨.stop, "<eof>".toUTF8⟩

/-- A reason, and the text near which it was noticed. -/
def near (reason : String) (text : Bytes) : Bytes := reason.toUTF8 ++ " near ".toUTF8 ++ text

/-- A token, what is left after it, and the line there. -/
abbrev Scan := Except SyntaxFault (Token × List UInt8 × Nat)

/-- Fails near a piece of the source. -/
def failNear {α : Type} (line : Nat) (reason : String) (text : List UInt8) : Except SyntaxFault α :=
  .error (.malformed line (near reason (ticked (Bytes.ofList text))))

/-- Fails near the end. -/
def failAtEnd {α : Type} (line : Nat) (reason : String) : Except SyntaxFault α :=
  .error (.malformed line (near reason "<eof>".toUTF8))

/-- Whether a byte may start a name. -/
def startsName (c : UInt8) : Bool := Byte.isLetter c || c = 0x5F

/-- Whether a byte may go on with a name. -/
def continuesName (c : UInt8) : Bool := Byte.isAlnum c || c = 0x5F

/-- Whether a byte ends a line. -/
def isNewline (c : UInt8) : Bool := c = 0x0A || c = 0x0D

/-- Drops the second byte of a line end of two bytes. -/
def dropPair (first : UInt8) : List UInt8 → List UInt8
  | c :: rest => if isNewline c && c ≠ first then rest else c :: rest
  | [] => []

/-! ## Long brackets -/

/-- The level of a long bracket, after its first bracket: the equal signs before the
second one. -/
def bracketLevel? (cs : List UInt8) : Option (Nat × List UInt8) :=
  match cs.dropWhile (· = 0x3D) with
  | 0x5B :: rest => some ((cs.takeWhile (· = 0x3D)).length, rest)
  | _ => none

/-- What follows the closing bracket of a level, after its first bracket. -/
def closing? (level : Nat) (cs : List UInt8) : Option (List UInt8) :=
  if (cs.takeWhile (· = 0x3D)).length = level then
    match cs.drop level with
    | 0x5D :: rest => some rest
    | _ => none
  else none

/-- Reads up to the closing bracket of a level. Answers the content in reverse. -/
def longBody (level : Nat) : Nat → Nat → List UInt8 → List UInt8 →
    Option (List UInt8 × List UInt8 × Nat) × Nat
  | 0, line, _, _ => (none, line)
  | _, line, _, [] => (none, line)
  | fuel + 1, line, acc, c :: rest =>
    if c = 0x5D then
      match closing? level rest with
      | some after => (some (acc, after, line), line)
      | none => longBody level fuel line (c :: acc) rest
    else if isNewline c then longBody level fuel (line + 1) (0x0A :: acc) (dropPair c rest)
    else longBody level fuel line (c :: acc) rest

/-- Reads a long bracket after its opening. A line end at the front is no part of
it. -/
def longBracket (what : String) (level line : Nat) (cs : List UInt8) :
    Except SyntaxFault (Bytes × List UInt8 × Nat) :=
  let (start, cs) := match cs with
    | c :: rest => if isNewline c then (line + 1, dropPair c rest) else (line, c :: rest)
    | [] => (line, [])
  match longBody level (cs.length + 1) start [] cs with
  | (some (acc, rest, line), _) => .ok (Bytes.ofList acc.reverse, rest, line)
  | (none, reached) =>
    failAtEnd reached ("unfinished long " ++ what ++ " (starting at line " ++ toString line ++ ")")

/-! ## Short strings -/

/-- The bytes of a code point, up to six of them. -/
def codeBytes (n : Nat) : List UInt8 :=
  if n < 0x80 then [UInt8.ofNat n]
  else
    let rec tail (fuel n firstMax : Nat) (acc : List UInt8) : List UInt8 :=
      match fuel with
      | 0 => acc
      | fuel + 1 =>
        if n ≤ firstMax then UInt8.ofNat ((2 * (127 - firstMax)) % 256 + n) :: acc
        else tail fuel (n / 64) (firstMax / 2) (UInt8.ofNat (0x80 + n % 64) :: acc)
    tail 6 (n / 64) 0x1F [UInt8.ofNat (0x80 + n % 64)]

/-- The escapes of one letter. -/
def plainEscape? (c : UInt8) : Option UInt8 :=
  match Char.ofNat c.toNat with
  | 'a' => some 0x07
  | 'b' => some 0x08
  | 'f' => some 0x0C
  | 'n' => some 0x0A
  | 'r' => some 0x0D
  | 't' => some 0x09
  | 'v' => some 0x0B
  | '\\' => some 0x5C
  | '"' => some 0x22
  | '\'' => some 0x27
  | _ => none

/-- An escape that is refused: the bytes that made it so are shown. -/
def failEscape {α : Type} (line : Nat) (reason : String) (acc shown rest : List UInt8) :
    Except SyntaxFault α :=
  failNear line reason (acc.reverse ++ 0x5C :: shown ++ rest.take 1)

/-- Reads the digits of a code point in braces, up to the closing brace. -/
def codePoint (line : Nat) (acc : List UInt8) :
    Nat → Nat → List UInt8 → List UInt8 → Except SyntaxFault (Nat × List UInt8)
  | 0, _, shown, rest => failEscape line "UTF-8 value too large" acc shown rest
  | fuel + 1, n, shown, rest =>
    match rest with
    | c :: more =>
      match Byte.hexValue? c with
      | some d =>
        if 0x7FFFFFFF / 16 < n then failEscape line "UTF-8 value too large" acc shown rest
        else codePoint line acc fuel (n * 16 + d) (shown ++ [c]) more
      | none =>
        if c = 0x7D then .ok (n, more) else failEscape line "missing '\x7d'" acc shown rest
    | [] => failEscape line "missing '\x7d'" acc shown rest

/-- Drops blanks and line ends, counting lines. -/
def skipBlank : Nat → Nat → List UInt8 → List UInt8 × Nat
  | 0, line, cs => (cs, line)
  | fuel + 1, line, cs =>
    match cs with
    | c :: rest =>
      if isNewline c then skipBlank fuel (line + 1) (dropPair c rest)
      else if Byte.isSpace c then skipBlank fuel line rest
      else (cs, line)
    | [] => ([], line)

/-- What an escape stands for, what follows it, and the line there. The backslash
was read; `acc` holds what was read of the string, in reverse. -/
def escape (line : Nat) (acc : List UInt8) (cs : List UInt8) :
    Except SyntaxFault (List UInt8 × List UInt8 × Nat) :=
  match cs with
  | [] => failAtEnd line "unfinished string"
  | c :: rest =>
    match plainEscape? c with
    | some b => .ok ([b], rest, line)
    | none =>
      if isNewline c then .ok ([0x0A], dropPair c rest, line + 1)
      else if c = 0x78 then
        match rest with
        | h :: l :: more =>
          match Byte.hexValue? h, Byte.hexValue? l with
          | some a, some b => .ok ([UInt8.ofNat (a * 16 + b)], more, line)
          | none, _ => failEscape line "hexadecimal digit expected" acc [c] rest
          | some _, none => failEscape line "hexadecimal digit expected" acc [c, h] (l :: more)
        | [h] =>
          if Byte.isHex h then failEscape line "hexadecimal digit expected" acc [c, h] []
          else failEscape line "hexadecimal digit expected" acc [c] [h]
        | [] => failEscape line "hexadecimal digit expected" acc [c] []
      else if c = 0x7A then
        let (rest, line) := skipBlank (rest.length + 1) line rest
        .ok ([], rest, line)
      else if c = 0x75 then
        match rest with
        | 0x7B :: d :: more =>
          match Byte.hexValue? d with
          | some n => do
            let (n, rest) ← codePoint line acc 12 n [c, 0x7B, d] more
            .ok (codeBytes n, rest, line)
          | none => failEscape line "hexadecimal digit expected" acc [c, 0x7B] (d :: more)
        | [0x7B] => failEscape line "hexadecimal digit expected" acc [c, 0x7B] []
        | _ => failEscape line "missing '\x7b'" acc [c] rest
      else if Byte.isDigit c then
        let digits := ((c :: rest).take 3).takeWhile Byte.isDigit
        let n := Numeral.foldDecimal 0 digits
        let after := (c :: rest).drop digits.length
        if 255 < n then failEscape line "decimal escape too large" acc digits after
        else .ok ([UInt8.ofNat n], after, line)
      else failEscape line "invalid escape sequence" acc [] cs

/-- Reads a string up to its closing quote. `acc` holds what was read of it, the
opening quote included, in reverse. -/
def stringBody (quote : UInt8) : Nat → Nat → List UInt8 → List UInt8 →
    Except SyntaxFault (List UInt8 × List UInt8 × Nat)
  | 0, line, _, _ => failAtEnd line "unfinished string"
  | fuel + 1, line, acc, cs =>
    match cs with
    | [] => failAtEnd line "unfinished string"
    | c :: rest =>
      if c = quote then .ok (c :: acc, rest, line)
      else if isNewline c then failNear line "unfinished string" acc.reverse
      else if c = 0x5C then do
        let (bs, rest, line) ← escape line acc rest
        stringBody quote fuel line (bs.reverse ++ acc) rest
      else stringBody quote fuel line (c :: acc) rest

/-- Reads a string after its opening quote. -/
def shortString (quote : UInt8) (line : Nat) (cs : List UInt8) : Scan := do
  let (acc, rest, line) ← stringBody quote (cs.length + 1) line [quote] cs
  let raw := acc.reverse
  let content := Bytes.ofList (raw.drop 1).dropLast
  .ok (⟨.str content, ticked (Bytes.ofList raw)⟩, rest, line)

/-! ## Numbers -/

/-- Splits the bytes of a numeral off the front: digits, points, and exponents with
their signs. -/
def numeralBytes (isExponent : UInt8 → Bool) : Nat → List UInt8 → List UInt8 × List UInt8
  | 0, cs => ([], cs)
  | fuel + 1, cs =>
    match cs with
    | c :: rest =>
      if isExponent c then
        match rest with
        | s :: more =>
          if s = 0x2B || s = 0x2D then
            let (ds, r) := numeralBytes isExponent fuel more
            (c :: s :: ds, r)
          else
            let (ds, r) := numeralBytes isExponent fuel rest
            (c :: ds, r)
        | [] => ([c], [])
      else if Byte.isHex c || c = 0x2E then
        let (ds, r) := numeralBytes isExponent fuel rest
        (c :: ds, r)
      else ([], cs)
    | [] => ([], [])

/-- Reads a number. A letter that touches it is taken along and makes it
malformed. -/
def number (line : Nat) (cs : List UInt8) : Scan :=
  let (mark, body) := match cs with
    | 0x30 :: c :: rest => if c = 0x78 || c = 0x58 then ([0x30, c], rest) else ([], cs)
    | _ => ([], cs)
  let isExponent (c : UInt8) : Bool :=
    if mark.isEmpty then c = 0x45 || c = 0x65 else c = 0x50 || c = 0x70
  let (ds, rest) := numeralBytes isExponent (body.length + 1) body
  let (extra, rest) := match rest with
    | c :: more => if startsName c then ([c], more) else ([], rest)
    | [] => ([], [])
  let text := mark ++ ds ++ extra
  match Numeral.readBytes? text with
  | some n => .ok (⟨.number n, ticked (Bytes.ofList text)⟩, rest, line)
  | none => failNear line "malformed number" text

/-! ## Marks -/

/-- The marks of more than one character, the longer ones first. -/
def longMarks : List String :=
  ["...", "..", "==", "~=", "<=", ">=", "//", "<<", ">>", "::"]

/-- The bytes of a mark if they stand at the front. -/
def mark? (cs : List UInt8) : Option String :=
  longMarks.find? fun m => (m.toList.map fun c => UInt8.ofNat c.toNat).isPrefixOf cs

/-- How messages name a single character. -/
def characterText (c : UInt8) : Bytes :=
  if 0x20 ≤ c && c ≤ 0x7E then ticked (Bytes.single c)
  else ("'<\\" ++ toString c.toNat ++ ">'").toUTF8

/-- A character as a mark of its own. -/
def ofCharacter (c : UInt8) : Token :=
  ⟨.word (if c < 0x80 then String.singleton (Char.ofNat c.toNat) else "\\" ++ toString c.toNat),
    characterText c⟩

/-! ## One token -/

/-- Reads the next token of a source. -/
def scan : Nat → Nat → List UInt8 → Scan
  | 0, line, _ => .ok (ofEnd, [], line)
  | _, line, [] => .ok (ofEnd, [], line)
  | fuel + 1, line, c :: rest =>
    if isNewline c then scan fuel (line + 1) (dropPair c rest)
    else if Byte.isSpace c then scan fuel line rest
    else if startsName c then
      let name := (c :: rest).takeWhile continuesName
      let after := (c :: rest).dropWhile continuesName
      let bytes := Bytes.ofList name
      let word := String.ofList (name.map fun c => Char.ofNat c.toNat)
      if keywords.contains word then .ok (ofWord word, after, line)
      else .ok (⟨.name bytes, ticked bytes⟩, after, line)
    else if Byte.isDigit c then number line (c :: rest)
    else if c = 0x22 || c = 0x27 then shortString c line rest
    else if c = 0x2D then
      match rest with
      | 0x2D :: after =>
        let long : Option (Nat × List UInt8) := match after with
          | 0x5B :: more => bracketLevel? more
          | _ => none
        match long with
        | some (level, body) => do
          let (_, rest, line) ← longBracket "comment" level line body
          scan fuel line rest
        | none => scan fuel line (after.dropWhile fun c => !isNewline c)
      | _ => .ok (ofCharacter c, rest, line)
    else if c = 0x5B then
      match bracketLevel? rest with
      | some (level, body) => do
        let (content, rest, line) ← longBracket "string" level line body
        let signs := List.replicate level 0x3D
        let written := Bytes.ofList ([0x5B] ++ signs ++ [0x5B]) ++ content ++
          Bytes.ofList ([0x5D] ++ signs ++ [0x5D])
        .ok (⟨.str content, ticked written⟩, rest, line)
      | none =>
        match rest with
        | 0x3D :: _ => failNear line "invalid long string delimiter" (c :: rest.takeWhile (· = 0x3D))
        | _ => .ok (ofCharacter c, rest, line)
    else if c = 0x2E && (match rest with
        | d :: _ => Byte.isDigit d
        | [] => false) then number line (c :: rest)
    else
      match mark? (c :: rest) with
      | some m => .ok (ofWord m, (c :: rest).drop m.length, line)
      | none => .ok (ofCharacter c, rest, line)

end Token

end Workflow.Script
