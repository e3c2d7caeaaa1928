import Workflow.Script.Bytes

/-!
# Patterns

The patterns of the string functions. A pattern is a string that is matched item by
item as it stands, without being read into another form first, so that an error in
a pattern shows only where a match gets to it.

An item is a class of bytes with an optional repetition, a capture, a balanced
pair, a frontier, or a reference to an earlier capture. Repetitions try one length
after the other; a match is the first that lets the rest of the pattern match.
-/

namespace Workflow.Script.Pattern

/-! ## Classes of bytes -/

/-- Whether a byte is in the class of a letter; a capital letter stands for the
complement. A letter that names no class stands for itself. -/
def inClass (c letter : UInt8) : Bool :=
  let member : Option Bool := match Char.ofNat (Byte.toLower letter).toNat with
    | 'a' => some (Byte.isLetter c)
    | 'c' => some (Byte.isControl c)
    | 'd' => some (Byte.isDigit c)
    | 'g' => some (Byte.isVisible c)
    | 'l' => some (Byte.isLower c)
    | 'p' => some (Byte.isPunctuation c)
    | 's' => some (Byte.isSpace c)
    | 'u' => some (Byte.isUpper c)
    | 'w' => some (Byte.isAlnum c)
    | 'x' => some (Byte.isHex c)
    | 'z' => some (c = 0)
    | _ => none
  match member with
  | some b => if Byte.isUpper letter then !b else b
  | none => letter = c

/-- The position after the `]` that ends a set, from inside the set. A `]` at the
front is a member. -/
def setEnd (p : Bytes) : Nat → Nat → Bool → Option Nat
  | 0, _, _ => none
  | fuel + 1, i, isFirst =>
    match p.get? i with
    | none => none
    | some 0x25 => if i + 1 < p.size then setEnd p fuel (i + 2) false else none
    | some c => if c = 0x5D && !isFirst then some (i + 1) else setEnd p fuel (i + 1) false

/-- Whether a byte is among the members of a set between two positions. -/
def inMembers (p : Bytes) (c : UInt8) : Nat → Nat → Nat → Bool
  | 0, _, _ => false
  | fuel + 1, i, stop =>
    if stop ≤ i then false
    else
      let m := p.byteAt i
      if m = 0x25 then inClass c (p.byteAt (i + 1)) || inMembers p c fuel (i + 2) stop
      else if p.byteAt (i + 1) = 0x2D && i + 2 < stop then
        (m ≤ c && c ≤ p.byteAt (i + 2)) || inMembers p c fuel (i + 3) stop
      else m = c || inMembers p c fuel (i + 1) stop

/-- Whether a byte is in a set that starts after its bracket and ends before a
position after its other bracket. -/
def inSet (p : Bytes) (c : UInt8) (start stop : Nat) : Bool :=
  let isComplement := p.byteAt start = 0x5E
  let first := if isComplement then start + 1 else start
  let found := inMembers p c (p.size + 1) first (stop - 1)
  if isComplement then !found else found

/-- The position after a single class of bytes, or why there is none. -/
def classEnd (p : Bytes) (i : Nat) : Except String Nat :=
  let c := p.byteAt i
  if c = 0x25 then
    if i + 1 < p.size then .ok (i + 2) else .error "malformed pattern (ends with '%')"
  else if c = 0x5B then
    let start := if p.byteAt (i + 1) = 0x5E then i + 2 else i + 1
    match setEnd p (p.size + 1) start true with
    | some j => .ok j
    | none => .error "malformed pattern (missing ']')"
  else .ok (i + 1)

/-- Whether the byte at a position of the subject is in a class that lies between
two positions of the pattern. -/
def fits (s p : Bytes) (si i stop : Nat) : Bool :=
  match s.get? si with
  | none => false
  | some c =>
    let m := p.byteAt i
    if m = 0x2E then true
    else if m = 0x25 then inClass c (p.byteAt (i + 1))
    else if m = 0x5B then inSet p c (i + 1) stop
    else m = c

/-! ## Captures -/

/-- How far a capture is. -/
inductive Extent where
  /-- it is not closed yet -/
  | isOpen
  /-- it has a length -/
  | length (n : Nat)
  /-- it captures its position -/
  | position
  deriving DecidableEq

/-- A capture. -/
structure Capture where
  /-- where it starts -/
  start : Nat
  /-- how far it is -/
  extent : Extent

/-- The captures so far. -/
abbrev Captures := Array Capture

/-- What a capture holds. -/
inductive Captured where
  /-- a piece of the subject -/
  | piece (s : Bytes)
  /-- a position, counted from one -/
  | position (n : Nat)

/-- The last capture that is not closed. -/
def lastOpen? (cs : Captures) : Option Nat :=
  ((List.range cs.size).reverse).find? fun i =>
    match cs[i]? with
    | some c => decide (c.extent = .isOpen)
    | none => false

/-- What a capture holds, or why that cannot be said. -/
def Capture.value (s : Bytes) (c : Capture) : Except String Captured :=
  match c.extent with
  | .isOpen => .error "unfinished capture"
  | .length n => .ok (.piece (s.extract c.start (c.start + n)))
  | .position => .ok (.position (c.start + 1))

/-! ## Matching -/

/-- The most captures a pattern may have. -/
def maxCaptures : Nat := 32

/-- A match: where it ends and what it captured. -/
abbrev Match := Option (Nat × Captures)

/-- The position after a balanced piece of the subject. -/
def balanced (s : Bytes) (opening closing : UInt8) : Nat → Nat → Nat → Option Nat
  | 0, _, _ => none
  | fuel + 1, i, depth =>
    match s.get? i with
    | none => none
    | some c =>
      if c = closing then
        if depth = 1 then some (i + 1) else balanced s opening closing fuel (i + 1) (depth - 1)
      else balanced s opening closing fuel (i + 1) (if c = opening then depth + 1 else depth)

/-- How many bytes from a position on are in a class. -/
def run (s p : Bytes) (i stop : Nat) : Nat → Nat → Nat
  | 0, _ => 0
  | fuel + 1, si => if fits s p si i stop then run s p i stop fuel (si + 1) + 1 else 0

mutual

/-- Matches the pattern from a position on with the subject from a position on.
`depth` is how many decisions may still be open. -/
def matchFrom (s p : Bytes) : Nat → Nat → Nat → Nat → Captures → Except String Match
  | 0, _, _, _, _ => .error "pattern too complex"
  | fuel + 1, depth, si, pi, cs =>
    if p.size ≤ pi then .ok (some (si, cs))
    else
      let c := p.byteAt pi
      if c = 0x28 then
        if p.byteAt (pi + 1) = 0x29 then nested s p fuel depth si (pi + 2) (cs.push ⟨si, .position⟩)
        else nested s p fuel depth si (pi + 1) (cs.push ⟨si, .isOpen⟩)
      else if c = 0x29 then
        match lastOpen? cs with
        | none => .error "invalid pattern capture"
        | some i =>
          nested s p fuel depth si (pi + 1)
            (cs.modify i fun c => { c with extent := .length (si - c.start) })
      else if c = 0x24 && pi + 1 = p.size then .ok (if si = s.size then some (si, cs) else none)
      else if c = 0x25 then
        let d := p.byteAt (pi + 1)
        if d = 0x62 then
          if p.size < pi + 4 then .error "malformed pattern (missing arguments to '%b')"
          else
            match s.get? si with
            | some b =>
              if b = p.byteAt (pi + 2) then
                match balanced s (p.byteAt (pi + 2)) (p.byteAt (pi + 3)) (s.size + 1) (si + 1) 1 with
                | some after => matchFrom s p fuel depth after (pi + 4) cs
                | none => .ok none
              else .ok none
            | none => .ok none
        else if d = 0x66 then
          if p.byteAt (pi + 2) ≠ 0x5B then .error "missing '[' after '%f' in pattern"
          else
            match classEnd p (pi + 2) with
            | .error e => .error e
            | .ok after =>
              let before := if si = 0 then 0 else s.byteAt (si - 1)
              if !inSet p before (pi + 3) after && inSet p (s.byteAt si) (pi + 3) after then
                matchFrom s p fuel depth si after cs
              else .ok none
        else if Byte.isDigit d then
          let i := d.toNat - 0x31
          match (if d = 0x30 then none else cs[i]?) with
          | some ⟨_, .position⟩ => .ok none
          | some ⟨start, .length n⟩ =>
            if s.size < si + n then .ok none
            else if Bytes.standsAt (s.extract start (start + n)) s si n then
              matchFrom s p fuel depth (si + n) (pi + 2) cs
            else .ok none
          | _ => .error s!"invalid capture index %{d.toNat - 0x30}"
        else item s p fuel depth si pi cs
      else item s p fuel depth si pi cs

/-- Matches what stands inside one more open decision. -/
def nested (s p : Bytes) : Nat → Nat → Nat → Nat → Captures → Except String Match
  | 0, _, _, _, _ => .error "pattern too complex"
  | fuel + 1, depth, si, pi, cs =>
    if maxCaptures < cs.size then .error "too many captures"
    else if depth = 0 then .error "pattern too complex"
    else matchFrom s p fuel (depth - 1) si pi cs

/-- Matches an item that is a class of bytes with its repetition. -/
def item (s p : Bytes) : Nat → Nat → Nat → Nat → Captures → Except String Match
  | 0, _, _, _, _ => .error "pattern too complex"
  | fuel + 1, depth, si, pi, cs =>
    match classEnd p pi with
    | .error e => .error e
    | .ok stop =>
      let mark := if stop < p.size then p.byteAt stop else 0
      if mark = 0x3F then
        if fits s p si pi stop then
          match nested s p fuel depth (si + 1) (stop + 1) cs with
          | .ok none => matchFrom s p fuel depth si (stop + 1) cs
          | r => r
        else matchFrom s p fuel depth si (stop + 1) cs
      else if mark = 0x2B then
        if fits s p si pi stop then
          longest s p fuel depth (si + 1) (stop + 1) (run s p pi stop (s.size + 1) (si + 1)) cs
        else .ok none
      else if mark = 0x2A then
        longest s p fuel depth si (stop + 1) (run s p pi stop (s.size + 1) si) cs
      else if mark = 0x2D then shortest s p fuel depth si pi stop cs
      else if fits s p si pi stop then matchFrom s p fuel depth (si + 1) stop cs
      else .ok none

/-- Tries so many bytes for a repetition, then fewer and fewer. -/
def longest (s p : Bytes) : Nat → Nat → Nat → Nat → Nat → Captures → Except String Match
  | 0, _, _, _, _, _ => .error "pattern too complex"
  | fuel + 1, depth, si, pi, n, cs =>
    match nested s p fuel depth (si + n) pi cs with
    | .ok none => if n = 0 then .ok none else longest s p fuel depth si pi (n - 1) cs
    | r => r

/-- Tries no byte for a repetition, then more and more. -/
def shortest (s p : Bytes) : Nat → Nat → Nat → Nat → Nat → Captures → Except String Match
  | 0, _, _, _, _, _ => .error "pattern too complex"
  | fuel + 1, depth, si, pi, stop, cs =>
    match nested s p fuel depth si (stop + 1) cs with
    | .ok none =>
      if fits s p si pi stop then shortest s p fuel depth (si + 1) pi stop cs else .ok none
    | r => r

end

/-- Matches a pattern, from a position of it on, at a position of a subject. -/
def matchAt (s p : Bytes) (si pi : Nat) : Except String Match :=
  matchFrom s p (3 * (s.size + 2) * (p.size + 2)) 199 si pi #[]

/-- Whether a pattern is tied to the front. -/
def isAnchored (p : Bytes) : Bool := p.byteAt 0 = 0x5E && 0 < p.size

/-- The first match from a position on: where it starts, where it ends, and what it
captured. -/
def search (s p : Bytes) (first : Nat) (isAnchored : Bool) : Nat → Nat →
    Except String (Option (Nat × Nat × Captures))
  | 0, _ => .ok none
  | fuel + 1, si =>
    match matchAt s p si first with
    | .error e => .error e
    | .ok (some (stop, cs)) => .ok (some (si, stop, cs))
    | .ok none =>
      if isAnchored || s.size ≤ si then .ok none else search s p first isAnchored fuel (si + 1)

/-- The bytes that mean something special in a pattern. -/
def marks : List UInt8 := "^$*+?.([%-".toUTF8.data.toList

/-- Whether a pattern stands for itself alone. -/
def isPlain (p : Bytes) : Bool := !p.data.any fun c => marks.contains c

/-- What all captures hold; the whole match if there is none. -/
def values (s : Bytes) (start stop : Nat) (cs : Captures) (withWhole : Bool) :
    Except String (List Captured) :=
  if cs.isEmpty && withWhole then .ok [.piece (s.extract start stop)]
  else cs.toList.mapM (·.value s)

end Workflow.Script.Pattern
