import BenchMetrics.Json.Basic
/-! The lexemes of a JSON text, found by a machine that sees one character at a time. A number
or word ends where the next character cannot go on with it; no two of them may stand side by
side, so the longest choice is the only one that can succeed. -/
namespace BenchMetrics.Json

inductive Lexeme where
  | openArray
  | closeArray
  | openObject
  | closeObject
  | colon
  | comma
  /-- `null`, a truth value or a number. -/
  | literal (value : Json)
  /-- A string, or none if its escapes name a lone surrogate. -/
  | text (s : Option String)

/-- One element of a string between its quotes. -/
inductive Piece where
  | char (c : Char)
  /-- A UTF-16 unit written as an escape. -/
  | unit (n : Nat)

def isHighSurrogate (n : Nat) : Bool := 0xD800 ≤ n && n < 0xDC00
def isLowSurrogate (n : Nat) : Bool := 0xDC00 ≤ n && n < 0xE000

/-- Joins surrogate pairs; a surrogate without its partner has no text. -/
def joinPieces : List Piece → Option (List Char)
  | [] => some []
  | .char c :: ps => (joinPieces ps).map (c :: ·)
  | .unit hi :: .unit lo :: ps =>
    if isHighSurrogate hi then
      if isLowSurrogate lo then
        (joinPieces ps).map
          (Char.ofNat (0x10000 + (hi - 0xD800) * 0x400 + (lo - 0xDC00)) :: ·)
      else none
    else if isLowSurrogate hi then none
    else (joinPieces (.unit lo :: ps)).map (Char.ofNat hi :: ·)
  | .unit n :: ps =>
    if isHighSurrogate n || isLowSurrogate n then none
    else (joinPieces ps).map (Char.ofNat n :: ·)

def digitValue? (c : Char) : Option Nat :=
  if '0' ≤ c ∧ c ≤ '9' then some (c.toNat - '0'.toNat)
  else if 'a' ≤ c ∧ c ≤ 'f' then some (c.toNat - 'a'.toNat + 10)
  else if 'A' ≤ c ∧ c ≤ 'F' then some (c.toNat - 'A'.toNat + 10)
  else none

/-- The number that a run of decimal digits writes. -/
def digitsValue (cs : List Char) : Nat :=
  cs.foldl (fun n c => 10 * n + (c.toNat - '0'.toNat)) 0

/-- A number that cannot be told from zero, or from one past every float, by its magnitude
alone is not computed. -/
def floatOf (negative : Bool) (coefficient : Nat) (exponent : Int) : Json :=
  let digits : Int := (Nat.toDigits 10 coefficient).length
  let magnitude : Float :=
    if coefficient = 0 then 0.0
    else if exponent + digits > 310 then Float.ofScientific 1 false 400
    else if exponent + digits < -330 then 0.0
    else Float.ofScientific coefficient (exponent < 0) exponent.natAbs
  if magnitude.isFinite then .float (if negative then -magnitude else magnitude)
  else .unreadable

/-- The digits of an exponent with its sign. -/
def exponent? (cs : List Char) : Option Int :=
  let (negative, digits) := match cs with
    | '-' :: r => (true, r)
    | '+' :: r => (false, r)
    | r => (false, r)
  if digits.isEmpty || !digits.all Char.isDigit then none
  else some (if negative then -(digitsValue digits : Int) else digitsValue digits)

/-- A number has no leading zero, and a digit on both sides of its point. An integer that 64
bits cannot hold is a float, and so is `-0`. -/
def number? (cs : List Char) : Option Json :=
  let (negative, body) := match cs with
    | '-' :: r => (true, r)
    | r => (false, r)
  let whole := body.takeWhile Char.isDigit
  let rest := body.dropWhile Char.isDigit
  if whole.isEmpty || (whole.length > 1 && whole.head? == some '0') then none
  else
    let (fraction, rest) := match rest with
      | '.' :: r => (some (r.takeWhile Char.isDigit), r.dropWhile Char.isDigit)
      | r => (none, r)
    if fraction == some [] then none
    else
      let digits := whole ++ fraction.getD []
      let shift : Int := (fraction.getD []).length
      match rest with
      | [] =>
        let n := digitsValue whole
        let i : Int := if negative then -(n : Int) else n
        if fraction.isNone && holdsInt i && !(negative && n == 0) then some (.int i)
        else some (floatOf negative (digitsValue digits) (-shift))
      | c :: r =>
        if c == 'e' || c == 'E' then
          (exponent? r).map fun e => floatOf negative (digitsValue digits) (e - shift)
        else none

def word? : List Char → Option Json
  | ['n', 'u', 'l', 'l'] => some .null
  | ['t', 'r', 'u', 'e'] => some (.bool true)
  | ['f', 'a', 'l', 's', 'e'] => some (.bool false)
  | _ => none

/-- What the machine is in the middle of; collected characters stand in reverse. -/
inductive Reading where
  | between
  | word (taken : List Char)
  | number (taken : List Char)
  | text (taken : List Piece)
  | escape (taken : List Piece)
  /-- Inside a code point escape: digits still to come and their value so far. -/
  | unit (taken : List Piece) (missing value : Nat)

/-- The state of the machine, with the lexemes found so far in reverse. -/
structure Scan where
  reading : Reading
  found : List Lexeme

def isNumberChar (c : Char) : Bool :=
  c.isDigit || c == '-' || c == '+' || c == '.' || c == 'e' || c == 'E'

/-- The first character of a lexeme, or white space. -/
def Scan.start (found : List Lexeme) (c : Char) : Option Scan :=
  if c == ' ' || c == '\n' || c == '\t' || c == '\r' then some ⟨.between, found⟩
  else if c == '[' then some ⟨.between, .openArray :: found⟩
  else if c == ']' then some ⟨.between, .closeArray :: found⟩
  else if c == '\x7b' then some ⟨.between, .openObject :: found⟩
  else if c == '\x7d' then some ⟨.between, .closeObject :: found⟩
  else if c == ':' then some ⟨.between, .colon :: found⟩
  else if c == ',' then some ⟨.between, .comma :: found⟩
  else if c == '"' then some ⟨.text [], found⟩
  else if c.isDigit || c == '-' then some ⟨.number [c], found⟩
  else if c.isLower then some ⟨.word [c], found⟩
  else none

/-- The single characters that an escape may name. -/
def escaped? (c : Char) : Option Char :=
  match c with
  | '"' => some '"'
  | '\\' => some '\\'
  | '/' => some '/'
  | 'b' => some '\x08'
  | 'f' => some '\x0c'
  | 'n' => some '\n'
  | 'r' => some '\r'
  | 't' => some '\t'
  | _ => none

def Scan.step (s : Scan) (c : Char) : Option Scan :=
  match s.reading with
  | .between => Scan.start s.found c
  | .word taken =>
    if c.isLower then some ⟨.word (c :: taken), s.found⟩
    else (word? taken.reverse).bind fun j => Scan.start (.literal j :: s.found) c
  | .number taken =>
    if isNumberChar c then some ⟨.number (c :: taken), s.found⟩
    else (number? taken.reverse).bind fun j => Scan.start (.literal j :: s.found) c
  | .text taken =>
    if c == '"' then
      some ⟨.between, .text ((joinPieces taken.reverse).map String.ofList) :: s.found⟩
    else if c == '\\' then some ⟨.escape taken, s.found⟩
    else if c.toNat < 0x20 then none
    else some ⟨.text (.char c :: taken), s.found⟩
  | .escape taken =>
    if c == 'u' then some ⟨.unit taken 4 0, s.found⟩
    else (escaped? c).map fun e => ⟨.text (.char e :: taken), s.found⟩
  | .unit taken missing value =>
    (digitValue? c).map fun d =>
      let value := 16 * value + d
      if missing ≤ 1 then ⟨.text (.unit value :: taken), s.found⟩
      else ⟨.unit taken (missing - 1) value, s.found⟩

def Scan.finish (s : Scan) : Option (List Lexeme) :=
  match s.reading with
  | .between => some s.found.reverse
  | .word taken => (word? taken.reverse).map fun j => (.literal j :: s.found).reverse
  | .number taken => (number? taken.reverse).map fun j => (.literal j :: s.found).reverse
  | _ => none

def lexemes (cs : List Char) : Option (List Lexeme) :=
  (cs.foldlM Scan.step ⟨.between, []⟩).bind Scan.finish

end BenchMetrics.Json
