import FlowEvents.Json.Basic

/-! # Taking a text apart

`Json.parse` reads a value off the front of a text and returns what is left.  It never fails: where
the text breaks the grammar the value is malformed and nothing is left.  So whoever reads the value
from left to right learns what a reader of the text would, in the same order, and meets the break
only after everything in front of it.

Blanks are the space, the tab, the line feed and the carriage return.  Nesting is not limited here.
-/

namespace FlowEvents.Json

open Decimal (Literal)

namespace Parser

def isBlank (c : Char) : Bool :=
  c == ' ' || c == '\t' || c == '\n' || c == '\r'

def skipBlanks (cs : List Char) : List Char :=
  cs.dropWhile isBlank

/-! ## Strings -/

/-- What stands for a character, or for half of one, in a string. -/
inductive Piece where
  | char (c : Char)
  /-- A sixteen-bit unit written by its number. -/
  | unit (n : Nat)

def hexValue? (c : Char) : Option Nat :=
  if c.isDigit then some (c.toNat - '0'.toNat)
  else if 'a' ≤ c ∧ c ≤ 'f' then some (c.toNat - 'a'.toNat + 10)
  else if 'A' ≤ c ∧ c ≤ 'F' then some (c.toNat - 'A'.toNat + 10)
  else none

def unit? (a b c d : Char) : Option Nat := do
  let a ← hexValue? a
  let b ← hexValue? b
  let c ← hexValue? c
  let d ← hexValue? d
  return ((a * 16 + b) * 16 + c) * 16 + d

def letter? : Char → Option Char
  | '"' => some '"'
  | '\\' => some '\\'
  | '/' => some '/'
  | 'b' => some '\x08'
  | 'f' => some '\x0c'
  | 'n' => some '\n'
  | 'r' => some '\r'
  | 't' => some '\t'
  | _ => none

/-- The pieces up to the closing quote, and the text after it. -/
def pieces? : List Char → Option (List Piece × List Char)
  | [] => none
  | '"' :: cs => some ([], cs)
  | '\\' :: 'u' :: a :: b :: c :: d :: cs =>
    match unit? a b c d with
    | none => none
    | some n => (pieces? cs).map fun (ps, rest) => (.unit n :: ps, rest)
  | '\\' :: c :: cs =>
    match letter? c with
    | none => none
    | some c => (pieces? cs).map fun (ps, rest) => (.char c :: ps, rest)
  | c :: cs =>
    if c.toNat < 0x20 ∨ c = '\\' then none
    else (pieces? cs).map fun (ps, rest) => (.char c :: ps, rest)

/-- True of the first half of a surrogate pair. -/
def isHigh (n : Nat) : Bool := 0xd800 ≤ n && n < 0xdc00

/-- True of the second half of a surrogate pair. -/
def isLow (n : Nat) : Bool := 0xdc00 ≤ n && n < 0xe000

/-- The characters that the pieces write, unless half of a pair stands alone. -/
def assemble : List Piece → Except Flaw (List Char)
  | [] => .ok []
  | .char c :: ps => (assemble ps).map (c :: ·)
  | .unit n :: ps =>
    if isHigh n then
      match ps with
      | .unit m :: ps =>
        if isLow m then
          (assemble ps).map (Char.ofNat (0x10000 + (n - 0xd800) * 0x400 + (m - 0xdc00)) :: ·)
        else .error .loneHalf
      | _ => .error .openHalf
    else if isLow n then .error .loneHalf
    else (assemble ps).map (Char.ofNat n :: ·)

def spelled (ps : List Piece) : Name :=
  match assemble ps with
  | .ok cs => .plain (String.ofList cs)
  | .error flaw => .flawed flaw

/-- The string whose opening quote has been passed, and the text after it; `none` if the string
breaks.  If half of a pair stands alone, there is a text after it all the same. -/
def string? (cs : List Char) : Option (Name × List Char) :=
  (pieces? cs).map fun (ps, rest) => (spelled ps, rest)

def string (cs : List Char) : Json × List Char :=
  match string? cs with
  | some (.plain s, rest) => (str s, rest)
  | some (.flawed flaw, rest) => (flawed flaw, rest)
  | none => (flawed .malformed, [])

/-- The name at the front of a text, and the text behind the colon that must follow it; without the
colon nothing is left.  `none` if no string stands there. -/
def name? (cs : List Char) : Option (Name × Option (List Char)) :=
  match skipBlanks cs with
  | '"' :: cs =>
    (string? cs).map fun (name, cs) =>
      match skipBlanks cs with
      | ':' :: cs => (name, some cs)
      | _ => (name, none)
  | _ => none

def number (cs : List Char) : Json × List Char :=
  match Literal.read? cs with
  | none => (flawed .malformed, [])
  | some (n, rest) => (num n, rest)

/-! ## Values -/

/-- What stands where no member does. -/
def nameless : Name × Json :=
  (.flawed .malformed, flawed .malformed)

mutual

def value : Nat → List Char → Json × List Char
  | 0, _ => (flawed .malformed, [])
  | fuel + 1, cs =>
    match skipBlanks cs with
    | 'n' :: 'u' :: 'l' :: 'l' :: cs => (null, cs)
    | 't' :: 'r' :: 'u' :: 'e' :: cs => (bool true, cs)
    | 'f' :: 'a' :: 'l' :: 's' :: 'e' :: cs => (bool false, cs)
    | '"' :: cs => string cs
    | '[' :: cs =>
      match skipBlanks cs with
      | ']' :: cs => (arr [], cs)
      | cs =>
        let (items, cs) := items fuel cs
        (arr items, cs)
    | '\x7b' :: cs =>
      match skipBlanks cs with
      | '\x7d' :: cs => (obj [], cs)
      | cs =>
        let (members, cs) := members fuel cs
        (obj members, cs)
    | cs => number cs

/-- The items from one that must be there to the closing bracket. -/
def items : Nat → List Char → List Json × List Char
  | 0, _ => ([flawed .malformed], [])
  | fuel + 1, cs =>
    let (item, cs) := value fuel cs
    match skipBlanks cs with
    | ']' :: cs => ([item], cs)
    | ',' :: cs =>
      let (rest, cs) := items fuel cs
      (item :: rest, cs)
    | _ => ([item, flawed .malformed], [])

/-- The members from one that must be there to the closing brace. -/
def members : Nat → List Char → List (Name × Json) × List Char
  | 0, _ => ([nameless], [])
  | fuel + 1, cs =>
    match name? cs with
    | none => ([nameless], [])
    | some (name, none) => ([(name, flawed .malformed)], [])
    | some (name, some cs) =>
      let (value, cs) := value fuel cs
      match skipBlanks cs with
      | '\x7d' :: cs => ([(name, value)], cs)
      | ',' :: cs =>
        let (rest, cs) := members fuel cs
        ((name, value) :: rest, cs)
      | _ => ([(name, value), nameless], [])

end

end Parser

/-- The value at the front of a text, and what is left of the text.  Each step of nesting, and each
further item or member, costs at least one character for every two units of fuel. -/
def parse (cs : List Char) : Json × List Char :=
  Parser.value (2 * cs.length + 2) cs

end FlowEvents.Json
