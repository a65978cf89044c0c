import FlowEvents.Json.Basic

/-! # Writing JSON

The compact form: no blanks, members in the order given.  In a string the quote, the backslash and
the controls below U+0020 are escaped, five of them by a letter; every other character stands as it
is.  What is not JSON has no text.
-/

namespace FlowEvents.Json

namespace Text

def fourHex (n : Nat) : List Char :=
  let digits := Nat.toDigits 16 n
  List.replicate (4 - digits.length) '0' ++ digits

/-- How one character is written in a string. -/
def escape (c : Char) : List Char :=
  match c with
  | '"' => ['\\', '"']
  | '\\' => ['\\', '\\']
  | '\x08' => ['\\', 'b']
  | '\x0c' => ['\\', 'f']
  | '\n' => ['\\', 'n']
  | '\r' => ['\\', 'r']
  | '\t' => ['\\', 't']
  | c => if c.toNat < 0x20 then ['\\', 'u'] ++ fourHex c.toNat else [c]

def string (s : String) : List Char :=
  '"' :: s.toList.flatMap escape ++ ['"']

def name : Name → List Char
  | .plain s => string s
  | .flawed _ => []

end Text

mutual

def text : Json → List Char
  | null => ['n', 'u', 'l', 'l']
  | bool true => ['t', 'r', 'u', 'e']
  | bool false => ['f', 'a', 'l', 's', 'e']
  | num n => n.text
  | str s => Text.string s
  | arr [] => ['[', ']']
  | arr (item :: items) => '[' :: text item ++ itemsText items
  | obj [] => ['\x7b', '\x7d']
  | obj ((name, value) :: members) =>
    '\x7b' :: Text.name name ++ ':' :: text value ++ membersText members
  | flawed _ => []

/-- The items after the first, each behind a comma, and the bracket that closes the array. -/
def itemsText : List Json → List Char
  | [] => [']']
  | item :: items => ',' :: text item ++ itemsText items

/-- The members after the first, each behind a comma, and the brace that closes the object. -/
def membersText : List (Name × Json) → List Char
  | [] => ['\x7d']
  | (name, value) :: members =>
    ',' :: Text.name name ++ ':' :: text value ++ membersText members

end

def print (j : Json) : String :=
  String.ofList j.text

end FlowEvents.Json
