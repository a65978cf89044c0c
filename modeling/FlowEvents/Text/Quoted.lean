import FlowEvents.Text.Hidden

/-! # Quoted text

A text shown to a reader stands between double quotes, with every character that could mislead
written as an escape: the quote and the backslash themselves, the five control characters that
have a letter, and every hidden character by its code point in braces.  What is shown is therefore
one line of visible characters, and an unescaped quote is always the end.
-/

namespace FlowEvents.Text.Quoted

/-- The code point of a character in lower-case hexadecimal, without padding. -/
def codePoint (c : Char) : List Char :=
  Nat.toDigits 16 c.toNat

def escape (c : Char) : List Char :=
  match c with
  | '\x00' => ['\\', '0']
  | '\t' => ['\\', 't']
  | '\n' => ['\\', 'n']
  | '\r' => ['\\', 'r']
  | '"' => ['\\', '"']
  | '\\' => ['\\', '\\']
  | c => if isHidden c then ['\\', 'u', '\x7b'] ++ codePoint c ++ ['\x7d'] else [c]

def body (cs : List Char) : List Char :=
  cs.flatMap escape

@[simp]
theorem body_nil : body [] = [] := rfl

@[simp]
theorem body_cons (c : Char) (cs : List Char) : body (c :: cs) = escape c ++ body cs := by
  simp [body]

end Quoted

def quoted (s : String) : String :=
  String.ofList ('"' :: Quoted.body s.toList ++ ['"'])

theorem toList_quoted (s : String) :
    (quoted s).toList = '"' :: Quoted.body s.toList ++ ['"'] := by
  simp [quoted]

/-- A quote, a tab, and a control character without a letter. -/
example : (quoted "h\"\t\x1b").toList =
    "\"h\\\"\\t\\u\x7b1b\x7d\"".toList := by
  decide +kernel

end FlowEvents.Text
