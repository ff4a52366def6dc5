import StatAlmanac.Text.PrintTable

/-!
A text between double quotes, for messages. Quotes, backslashes and the common
controls are escaped by a backslash; a character without a glyph, or one that
would join the glyph before it, is written by its number.
-/

namespace StatAlmanac.Text

def hexDigits (n : Nat) : List Char := Nat.toDigits 16 n

/-- The number of a character in braces, as in \u{7f}. -/
def byNumber (c : Char) : List Char :=
  ['\\', 'u', '\x7b'] ++ hexDigits c.toNat ++ ['\x7d']

def quoteChar (c : Char) : List Char :=
  match c with
  | '\x00' => ['\\', '0']
  | '\t' => ['\\', 't']
  | '\r' => ['\\', 'r']
  | '\n' => ['\\', 'n']
  | '"' => ['\\', '"']
  | '\\' => ['\\', '\\']
  | _ =>
      if extenderRanges.has c.toNat || glyphlessRanges.has c.toNat then byNumber c else [c]

def quoted (s : List Char) : List Char := '"' :: s.flatMap quoteChar ++ ['"']

end StatAlmanac.Text
