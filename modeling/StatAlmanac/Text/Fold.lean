import StatAlmanac.Text.Case

/-!
Comparison that ignores case, one character against one. Two characters are
alike when lowering their upper partners gives the same character. The dotless
i is like no other letter, and three ligatures and accented vowels have a
second code point.
-/

namespace StatAlmanac.Text

/-- One character for each class of characters that differ in case only. -/
def fold (c : Char) : Char :=
  if c = '\u0131' then c
  else if c = '\u1FD3' then '\u0390'
  else if c = '\u1FE3' then '\u03B0'
  else if c = '\uFB05' then '\uFB06'
  else lowerOne (upperOne c)

def sameLetter (a b : Char) : Bool := fold a == fold b

/-- What is left after the text `name`, read from the front without regard to case. -/
def dropName? : (name s : List Char) → Option (List Char)
  | [], s => some s
  | _ :: _, [] => none
  | a :: name, b :: s => if sameLetter a b then dropName? name s else none

end StatAlmanac.Text
