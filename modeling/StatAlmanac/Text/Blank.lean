import StatAlmanac.Text.Ranges

/-!
Blank characters (the White_Space property), and the cuts made at them: a text
without its outer blanks, and the words between blanks.
-/

namespace StatAlmanac.Text

def blankRanges : Ranges := [
  (0x9, 0xD), (0x20, 0x20), (0x85, 0x85), (0xA0, 0xA0), (0x1680, 0x1680), (0x2000, 0x200A),
  (0x2028, 0x2029), (0x202F, 0x202F), (0x205F, 0x205F), (0x3000, 0x3000)]

def isBlank (c : Char) : Bool := blankRanges.has c.toNat

def trimStart (s : List Char) : List Char := s.dropWhile isBlank

def trimEnd (s : List Char) : List Char := (s.reverse.dropWhile isBlank).reverse

def trim (s : List Char) : List Char := trimEnd (trimStart s)

def isAllBlank (s : List Char) : Bool := s.all isBlank

/-- The longest runs of characters that are not blank, in order. -/
def words : List Char → List (List Char)
  | [] => []
  | c :: rest =>
      if isBlank c then words rest
      else match rest with
        | [] => [[c]]
        | d :: _ =>
            if isBlank d then [c] :: words rest
            else match words rest with
              | [] => [[c]]
              | w :: ws => (c :: w) :: ws

def unwords (ws : List (List Char)) : List Char := [' '].intercalate ws

/-- The text with every run of blanks reduced to one space, and none outside. -/
def squeeze (s : List Char) : List Char := unwords (words s)

end StatAlmanac.Text
