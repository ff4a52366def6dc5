import StatAlmanac.Text.CaseTable

/-!
Upper and lower case. One character may become several in upper case. Going to
lower case, a capital sigma becomes the final form at the end of a word, which
is why a text is lowered as a whole and not character by character.
-/

namespace StatAlmanac.Text

/-- The single-character partner in upper case, or the character itself. -/
def upperOne (c : Char) : Char :=
  match upperRows.partner? c.toNat with
  | some n => Char.ofNat n
  | none => c

def upper (c : Char) : List Char :=
  match upperExpansions.lookup c.toNat with
  | some ns => ns.map Char.ofNat
  | none => [upperOne c]

def lowerOne (c : Char) : Char :=
  match lowerRows.partner? c.toNat with
  | some n => Char.ofNat n
  | none => c

/-- The capital I with a dot keeps its dot as a mark. -/
def lower (c : Char) : List Char :=
  if c = '\u0130' then ['i', '\u0307'] else [lowerOne c]

def isCased (c : Char) : Bool := casedRanges.has c.toNat

def isCaseIgnorable (c : Char) : Bool := caseIgnorableRanges.has c.toNat

/-- The first character that case rules do not look through is a cased one. -/
def facesCased (s : List Char) : Bool :=
  match s.dropWhile isCaseIgnorable with
  | [] => false
  | c :: _ => isCased c

/-- Lowers `after`, which stands behind the reversed text `before`. -/
def lowerFrom (before : List Char) : List Char → List Char
  | [] => []
  | c :: after =>
      let lowered :=
        if c = 'Σ' then [if facesCased before && !facesCased after then 'ς' else 'σ']
        else lower c
      lowered ++ lowerFrom (c :: before) after

def lowerText (s : List Char) : List Char := lowerFrom [] s

def lowerAscii (s : List Char) : List Char := s.map Char.toLower

end StatAlmanac.Text
