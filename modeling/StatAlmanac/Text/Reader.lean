import StatAlmanac.Text.Blank
import StatAlmanac.Text.Fold
import StatAlmanac.Text.Letter

/-!
Readers of texts with more than one way to read. A reader lists all its
readings of the front of a text, the preferred one first, each with the text
left over. A sequence tries its parts in every combination, the choices of the
earlier part varying last.
-/

namespace StatAlmanac.Text

def Reader (α : Type) : Type := List Char → List (α × List Char)

namespace Reader

variable {α β : Type}

def readings (r : Reader α) (s : List Char) : List (α × List Char) := r s

def first? (r : Reader α) (s : List Char) : Option (α × List Char) := (r.readings s).head?

def result (a : α) : Reader α := fun s => [(a, s)]

def andThen (r : Reader α) (next : α → Reader β) : Reader β :=
  fun s => (r s).flatMap fun (a, rest) => next a rest

instance : Monad Reader where
  pure := result
  bind := andThen

def orElse (r other : Reader α) : Reader α := fun s => r s ++ other s

def optional (r : Reader Unit) : Reader Unit := r.orElse (result ())

def one (p : Char → Bool) : Reader Unit
  | c :: rest => if p c then [((), rest)] else []
  | [] => []

/-- One given character, whatever its case. -/
def letter (c : Char) : Reader Unit := one (sameLetter c)

def word (name : List Char) : Reader Unit := fun s => ((dropName? name s).map ((), ·)).toList

/-- The texts left after none, one, two, … characters of a class. -/
def stops (p : Char → Bool) : List Char → List (List Char)
  | c :: rest => (c :: rest) :: if p c then stops p rest else []
  | [] => [[]]

/-- As many characters of a class as possible, then fewer. -/
def many (p : Char → Bool) : Reader Unit := fun s => (stops p s).reverse.map ((), ·)

/-- Goes on to the first place where `r` reads something. -/
def seek (r : Reader α) : Reader α
  | [] => r []
  | c :: rest =>
      match r (c :: rest) with
      | [] => seek r rest
      | found => found

/-- As many repetitions of `r` as possible, then fewer. A repetition that reads nothing is none. -/
def star (r : Reader Unit) (s : List Char) : List (Unit × List Char) :=
  (r s).flatMap (fun (_, rest) => if rest.length < s.length then star r rest else []) ++ [((), s)]
termination_by s.length

def wordEnd : Reader Unit
  | c :: rest => if isWordChar c then [] else [((), c :: rest)]
  | [] => [((), [])]

def blanks : Reader Unit := many isBlank

/-- A stretch of text: from the front of `start` up to the front of `rest`. -/
structure Span where
  start : List Char
  rest : List Char

def Span.text (s : Span) : List Char := s.start.take (s.start.length - s.rest.length)

def spanOf (r : Reader Unit) : Reader Span := fun s => (r s).map fun (_, rest) => (⟨s, rest⟩, rest)

end Reader

end StatAlmanac.Text
