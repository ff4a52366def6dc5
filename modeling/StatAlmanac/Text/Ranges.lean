/-!
Classes of code points, written as closed intervals in rising order, and the
look-up that stops at the first interval above the code point.
-/

namespace StatAlmanac.Text

/-- Closed intervals of code points, in rising order and apart from each other. -/
abbrev Ranges := List (Nat × Nat)

def Ranges.has : Ranges → Nat → Bool
  | [], _ => false
  | (first, last) :: rest, n =>
      if n < first then false else n ≤ last || Ranges.has rest n

theorem Ranges.has_of_lt {first last n : Nat} (rest : Ranges) (h : n < first) :
    Ranges.has ((first, last) :: rest) n = false := by
  simp [Ranges.has, h]

end StatAlmanac.Text
