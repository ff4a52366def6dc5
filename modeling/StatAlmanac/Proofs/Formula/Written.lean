import StatAlmanac.Proofs.Formula.Recognised

/-!
Values as a table writes them: a number, a percentage, or a growth term in one
of three spellings, and perhaps a cap in parentheses. A value that was written
is read back from the text behind its label, whatever page goes on behind it.
-/

namespace StatAlmanac.Fragment

open Text Text.Reader

/-- A number as it is written, with one point at most. -/
structure Amount where
  numeral : Numeral
  written : numeral.IsWritten
  one_point : numeral.groups.length ≤ 1

theorem Numeral.value?_isSome {n : Numeral} (h : n.groups.length ≤ 1) : n.value?.isSome := by
  obtain ⟨whole, groups⟩ := n
  match groups with
  | [] => rfl
  | [fraction] => rfl
  | _ :: _ :: _ =>
      simp only [List.length_cons] at h
      omega

namespace Amount

def text (n : Amount) : List Char := n.numeral.text

def value (n : Amount) : Float := n.numeral.value?.get (Numeral.value?_isSome n.one_point)

theorem value?_eq (n : Amount) : n.numeral.value? = some n.value := (Option.some_get _).symm

theorem numeral?_text (n : Amount) {rest : List Char}
    (hrest : ∀ c ∈ rest.head?, isNumeralChar c = false) :
    numeral? (n.text ++ rest) = some (n.numeral, rest) :=
  n.written.numeral? hrest

end Amount

def Marker.front : Marker → List Char
  | .squared | .plain => " (+ ".toList
  | .perLevel => " (+".toList

def Marker.back : Marker → List Char
  | .squared => " × L²)".toList
  | .plain => " × L)".toList
  | .perLevel => " per level)".toList

/-- What a value is without its cap. -/
inductive Worth where
  | flat (base : Amount)
  | percent (base : Amount)
  | growth (base coefficient : Amount) (marker : Marker)

namespace Worth

def text : Worth → List Char
  | .flat base => base.text
  | .percent base => base.text ++ ['%']
  | .growth base coefficient marker => base.text ++ marker.front ++ coefficient.text ++ marker.back

def formula : Worth → Formula
  | .flat base => .flat base.value
  | .percent base => .percentage base.value
  | .growth base coefficient marker => marker.formula base.value coefficient.value

end Worth

structure Value where
  worth : Worth
  cap : Option Amount

namespace Value

def capFront : List Char := " (max ".toList

def capText (cap : Amount) : List Char := capFront ++ cap.text ++ [')']

def text (v : Value) : List Char := v.worth.text ++ v.cap.elim [] capText

def formula (v : Value) : Formula :=
  match v.cap with
  | some cap => v.worth.formula.withCap cap.value
  | none => v.worth.formula

end Value

/-! ### What a value is made of -/

def Value.marks : List (List Char) :=
  [['%'], Marker.squared.front, Marker.perLevel.front, Marker.squared.back, Marker.plain.back,
    Marker.perLevel.back, capFront, [')']]

theorem Marker.front_mem_marks (m : Marker) : m.front ∈ Value.marks := by
  cases m <;> simp [Value.marks, front]

theorem Marker.back_mem_marks (m : Marker) : m.back ∈ Value.marks := by
  cases m <;> simp [Value.marks]

/-- What holds of amounts and of the texts around them, and of two texts together,
holds of values. -/
theorem Value.text_induction {P : List Char → Prop} (happend : ∀ s t, P s → P t → P (s ++ t))
    (hamount : ∀ n : Amount, P n.text) (hmarks : ∀ s ∈ marks, P s) (v : Value) : P v.text := by
  obtain ⟨worth, cap⟩ := v
  have hworth : P worth.text := by
    cases worth with
    | flat base => exact hamount base
    | percent base => exact happend _ _ (hamount base) (hmarks _ List.mem_cons_self)
    | growth base coefficient m =>
        exact happend _ _ (happend _ _ (happend _ _ (hamount base) (hmarks _ m.front_mem_marks))
          (hamount coefficient)) (hmarks _ m.back_mem_marks)
  cases cap with
  | none =>
      rw [text, Option.elim_none, List.append_nil]
      exact hworth
  | some cap =>
      have hfront : capFront ∈ marks := by simp [marks]
      have hback : [')'] ∈ marks := by simp [marks]
      exact happend _ _ hworth
        (happend _ _ (happend _ _ (hmarks _ hfront) (hamount cap)) (hmarks _ hback))

theorem Amount.isNumeralChar_of_mem (n : Amount) {c : Char} (h : c ∈ n.text) : isNumeralChar c := by
  rcases List.mem_append.1 h with h | h
  · exact isNumeralChar_of_isWhole (n.written.whole c h)
  · obtain ⟨g, hg, hc⟩ := List.mem_flatMap.1 h
    rcases List.mem_cons.1 hc with rfl | hc
    · rfl
    · exact isNumeralChar_of_isDigit ((n.written.groups g hg).2 c hc)

theorem Value.of_mem_text {P : Char → Prop} (hnumeral : ∀ c, isNumeralChar c → P c)
    (hmarks : ∀ s ∈ marks, ∀ c ∈ s, P c) (v : Value) : ∀ c ∈ v.text, P c := by
  refine v.text_induction (P := fun s => ∀ c ∈ s, P c) (fun s t hs ht c hc => ?_)
    (fun n c hc => hnumeral c (n.isNumeralChar_of_mem hc)) hmarks
  exact (List.mem_append.1 hc).elim (hs c) (ht c)

/-! ### Reading back -/

/-- What can follow a value, or the part of it in front of the cap, without being taken for more of
it. -/
structure EndsWorth (rest : List Char) : Prop where
  numeral : ∀ c ∈ rest.head?, isNumeralChar c = false
  percent : percent? rest = none
  opening : opening? rest = none

/-- What can follow a value that has no cap without being taken for one. -/
structure EndsValue (rest : List Char) : Prop extends EndsWorth rest where
  cap : capNumeral? rest = none

variable {rest : List Char}

theorem Numeral.IsWritten.text_eq_cons {n : Numeral} (h : n.IsWritten) :
    ∃ d s, n.text = d :: s ∧ isDigit d := by
  obtain ⟨whole, groups⟩ := n
  cases whole with
  | nil => cases h.starts
  | cons d s => exact ⟨d, s ++ groups.flatMap ('.' :: ·), rfl, h.starts⟩

theorem not_isLead_of_isDigit {c : Char} (h : isDigit c) : isLead c = false := by
  apply Bool.eq_false_iff.2
  intro hlead
  rw [not_isDigit_of_isLead hlead] at h
  cases h

namespace Amount

theorem text_eq_cons (n : Amount) : ∃ d s, n.text = d :: s ∧ isDigit d := n.written.text_eq_cons

theorem trimStart_text (n : Amount) (rest : List Char) :
    trimStart (n.text ++ rest) = n.text ++ rest := by
  obtain ⟨d, s, hs, hd⟩ := n.text_eq_cons
  rw [hs]
  exact trimStart_of_solid (not_isBlank_of_isNumeralChar (isNumeralChar_of_isDigit hd)) _

end Amount

namespace Marker

theorem opening?_front (m : Marker) (s : List Char) :
    ∃ t, opening? (m.front ++ s) = some t ∧ trimStart t = trimStart s := by
  cases m with
  | squared | plain => exact ⟨' ' :: s, rfl, rfl⟩
  | perLevel => exact ⟨s, rfl, rfl⟩

theorem percent?_back (m : Marker) (s : List Char) : percent? (m.back ++ s) = none := by
  cases m <;> rfl

theorem numeral_back (m : Marker) (s : List Char) :
    ∀ c ∈ (m.back ++ s).head?, isNumeralChar c = false := by
  cases m <;> exact head?_not_isNumeralChar rfl _

theorem numeral_front (m : Marker) (s : List Char) :
    ∀ c ∈ (m.front ++ s).head?, isNumeralChar c = false := by
  cases m <;> exact head?_not_isNumeralChar rfl _

theorem marker?_back (m : Marker) (s : List Char) :
    ∃ t, marker? (m.back ++ s) = some (m, t) ∧ closing? t = some s := by
  cases m <;> exact ⟨')' :: s, rfl, rfl⟩

end Marker

theorem growth?_text (m : Marker) (coefficient : Amount) (rest : List Char) :
    ∃ s, opening? (m.front ++ coefficient.text ++ m.back ++ rest) = some s ∧
      growth? s = some ((coefficient.numeral, m), rest) := by
  rw [List.append_assoc, List.append_assoc]
  obtain ⟨s, hopening, hs⟩ := m.opening?_front (coefficient.text ++ (m.back ++ rest))
  obtain ⟨t, hmarker, hclosing⟩ := m.marker?_back rest
  refine ⟨s, hopening, ?_⟩
  rw [growth?, hs, coefficient.trimStart_text, coefficient.numeral?_text (m.numeral_back rest)]
  simp [m.percent?_back, hmarker, hclosing]

theorem Worth.text_eq_cons (w : Worth) : ∃ d s, w.text = d :: s ∧ isDigit d := by
  cases w with
  | flat base => exact base.text_eq_cons
  | percent base =>
      obtain ⟨d, s, hs, hd⟩ := base.text_eq_cons
      exact ⟨d, s ++ ['%'], congrArg (· ++ ['%']) hs, hd⟩
  | growth base coefficient m =>
      obtain ⟨d, s, hs, hd⟩ := base.text_eq_cons
      refine ⟨d, s ++ m.front ++ coefficient.text ++ m.back, ?_, hd⟩
      rw [text, hs]
      rfl

theorem Worth.dropWhile_isLead (w : Worth) (s : List Char) :
    ('\n' :: (w.text ++ s)).dropWhile isLead = w.text ++ s := by
  obtain ⟨d, t, ht, hd⟩ := w.text_eq_cons
  rw [List.dropWhile_cons_of_pos (by decide), ht]
  exact List.dropWhile_cons_of_neg (Bool.not_eq_true _ ▸ not_isLead_of_isDigit hd)

theorem Worth.behind?_text (w : Worth) (h : EndsWorth rest) :
    (numeral? (w.text ++ rest)).bind (fun (base, s) => behind? base s) =
      some (w.formula, rest) := by
  cases w with
  | flat base =>
      rw [text, base.numeral?_text h.numeral]
      simp [behind?, h.opening, h.percent, base.value?_eq, formula]
  | percent base =>
      have hopening : opening? ('%' :: rest) = none := rfl
      have hpercent : percent? ('%' :: rest) = some rest := rfl
      rw [text, List.append_assoc, List.singleton_append,
        base.numeral?_text (head?_not_isNumeralChar rfl rest), Option.bind_some]
      simp only [behind?, hopening, hpercent, base.value?_eq]
      rfl
  | growth base coefficient m =>
      obtain ⟨s, hopening, hgrowth⟩ := growth?_text m coefficient rest
      have hsplit : (growth base coefficient m).text ++ rest =
          base.text ++ (m.front ++ coefficient.text ++ m.back ++ rest) := by
        simp only [text, List.append_assoc]
      have hnumeral : ∀ c ∈ (m.front ++ coefficient.text ++ m.back ++ rest).head?,
          isNumeralChar c = false := by
        rw [List.append_assoc, List.append_assoc]
        exact m.numeral_front _
      rw [hsplit, base.numeral?_text hnumeral, Option.bind_some]
      simp only [behind?, hopening, hgrowth]
      simp [base.value?_eq, coefficient.value?_eq, formula]

namespace Value

theorem endsWorth_capText (cap : Amount) (rest : List Char) : EndsWorth (capText cap ++ rest) where
  numeral := head?_not_isNumeralChar rfl _
  percent := rfl
  opening := rfl

theorem capWord?_max (s : List Char) :
    capWord? (skipMark '(' (capFront ++ s)) = some (' ' :: s) := rfl

theorem skipMark_amount (n : Amount) (rest : List Char) :
    skipMark ':' (' ' :: (n.text ++ rest)) = n.text ++ rest := by
  obtain ⟨d, s, hs, hd⟩ := n.text_eq_cons
  have hsolid : isBlank d = false := not_isBlank_of_isNumeralChar (isNumeralChar_of_isDigit hd)
  have hcolon : (d == ':') = false := beq_of_class (by decide) hd
  rw [hs]
  exact skipMark_of_solid (trimStart_of_solid hsolid _) hsolid hcolon

theorem capNumeral?_capText (cap : Amount) (rest : List Char) :
    capNumeral? (capText cap ++ rest) = some cap.numeral := by
  rw [capText, List.append_assoc, List.append_assoc, capNumeral?, capWord?_max,
    Option.bind_eq_bind, Option.bind_some, skipMark_amount, List.singleton_append,
    cap.numeral?_text (head?_not_isNumeralChar rfl rest)]
  rfl

/-- A value is read back from the text behind its label. -/
theorem read_text (v : Value) (h : EndsValue rest) :
    read ('\n' :: (v.text ++ rest)) = some v.formula := by
  obtain ⟨worth, cap⟩ := v
  cases cap with
  | none =>
      have hcapped : capped worth.formula rest = worth.formula := by
        rw [capped, h.cap]
        rfl
      rw [text, Option.elim_none, List.append_nil, read_eq_map, worth.dropWhile_isLead,
        worth.behind?_text h.toEndsWorth, Option.map_some]
      exact congrArg some hcapped
  | some cap =>
      have hcapped :
          capped worth.formula (capText cap ++ rest) = worth.formula.withCap cap.value := by
        rw [capped, capNumeral?_capText, Option.bind_some, cap.value?_eq]
      rw [text, Option.elim_some, List.append_assoc, read_eq_map, worth.dropWhile_isLead,
        worth.behind?_text (endsWorth_capText cap rest), Option.map_some]
      exact congrArg some hcapped

end Value

end StatAlmanac.Fragment
