import StatAlmanac.Entity.Kind
import StatAlmanac.Proofs.Formula.Written
import StatAlmanac.Proofs.Page.Flatten
import StatAlmanac.Proofs.Text.Utf8

/-!
Pages that are tables of labels and values. Flattening such a page leaves two
lines for each row: its label, and its value as it was written.
-/

namespace StatAlmanac.Page

open Text Fragment

variable {k : Kind}

/-- A row of the table of a page: a label of the kind, and a value. -/
structure Row (k : Kind) where
  label : String
  value : Value
  known : ∃ e ∈ k.labels, label ∈ e.2

namespace Row

def opening : List Char := "<tr><th>".toList

def between : List Char := "</th><td>".toList

def closing : List Char := "</td></tr>".toList

def markup (r : Row k) : List Char :=
  opening ++ r.label.toList ++ between ++ r.value.text ++ closing

def isOf (stat : String) (r : Row k) : Bool := (k.labelsOf? stat).any (·.contains r.label)

def pieces (r : Row k) : List Piece :=
  [.opening .row, .opening .header, .text r.label.toList, .closing .header, .opening .data,
    .text r.value.text, .closing .data, .closing .row]

end Row

def page (rows : List (Row k)) : Bytes := Utf8.encode (rows.flatMap Row.markup)

def formulasOf (stat : String) (rows : List (Row k)) : List Formula :=
  (rows.filter (Row.isOf stat)).map (·.value.formula)

def flatText (rows : List (Row k)) : List Char :=
  ['\n'].intercalate (rows.flatMap fun r => [r.label.toList, r.value.text])

/-! ### The text of a row -/

theorem Row.of_labels {P : String → Prop} (r : Row k) (h : ∀ e ∈ k.labels, ∀ l ∈ e.2, P l) :
    P r.label := by
  obtain ⟨e, he, hl⟩ := r.known
  exact h e he _ hl

theorem plain_labels (k : Kind) : ∀ e ∈ k.labels, ∀ l ∈ e.2,
    l.toList ≠ [] ∧ squeeze l.toList = l.toList ∧
      ∀ c ∈ l.toList, c ≠ '\n' ∧ sameLetter '<' c = false ∧ c ≠ '&' := by
  cases k <;> decide +kernel

theorem plain_value (v : Value) :
    ∀ c ∈ v.text, c ≠ '\n' ∧ sameLetter '<' c = false ∧ c ≠ '&' := by
  refine v.of_mem_text (fun c hc => ⟨?_, ?_, ?_⟩) (by decide)
  · rintro rfl
    exact absurd hc (by decide)
  · exact sameLetter_isNumeralChar (by decide) hc
  · rintro rfl
    exact absurd hc (by decide)

theorem isTidy_amount (n : Amount) : IsTidy n.text := by
  obtain ⟨d, s, hs, -⟩ := n.text_eq_cons
  refine .word ?_ fun c hc => not_isBlank_of_isNumeralChar (n.isNumeralChar_of_mem hc)
  rw [hs]
  exact List.cons_ne_nil d s

theorem isTidy_amount_append (n : Amount) {s : List Char} (hs : ∀ c ∈ s, isBlank c = false) :
    IsTidy (n.text ++ s) := by
  refine .word (List.append_ne_nil_of_left_ne_nil (isTidy_amount n).ne_nil s) fun c hc => ?_
  rcases List.mem_append.1 hc with hc | hc
  · exact not_isBlank_of_isNumeralChar (n.isNumeralChar_of_mem hc)
  · exact hs c hc

theorem isTidy_growth (base coefficient : Amount) (m : Marker) :
    IsTidy (Worth.growth base coefficient m).text := by
  have hbase := isTidy_amount base
  have hcoefficient := isTidy_amount coefficient
  have hplus : IsTidy ['(', '+'] := .word (by decide) (by decide)
  have htimes : IsTidy ['×'] := .word (by decide) (by decide)
  rw [Worth.text, List.append_assoc, List.append_assoc]
  cases m with
  | squared =>
      have hlevel : IsTidy ['L', '²', ')'] := .word (by decide) (by decide)
      exact hbase.append (hplus.append (hcoefficient.append (htimes.append hlevel)))
  | plain =>
      have hlevel : IsTidy ['L', ')'] := .word (by decide) (by decide)
      exact hbase.append (hplus.append (hcoefficient.append (htimes.append hlevel)))
  | perLevel =>
      have hfront : IsTidy ('(' :: '+' :: coefficient.text) := by
        refine .word (List.cons_ne_nil _ _) fun c hc => ?_
        rcases List.mem_cons.1 hc with rfl | hc
        · decide
        · rcases List.mem_cons.1 hc with rfl | hc
          · decide
          · exact not_isBlank_of_isNumeralChar (coefficient.isNumeralChar_of_mem hc)
      have hper : IsTidy ['p', 'e', 'r'] := .word (by decide) (by decide)
      have hlevel : IsTidy ['l', 'e', 'v', 'e', 'l', ')'] := .word (by decide) (by decide)
      exact hbase.append (hfront.append (hper.append hlevel))

theorem isTidy_worth (w : Worth) : IsTidy w.text := by
  cases w with
  | flat base => exact isTidy_amount base
  | percent base => exact isTidy_amount_append base (by decide)
  | growth base coefficient m => exact isTidy_growth base coefficient m

theorem isTidy_value (v : Value) : IsTidy v.text := by
  obtain ⟨worth, cap⟩ := v
  cases cap with
  | none =>
      rw [Value.text, Option.elim_none, List.append_nil]
      exact isTidy_worth worth
  | some cap =>
      have hmax : IsTidy ['(', 'm', 'a', 'x'] := .word (by decide) (by decide)
      have hcap : IsTidy (cap.text ++ [')']) := isTidy_amount_append cap (by decide)
      rw [Value.text, Option.elim_some, Value.capText, List.append_assoc]
      exact (isTidy_worth worth).append (hmax.append hcap)

/-! ### The lines of a page -/

theorem Row.opening_eq : opening = ['<', 't', 'r', '>', '<', 't', 'h', '>'] := rfl

theorem Row.between_eq : between = ['<', '/', 't', 'h', '>', '<', 't', 'd', '>'] := rfl

theorem Row.closing_eq : closing = ['<', '/', 't', 'd', '>', '<', '/', 't', 'r', '>'] := rfl

theorem Row.markup_eq (r : Row k) : r.markup = r.pieces.flatMap Piece.markup := by
  rw [markup, opening_eq, between_eq, closing_eq]
  simp [pieces, Piece.markup, Element.name]

theorem Row.lined_eq (r : Row k) :
    r.pieces.flatMap Piece.lined =
      '\n' :: '\n' :: (r.label.toList ++ '\n' :: '\n' :: (r.value.text ++ ['\n', '\n'])) := by
  simp [pieces, Piece.lined]

theorem squeezedLines_rows (rows : List (Row k)) :
    squeezedLines (rows.flatMap fun r => r.pieces.flatMap Piece.lined) =
      rows.flatMap fun r => [r.label.toList, r.value.text] := by
  induction rows with
  | nil => rfl
  | cons r rows ih =>
      obtain ⟨hne, hsqueeze, hplain⟩ := r.of_labels (plain_labels k)
      have hvalue := isTidy_value r.value
      have hlabelLine : '\n' ∉ r.label.toList := fun hmem => (hplain _ hmem).1 rfl
      have hvalueLine : '\n' ∉ r.value.text := fun hmem => (plain_value r.value _ hmem).1 rfl
      rw [List.flatMap_cons, List.flatMap_cons, r.lined_eq]
      simp only [List.cons_append, List.append_assoc, List.nil_append]
      rw [squeezedLines_newline, squeezedLines_newline,
        squeezedLines_line hne hlabelLine hsqueeze, squeezedLines_newline,
        squeezedLines_line hvalue.ne_nil hvalueLine hvalue.squeeze_eq, squeezedLines_newline, ih]

theorem isPlain_pieces (r : Row k) : ∀ p ∈ r.pieces, p.IsPlain := by
  have hlabel : (Piece.text r.label.toList).IsPlain := fun c hc =>
    ((r.of_labels (plain_labels k)).2.2 c hc).2
  have hvalue : (Piece.text r.value.text).IsPlain := fun c hc => (plain_value r.value c hc).2
  intro p hp
  simp only [Row.pieces, List.mem_cons, List.not_mem_nil, or_false] at hp
  rcases hp with rfl | rfl | rfl | rfl | rfl | rfl | rfl | rfl
  any_goals exact trivial
  · exact hlabel
  · exact hvalue

theorem decodeLossy_encode (s : List Char) : Utf8.decodeLossy (Utf8.encode s) = s := by
  rw [Utf8.decodeLossy, Utf8.scan_encode, List.map_map]
  exact List.map_id s

/-- A page that is a table leaves the labels and the values of its rows as lines. -/
theorem documentText_page (rows : List (Row k)) : documentText (page rows) = flatText rows := by
  have hmarkup : rows.flatMap Row.markup = (rows.flatMap Row.pieces).flatMap Piece.markup := by
    rw [List.flatMap_assoc]
    exact List.flatMap_congr fun r _ => r.markup_eq
  have hplain : ∀ p ∈ rows.flatMap Row.pieces, p.IsPlain := by
    intro p hp
    obtain ⟨r, -, hp⟩ := List.mem_flatMap.1 hp
    exact isPlain_pieces r p hp
  rw [documentText, page, decodeLossy_encode, hmarkup, plainText_pieces hplain, List.flatMap_assoc]
  exact congrArg (['\n'].intercalate ·) (squeezedLines_rows rows)

end StatAlmanac.Page
