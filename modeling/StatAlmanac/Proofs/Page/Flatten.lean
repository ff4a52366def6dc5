import StatAlmanac.Proofs.Page.Entities
import StatAlmanac.Proofs.Text.Committed
import StatAlmanac.Proofs.Text.Words

/-!
How a table of plain texts is flattened. The tags of rows and cells become line
ends, and nothing else in the table is markup, so the cells are left as lines.
-/

namespace StatAlmanac.Page

open Text Text.Reader

variable {r : Reader Unit} {s t : List Char} {c : Char}

/-! ### Replacing what a reader reads -/

theorem replaceEach_of_eq_nil (h : r.Advances) (filler : List Char) (hr : r (c :: s) = []) :
    replaceEach r h filler (c :: s) = c :: replaceEach r h filler s := by
  have hnone : r.first? (c :: s) = none := by rw [first?, readings, hr]; rfl
  rw [replaceEach]
  split
  · rename_i hsome
    rw [hnone] at hsome
    cases hsome
  · rfl

theorem replaceEach_of_first? (h : r.Advances) (filler : List Char)
    (hr : r.first? (c :: s) = some ((), t)) :
    replaceEach r h filler (c :: s) = filler ++ replaceEach r h filler t := by
  rw [replaceEach]
  split
  · rename_i hsome
    rw [hr] at hsome
    obtain ⟨-, rfl⟩ := Prod.mk.inj (Option.some.inj hsome)
    rfl
  · rename_i hnone
    rw [hr] at hnone
    cases hnone

theorem replaceEach_append_of_suffix (h : r.Advances) (filler : List Char)
    (ht : ∀ u, u ≠ [] → u <:+ t → r (u ++ s) = []) :
    replaceEach r h filler (t ++ s) = t ++ replaceEach r h filler s := by
  induction t with
  | nil => rfl
  | cons c t ih =>
      have hnil : r (c :: (t ++ s)) = [] := ht (c :: t) (List.cons_ne_nil c t) (List.suffix_refl _)
      rw [List.cons_append, replaceEach_of_eq_nil h filler hnil,
        ih fun u hne hu => ht u hne (hu.trans (List.suffix_cons c t))]
      rfl

theorem replaceEach_append (h : r.Advances) (filler : List Char)
    (ht : ∀ c ∈ t, ∀ s, r (c :: s) = [])
    (s : List Char) : replaceEach r h filler (t ++ s) = t ++ replaceEach r h filler s := by
  refine replaceEach_append_of_suffix h filler fun u hne hu => ?_
  obtain ⟨c, v, rfl⟩ := List.exists_cons_of_ne_nil hne
  exact ht c (hu.subset List.mem_cons_self) _

/-! ### Tables -/

inductive Element where
  | row
  | header
  | data

def Element.name : Element → List Char
  | .row => ['t', 'r']
  | .header => ['t', 'h']
  | .data => ['t', 'd']

/-- A table is written as tags and the text of its cells. -/
inductive Piece where
  | opening (e : Element)
  | closing (e : Element)
  | text (s : List Char)

namespace Piece

def markup : Piece → List Char
  | .opening e => '<' :: (e.name ++ ['>'])
  | .closing e => '<' :: '/' :: (e.name ++ ['>'])
  | .text s => s

/-- What is left of a piece when block tags are line ends. -/
def lined : Piece → List Char
  | .opening _ | .closing _ => ['\n']
  | .text s => s

/-- The text has no character that markup starts with. -/
def IsPlain : Piece → Prop
  | .opening _ | .closing _ => True
  | .text s => ∀ c ∈ s, sameLetter '<' c = false ∧ c ≠ '&'

end Piece

theorem refuses_hidden : hidden.Refuses fun c => !sameLetter '<' c := by
  have hopen : ∀ c, (!sameLetter '<' c) → sameLetter '<' c = false := fun _ hc => by simpa using hc
  exact ((refuses_word _ hopen).bind _).orElse
    (((refuses_word _ hopen).bind _).orElse ((refuses_word _ hopen).bind _))

theorem hidden_opening (e : Element) (s : List Char) : hidden ('<' :: (e.name ++ s)) = [] := by
  cases e <;> rfl

theorem hidden_closing (s : List Char) : hidden ('<' :: '/' :: s) = [] := rfl

theorem first?_blockTag_opening (e : Element) (s : List Char) :
    blockTag.first? ('<' :: (e.name ++ '>' :: s)) = some ((), s) := by
  cases e <;> rfl

theorem first?_blockTag_closing (e : Element) (s : List Char) :
    blockTag.first? ('<' :: '/' :: (e.name ++ '>' :: s)) = some ((), s) := by
  cases e <;> rfl

theorem refuses_blockTag : blockTag.Refuses (· != '<') :=
  (refuses_one fun c hc => by simpa using hc).bind _

theorem refuses_tag : tag.Refuses (· != '<') :=
  (refuses_one fun c hc => by simpa using hc).bind _

theorem ne_of_not_sameLetter (h : sameLetter '<' c = false) : c ≠ '<' := by
  rintro rfl
  exact absurd h (by decide)

theorem replaceEach_hidden {pieces : List Piece} (h : ∀ p ∈ pieces, p.IsPlain) :
    replaceEach hidden advances_hidden [' '] (pieces.flatMap Piece.markup) =
      pieces.flatMap Piece.markup := by
  have hname (e : Element) : ∀ c ∈ e.name ++ ['>'], sameLetter '<' c = false := by
    cases e <;> decide
  have hslash : (!sameLetter '<' '/') = true := by decide
  have hplain {t : List Char} (ht : ∀ c ∈ t, sameLetter '<' c = false) :
      ∀ c ∈ t, ∀ s, hidden (c :: s) = [] := fun c hc s =>
    refuses_hidden c s (by simp [ht c hc])
  induction pieces with
  | nil => rw [List.flatMap_nil, replaceEach]
  | cons p pieces ih =>
      have hmore := ih fun p hp => h p (List.mem_cons_of_mem _ hp)
      rw [List.flatMap_cons]
      cases p with
      | text t =>
          have ht : ∀ c ∈ t, sameLetter '<' c = false ∧ c ≠ '&' := h _ List.mem_cons_self
          rw [Piece.markup, replaceEach_append _ _ (hplain fun c hc => (ht c hc).1), hmore]
      | opening e =>
          have hopening :
              hidden ('<' :: (e.name ++ ['>'] ++ pieces.flatMap Piece.markup)) = [] := by
            rw [List.append_assoc]
            exact hidden_opening e _
          rw [Piece.markup, List.cons_append, replaceEach_of_eq_nil _ _ hopening,
            replaceEach_append _ _ (hplain (hname e)), hmore]
      | closing e =>
          rw [Piece.markup, List.cons_append, List.cons_append,
            replaceEach_of_eq_nil _ _ (hidden_closing _),
            replaceEach_of_eq_nil _ _ (refuses_hidden '/' _ hslash),
            replaceEach_append _ _ (hplain (hname e)), hmore]

theorem replaceEach_blockTag {pieces : List Piece} (h : ∀ p ∈ pieces, p.IsPlain) :
    replaceEach blockTag advances_blockTag ['\n'] (pieces.flatMap Piece.markup) =
      pieces.flatMap Piece.lined := by
  induction pieces with
  | nil => rw [List.flatMap_nil, List.flatMap_nil, replaceEach]
  | cons p pieces ih =>
      have hmore := ih fun p hp => h p (List.mem_cons_of_mem _ hp)
      rw [List.flatMap_cons, List.flatMap_cons]
      cases p with
      | text t =>
          have ht : ∀ c ∈ t, sameLetter '<' c = false ∧ c ≠ '&' := h _ List.mem_cons_self
          have hsolid : ∀ c ∈ t, ∀ s, blockTag (c :: s) = [] := fun c hc s =>
            refuses_blockTag c s (bne_iff_ne.2 (ne_of_not_sameLetter (ht c hc).1))
          rw [Piece.markup, replaceEach_append _ _ hsolid, hmore]
          rfl
      | opening e =>
          rw [Piece.markup, List.cons_append, List.append_assoc, List.singleton_append,
            replaceEach_of_first? _ _ (first?_blockTag_opening e _), hmore]
          rfl
      | closing e =>
          rw [Piece.markup, List.cons_append, List.cons_append, List.append_assoc,
            List.singleton_append, replaceEach_of_first? _ _ (first?_blockTag_closing e _), hmore]
          rfl

theorem not_mem_lined {pieces : List Piece} (h : ∀ p ∈ pieces, p.IsPlain) :
    ∀ c ∈ pieces.flatMap Piece.lined, c ≠ '<' ∧ c ≠ '&' := by
  intro c hc
  obtain ⟨p, hp, hc⟩ := List.mem_flatMap.1 hc
  cases p with
  | text t =>
      have ht : ∀ c ∈ t, sameLetter '<' c = false ∧ c ≠ '&' := h _ hp
      exact ⟨ne_of_not_sameLetter (ht c hc).1, (ht c hc).2⟩
  | opening | closing =>
      rw [List.mem_singleton.1 hc]
      decide

theorem replaceEach_tag (h : ∀ c ∈ s, c ≠ '<') : replaceEach tag advances_tag [' '] s = s := by
  have hsolid : ∀ c ∈ s, ∀ t, tag (c :: t) = [] := fun c hc t =>
    refuses_tag c t (bne_iff_ne.2 (h c hc))
  have happend := replaceEach_append advances_tag [' '] hsolid []
  rwa [List.append_nil, replaceEach, List.append_nil] at happend

/-- A table is flattened to its texts, with line ends for the tags. -/
theorem plainText_pieces {pieces : List Piece} (h : ∀ p ∈ pieces, p.IsPlain) :
    plainText (pieces.flatMap Piece.markup) = squeezeLines (pieces.flatMap Piece.lined) := by
  have hlined := not_mem_lined h
  rw [plainText, replaceEach_hidden h, replaceEach_blockTag h,
    replaceEach_tag fun c hc => (hlined c hc).1,
    decodeEntities_of_not_mem fun hc => (hlined _ hc).2 rfl]

/-! ### Lines -/

def squeezedLines (s : List Char) : List (List Char) :=
  ((s.splitOn '\n').map squeeze).filter fun line => !line.isEmpty

theorem squeezedLines_newline (s : List Char) : squeezedLines ('\n' :: s) = squeezedLines s := by
  have hsplit : ('\n' :: s).splitOn '\n' = [] :: s.splitOn '\n' :=
    List.splitOn_append_cons_self [] s
  rw [squeezedLines, hsplit]
  rfl

theorem squeezedLines_line {line : List Char} (hne : line ≠ []) (hnewline : '\n' ∉ line)
    (hsqueeze : squeeze line = line) (s : List Char) :
    squeezedLines (line ++ '\n' :: s) = line :: squeezedLines s := by
  rw [squeezedLines, List.splitOn_append_cons_self, List.splitOn_eq_singleton hnewline,
    List.singleton_append, List.map_cons, hsqueeze, List.filter_cons_of_pos (by simpa using hne)]
  rfl

end StatAlmanac.Page
