import Mathlib.Data.List.Infix
import StatAlmanac.Page.Stats
import StatAlmanac.Proofs.Formula.OnePass
import StatAlmanac.Proofs.Page.Rows
import StatAlmanac.Proofs.Text.Upper

/-!
Scripts, styles and comments leave nothing but a blank. The first pass over a page
starts at such a block, because nothing opened in the visible text in front of it
takes it in, and ends with the first closing of the block. So the text of a page
does not depend on what its blocks hide.
-/

namespace StatAlmanac.Page

open Text Text.Reader

variable {s t rest : List Char}

def commentStart : List Char := "<!--".toList

def commentEnd : List Char := "-->".toList

def hidingMarks : List (List Char) := [commentStart, "<script".toList, "<style".toList]

/-- The mark stands somewhere in the text, whatever its case. -/
def Occurs (mark s : List Char) : Prop := ∃ t ∈ s.tails, (dropName? mark t).isSome

instance (mark s : List Char) : Decidable (Occurs mark s) :=
  inferInstanceAs (Decidable (∃ t ∈ s.tails, (dropName? mark t).isSome))

structure Visible where
  text : List Char
  unmarked : ∀ mark ∈ hidingMarks, ¬Occurs mark text

inductive HidingElement where
  | script
  | style
  deriving DecidableEq

def HidingElement.name : HidingElement → List Char
  | .script => "script".toList
  | .style => "style".toList

/-- A block of a page whose content is no text. -/
inductive HiddenBlock where
  /-- The content goes on with no word character, and has no closing tag of the element. -/
  | element (e : HidingElement) (content : List Char)
      (starts : ∀ c ∈ content.head?, isWordChar c = false)
      (unclosed : ∀ s ∈ content.tails, (closingTag e.name).first? s = none)
  /-- The comment ends nowhere but at its end. -/
  | comment (content : List Char)
      (unclosed : ∀ s ∈ (content ++ commentEnd).tails, commentEnd <+: s → s = commentEnd)

def HiddenBlock.text : HiddenBlock → List Char
  | .element e content _ _ => '<' :: (e.name ++ (content ++ ('<' :: '/' :: (e.name ++ ['>']))))
  | .comment content _ => commentStart ++ (content ++ commentEnd)

/-! ### In front of a block -/

theorem comment_eq_nil (h : dropName? commentStart s = none) : comment s = [] := by
  rw [comment, word_bind]
  exact after_none h _

theorem hiddenElement_eq_nil (name : List Char) (h : dropName? ('<' :: name) s = none) :
    hiddenElement name s = [] := by
  rw [hiddenElement, word_bind]
  exact after_none h _

theorem hidden_eq_nil (h : ∀ mark ∈ hidingMarks, dropName? mark s = none) : hidden s = [] := by
  simp only [hidingMarks, List.forall_mem_cons] at h
  obtain ⟨hcomment, hscript, hstyle, -⟩ := h
  rw [hidden, Reader.orElse, comment_eq_nil hcomment, Reader.orElse,
    hiddenElement_eq_nil "script".toList hscript, hiddenElement_eq_nil "style".toList hstyle]
  rfl

/-- A mark that starts in a text ends in it, if what follows starts with none of its inner
characters. -/
theorem dropName?_append_eq_some {mark : List Char} {b : Char}
    (hb : ∀ a ∈ mark.tail, sameLetter a b = false) (hs : s ≠ [])
    (h : dropName? mark (s ++ b :: rest) = some t) :
    ∃ u, t = u ++ b :: rest ∧ dropName? mark s = some u := by
  obtain ⟨c, s, rfl⟩ := List.exists_cons_of_ne_nil hs
  cases mark with
  | nil => exact ⟨c :: s, (Option.some.inj h).symm, rfl⟩
  | cons a mark =>
      rw [List.cons_append, dropName?] at h
      split at h
      · rename_i hc
        obtain ⟨u, rfl, hu⟩ := dropName?_append_cons hb h
        refine ⟨u, rfl, ?_⟩
        rw [dropName?, if_pos hc]
        exact hu
      · cases h

theorem replaceEach_visible (v : Visible) {b : Char} (hb : b ∈ ['<', ' ']) (rest : List Char) :
    replaceEach hidden advances_hidden [' '] (v.text ++ b :: rest) =
      v.text ++ replaceEach hidden advances_hidden [' '] (b :: rest) := by
  have hinner : ∀ mark ∈ hidingMarks, ∀ a ∈ mark.tail, ∀ b ∈ ['<', ' '],
      sameLetter a b = false := by
    decide
  refine replaceEach_append_of_suffix advances_hidden [' '] fun u hne hu => ?_
  refine hidden_eq_nil fun mark hmark => Option.eq_none_iff_forall_not_mem.2 fun t ht => ?_
  obtain ⟨w, -, hw⟩ := dropName?_append_eq_some (fun a ha => hinner mark hmark a ha b hb) hne ht
  exact v.unmarked mark hmark ⟨u, (List.mem_tails _ _).2 hu, Option.isSome_of_eq_some hw⟩

/-! ### The end of a comment -/

theorem fold_commentEnd : ∀ a ∈ commentEnd, fold a = a ∧ a < 'A' := by decide

theorem eq_of_dropName? {mark : List Char} (hmark : ∀ a ∈ mark, fold a = a ∧ a < 'A')
    (h : dropName? mark s = some t) : s = mark ++ t := by
  induction mark generalizing s with
  | nil => exact Option.some.inj h
  | cons a mark ih =>
      obtain ⟨c, u, rfl, hc, hu⟩ := Fragment.dropName?_cons_eq_some h
      obtain ⟨hfold, hlt⟩ := hmark a List.mem_cons_self
      rw [eq_of_sameLetter hfold hlt hc, ih (fun a ha => hmark a (List.mem_cons_of_mem _ ha)) hu]
      rfl

theorem word_eq_nil {name : List Char} (h : dropName? name s = none) : word name s = [] := by
  rw [word, h]
  rfl

theorem first?_word {name : List Char} (h : dropName? name s = some t) :
    (word name).first? s = some ((), t) := by
  rw [first?, readings, word, h]
  rfl

theorem first?_through_commentEnd {content : List Char}
    (h : ∀ s ∈ (content ++ commentEnd).tails, commentEnd <+: s → s = commentEnd)
    (rest : List Char) :
    (through commentEnd).first? (content ++ (commentEnd ++ rest)) = some ((), rest) := by
  have hearly : ∀ u, u ≠ [] → u <:+ content → word commentEnd (u ++ (commentEnd ++ rest)) = [] := by
    intro u hne hu
    refine word_eq_nil (Option.eq_none_iff_forall_not_mem.2 fun t ht => ?_)
    have hclosed := eq_of_dropName? fold_commentEnd ht
    have hprefix : commentEnd <+: u ++ commentEnd := by
      have hopen : commentEnd <+: commentEnd ++ t := List.prefix_append commentEnd t
      refine List.prefix_of_prefix_length_le hopen ?_ ?_
      · rw [← hclosed, ← List.append_assoc]
        exact List.prefix_append _ _
      · simp
    obtain ⟨front, rfl⟩ := hu
    have hsuffix : u ++ commentEnd <:+ front ++ u ++ commentEnd := by
      rw [List.append_assoc]
      exact List.suffix_append _ _
    exact hne (List.append_left_eq_self.1 (h _ ((List.mem_tails _ _).2 hsuffix) hprefix))
  rw [through, first?, readings, seek_append hearly]
  exact first?_seek (first?_word rfl)

/-! ### The end of an element -/

def closingTag? (name s : List Char) : Option (List Char) :=
  (dropName? ('<' :: '/' :: name) s).bind (Fragment.solid? (· == '>'))

theorem closingTag_apply (name s : List Char) :
    closingTag name s = after (closingTag? name) (result ()) s := by
  have hbracket : (blanks >>= fun _ => one (· == '>')) =
      after (Fragment.solid? (· == '>')) (result ()) := by
    have hmark := Fragment.blanks_mark_bind (m := '>') (by decide) result
    rwa [show (one (· == '>') >>= result) = one (· == '>') from bind_pure _] at hmark
  rw [closingTag, hbracket, word_bind, after_after]
  rfl

theorem closingTag_eq_nil_iff {name : List Char} :
    closingTag name s = [] ↔ closingTag? name s = none := by
  rw [closingTag_apply, after]
  cases closingTag? name s with
  | none => exact ⟨fun _ => rfl, fun _ => rfl⟩
  | some t => exact iff_of_false (List.cons_ne_nil _ _) (Option.some_ne_none t)

theorem isSome_solid?_of_append {p : Char → Bool} {b : Char} (hblank : isBlank b = false)
    (hb : p b = false) (h : (Fragment.solid? p (s ++ b :: rest)).isSome) :
    (Fragment.solid? p s).isSome := by
  rw [Fragment.solid?, trimStart, List.dropWhile_append] at h
  rw [Fragment.solid?, trimStart]
  cases hs : s.dropWhile isBlank with
  | nil =>
      rw [hs, List.isEmpty_nil, if_pos rfl, List.dropWhile_cons_of_neg (by simp [hblank]),
        Fragment.take?, hb] at h
      cases h
  | cons c t =>
      rw [hs, List.isEmpty_cons, if_neg Bool.false_ne_true, List.cons_append, Fragment.take?] at h
      rw [Fragment.take?]
      split at h
      · rename_i hc
        rw [if_pos hc]
        rfl
      · cases h

/-- A closing tag does not start in a content and end behind it. -/
theorem closingTag_append_eq_nil {e : HidingElement} (hs : s ≠ []) (h : closingTag e.name s = []) :
    closingTag e.name (s ++ '<' :: rest) = [] := by
  have hinner : ∀ a ∈ ('<' :: '/' :: e.name).tail, sameLetter a '<' = false := by
    cases e <;> decide
  rw [closingTag_eq_nil_iff] at h ⊢
  refine Option.eq_none_iff_forall_not_mem.2 fun t ht => ?_
  obtain ⟨u, hmark, hbracket⟩ := Option.bind_eq_some_iff.1 ht
  obtain ⟨w, rfl, hw⟩ := dropName?_append_eq_some hinner hs hmark
  have hsome : (closingTag? e.name s).isSome := by
    rw [closingTag?, hw]
    exact isSome_solid?_of_append (by decide) rfl (Option.isSome_of_eq_some hbracket)
  rw [h] at hsome
  cases hsome

theorem first?_closingTag (e : HidingElement) (rest : List Char) :
    (closingTag e.name).first? ('<' :: '/' :: (e.name ++ '>' :: rest)) = some ((), rest) := by
  cases e <;> rfl

theorem first?_wordEnd (h : ∀ c ∈ s.head?, isWordChar c = false) :
    wordEnd.first? s = some ((), s) := by
  cases s with
  | nil => rfl
  | cons c s =>
      rw [first?, readings, wordEnd, h c rfl]
      rfl

theorem first?_hiddenElement {e : HidingElement} {content : List Char}
    (starts : ∀ c ∈ content.head?, isWordChar c = false)
    (unclosed : ∀ s ∈ content.tails, (closingTag e.name).first? s = none) (rest : List Char) :
    (hiddenElement e.name).first?
      ('<' :: (e.name ++ (content ++ '<' :: '/' :: (e.name ++ '>' :: rest)))) =
        some ((), rest) := by
  have hopening (s : List Char) :
      (word ('<' :: e.name)).first? ('<' :: (e.name ++ s)) = some ((), s) :=
    first?_word (by cases e <;> rfl)
  have hend : ∀ c ∈ (content ++ '<' :: '/' :: (e.name ++ '>' :: rest)).head?,
      isWordChar c = false := by
    intro c hc
    cases content with
    | nil =>
        obtain rfl := Option.some.inj hc
        decide
    | cons d content => exact starts c hc
  have hearly : ∀ u, u ≠ [] → u <:+ content →
      closingTag e.name (u ++ '<' :: '/' :: (e.name ++ '>' :: rest)) = [] := fun u hne hu =>
    closingTag_append_eq_nil hne (List.head?_eq_none_iff.1 (unclosed u ((List.mem_tails _ _).2 hu)))
  refine first?_bind (hopening _) (first?_bind (first?_wordEnd hend) ?_)
  rw [first?, readings, seek_append hearly]
  exact first?_seek (first?_closingTag e rest)

/-! ### A block -/

theorem first?_hidden_block (b : HiddenBlock) (rest : List Char) :
    hidden.first? (b.text ++ rest) = some ((), rest) := by
  cases b with
  | comment content unclosed =>
      have hread : comment.first? (commentStart ++ (content ++ (commentEnd ++ rest))) =
          some ((), rest) :=
        first?_bind (first?_word rfl) (first?_through_commentEnd unclosed rest)
      have htext : (HiddenBlock.comment content unclosed).text ++ rest =
          commentStart ++ (content ++ (commentEnd ++ rest)) := by
        simp only [HiddenBlock.text, List.append_assoc]
      rw [htext]
      exact first?_orElse hread _
  | element e content starts unclosed =>
      have hread := first?_hiddenElement starts unclosed rest
      have htext : (HiddenBlock.element e content starts unclosed).text ++ rest =
          '<' :: (e.name ++ (content ++ '<' :: '/' :: (e.name ++ '>' :: rest))) := by
        simp [HiddenBlock.text]
      rw [htext, hidden]
      cases e with
      | script =>
          rw [first?_orElse_of_eq_nil (comment_eq_nil rfl)]
          exact first?_orElse hread _
      | style =>
          rw [first?_orElse_of_eq_nil (comment_eq_nil rfl),
            first?_orElse_of_eq_nil (hiddenElement_eq_nil _ rfl)]
          exact hread

theorem HiddenBlock.text_eq_cons (b : HiddenBlock) : ∃ s, b.text = '<' :: s := by
  cases b <;> exact ⟨_, rfl⟩

theorem replaceEach_blank (rest : List Char) :
    replaceEach hidden advances_hidden [' '] (' ' :: rest) =
      ' ' :: replaceEach hidden advances_hidden [' '] rest :=
  replaceEach_of_eq_nil advances_hidden [' '] (refuses_hidden ' ' rest (by decide))

theorem replaceEach_block (v : Visible) (b : HiddenBlock) (rest : List Char) :
    replaceEach hidden advances_hidden [' '] (v.text ++ (b.text ++ rest)) =
      v.text ++ ' ' :: replaceEach hidden advances_hidden [' '] rest := by
  have hread := first?_hidden_block b rest
  obtain ⟨s, hs⟩ := b.text_eq_cons
  rw [hs, List.cons_append] at hread ⊢
  rw [replaceEach_visible v List.mem_cons_self, replaceEach_of_first? advances_hidden [' '] hread]
  rfl

theorem replaceEach_gap (v : Visible) (rest : List Char) :
    replaceEach hidden advances_hidden [' '] (v.text ++ ' ' :: rest) =
      v.text ++ ' ' :: replaceEach hidden advances_hidden [' '] rest := by
  rw [replaceEach_visible v (List.mem_cons_of_mem _ List.mem_cons_self), replaceEach_blank]

/-! ### Pages -/

/-- A page with a block behind each of its visible texts, and any text at its end. -/
def blockPage (parts : List (Visible × HiddenBlock)) (rest : List Char) : List Char :=
  parts.flatMap (fun p => p.1.text ++ p.2.text) ++ rest

/-- What the first pass leaves of a page depends on its visible texts only. -/
theorem replaceEach_blockPage (parts : List (Visible × HiddenBlock)) (rest : List Char) :
    replaceEach hidden advances_hidden [' '] (blockPage parts rest) =
      (parts.map Prod.fst).flatMap (fun v => v.text ++ [' ']) ++
        replaceEach hidden advances_hidden [' '] rest := by
  induction parts with
  | nil => rfl
  | cons p parts ih =>
      have hsplit : blockPage (p :: parts) rest =
          p.1.text ++ (p.2.text ++ blockPage parts rest) := by
        rw [blockPage, List.flatMap_cons, List.append_assoc, List.append_assoc]
        rfl
      rw [hsplit, replaceEach_block, ih, List.map_cons, List.flatMap_cons, List.append_assoc,
        List.append_assoc]
      rfl

theorem documentText_eq_of_hidden (h : replaceEach hidden advances_hidden [' '] s =
    replaceEach hidden advances_hidden [' '] t) :
    documentText (Utf8.encode s) = documentText (Utf8.encode t) := by
  rw [documentText, documentText, decodeLossy_encode, decodeLossy_encode, plainText, plainText, h]

/-- A block behind a visible text is as good as a blank, and two pages that differ in such blocks
only have the same text and the same stats. -/
theorem hidden_invisible :
    (∀ (v : Visible) (b : HiddenBlock) (rest : List Char),
      documentText (Utf8.encode (v.text ++ b.text ++ rest)) =
        documentText (Utf8.encode (v.text ++ [' '] ++ rest))) ∧
    ∀ parts parts' : List (Visible × HiddenBlock), parts.map Prod.fst = parts'.map Prod.fst →
      ∀ rest, documentText (Utf8.encode (blockPage parts rest)) =
          documentText (Utf8.encode (blockPage parts' rest)) ∧
        ∀ kind, statFormulas kind (documentText (Utf8.encode (blockPage parts rest))) =
          statFormulas kind (documentText (Utf8.encode (blockPage parts' rest))) := by
  refine ⟨fun v b rest => documentText_eq_of_hidden ?_, fun parts parts' hparts rest => ?_⟩
  · rw [List.append_assoc, List.append_assoc, replaceEach_block]
    exact (replaceEach_gap v rest).symm
  · have htext : documentText (Utf8.encode (blockPage parts rest)) =
        documentText (Utf8.encode (blockPage parts' rest)) := by
      apply documentText_eq_of_hidden
      rw [replaceEach_blockPage, replaceEach_blockPage, hparts]
    exact ⟨htext, fun kind => congrArg (statFormulas kind) htext⟩

def armorScript : Visible × HiddenBlock :=
  (⟨"<p>Armor".toList, by decide⟩,
    .element .script ">write('<p>Armor 9')</".toList (by rintro c ⟨⟩; rfl) (by decide))

def armorComment : Visible × HiddenBlock :=
  (⟨"<p>Armor".toList, by decide⟩, .comment "> 9 - -> 8".toList (by decide))

/-- A script that writes another value is as good as a comment. -/
theorem hidden_invisible_armor :
    [armorScript].map Prod.fst = [armorComment].map Prod.fst ∧
    documentText (Utf8.encode (blockPage [armorScript] "30</p>".toList)) =
      documentText (Utf8.encode (blockPage [armorComment] "30</p>".toList)) :=
  ⟨rfl, (hidden_invisible.2 [armorScript] [armorComment] rfl _).1⟩

end StatAlmanac.Page
