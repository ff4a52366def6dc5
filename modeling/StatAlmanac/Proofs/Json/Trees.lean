import StatAlmanac.Json.Decode
import StatAlmanac.Proofs.Json.Reals

/-!
Written JSON values as trees. A value whose numbers are naturals of 64 bits and
finite real numbers is written, compact or over lines, in tokens that the reader
puts together to the tree of that value, and nothing is left over.
-/

namespace StatAlmanac.Json

open Text

namespace Value

mutual

/-- All numbers in the value are naturals of 64 bits or finite. -/
def IsExact : Value → Prop
  | .natural n => n < bound64
  | .real x => x.isFinite
  | .list vs => AreExact vs
  | .object ms => MembersAreExact ms
  | .null | .bool _ | .text _ => True

def AreExact : List Value → Prop
  | [] => True
  | v :: vs => v.IsExact ∧ AreExact vs

def MembersAreExact : List (String × Value) → Prop
  | [] => True
  | (_, v) :: ms => v.IsExact ∧ MembersAreExact ms

end

mutual

def tokens : Value → List Token
  | .null => [.null]
  | .bool b => [.bool b]
  | .natural n => [.number (some (.natural n))]
  | .real x => [.number (numberOf x)]
  | .text s => [.text (some s)]
  | .list [] => [.openList, .closeList]
  | .list (v :: vs) => .openList :: (tokens v ++ itemTokens vs)
  | .object [] => [.openObject, .closeObject]
  | .object ((k, v) :: ms) =>
      .openObject :: .text (some k) :: .colon :: (tokens v ++ memberTokens ms)

def itemTokens : List Value → List Token
  | [] => [.closeList]
  | v :: vs => .comma :: (tokens v ++ itemTokens vs)

def memberTokens : List (String × Value) → List Token
  | [] => [.closeObject]
  | (k, v) :: ms => .comma :: .text (some k) :: .colon :: (tokens v ++ memberTokens ms)

end

mutual

def tree : Value → Tree
  | .null => .null
  | .bool b => .bool b
  | .natural n => .number (some (.natural n))
  | .real x => .number (numberOf x)
  | .text s => .text (some s)
  | .list vs => .list (trees vs) true
  | .object ms => .object (memberTrees ms) true

def trees : List Value → List Tree
  | [] => []
  | v :: vs => tree v :: trees vs

def memberTrees : List (String × Value) → List (Key × Tree)
  | [] => []
  | (k, v) :: ms => (.name k, tree v) :: memberTrees ms

end

end Value

/-! ### From characters to tokens -/

theorem endsNumber_cons {c : Char} {rest : List Char}
    (h : ¬isDigit c ∧ c ≠ '.' ∧ c ≠ 'e' ∧ c ≠ 'E') : EndsNumber (c :: rest) := by
  intro d hd
  obtain rfl : c = d := by simpa using hd
  exact h

theorem endsNumber_nil : EndsNumber [] := by
  intro c hc
  cases hc

theorem spell_newLine (level : Nat) : spell (newLine level) = newLine level := by
  apply spell_of_ascii
  intro c hc
  rcases List.mem_cons.1 hc with rfl | hc
  · decide
  · obtain rfl := List.eq_of_mem_replicate hc
    decide

theorem tokensOf_blanks (n : Nat) (rest : List Char) :
    tokensOf (List.replicate n ' ' ++ rest) = tokensOf rest := by
  induction n with
  | zero => rfl
  | succ n ih => rw [List.replicate_succ, List.cons_append, tokensOf_space _ (by decide), ih]

@[simp] theorem tokensOf_newLine (level : Nat) (rest : List Char) :
    tokensOf (spell (newLine level) ++ rest) = tokensOf rest := by
  rw [spell_newLine, newLine, List.cons_append, tokensOf_space _ (by decide), tokensOf_blanks]

theorem tokensOf_mark {c : Char} {t : Token} (rest : List Char)
    (h : (c, t) ∈ [('\x7b', Token.openObject), ('\x7d', .closeObject), ('[', .openList),
      (']', .closeList), (':', .colon), (',', .comma)]) :
    tokensOf (spell [c] ++ rest) = t :: tokensOf rest := by
  simp only [List.mem_cons, Prod.mk.injEq, List.not_mem_nil, or_false] at h
  rcases h with ⟨rfl, rfl⟩ | ⟨rfl, rfl⟩ | ⟨rfl, rfl⟩ | ⟨rfl, rfl⟩ | ⟨rfl, rfl⟩ | ⟨rfl, rfl⟩
  all_goals
    rw [spell_one (by decide), List.singleton_append]
    exact tokensOf_cons (by decide) rfl

theorem tokensOf_word {w : String} {t : Token} (rest : List Char)
    (h : (w, t) ∈ [("null", Token.null), ("true", .bool true), ("false", .bool false)]) :
    tokensOf (spell w.toList ++ rest) = t :: tokensOf rest := by
  simp only [List.mem_cons, Prod.mk.injEq, List.not_mem_nil, or_false] at h
  rcases h with ⟨rfl, rfl⟩ | ⟨rfl, rfl⟩ | ⟨rfl, rfl⟩
  all_goals
    rw [spell_of_all (by decide)]
    exact tokensOf_cons (by decide) rfl

theorem spell_toDigits (n : Nat) : spell (Nat.toDigits 10 n) = Nat.toDigits 10 n :=
  spell_of_ascii fun _ hc => toNat_lt_of_isDigit (isDigit_of_mem_toDigits hc)

theorem endsNumber_prettyItems (level : Nat) (vs : List Value) (rest : List Char) :
    EndsNumber (spell (prettyItems level vs) ++ rest) := by
  cases vs with
  | nil =>
      rw [prettyItems, spell_append, spell_newLine]
      exact endsNumber_cons (by decide)
  | cons v vs =>
      simp only [prettyItems, List.cons_append]
      rw [spell_cons, spell_one (by decide)]
      exact endsNumber_cons (by decide)

theorem endsNumber_prettyMembers (level : Nat) (ms : List (String × Value)) (rest : List Char) :
    EndsNumber (spell (prettyMembers level ms) ++ rest) := by
  cases ms with
  | nil =>
      rw [prettyMembers, spell_append, spell_newLine]
      exact endsNumber_cons (by decide)
  | cons m ms =>
      simp only [prettyMembers, List.cons_append]
      rw [spell_cons, spell_one (by decide)]
      exact endsNumber_cons (by decide)

theorem tokensOf_key (k : String) (s rest : List Char) :
    tokensOf (spell (writeText k) ++ (spell (':' :: s) ++ rest)) =
      .text (some k) :: .colon :: tokensOf (spell s ++ rest) := by
  rw [tokensOf_writeText, spell_cons, List.append_assoc, tokensOf_mark _ (t := .colon) (by simp)]

theorem tokensOf_blank (s rest : List Char) :
    tokensOf (spell (' ' :: s) ++ rest) = tokensOf (spell s ++ rest) := by
  rw [spell_cons, spell_one (by decide), List.append_assoc, List.singleton_append,
    tokensOf_space _ (by decide)]

mutual

/-- A value is written in its tokens. -/
theorem tokensOf_pretty (level : Nat) (v : Value) (rest : List Char) (hv : v.IsExact)
    (hrest : EndsNumber rest) :
    tokensOf (spell (pretty level v) ++ rest) = v.tokens ++ tokensOf rest := by
  match v with
  | .null => exact tokensOf_word rest (w := "null") (by simp)
  | .bool true => exact tokensOf_word rest (w := "true") (by simp)
  | .bool false => exact tokensOf_word rest (w := "false") (by simp)
  | .natural n =>
      -- only here it matters what comes behind: digits would go on with the number
      rw [pretty, spell_toDigits, tokensOf_natural hv hrest]
      rfl
  | .real x => exact tokensOf_real hv hrest
  | .text s => exact tokensOf_writeText s rest
  | .list [] =>
      rw [pretty, spell_cons, List.append_assoc, tokensOf_mark _ (t := .openList) (by simp),
        tokensOf_mark _ (t := .closeList) (by simp)]
      rfl
  | .list (v :: vs) =>
      simp only [pretty, List.cons_append]
      rw [spell_cons]
      simp only [spell_append, List.append_assoc]
      rw [tokensOf_mark _ (t := .openList) (by simp), tokensOf_newLine,
        tokensOf_pretty (level + 1) v _ hv.1 (endsNumber_prettyItems level vs rest),
        tokensOf_prettyItems level vs rest hv.2]
      simp only [Value.tokens, List.cons_append, List.append_assoc]
  | .object [] =>
      rw [pretty, spell_cons, List.append_assoc, tokensOf_mark _ (t := .openObject) (by simp),
        tokensOf_mark _ (t := .closeObject) (by simp)]
      rfl
  | .object ((k, v) :: ms) =>
      simp only [pretty, List.cons_append, List.append_assoc]
      rw [spell_cons]
      simp only [spell_append, List.append_assoc]
      rw [tokensOf_mark _ (t := .openObject) (by simp), tokensOf_newLine, tokensOf_key,
        tokensOf_blank, spell_append, List.append_assoc,
        tokensOf_pretty (level + 1) v _ hv.1 (endsNumber_prettyMembers level ms rest),
        tokensOf_prettyMembers level ms rest hv.2]
      simp only [Value.tokens, List.cons_append, List.append_assoc]

theorem tokensOf_prettyItems (level : Nat) (vs : List Value) (rest : List Char)
    (hvs : Value.AreExact vs) :
    tokensOf (spell (prettyItems level vs) ++ rest) = Value.itemTokens vs ++ tokensOf rest := by
  match vs with
  | [] =>
      rw [prettyItems, spell_append, List.append_assoc, tokensOf_newLine,
        tokensOf_mark _ (t := .closeList) (by simp)]
      rfl
  | v :: vs =>
      simp only [prettyItems, List.cons_append]
      rw [spell_cons]
      simp only [spell_append, List.append_assoc]
      rw [tokensOf_mark _ (t := .comma) (by simp), tokensOf_newLine,
        tokensOf_pretty (level + 1) v _ hvs.1 (endsNumber_prettyItems level vs rest),
        tokensOf_prettyItems level vs rest hvs.2]
      simp only [Value.itemTokens, List.cons_append, List.append_assoc]

theorem tokensOf_prettyMembers (level : Nat) (ms : List (String × Value)) (rest : List Char)
    (hms : Value.MembersAreExact ms) :
    tokensOf (spell (prettyMembers level ms) ++ rest) =
      Value.memberTokens ms ++ tokensOf rest := by
  match ms with
  | [] =>
      rw [prettyMembers, spell_append, List.append_assoc, tokensOf_newLine,
        tokensOf_mark _ (t := .closeObject) (by simp)]
      rfl
  | (k, v) :: ms =>
      simp only [prettyMembers, List.cons_append, List.append_assoc]
      rw [spell_cons]
      simp only [spell_append, List.append_assoc]
      rw [tokensOf_mark _ (t := .comma) (by simp), tokensOf_newLine, tokensOf_key,
        tokensOf_blank, spell_append, List.append_assoc,
        tokensOf_pretty (level + 1) v _ hms.1 (endsNumber_prettyMembers level ms rest),
        tokensOf_prettyMembers level ms rest hms.2]
      simp only [Value.memberTokens, List.cons_append, List.append_assoc]

end

theorem endsNumber_compactItems (vs : List Value) (rest : List Char) :
    EndsNumber (spell (compactItems vs) ++ rest) := by
  cases vs with
  | nil => exact endsNumber_cons (by decide)
  | cons v vs =>
      simp only [compactItems, List.cons_append]
      rw [spell_cons, spell_one (by decide)]
      exact endsNumber_cons (by decide)

theorem endsNumber_compactMembers (ms : List (String × Value)) (rest : List Char) :
    EndsNumber (spell (compactMembers ms) ++ rest) := by
  cases ms with
  | nil => exact endsNumber_cons (by decide)
  | cons m ms =>
      simp only [compactMembers, List.cons_append]
      rw [spell_cons, spell_one (by decide)]
      exact endsNumber_cons (by decide)

mutual

theorem tokensOf_compact (v : Value) (rest : List Char) (hv : v.IsExact) (hrest : EndsNumber rest) :
    tokensOf (spell (compact v) ++ rest) = v.tokens ++ tokensOf rest := by
  match v with
  | .null => exact tokensOf_word rest (w := "null") (by simp)
  | .bool true => exact tokensOf_word rest (w := "true") (by simp)
  | .bool false => exact tokensOf_word rest (w := "false") (by simp)
  | .natural n =>
      rw [compact, spell_toDigits, tokensOf_natural hv hrest]
      rfl
  | .real x => exact tokensOf_real hv hrest
  | .text s => exact tokensOf_writeText s rest
  | .list [] =>
      rw [compact, spell_cons, List.append_assoc, tokensOf_mark _ (t := .openList) (by simp),
        tokensOf_mark _ (t := .closeList) (by simp)]
      rfl
  | .list (v :: vs) =>
      simp only [compact, List.cons_append]
      rw [spell_cons]
      simp only [spell_append, List.append_assoc]
      rw [tokensOf_mark _ (t := .openList) (by simp),
        tokensOf_compact v _ hv.1 (endsNumber_compactItems vs rest),
        tokensOf_compactItems vs rest hv.2]
      simp only [Value.tokens, List.cons_append, List.append_assoc]
  | .object [] =>
      rw [compact, spell_cons, List.append_assoc, tokensOf_mark _ (t := .openObject) (by simp),
        tokensOf_mark _ (t := .closeObject) (by simp)]
      rfl
  | .object ((k, v) :: ms) =>
      simp only [compact, List.cons_append, List.append_assoc]
      rw [spell_cons]
      simp only [spell_append, List.append_assoc]
      rw [tokensOf_mark _ (t := .openObject) (by simp), tokensOf_key, spell_append,
        List.append_assoc, tokensOf_compact v _ hv.1 (endsNumber_compactMembers ms rest),
        tokensOf_compactMembers ms rest hv.2]
      simp only [Value.tokens, List.cons_append, List.append_assoc]

theorem tokensOf_compactItems (vs : List Value) (rest : List Char) (hvs : Value.AreExact vs) :
    tokensOf (spell (compactItems vs) ++ rest) = Value.itemTokens vs ++ tokensOf rest := by
  match vs with
  | [] =>
      rw [compactItems, tokensOf_mark _ (t := .closeList) (by simp)]
      rfl
  | v :: vs =>
      simp only [compactItems, List.cons_append]
      rw [spell_cons]
      simp only [spell_append, List.append_assoc]
      rw [tokensOf_mark _ (t := .comma) (by simp),
        tokensOf_compact v _ hvs.1 (endsNumber_compactItems vs rest),
        tokensOf_compactItems vs rest hvs.2]
      simp only [Value.itemTokens, List.cons_append, List.append_assoc]

theorem tokensOf_compactMembers (ms : List (String × Value)) (rest : List Char)
    (hms : Value.MembersAreExact ms) :
    tokensOf (spell (compactMembers ms) ++ rest) = Value.memberTokens ms ++ tokensOf rest := by
  match ms with
  | [] =>
      rw [compactMembers, tokensOf_mark _ (t := .closeObject) (by simp)]
      rfl
  | (k, v) :: ms =>
      simp only [compactMembers, List.cons_append, List.append_assoc]
      rw [spell_cons]
      simp only [spell_append, List.append_assoc]
      rw [tokensOf_mark _ (t := .comma) (by simp), tokensOf_key, spell_append, List.append_assoc,
        tokensOf_compact v _ hms.1 (endsNumber_compactMembers ms rest),
        tokensOf_compactMembers ms rest hms.2]
      simp only [Value.memberTokens, List.cons_append, List.append_assoc]

end

/-! ### From tokens to trees -/

/-- What becomes of a complete value: it goes to what it is part of, or it is the tree sought. -/
def settle (t : Tree) (stack : List Open) (rest : List Token) : Tree × List Token :=
  match stack with
  | [] => (t, rest)
  | o :: outer => build .next (o.add t :: outer) rest

theorem build_cons (want : Want) (stack : List Open) (token : Token) (rest : List Token) :
    build want stack (token :: rest) =
      match advance want stack token with
      | .more want stack => build want stack rest
      | .complete t => (t, rest)
      | .wrong t => (t, [.broken]) := rfl

theorem build_of_deliver {want : Want} {stack outer : List Open} {token : Token} {t : Tree}
    (rest : List Token) (h : advance want stack token = deliver t outer) :
    build want stack (token :: rest) = settle t outer rest := by
  rw [build_cons, h]
  cases outer <;> rfl

/-- Where an item of a list may stand, a value is read as anywhere else. -/
theorem build_item (stack : List Open) (v : Value) (hv : v.IsExact) (rest : List Token) :
    build .item stack (v.tokens ++ rest) = build .value stack (v.tokens ++ rest) := by
  match v with
  | .null | .bool _ | .natural _ | .real _ | .text _ | .list [] | .list (_ :: _) | .object []
  | .object (_ :: _) => rfl

mutual

theorem build_tokens (v : Value) (stack : List Open) (rest : List Token) (hv : v.IsExact) :
    build .value stack (v.tokens ++ rest) = settle v.tree stack rest := by
  match v with
  | .null | .bool _ | .natural _ | .real _ | .text _ => exact build_of_deliver rest rfl
  | .list [] =>
      simp only [Value.tokens, List.cons_append, List.nil_append]
      rw [build_cons]
      exact build_of_deliver rest rfl
  | .list (v :: vs) =>
      simp only [Value.tokens, List.cons_append, List.append_assoc]
      rw [build_cons]
      show build .item (.list [] :: stack) _ = _
      rw [build_item _ _ hv.1, build_tokens v _ _ hv.1]
      exact build_itemTokens vs [v.tree] stack rest hv.2
  | .object [] =>
      simp only [Value.tokens, List.cons_append, List.nil_append]
      rw [build_cons]
      exact build_of_deliver rest rfl
  | .object ((k, v) :: ms) =>
      simp only [Value.tokens, List.cons_append, List.append_assoc]
      rw [build_cons]
      show build .value (.member [] (.name k) :: stack) _ = _
      rw [build_tokens v _ _ hv.1]
      exact build_memberTokens ms [(.name k, v.tree)] stack rest hv.2

theorem build_itemTokens (vs : List Value) (done : List Tree) (stack : List Open)
    (rest : List Token) (hvs : Value.AreExact vs) :
    build .next (.list done :: stack) (Value.itemTokens vs ++ rest) =
      settle (.list (done.reverse ++ Value.trees vs) true) stack rest := by
  match vs with
  | [] =>
      rw [Value.trees, List.append_nil]
      exact build_of_deliver rest rfl
  | v :: vs =>
      simp only [Value.itemTokens, List.cons_append, List.append_assoc]
      rw [build_cons]
      show build .value (.list done :: stack) _ = _
      rw [build_tokens v _ _ hvs.1]
      refine (build_itemTokens vs (v.tree :: done) stack rest hvs.2).trans ?_
      rw [List.reverse_cons, List.append_assoc]
      rfl

theorem build_memberTokens (ms : List (String × Value)) (done : List (Key × Tree))
    (stack : List Open) (rest : List Token) (hms : Value.MembersAreExact ms) :
    build .next (.object done :: stack) (Value.memberTokens ms ++ rest) =
      settle (.object (done.reverse ++ Value.memberTrees ms) true) stack rest := by
  match ms with
  | [] =>
      rw [Value.memberTrees, List.append_nil]
      exact build_of_deliver rest rfl
  | (k, v) :: ms =>
      simp only [Value.memberTokens, List.cons_append, List.append_assoc]
      rw [build_cons]
      show build .value (.member done (.name k) :: stack) _ = _
      rw [build_tokens v _ _ hms.1]
      refine (build_memberTokens ms ((.name k, v.tree) :: done) stack rest hms.2).trans ?_
      rw [List.reverse_cons, List.append_assoc]
      rfl

end

/-- A value written over lines is read back as its tree, to the end of the text. -/
theorem read_pretty {v : Value} (hv : v.IsExact) :
    Tree.read (Utf8.encode (pretty 0 v)) = (v.tree, []) := by
  have htokens := tokensOf_pretty 0 v [] hv endsNumber_nil
  rw [List.append_nil, tokensOf_nil] at htokens
  rw [Tree.read, tokens_encode, htokens, build_tokens v [] [] hv]
  rfl

theorem read_compact {v : Value} (hv : v.IsExact) :
    Tree.read (Utf8.encode (compact v)) = (v.tree, []) := by
  have htokens := tokensOf_compact v [] hv endsNumber_nil
  rw [List.append_nil, tokensOf_nil] at htokens
  rw [Tree.read, tokens_encode, htokens, build_tokens v [] [] hv]
  rfl

/-- What a text is read as hangs on its tree alone, if that is all of the text. -/
theorem whole_of_read {α : Type} (d : Decoder α) {body : Bytes} {t : Tree}
    (h : Tree.read body = (t, [])) : Decode.whole d body = d t := by
  rw [Decode.whole, h]
  cases h : d t <;> simp [h, bind, Except.bind, pure, Except.pure]

theorem whole_pretty {α : Type} (d : Decoder α) {v : Value} (hv : v.IsExact) :
    Decode.whole d (Utf8.encode (pretty 0 v)) = d v.tree :=
  whole_of_read d (read_pretty hv)

theorem whole_compact {α : Type} (d : Decoder α) {v : Value} (hv : v.IsExact) :
    Decode.whole d (Utf8.encode (compact v)) = d v.tree :=
  whole_of_read d (read_compact hv)

end StatAlmanac.Json
