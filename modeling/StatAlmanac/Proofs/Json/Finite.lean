import StatAlmanac.Proofs.Binary64.Scientific
import StatAlmanac.Proofs.Json.Decoded
import StatAlmanac.Proofs.Json.Scaled

/-!
The numbers that are read are finite. However many digits a numeral has, and however
large its exponent, what goes beyond the finite numbers is refused with the token that
it stands in, and a tree has no numbers but those of its tokens.
-/

namespace StatAlmanac.Json

open Decimal Binary64

/-! ### One number -/

section Scaled

variable {n : Nat} {k : Int} {y : Float}

theorem isZero_of_scaled? (h : scaled? 0 k = some y) : IsZero y .positive := by
  have hzero : IsZero (Float.ofNat 0) .positive := ofScientific_zero false 0
  have hmax : maxPower = 308 := rfl
  simp only [scaled?] at h
  split at h
  · split at h
    · obtain ⟨b, hb, -⟩ := tenTo_normal (j := k.toNat) (by omega)
      split at h
      · cases h
      · exact Option.some.inj h ▸ zero_mul_isZero hzero hb
    · exact Option.some.inj h ▸ hzero
  · split at h
    · obtain ⟨b, hb, -⟩ := tenTo_normal (j := (-k).toNat) (by omega)
      exact Option.some.inj h ▸ zero_div_isZero hzero hb
    · split at h
      · obtain ⟨b, hb, -⟩ := tenTo_normal (j := maxPower.toNat) (by omega)
        obtain ⟨c, hc, -⟩ := tenTo_normal (j := (-k - maxPower).toNat) (by omega)
        exact Option.some.inj h ▸ zero_div_isZero (zero_div_isZero hzero hb) hc
      · exact Option.some.inj h ▸ hzero

/-- A product is kept only if it did not become infinite, and it is never NaN. -/
theorem isFinite_of_scaled?_nonneg (hpos : 0 < n) (hn : n < 2 ^ 64) {j : Nat}
    (h : scaled? n j = some y) : y.isFinite = true := by
  by_cases hj : j ≤ 308
  · obtain ⟨a, ha, -⟩ := ofNat_normal hpos hn
    obtain ⟨b, hb, -, hfull, -⟩ := tenTo_normal hj
    rw [scaled?_of_nonneg hj] at h
    split at h
    · cases h
    · rename_i hinf
      exact Option.some.inj h ▸ (mul_isOrdered ha hb hfull).isFinite (Bool.eq_false_iff.2 hinf)
  · rw [scaled?, if_pos (by omega), if_neg (by show ¬(j : Int) ≤ 308; omega), if_neg hpos.ne'] at h
    cases h

theorem isFinite_of_scaled? (hn : n < 2 ^ 64) (h : scaled? n k = some y) : y.isFinite = true := by
  rcases Nat.eq_zero_or_pos n with rfl | hpos
  · exact (isZero_of_scaled? h).isFinite
  · rcases lt_or_ge k 0 with hneg | hge
    · by_cases hleast : -616 ≤ k
      · obtain ⟨z, q, hz⟩ := scaled?_neg hpos hn hneg hleast
        obtain rfl : y = z := Option.some.inj (h.symm.trans hz.eq)
        exact hz.nearest.isFinite
      · rw [scaled?, if_neg (by omega), if_neg (by show ¬-(308 : Int) ≤ k; omega),
          if_neg (by show ¬-(2 * 308 : Int) ≤ k; omega)] at h
        exact Option.some.inj h ▸ isFinite_zero
    · obtain ⟨j, rfl⟩ := Int.eq_ofNat_of_zero_le hge
      exact isFinite_of_scaled?_nonneg hpos hn h

end Scaled

theorem absorb_le {s : Nat} (hs : s ≤ maxSignificand) (ds : List Char) :
    (absorb s ds).1 ≤ maxSignificand := by
  induction ds generalizing s with
  | nil => exact hs
  | cons d ds ih =>
      simp only [absorb]
      split
      · rename_i hnext
        exact ih hnext
      · exact hs

/-- The significand has 64 bits, however many digits there are. -/
theorem parts_lt (n : Numeral) : n.parts.1 < 2 ^ 64 := by
  have hmax : maxSignificand = 2 ^ 64 - 1 := rfl
  have hle : n.parts.1 ≤ maxSignificand := absorb_le (absorb_le (Nat.zero_le _) _) _
  omega

theorem isFinite_of_magnitude? {n : Numeral} {x : Float} (h : n.magnitude? = some x) :
    x.isFinite = true := by
  have hlt := parts_lt n
  simp only [Numeral.magnitude?] at h
  split at h
  · exact isFinite_of_scaled? hlt h
  · split at h
    · split at h
      · cases h
      · exact Option.some.inj h ▸ isFinite_zero
    · exact isFinite_of_scaled? hlt h

theorem isFinite_of_number? {n : Numeral} {v : Number} (h : n.number? = some v) :
    v.toFloat.isFinite = true := by
  simp only [Numeral.number?] at h
  split at h
  · rename_i hplain
    have hmax : maxSignificand = 2 ^ 64 - 1 := rfl
    have hle : digitsValue n.whole ≤ maxSignificand := by
      simp only [Bool.and_eq_true, decide_eq_true_eq] at hplain
      exact hplain.2
    have hfinite : (Float.ofNat (digitsValue n.whole)).isFinite = true := isFinite_ofNat (by omega)
    split at h
    · exact Option.some.inj h ▸ hfinite
    · split at h <;> exact Option.some.inj h ▸ isFinite_neg hfinite
  · obtain ⟨x, hx, rfl⟩ := Option.map_eq_some_iff.1 h
    have hfinite := isFinite_of_magnitude? hx
    show (if n.isNegative then -x else x).isFinite = true
    split
    · exact isFinite_neg hfinite
    · exact hfinite

/-! ### Tokens -/

def Token.IsFinite : Token → Prop
  | .number n => ∀ v ∈ n, v.toFloat.isFinite = true
  | _ => True

theorem isFinite_of_scanToken {c : Char} {rest : List Char} {r : Token × List Char}
    (h : scanToken c rest = some r) : r.1.IsFinite := by
  unfold scanToken at h
  split at h
  case h_10 =>
    obtain ⟨a, -, rfl⟩ := Option.map_eq_some_iff.1 h
    trivial
  case h_11 =>
    obtain ⟨a, -, rfl⟩ := Option.map_eq_some_iff.1 h
    exact fun v hv => isFinite_of_number? hv
  case h_12 =>
    obtain ⟨a, -, rfl⟩ := Option.map_eq_some_iff.1 h
    exact fun v hv => isFinite_of_number? hv
  all_goals
    cases h
    trivial

theorem isFinite_of_mem_tokensOf {s : List Char} {t : Token} (h : t ∈ tokensOf s) : t.IsFinite := by
  fun_induction tokensOf s with
  | case1 => cases h
  | case2 c rest hspace ih => exact ih h
  | case3 c rest hspace r hr ih =>
      rcases List.mem_cons.1 h with rfl | hmem
      · exact isFinite_of_scanToken hr
      · exact ih hmem
  | case4 c rest hspace hnone =>
      obtain rfl := List.mem_singleton.1 h
      trivial

/-! ### Trees -/

inductive Tree.IsFinite : Tree → Prop
  | null : IsFinite .null
  | bool (b : Bool) : IsFinite (.bool b)
  | number {n : Option Number} (h : ∀ v ∈ n, v.toFloat.isFinite = true) : IsFinite (.number n)
  | text (s : Option String) : IsFinite (.text s)
  | list {items : List Tree} (h : ∀ t ∈ items, IsFinite t) (isClosed : Bool) :
      IsFinite (.list items isClosed)
  | object {members : List (Key × Tree)} (h : ∀ m ∈ members, IsFinite m.2) (isClosed : Bool) :
      IsFinite (.object members isClosed)
  | broken : IsFinite .broken

def Open.IsFinite : Open → Prop
  | .list done => ∀ t ∈ done, t.IsFinite
  | .object done | .member done _ => ∀ m ∈ done, m.2.IsFinite

variable {o : Open} {stack : List Open} {t : Tree}

theorem Open.IsFinite.stop (h : o.IsFinite) (isClosed : Bool) : (o.stop isClosed).IsFinite := by
  cases o with
  | list done => exact .list (fun t ht => h t (List.mem_reverse.1 ht)) isClosed
  | object done => exact .object (fun m hm => h m (List.mem_reverse.1 hm)) isClosed
  | member done key =>
      refine .object (fun m hm => ?_) isClosed
      rcases List.mem_cons.1 (List.mem_reverse.1 hm) with rfl | hmem
      · exact .broken
      · exact h m hmem

theorem Open.IsFinite.add (h : o.IsFinite) (ht : t.IsFinite) : (o.add t).IsFinite := by
  cases o with
  | list done => exact List.forall_mem_cons.2 ⟨ht, h⟩
  | object done => exact h
  | member done key => exact List.forall_mem_cons.2 ⟨ht, h⟩

theorem isFinite_unwind (ht : t.IsFinite) (h : ∀ o ∈ stack, o.IsFinite) :
    (unwind t stack).IsFinite := by
  induction stack generalizing t with
  | nil => exact ht
  | cons o outer ih =>
      obtain ⟨ho, houter⟩ := List.forall_mem_cons.1 h
      exact ih ((ho.add ht).stop false) houter

theorem isFinite_cut (want : Want) (h : ∀ o ∈ stack, o.IsFinite) : (cut want stack).IsFinite := by
  unfold cut
  split
  · exact isFinite_unwind .broken h
  · exact .broken
  · obtain ⟨ho, houter⟩ := List.forall_mem_cons.1 h
    exact isFinite_unwind (ho.stop false) houter

def Progress.IsFinite : Progress → Prop
  | .more _ stack => ∀ o ∈ stack, o.IsFinite
  | .complete t | .wrong t => t.IsFinite

theorem isFinite_deliver (ht : t.IsFinite) (h : ∀ o ∈ stack, o.IsFinite) :
    (deliver t stack).IsFinite := by
  cases stack with
  | nil => exact ht
  | cons o outer =>
      obtain ⟨ho, houter⟩ := List.forall_mem_cons.1 h
      exact List.forall_mem_cons.2 ⟨ho.add ht, houter⟩

theorem isFinite_of_scalar? {token : Token} (htoken : token.IsFinite) (h : token.scalar? = some t) :
    t.IsFinite := by
  cases token with
  | null => exact Option.some.inj h ▸ .null
  | bool b => exact Option.some.inj h ▸ .bool b
  | number n => exact Option.some.inj h ▸ .number htoken
  | text s => exact Option.some.inj h ▸ .text s
  | _ => cases h

/-- One token more: what is open, and what is finished, has only finite numbers. -/
theorem isFinite_advance (want : Want) {token : Token} (htoken : token.IsFinite)
    (h : ∀ o ∈ stack, o.IsFinite) : (advance want stack token).IsFinite := by
  unfold advance
  split
  -- the end of what is open
  case h_1 | h_2 | h_3 | h_4 =>
    obtain ⟨ho, houter⟩ := List.forall_mem_cons.1 h
    exact isFinite_deliver (ho.stop true) houter
  -- a comma or a colon
  case h_5 | h_6 | h_9 => exact h
  -- a key
  case h_7 | h_8 =>
    obtain ⟨ho, houter⟩ := List.forall_mem_cons.1 h
    exact List.forall_mem_cons.2 ⟨ho, houter⟩
  -- a new list or object
  case h_10 | h_11 | h_12 | h_13 =>
    exact List.forall_mem_cons.2 ⟨List.forall_mem_nil _, h⟩
  -- a value that is one token
  case h_14 | h_15 =>
    split
    · rename_i t ht
      exact isFinite_deliver (isFinite_of_scalar? htoken ht) h
    · exact isFinite_cut _ h
  case h_16 => exact isFinite_cut _ h

theorem isFinite_build {tokens : List Token} (htokens : ∀ t ∈ tokens, t.IsFinite) (want : Want)
    (h : ∀ o ∈ stack, o.IsFinite) : (build want stack tokens).1.IsFinite := by
  induction tokens generalizing want stack with
  | nil => exact isFinite_cut want h
  | cons token rest ih =>
      obtain ⟨htoken, hrest⟩ := List.forall_mem_cons.1 htokens
      have hnext := isFinite_advance want htoken h
      rw [build]
      cases hadvance : advance want stack token with
      | more want stack =>
          rw [hadvance] at hnext
          exact ih hrest want hnext
      | complete t =>
          rw [hadvance] at hnext
          exact hnext
      | wrong t =>
          rw [hadvance] at hnext
          exact hnext

/-- Whatever bytes are read, the tree has only finite numbers. -/
theorem Tree.isFinite_read (body : Bytes) : (Tree.read body).1.IsFinite :=
  isFinite_build (fun _ ht => isFinite_of_mem_tokensOf ht) .value (List.forall_mem_nil _)

/-! ### Values -/

theorem Decode.isFinite_real {x : Float} (ht : t.IsFinite) (h : real t = .ok x) :
    x.isFinite = true := by
  unfold real at h
  split at h
  · rename_i n
    cases ht with
    | number hn => exact Except.ok.inj h ▸ hn n rfl
  · cases h

theorem Decode.isFinite_nullable {c : Option Float} (ht : t.IsFinite)
    (h : nullable real t = .ok c) : c.all Float.isFinite = true := by
  unfold nullable at h
  split at h
  · exact Except.ok.inj h ▸ rfl
  · obtain ⟨x, hx, rfl⟩ := map_eq_ok.1 h
    exact isFinite_real ht hx

end StatAlmanac.Json
