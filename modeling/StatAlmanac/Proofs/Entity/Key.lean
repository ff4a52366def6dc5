import StatAlmanac.Almanac

/-!
Keys of entities: which characters they are made of, and that a cache takes every
one of them.
-/

namespace StatAlmanac

namespace Name

def isKeyChar (c : Char) : Bool := isPlain c || c == '_' || c == '-'

theorem isKeyChar_digitChar {n : Nat} (h : n < 16) : isKeyChar (Nat.digitChar n) := by
  have hdigits : ∀ n < 16, isKeyChar (Nat.digitChar n) := by decide
  exact hdigits n h

theorem isKeyChar_of_mem_slugChar {c d : Char} (h : d ∈ slugChar c) : isKeyChar d := by
  rw [slugChar] at h
  split at h
  · rename_i hplain
    obtain rfl := List.mem_singleton.1 h
    simp [isKeyChar, hplain]
  · split at h
    · obtain rfl := List.mem_singleton.1 h
      rfl
    · obtain ⟨b, -, hb⟩ := List.mem_flatMap.1 h
      rw [twoDigits, List.mem_cons, List.mem_cons, List.mem_singleton] at hb
      rcases hb with rfl | rfl | rfl
      · rfl
      · exact isKeyChar_digitChar (Nat.mod_lt _ (by decide))
      · exact isKeyChar_digitChar (Nat.mod_lt _ (by decide))

theorem isKeyChar_of_mem_kind (k : Kind) : ∀ c ∈ k.name.toList, isKeyChar c := by
  cases k <;> decide

theorem isKeyChar_of_mem_key {k : Kind} {s : List Char} {c : Char} (h : c ∈ key k s) :
    isKeyChar c := by
  rw [key, List.mem_append, List.mem_cons] at h
  rcases h with hkind | rfl | hslug
  · exact isKeyChar_of_mem_kind k c hkind
  · rfl
  · obtain ⟨d, -, hd⟩ := List.mem_flatMap.1 hslug
    exact isKeyChar_of_mem_slugChar hd

end Name

theorem Cache.hasDots_of_not_mem {s : List Char} (h : '.' ∉ s) : hasDots s = false := by
  induction s with
  | nil => rfl
  | cons c s ih =>
      rw [List.mem_cons, not_or] at h
      rw [hasDots]
      · exact ih h.2
      · rintro rest rfl -
        exact h.1 rfl

theorem Cache.isKey_of_isKeyChar {key : String} (hempty : key ≠ "")
    (h : ∀ c ∈ key.toList, Name.isKeyChar c) : isKey key := by
  have hany : key.toList.any (fun c => c == '/' || c == '\\') = false := by
    rw [List.any_eq_false]
    intro c hc hslash
    have hchar := h c hc
    rw [Bool.or_eq_true, beq_iff_eq, beq_iff_eq] at hslash
    rcases hslash with rfl | rfl
    · cases hchar
    · cases hchar
  have hdots : hasDots key.toList = false := by
    apply hasDots_of_not_mem
    intro hdot
    cases h '.' hdot
  simp [isKey, hempty, hany, hdots]

namespace Almanac

theorem isKey_keyOf (k : Kind) (name : String) : Cache.isKey (keyOf k name) := by
  apply Cache.isKey_of_isKeyChar
  · intro hempty
    have hlist := congrArg String.toList hempty
    rw [keyOf, String.toList_ofList, Name.key] at hlist
    cases k <;> cases hlist
  · intro c hc
    rw [keyOf, String.toList_ofList] at hc
    exact Name.isKeyChar_of_mem_key hc

theorem keyOf_congr {k : Kind} {name other : String}
    (h : Text.lowerText (Name.normalize name.toList) =
      Text.lowerText (Name.normalize other.toList)) : keyOf k name = keyOf k other := by
  rw [keyOf, keyOf, Name.key, Name.key, Name.slug, Name.slug, h]

end Almanac

end StatAlmanac
