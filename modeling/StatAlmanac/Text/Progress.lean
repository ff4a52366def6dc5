import StatAlmanac.Text.Reader

/-!
Readers that make progress: what such a reader leaves is always shorter than
what it was given. A sequence makes progress when its first part does and the
others never leave more than they were given.
-/

namespace StatAlmanac.Text.Reader

variable {α β : Type}

def Keeps (r : Reader α) : Prop := ∀ s x, x ∈ r s → x.2.length ≤ s.length

def Advances (r : Reader α) : Prop := ∀ s x, x ∈ r s → x.2.length < s.length

theorem Advances.keeps {r : Reader α} (h : r.Advances) : r.Keeps :=
  fun s x hx => Nat.le_of_lt (h s x hx)

theorem Advances.first?_lt {r : Reader α} (h : r.Advances) {s rest : List Char} {a : α}
    (hr : r.first? s = some (a, rest)) : rest.length < s.length :=
  h s (a, rest) (List.mem_of_head? hr)

theorem advances_one (p : Char → Bool) : (one p).Advances
  | [], x, hx => by simp [one] at hx
  | c :: rest, x, hx => by
      simp only [one] at hx
      split at hx <;> simp_all

theorem dropName?_length {name s rest : List Char} (h : dropName? name s = some rest) :
    rest.length + name.length = s.length := by
  induction name generalizing s with
  | nil => simp_all [dropName?]
  | cons a name ih =>
      cases s with
      | nil => simp [dropName?] at h
      | cons b s =>
          simp only [dropName?] at h
          split at h
          · have := ih h
            simp only [List.length_cons]
            omega
          · simp at h

theorem keeps_word (name : List Char) : (word name).Keeps := by
  intro s x hx
  simp only [word, Option.mem_toList, Option.map_eq_some_iff] at hx
  obtain ⟨rest, h, rfl⟩ := hx
  exact Nat.le.intro (dropName?_length h)

theorem advances_word {name : List Char} (hn : name ≠ []) : (word name).Advances := by
  intro s x hx
  simp only [word, Option.mem_toList, Option.map_eq_some_iff] at hx
  obtain ⟨rest, h, rfl⟩ := hx
  have := dropName?_length h
  have := List.length_pos_iff.2 hn
  simp only
  omega

theorem keeps_result (a : α) : (result a).Keeps := by
  intro s x hx
  simp_all [result]

theorem mem_stops_length {p : Char → Bool} {s t : List Char} (h : t ∈ stops p s) :
    t.length ≤ s.length := by
  induction s with
  | nil => simp_all [stops]
  | cons c s ih =>
      simp only [stops, List.mem_cons] at h
      rcases h with rfl | h
      · exact Nat.le_refl _
      · split at h
        · exact Nat.le_succ_of_le (ih h)
        · simp at h

theorem keeps_many (p : Char → Bool) : (many p).Keeps := by
  intro s x hx
  simp only [many, List.mem_map, List.mem_reverse] at hx
  obtain ⟨t, ht, rfl⟩ := hx
  exact mem_stops_length ht

theorem keeps_wordEnd : wordEnd.Keeps
  | [], x, hx => by simp_all [wordEnd]
  | c :: rest, x, hx => by
      simp only [wordEnd] at hx
      split at hx <;> simp_all

theorem keeps_seek {r : Reader α} (h : r.Keeps) : (seek r).Keeps := by
  intro s
  induction s with
  | nil => exact h []
  | cons c s ih =>
      intro x hx
      simp only [seek] at hx
      split at hx
      · exact Nat.le_succ_of_le (ih x hx)
      · exact h _ x hx

theorem Keeps.orElse {r other : Reader α} (hr : r.Keeps) (ho : other.Keeps) :
    (r.orElse other).Keeps := by
  intro s x hx
  rcases List.mem_append.1 hx with hx | hx
  · exact hr s x hx
  · exact ho s x hx

theorem Advances.orElse {r other : Reader α} (hr : r.Advances) (ho : other.Advances) :
    (r.orElse other).Advances := by
  intro s x hx
  rcases List.mem_append.1 hx with hx | hx
  · exact hr s x hx
  · exact ho s x hx

theorem Keeps.bind {r : Reader α} {next : α → Reader β} (hr : r.Keeps) (hn : ∀ a, (next a).Keeps) :
    (r >>= next).Keeps := by
  intro s x hx
  obtain ⟨y, hy, hx⟩ := List.mem_flatMap.1 hx
  exact Nat.le_trans (hn y.1 y.2 x hx) (hr s y hy)

theorem Advances.bind {r : Reader α} {next : α → Reader β} (hr : r.Advances)
    (hn : ∀ a, (next a).Keeps) : (r >>= next).Advances := by
  intro s x hx
  obtain ⟨y, hy, hx⟩ := List.mem_flatMap.1 hx
  exact Nat.lt_of_le_of_lt (hn y.1 y.2 x hx) (hr s y hy)

theorem keeps_optional {r : Reader Unit} (h : r.Keeps) : (optional r).Keeps :=
  h.orElse (keeps_result ())

theorem keeps_blanks : blanks.Keeps := keeps_many _

end StatAlmanac.Text.Reader
