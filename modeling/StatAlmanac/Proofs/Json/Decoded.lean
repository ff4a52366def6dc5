import StatAlmanac.Json.Decode

/-!
What is so of a value that a decoder reads. A decoder that goes through members
or items one by one keeps what each of its fields keeps.
-/

namespace StatAlmanac.Json.Decode

variable {ε α β σ : Type} {I : σ → Prop} {isClosed : Bool} {s s' : σ}

theorem bind_eq_ok {x : Except ε α} {f : α → Except ε β} {b : β} :
    x >>= f = .ok b ↔ ∃ a, x = .ok a ∧ f a = .ok b := by
  cases x <;> simp [bind, Except.bind]

theorem map_eq_ok {x : Except ε α} {f : α → β} {b : β} :
    f <$> x = .ok b ↔ ∃ a, x = .ok a ∧ f a = b := by
  cases x <;> simp [Functor.map, Except.map]

theorem members_invariant {read : String → Tree → σ → Except Fault σ} {ms : List (Key × Tree)}
    (hread : ∀ key t, (.name key, t) ∈ ms → ∀ s s', I s → read key t s = .ok s' → I s') (hs : I s)
    (h : members read isClosed ms s = .ok s') : I s' := by
  induction ms generalizing s with
  | nil =>
      rw [members] at h
      split at h
      · exact Except.ok.inj h ▸ hs
      · cases h
  | cons m ms ih =>
      obtain ⟨key, t⟩ := m
      cases key with
      | name key =>
          obtain ⟨s₁, hs₁, hrest⟩ := bind_eq_ok.1 h
          exact ih (fun key t ht => hread key t (List.mem_cons_of_mem _ ht))
            (hread key t List.mem_cons_self s s₁ hs hs₁) hrest
      | unreadable => cases h

theorem items_invariant {fields : List (Tree → σ → Except Fault σ)} {ts : List Tree}
    (hfields : ∀ field ∈ fields, ∀ t ∈ ts, ∀ s s', I s → field t s = .ok s' → I s')
    (hs : I s) (h : items isClosed fields ts s = .ok s') : I s' := by
  induction fields generalizing ts s with
  | nil =>
      cases ts with
      | nil =>
          rw [items] at h
          split at h
          · exact Except.ok.inj h ▸ hs
          · cases h
      | cons t ts => cases h
  | cons field fields ih =>
      cases ts with
      | nil =>
          rw [items] at h
          split at h
          · exact Except.ok.inj h ▸ hs
          · cases h
      | cons t ts =>
          obtain ⟨s₁, hs₁, hrest⟩ := bind_eq_ok.1 h
          exact ih (fun f hf t ht =>
            hfields f (List.mem_cons_of_mem _ hf) t (List.mem_cons_of_mem _ ht))
            (hfields field List.mem_cons_self t List.mem_cons_self s s₁ hs hs₁) hrest

theorem forall_mem_table {P : α → Prop} {d : Decoder α} {ms : List (Key × Tree)}
    {l : List (String × α)}
    (hd : ∀ m ∈ ms, ∀ a, d m.2 = .ok a → P a) (h : table d (.object ms isClosed) = .ok l) :
    ∀ e ∈ l, P e.2 := by
  obtain ⟨found, hfound, rfl⟩ := map_eq_ok.1 h
  have hall : ∀ e ∈ found, P e.2 := by
    refine members_invariant (I := fun found => ∀ e ∈ found, P e.2)
      (fun key t ht s s' hs hread => ?_) (List.forall_mem_nil _) hfound
    obtain ⟨a, ha, hs'⟩ := bind_eq_ok.1 hread
    obtain rfl := Except.ok.inj hs'
    exact List.forall_mem_cons.2 ⟨hd _ ht a ha, hs⟩
  exact fun e he => hall e (List.mem_reverse.1 he)

theorem of_whole {d : Decoder α} {body : Bytes} {a : α} (h : whole d body = .ok a) :
    d (Tree.read body).1 = .ok a := by
  obtain ⟨b, hb, hrest⟩ := bind_eq_ok.1 h
  split at hrest
  · exact Except.ok.inj hrest ▸ hb
  · cases hrest

theorem once_eq_ok {field field' : Option α} {d : Decoder α} {t : Tree}
    (h : once field d t = .ok field') : ∃ a, d t = .ok a ∧ field' = some a := by
  cases field with
  | some a => cases h
  | none =>
      obtain ⟨a, ha, rfl⟩ := map_eq_ok.1 h
      exact ⟨a, ha, rfl⟩

theorem natural_lt {bound n : Nat} {t : Tree} (h : natural bound t = .ok n) : n < bound := by
  unfold natural at h
  split at h
  · split at h
    · rename_i hlt
      exact Except.ok.inj h ▸ hlt
    · cases h
  · cases h

theorem required_eq_ok {field : Option α} {a : α} (h : required field = .ok a) :
    field = some a := by
  cases field with
  | none => cases h
  | some b => rw [Except.ok.inj h]

end StatAlmanac.Json.Decode
