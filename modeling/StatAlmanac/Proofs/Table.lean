import Mathlib.Data.List.Nodup
import StatAlmanac.Table

/-!
Tables as finite maps: what a look-up finds after an entry was put in, taken
out, or changed, and that a table is made up again from its entries.
-/

namespace StatAlmanac.Table

variable {α β : Type}

theorem ext_entries {s t : Table α} (h : s.entries = t.entries) : s = t := by
  cases s
  cases t
  simpa using h

@[simp] theorem find?_empty (name : String) : (empty : Table α).find? name = none := rfl

theorem lookup_place (name other : String) (value : α) (l : List (String × α)) :
    (place name value l).lookup other = if other = name then some value else l.lookup other := by
  induction l with
  | nil =>
      by_cases h : other = name
      · simp [place, h]
      · simp [place, h, lookup_cons_of_ne h]
  | cons e rest ih =>
      by_cases h : other = name
      · subst h
        simp only [place, if_pos]
        split
        · exact List.lookup_cons_self
        · split
          · exact List.lookup_cons_self
          · rename_i hne
            rw [lookup_cons_of_ne hne, ih, if_pos rfl]
      · simp only [place, if_neg h]
        split
        · exact lookup_cons_of_ne h
        · split
          · rename_i heq
            rw [lookup_cons_of_ne h, lookup_cons_of_ne (heq ▸ h)]
          · rw [List.lookup_cons, List.lookup_cons, ih, if_neg h]

theorem find?_insert (t : Table α) (name other : String) (value : α) :
    (t.insert name value).find? other = if other = name then some value else t.find? other :=
  lookup_place name other value t.entries

@[simp] theorem find?_insert_self (t : Table α) (name : String) (value : α) :
    (t.insert name value).find? name = some value := by
  rw [find?_insert, if_pos rfl]

theorem find?_insert_of_ne (t : Table α) {name other : String} (value : α) (h : other ≠ name) :
    (t.insert name value).find? other = t.find? other := by
  rw [find?_insert, if_neg h]

theorem find?_insert_eq_some {t : Table α} {name other : String} {value found : α} :
    (t.insert name value).find? other = some found ↔
      (other = name ∧ found = value) ∨ (other ≠ name ∧ t.find? other = some found) := by
  rw [find?_insert]
  by_cases hname : other = name
  · rw [if_pos hname, Option.some.injEq]
    exact ⟨fun h => .inl ⟨hname, h.symm⟩, fun h => h.elim (·.2.symm) fun h => absurd hname h.1⟩
  · rw [if_neg hname]
    exact ⟨fun h => .inr ⟨hname, h⟩, fun h => h.elim (fun h => absurd h.1 hname) (·.2)⟩

theorem mem_of_lookup_eq_some {l : List (String × α)} {name : String} {value : α}
    (h : l.lookup name = some value) : (name, value) ∈ l := by
  obtain ⟨l₁, l₂, rfl, -⟩ := List.lookup_eq_some_iff.1 h
  simp

theorem mem_iff_lookup {l : List (String × α)} (hl : l.Pairwise (·.1 ≠ ·.1)) (name : String)
    (value : α) : (name, value) ∈ l ↔ l.lookup name = some value := by
  refine ⟨fun h => ?_, mem_of_lookup_eq_some⟩
  induction l with
  | nil => cases h
  | cons e rest ih =>
      obtain ⟨hne, hrest⟩ := List.pairwise_cons.1 hl
      rcases List.mem_cons.1 h with rfl | h
      · exact List.lookup_cons_self
      · rw [lookup_cons_of_ne (Ne.symm (hne (name, value) h)), ih hrest h]

theorem distinct (t : Table α) : t.entries.Pairwise (·.1 ≠ ·.1) := by
  refine t.sorted.imp ?_
  intro a b hlt heq
  exact String.lt_irrefl _ (heq ▸ hlt)

theorem mem_entries_iff (t : Table α) (name : String) (value : α) :
    (name, value) ∈ t.entries ↔ t.find? name = some value :=
  mem_iff_lookup t.distinct name value

theorem lookup_filter_name (p : String → Bool) (l : List (String × α)) (name : String) :
    (l.filter fun e => p e.1).lookup name = if p name then l.lookup name else none := by
  induction l with
  | nil => simp
  | cons e rest ih =>
      by_cases hname : name = e.1
      · subst hname
        by_cases hp : p e.1
        · rw [List.filter_cons_of_pos (by simpa using hp), lookup_cons_fst,
            lookup_cons_fst, if_pos hp]
        · rw [List.filter_cons_of_neg (by simpa using hp), ih, if_neg hp, if_neg hp]
      · by_cases hp : p e.1
        · rw [List.filter_cons_of_pos (by simpa using hp), lookup_cons_of_ne hname,
            lookup_cons_of_ne hname, ih]
        · rw [List.filter_cons_of_neg (by simpa using hp), lookup_cons_of_ne hname, ih]

theorem find?_erase (t : Table α) (name other : String) :
    (t.erase name).find? other = if other = name then none else t.find? other := by
  have h := lookup_filter_name (fun n => decide (n ≠ name)) t.entries other
  refine h.trans ?_
  by_cases hname : other = name <;> simp [hname, find?]

theorem find?_erase_eq_some {t : Table α} {name other : String} {found : α} :
    (t.erase name).find? other = some found ↔ other ≠ name ∧ t.find? other = some found := by
  rw [find?_erase]
  by_cases hname : other = name
  · rw [if_pos hname]
    exact ⟨nofun, fun h => absurd hname h.1⟩
  · rw [if_neg hname]
    exact ⟨fun h => ⟨hname, h⟩, fun h => h.2⟩

theorem lookup_filterMap (f : String → α → Option β) {l : List (String × α)}
    (hl : l.Pairwise (·.1 < ·.1)) (name : String) :
    (l.filterMap fun e => (f e.1 e.2).map (e.1, ·)).lookup name =
      (l.lookup name).bind (f name) := by
  induction l with
  | nil => rfl
  | cons e rest ih =>
      obtain ⟨hlt, hrest⟩ := List.pairwise_cons.1 hl
      by_cases hname : name = e.1
      · subst hname
        have hnone : rest.lookup e.1 = none := by
          rw [List.lookup_eq_none_iff]
          intro d hd
          have hne : e.1 ≠ d.1 := fun heq => String.lt_irrefl _ (heq ▸ hlt d hd)
          simpa using hne
        rw [lookup_cons_fst, Option.bind_some]
        cases hf : f e.1 e.2 with
        | none => simp [hf, ih hrest, hnone]
        | some v => simp [hf]
      · cases hf : f e.1 e.2 with
        | none =>
            simp only [List.filterMap_cons, hf, Option.map_none]
            rw [ih hrest, lookup_cons_of_ne hname]
        | some v =>
            simp only [List.filterMap_cons, hf, Option.map_some]
            rw [lookup_cons_of_ne hname, ih hrest, lookup_cons_of_ne hname]

theorem find?_filterMap (t : Table α) (f : String → α → Option β) (name : String) :
    (t.filterMap f).find? name = (t.find? name).bind (f name) :=
  lookup_filterMap f t.sorted name

theorem names_filterMap (t : Table α) (f : String → α → Option β) :
    (t.filterMap f).names = t.names.filter fun name => (t.filterMap f).contains name := by
  have hkept : ∀ l : List (String × α), (l.filterMap fun e => (f e.1 e.2).map (e.1, ·)).map (·.1) =
      (l.filter fun e => (f e.1 e.2).isSome).map (·.1) := by
    intro l
    induction l with
    | nil => rfl
    | cons e rest ih => cases hf : f e.1 e.2 <;> simp [hf, ih]
  rw [names, names, List.filter_map]
  refine (hkept t.entries).trans (congrArg _ (List.filter_congr fun e he => ?_))
  rw [Function.comp_apply, contains, find?_filterMap, (mem_entries_iff t e.1 e.2).1 he]
  rfl

def filter (p : α → Bool) (t : Table α) : Table α :=
  ⟨t.entries.filter fun e => p e.2, t.sorted.filter _⟩

theorem find?_filter (p : α → Bool) (t : Table α) (name : String) :
    (t.filter p).find? name = (t.find? name).filter p := by
  ext value
  rw [Option.filter_eq_some_iff, ← mem_entries_iff, ← mem_entries_iff]
  exact List.mem_filter

def map (f : α → β) (t : Table α) : Table β :=
  ⟨t.entries.map fun e => (e.1, f e.2), List.pairwise_map.2 t.sorted⟩

theorem find?_map (f : α → β) (t : Table α) (name : String) :
    (t.map f).find? name = (t.find? name).map f :=
  lookup_map f t.entries name

theorem place_map (f : α → β) (name : String) (value : α) (l : List (String × α)) :
    (place name value l).map (fun e => (e.1, f e.2)) =
      place name (f value) (l.map fun e => (e.1, f e.2)) := by
  induction l with
  | nil => rfl
  | cons e rest ih =>
      rw [List.map_cons, place, place]
      by_cases hlt : name < e.1
      · rw [if_pos hlt, if_pos hlt, List.map_cons, List.map_cons]
      · rw [if_neg hlt, if_neg hlt]
        by_cases heq : name = e.1
        · rw [if_pos heq, if_pos heq, List.map_cons]
        · rw [if_neg heq, if_neg heq, List.map_cons, ih]

theorem map_insert (f : α → β) (t : Table α) (name : String) (value : α) :
    (t.insert name value).map f = (t.map f).insert name (f value) :=
  ext_entries (place_map f name value t.entries)

theorem map_erase (f : α → β) (t : Table α) (name : String) :
    (t.erase name).map f = (t.map f).erase name := by
  apply ext_entries
  show (t.entries.filter _).map _ = (t.entries.map _).filter _
  rw [List.filter_map]
  rfl

theorem foldl_erase_entries (names : List String) (t : Table α) :
    (names.foldl erase t).entries = t.entries.filter fun e => e.1 ∉ names := by
  induction names generalizing t with
  | nil => exact (List.filter_eq_self.2 (by simp)).symm
  | cons name names ih =>
      rw [List.foldl_cons, ih, erase, List.filter_filter]
      apply List.filter_congr
      intro e _
      rw [Bool.and_comm]
      simp

theorem find?_foldl_erase (names : List String) (t : Table α) (name : String) :
    (names.foldl erase t).find? name = if name ∈ names then none else t.find? name := by
  have h := lookup_filter_name (fun n => decide (n ∉ names)) t.entries name
  rw [find?, foldl_erase_entries, h]
  by_cases hname : name ∈ names <;> simp [hname, find?]

theorem mem_of_mem_foldl_insert {l : List (String × α)} {t : Table α} {e : String × α}
    (h : e ∈ (l.foldl (fun t e => t.insert e.1 e.2) t).entries) : e ∈ l ∨ e ∈ t.entries := by
  induction l generalizing t with
  | nil => exact .inr h
  | cons d l ih =>
      rcases ih h with hl | ht
      · exact .inl (List.mem_cons_of_mem _ hl)
      · rcases mem_place ht with rfl | ht
        · exact .inl List.mem_cons_self
        · exact .inr ht

theorem mem_of_mem_ofList {l : List (String × α)} {e : String × α} (h : e ∈ (ofList l).entries) :
    e ∈ l := by
  rcases mem_of_mem_foldl_insert h with hl | hempty
  · exact hl
  · cases hempty

theorem place_of_lt {name : String} (value : α) {l : List (String × α)}
    (h : ∀ e ∈ l, e.1 < name) : place name value l = l ++ [(name, value)] := by
  induction l with
  | nil => rfl
  | cons e rest ih =>
      have hlt := h e (by simp)
      have hge : ¬name < e.1 := fun hgt => String.lt_irrefl _ (String.lt_trans hlt hgt)
      have hne : name ≠ e.1 := fun heq => String.lt_irrefl _ (heq ▸ hlt)
      rw [place, if_neg hge, if_neg hne, ih fun d hd => h d (by simp [hd])]
      rfl

theorem foldl_insert_entries {l : List (String × α)} {t : Table α}
    (h : (t.entries ++ l).Pairwise (·.1 < ·.1)) :
    (l.foldl (fun t e => t.insert e.1 e.2) t).entries = t.entries ++ l := by
  induction l generalizing t with
  | nil => simp
  | cons e rest ih =>
      have hlt : ∀ d ∈ t.entries, d.1 < e.1 := fun d hd =>
        (List.pairwise_append.1 h).2.2 d hd e (by simp)
      have hentries : (t.insert e.1 e.2).entries = t.entries ++ [e] := place_of_lt e.2 hlt
      rw [List.foldl_cons, ih (by rw [hentries]; simpa using h), hentries]
      simp

/-- A table is made up again from its entries. -/
theorem ofList_entries (t : Table α) : ofList t.entries = t :=
  ext_entries (by simpa [ofList, empty] using foldl_insert_entries (t := empty) t.sorted)

theorem find?_foldl_insert {l : List (String × α)} (hl : l.Pairwise (·.1 ≠ ·.1)) (t : Table α)
    (name : String) :
    (l.foldl (fun t e => t.insert e.1 e.2) t).find? name = (l.lookup name).or (t.find? name) := by
  induction l generalizing t with
  | nil => rfl
  | cons e rest ih =>
      obtain ⟨hne, hrest⟩ := List.pairwise_cons.1 hl
      rw [List.foldl_cons, ih hrest, find?_insert]
      by_cases hname : name = e.1
      · have hnone : rest.lookup name = none := by
          rw [List.lookup_eq_none_iff]
          intro d hd
          simpa [hname] using hne d hd
        rw [hnone, if_pos hname, hname, lookup_cons_fst]
        rfl
      · rw [if_neg hname, lookup_cons_of_ne hname]

theorem find?_ofList {l : List (String × α)} (hl : l.Pairwise (·.1 ≠ ·.1)) (name : String)
    (value : α) : (ofList l).find? name = some value ↔ (name, value) ∈ l := by
  rw [ofList, find?_foldl_insert hl, find?_empty, Option.or_none, mem_iff_lookup hl]

/-! ### How many entries -/

theorem nodup_names (t : Table α) : t.names.Nodup := List.pairwise_map.2 t.distinct

theorem size_eq (t : Table α) : t.size = t.names.length := (List.length_map _).symm

theorem names_erase (t : Table α) (name : String) : (t.erase name).names = t.names.erase name := by
  rw [t.nodup_names.erase_eq_filter, names, names, erase, List.filter_map]
  exact congrArg _ (List.filter_congr fun e _ => by simp [bne, beq_eq_decide])

theorem size_foldl_erase {names : List String} {t : Table α} (hnodup : names.Nodup)
    (hmem : ∀ name ∈ names, name ∈ t.names) :
    (names.foldl erase t).size + names.length = t.size := by
  induction names generalizing t with
  | nil => rfl
  | cons name names ih =>
      obtain ⟨hname, hnames⟩ := List.nodup_cons.1 hnodup
      have hin := hmem name List.mem_cons_self
      have hrest := ih (t := t.erase name) hnames fun other hother => by
        rw [names_erase]
        refine (List.mem_erase_of_ne ?_).2 (hmem other (List.mem_cons_of_mem _ hother))
        rintro rfl
        exact hname hother
      have hlength := List.length_erase_of_mem hin
      have hpos := List.length_pos_of_mem hin
      rw [size_eq (t.erase name), names_erase] at hrest
      rw [List.foldl_cons, List.length_cons, size_eq t]
      omega

end StatAlmanac.Table
