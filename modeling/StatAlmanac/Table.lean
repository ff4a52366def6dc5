/-!
Finite tables from names to values. The entries stand in the order of their
names, so two tables with the same entries are equal, and walking a table goes
through the names in order.
-/

namespace StatAlmanac

structure Table (α : Type) where
  entries : List (String × α)
  sorted : entries.Pairwise (·.1 < ·.1)

namespace Table

variable {α β : Type}

def empty : Table α := ⟨[], .nil⟩

def names (t : Table α) : List String := t.entries.map (·.1)

def size (t : Table α) : Nat := t.entries.length

def find? (t : Table α) (name : String) : Option α := t.entries.lookup name

def contains (t : Table α) (name : String) : Bool := (t.find? name).isSome

theorem lookup_cons_fst (e : String × α) (l : List (String × α)) :
    (e :: l).lookup e.1 = some e.2 :=
  List.lookup_cons_self

theorem lookup_cons_of_ne {a b : String} {v : α} {l : List (String × α)} (h : b ≠ a) :
    ((a, v) :: l).lookup b = l.lookup b := by
  rw [List.lookup_cons, beq_eq_false_iff_ne.2 h]

theorem lookup_map (f : α → β) (l : List (String × α)) (name : String) :
    (l.map fun e => (e.1, f e.2)).lookup name = (l.lookup name).map f := by
  induction l with
  | nil => rfl
  | cons e rest ih =>
      rw [List.map_cons]
      by_cases hname : name = e.1
      · subst hname
        rw [lookup_cons_fst, List.lookup_cons_self, Option.map_some]
      · rw [lookup_cons_of_ne hname, lookup_cons_of_ne hname, ih]

/-- Puts an entry in its place; an entry of the same name gives way. -/
def place (name : String) (value : α) : List (String × α) → List (String × α)
  | [] => [(name, value)]
  | e :: rest =>
      if name < e.1 then (name, value) :: e :: rest
      else if name = e.1 then (name, value) :: rest
      else e :: place name value rest

theorem mem_place {name : String} {value : α} {l : List (String × α)} {e : String × α}
    (h : e ∈ place name value l) : e = (name, value) ∨ e ∈ l := by
  induction l with
  | nil => simpa [place] using h
  | cons d rest ih =>
      simp only [place] at h
      split at h
      · simpa using h
      · split at h
        · rcases List.mem_cons.1 h with h | h
          · exact .inl h
          · exact .inr (.tail _ h)
        · rcases List.mem_cons.1 h with h | h
          · exact .inr (h ▸ .head _)
          · exact (ih h).imp_right (.tail _)

theorem name_lt_of_not_lt {a b : String} (h : ¬a < b) (hne : a ≠ b) : b < a := by
  by_cases h' : b < a
  · exact h'
  · exact absurd (String.le_antisymm (String.not_lt.1 h') (String.not_lt.1 h)) hne

theorem place_sorted (name : String) (value : α) {l : List (String × α)}
    (h : l.Pairwise (·.1 < ·.1)) : (place name value l).Pairwise (·.1 < ·.1) := by
  induction l with
  | nil => simp [place]
  | cons e rest ih =>
      have hrest := List.pairwise_cons.1 h
      simp only [place]
      split
      · rename_i hlt
        refine List.pairwise_cons.2 ⟨fun d hd => ?_, h⟩
        rcases List.mem_cons.1 hd with rfl | hd
        · exact hlt
        · exact String.lt_trans hlt (hrest.1 d hd)
      · rename_i hlt
        split
        · rename_i heq
          exact List.pairwise_cons.2 ⟨fun d hd => heq ▸ hrest.1 d hd, hrest.2⟩
        · rename_i hne
          refine List.pairwise_cons.2 ⟨fun d hd => ?_, ih hrest.2⟩
          rcases mem_place hd with rfl | hd
          · exact name_lt_of_not_lt hlt hne
          · exact hrest.1 d hd

def insert (t : Table α) (name : String) (value : α) : Table α :=
  ⟨place name value t.entries, place_sorted name value t.sorted⟩

def erase (t : Table α) (name : String) : Table α :=
  ⟨t.entries.filter (·.1 ≠ name), t.sorted.filter _⟩

/-- Of several entries with one name the last stays. -/
def ofList (l : List (String × α)) : Table α :=
  l.foldl (fun t e => t.insert e.1 e.2) empty

def filterMap (t : Table α) (f : String → α → Option β) : Table β :=
  ⟨t.entries.filterMap fun e => (f e.1 e.2).map (e.1, ·), by
    refine List.Pairwise.filterMap _ (fun a b hab a' ha b' hb => ?_) t.sorted
    simp only [Option.map_eq_some_iff] at ha hb
    obtain ⟨_, _, rfl⟩ := ha
    obtain ⟨_, _, rfl⟩ := hb
    exact hab⟩

end Table

end StatAlmanac
