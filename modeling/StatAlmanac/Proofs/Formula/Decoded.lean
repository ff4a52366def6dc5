import StatAlmanac.Api.Batch
import StatAlmanac.Proofs.Formula.Levels
import StatAlmanac.Proofs.Json.Decoded
import StatAlmanac.Proofs.Json.Finite
import StatAlmanac.Proofs.Table

/-!
Formulas that are read from JSON have only finite numbers, by themselves and in a
batch: a draft holds no number but those of its trees, and zero for a coefficient that
is missing.
-/

namespace StatAlmanac

open Json

namespace Formula

variable {t : Tree} {f : Formula}

namespace Draft

variable {d d' : Draft}

structure IsFinite (d : Draft) : Prop where
  base : d.base.all Float.isFinite = true
  coefficient : d.coefficient.all Float.isFinite = true
  cap : d.cap.join.all Float.isFinite = true

theorem isFinite_readBase (ht : t.IsFinite) (hd : d.IsFinite) (h : readBase t d = .ok d') :
    d'.IsFinite := by
  obtain ⟨base, honce, hd'⟩ := Decode.bind_eq_ok.1 h
  obtain ⟨x, hx, rfl⟩ := Decode.once_eq_ok honce
  exact Except.ok.inj hd' ▸ { hd with base := Decode.isFinite_real ht hx }

theorem isFinite_readCoefficient (ht : t.IsFinite) (hd : d.IsFinite)
    (h : readCoefficient t d = .ok d') : d'.IsFinite := by
  obtain ⟨coefficient, honce, hd'⟩ := Decode.bind_eq_ok.1 h
  obtain ⟨x, hx, rfl⟩ := Decode.once_eq_ok honce
  exact Except.ok.inj hd' ▸ { hd with coefficient := Decode.isFinite_real ht hx }

theorem isFinite_readGrowth (hd : d.IsFinite) (h : readGrowth t d = .ok d') : d'.IsFinite := by
  obtain ⟨growth, -, hd'⟩ := Decode.bind_eq_ok.1 h
  exact Except.ok.inj hd' ▸ { hd with }

theorem isFinite_readPercentage (hd : d.IsFinite) (h : readPercentage t d = .ok d') :
    d'.IsFinite := by
  obtain ⟨flag, -, hd'⟩ := Decode.bind_eq_ok.1 h
  exact Except.ok.inj hd' ▸ { hd with }

theorem isFinite_readCap (ht : t.IsFinite) (hd : d.IsFinite) (h : readCap t d = .ok d') :
    d'.IsFinite := by
  obtain ⟨cap, honce, hd'⟩ := Decode.bind_eq_ok.1 h
  obtain ⟨c, hc, rfl⟩ := Decode.once_eq_ok honce
  exact Except.ok.inj hd' ▸ { hd with cap := Decode.isFinite_nullable ht hc }

theorem isFinite_field {key : String} (ht : t.IsFinite) (hd : d.IsFinite)
    (h : field key t d = .ok d') : d'.IsFinite := by
  unfold field at h
  split at h
  · exact isFinite_readBase ht hd h
  · exact isFinite_readCoefficient ht hd h
  · exact isFinite_readGrowth hd h
  · exact isFinite_readPercentage hd h
  · exact isFinite_readCap ht hd h
  · obtain ⟨_, -, hd'⟩ := Decode.bind_eq_ok.1 h
    exact Except.ok.inj hd' ▸ hd

theorem isFinite_inOrder {field : Tree → Draft → Except Fault Draft} (hfield : field ∈ inOrder)
    (ht : t.IsFinite) (hd : d.IsFinite) (h : field t d = .ok d') : d'.IsFinite := by
  simp only [inOrder, List.mem_cons, List.not_mem_nil, or_false] at hfield
  rcases hfield with rfl | rfl | rfl | rfl | rfl
  · exact isFinite_readBase ht hd h
  · exact isFinite_readCoefficient ht hd h
  · exact isFinite_readGrowth hd h
  · exact isFinite_readPercentage hd h
  · exact isFinite_readCap ht hd h

theorem isFinite_finish (hd : d.IsFinite) (h : d.finish = .ok f) : f.isFinite = true := by
  obtain ⟨base, hbase, hf⟩ := Decode.bind_eq_ok.1 h
  have hbase' : base.isFinite = true := by
    have hall := hd.base
    rwa [Decode.required_eq_ok hbase] at hall
  have hcoefficient : (d.coefficient.getD 0).isFinite = true := by
    have hall := hd.coefficient
    cases hc : d.coefficient with
    | none => exact Binary64.isFinite_zero
    | some x => rwa [hc] at hall
  obtain rfl := Except.ok.inj hf
  simp only [isFinite, Bool.and_eq_true]
  exact ⟨⟨hbase', hcoefficient⟩, hd.cap⟩

end Draft

theorem isFinite_ofTree (ht : t.IsFinite) (h : ofTree t = .ok f) : f.isFinite = true := by
  have hstart : Draft.IsFinite {} := ⟨rfl, rfl, rfl⟩
  cases ht with
  | object hms isClosed =>
      obtain ⟨d, hd, hfinish⟩ := Decode.bind_eq_ok.1 h
      refine Draft.isFinite_finish (Decode.members_invariant ?_ hstart hd) hfinish
      exact fun key t hm s s' hs => Draft.isFinite_field (hms _ hm) hs
  | list hitems isClosed =>
      obtain ⟨d, hd, hfinish⟩ := Decode.bind_eq_ok.1 h
      refine Draft.isFinite_finish (Decode.items_invariant ?_ hstart hd) hfinish
      exact fun field hfield t hm s s' hs => Draft.isFinite_inOrder hfield (hitems t hm) hs
  | null | bool | number | text | broken => cases h

/-- No text is read as a formula with a number that is not finite. -/
theorem isFinite_read {body : Bytes} (h : read body = .ok f) : f.isFinite = true :=
  isFinite_ofTree (Tree.isFinite_read body) (Decode.of_whole h)

end Formula

namespace Batch

variable {t : Tree} {b : Batch}

namespace Draft

variable {d d' : Draft}

def IsFinite (d : Draft) : Prop :=
  ∀ formulas ∈ d.formulas, ∀ e ∈ formulas.entries, e.2.isFinite = true

theorem isFinite_formulasOfTree {formulas : Table Formula} (ht : t.IsFinite)
    (h : formulasOfTree t = .ok formulas) : ∀ e ∈ formulas.entries, e.2.isFinite = true := by
  obtain ⟨l, hl, hformulas⟩ := Decode.bind_eq_ok.1 h
  have hall : ∀ e ∈ l, e.2.isFinite = true := by
    cases ht with
    | object hms isClosed =>
        exact Decode.forall_mem_table (fun m hm f hf => Formula.isFinite_ofTree (hms m hm) hf) hl
    | null | bool | number | text | list | broken => cases hl
  obtain rfl := Except.ok.inj hformulas
  exact fun e he => hall e (Table.mem_of_mem_ofList he)

theorem isFinite_readFormulas (ht : t.IsFinite) (h : readFormulas t d = .ok d') : d'.IsFinite := by
  obtain ⟨formulas, honce, hd'⟩ := Decode.bind_eq_ok.1 h
  obtain ⟨found, hfound, rfl⟩ := Decode.once_eq_ok honce
  obtain rfl := Except.ok.inj hd'
  rintro _ ⟨⟩
  exact isFinite_formulasOfTree ht hfound

theorem isFinite_readLevel (hd : d.IsFinite) (h : readLevel t d = .ok d') : d'.IsFinite := by
  obtain ⟨level, -, hd'⟩ := Decode.bind_eq_ok.1 h
  exact Except.ok.inj hd' ▸ hd

theorem isFinite_field {key : String} (ht : t.IsFinite) (hd : d.IsFinite)
    (h : field key t d = .ok d') : d'.IsFinite := by
  unfold field at h
  split at h
  · exact isFinite_readFormulas ht h
  · exact isFinite_readLevel hd h
  · obtain ⟨_, -, hd'⟩ := Decode.bind_eq_ok.1 h
    exact Except.ok.inj hd' ▸ hd

theorem isFinite_inOrder {field : Tree → Draft → Except Fault Draft} (hfield : field ∈ inOrder)
    (ht : t.IsFinite) (hd : d.IsFinite) (h : field t d = .ok d') : d'.IsFinite := by
  simp only [inOrder, List.mem_cons, List.not_mem_nil, or_false] at hfield
  rcases hfield with rfl | rfl
  · exact isFinite_readFormulas ht h
  · exact isFinite_readLevel hd h

theorem isFinite_finish (hd : d.IsFinite) (h : d.finish = .ok b) :
    ∀ e ∈ b.formulas.entries, e.2.isFinite = true := by
  obtain ⟨formulas, hformulas, hrest⟩ := Decode.bind_eq_ok.1 h
  obtain ⟨level, -, hb⟩ := Decode.bind_eq_ok.1 hrest
  exact Except.ok.inj hb ▸ hd formulas (Decode.required_eq_ok hformulas)

end Draft

theorem isFinite_ofTree (ht : t.IsFinite) (h : ofTree t = .ok b) :
    ∀ e ∈ b.formulas.entries, e.2.isFinite = true := by
  have hstart : Draft.IsFinite {} := by
    rintro _ ⟨⟩
  cases ht with
  | object hms isClosed =>
      obtain ⟨d, hd, hfinish⟩ := Decode.bind_eq_ok.1 h
      refine Draft.isFinite_finish (Decode.members_invariant ?_ hstart hd) hfinish
      exact fun key t hm s s' hs => Draft.isFinite_field (hms _ hm) hs
  | list hitems isClosed =>
      obtain ⟨d, hd, hfinish⟩ := Decode.bind_eq_ok.1 h
      refine Draft.isFinite_finish (Decode.items_invariant ?_ hstart hd) hfinish
      exact fun field hfield t hm s s' hs => Draft.isFinite_inOrder hfield (hitems t hm) hs
  | null | bool | number | text | broken => cases h

theorem isFinite_read {body : Bytes} (h : read body = .ok b) :
    ∀ e ∈ b.formulas.entries, e.2.isFinite = true :=
  isFinite_ofTree (Tree.isFinite_read body) h

end Batch

end StatAlmanac
