import StatAlmanac.Proofs.Job.Run

/-!
Pacts between a job and whoever answers its effects. In each stand of its
affairs a pact says which effects the job may have, and which answers, with which
stands behind them, it has to expect. A job that abides by a pact has only
effects that it may have and ends with a result that was agreed on, as long as
the answers are among those it had to expect.

What others do between two effects of a job shows in the answers alone. So one
pact serves for a job that runs alone and for one whose effects mix with theirs.
-/

namespace StatAlmanac

structure Pact (σ : Type) where
  /-- The effect may be had in this stand. -/
  allows : σ → Effect → Prop
  /-- In this stand the effect may be answered so and lead to that stand. -/
  expects : σ → (e : Effect) → e.Reply → σ → Prop

namespace Job

variable {σ τ α β : Type} {P : Pact σ} {s : σ} {Q R : α → σ → Prop}

/-- From the stand `s` on the job abides by the pact and ends as `Q` says. -/
def Abides (P : Pact σ) : Job α → σ → (α → σ → Prop) → Prop
  | .done a, s, Q => Q a s
  | .step e next, s, Q => P.allows s e ∧ ∀ r s', P.expects s e r s' → Abides P (next r) s' Q

namespace Abides

theorem pure {a : α} (h : Q a s) : (Pure.pure a : Job α).Abides P s Q := h

theorem act {e : Effect} {f : e.Reply → Job α} (hallows : P.allows s e)
    (h : ∀ r s', P.expects s e r s' → (f r).Abides P s' Q) : (Job.act e >>= f).Abides P s Q :=
  ⟨hallows, h⟩

theorem bind {S : β → σ → Prop} {t : Job α} {f : α → Job β} (ht : t.Abides P s Q)
    (hf : ∀ a s', Q a s' → (f a).Abides P s' S) : (t >>= f).Abides P s S := by
  induction t generalizing s with
  | done a => exact hf a s ht
  | step e next ih => exact ⟨ht.1, fun r s' hr => ih r (ht.2 r s' hr)⟩

theorem mono {t : Job α} (ht : t.Abides P s Q) (h : ∀ a s', Q a s' → R a s') :
    t.Abides P s R := by
  induction t generalizing s with
  | done a => exact h a s ht
  | step e next ih => exact ⟨ht.1, fun r s' hr => ih r (ht.2 r s' hr)⟩

theorem map {S : β → σ → Prop} {t : Job α} {f : α → β}
    (ht : t.Abides P s fun a s' => S (f a) s') : (f <$> t).Abides P s S := by
  rw [map_eq_pure_bind]
  exact ht.bind fun a s' h => h

/-- Who abides by a pact abides by a wider one, whose stands may tell more. -/
theorem embed (P' : Pact τ) (wide : σ → τ)
    (hallows : ∀ s e, P.allows s e → P'.allows (wide s) e)
    (hexpects : ∀ s e r u, P.allows s e → P'.expects (wide s) e r u →
      ∃ s', P.expects s e r s' ∧ u = wide s')
    {t : Job α} (ht : t.Abides P s Q) :
    t.Abides P' (wide s) fun a u => ∃ s', Q a s' ∧ u = wide s' := by
  induction t generalizing s with
  | done a => exact ⟨s, ht, rfl⟩
  | step e next ih =>
      refine ⟨hallows s e ht.1, fun r u hr => ?_⟩
      obtain ⟨s', hs', rfl⟩ := hexpects s e r u ht.1 hr
      exact ih r (ht.2 r s' hs')

/-- A job with only certain effects, all of which leave the stand, abides whatever comes of it. -/
theorem of_only {p : Effect → Prop} (hallows : ∀ e, p e → P.allows s e)
    (hexpects : ∀ e r s', p e → P.expects s e r s' → s' = s) {t : Job α} (ht : t.Only p) :
    t.Abides P s fun _ s' => s' = s := by
  induction t with
  | done a => rfl
  | step e next ih =>
      refine ⟨hallows e ht.1, fun r s' hr => ?_⟩
      obtain rfl := hexpects e r s' ht.1 hr
      exact ih r (ht.2 r)

theorem only {p : Effect → Prop} (hallows : ∀ s e, P.allows s e → p e)
    (hexpects : ∀ s e r, ∃ s', P.expects s e r s') {t : Job α} (ht : t.Abides P s Q) :
    t.Only p := by
  induction t generalizing s with
  | done a => trivial
  | step e next ih =>
      refine ⟨hallows s e ht.1, fun r => ?_⟩
      obtain ⟨s', hs'⟩ := hexpects s e r
      exact ih r (ht.2 r s' hs')

/-- Run alone in a world that answers as the pact has it, a job that abides ends as agreed. -/
theorem ensures {others : World.Others} (agrees : World → σ → Prop)
    (hworld : ∀ w s e, agrees w s → P.allows s e → e.isGranted (w.perform others e).1 →
      ∃ s', P.expects s e (w.perform others e).1 s' ∧ agrees (w.perform others e).2 s')
    {w : World} {t : Job α} (ht : t.Abides P s Q) (hw : agrees w s) :
    t.Ensures others w fun a w' => ∃ s', Q a s' ∧ agrees w' s' := by
  induction t generalizing s w with
  | done a => exact .pure ⟨s, ht, hw⟩
  | step e next ih =>
      refine .step fun hgranted => ?_
      obtain ⟨s', hs', hw'⟩ := hworld w s e hw ht.1 hgranted
      exact ih _ (ht.2 _ s' hs') hw'

end Abides

end Job

end StatAlmanac
