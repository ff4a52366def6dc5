import Mathlib.Algebra.BigOperators.Fin
import Mathlib.Algebra.Order.BigOperators.Group.Finset
import StatAlmanac.Proofs.Api.Pages
import StatAlmanac.Proofs.Job.Throng

/-!
The counters of a service while any number of calls are on their way. What the
counters show is the sum of what each call has added so far, and each call adds
what it adds alone. So the counters agree whenever no call is on its way, and in
between no more fetches are counted than lookups that found nothing.
-/

namespace StatAlmanac

open Tally

theorem sum_map_ite {κ : Type} (p : κ → Bool) (calls : List κ) :
    (calls.map fun c => if p c then 1 else 0).sum = calls.countP p := by
  induction calls with
  | nil => rfl
  | cons c calls ih => rw [List.map_cons, List.sum_cons, ih, List.countP_cons, Nat.add_comm]

theorem Tally.balanced_sum {κ : Type} (calls : Finset κ) {asked : κ → Nat} {share : κ → Tally}
    (h : ∀ m ∈ calls, Balanced (asked m) (share m)) :
    Balanced (∑ m ∈ calls, asked m) (∑ m ∈ calls, share m) := by
  induction calls using Finset.cons_induction with
  | empty => exact balanced_zero
  | cons m calls hm ih =>
      rw [Finset.forall_mem_cons] at h
      rw [Finset.sum_cons, Finset.sum_cons]
      exact h.1.add (ih h.2)

namespace Throng

variable {ι α : Type} {job : ι → Job α} {asked : ι → Nat} {s : Throng ι α} {deeds : List (Deed ι)}
  {n : Nat}

/-! ### Shares -/

def tally (deeds : List (Deed ι)) : Tally := (deeds.map fun d => d.effect.weight).sum

def share (n : Nat) (deeds : List (Deed ι)) : Tally := tally (deeds.filter (·.number = n))

theorem tally_cons (d : Deed ι) (deeds : List (Deed ι)) :
    tally (d :: deeds) = d.effect.weight + tally deeds := by
  rw [tally, List.map_cons, List.sum_cons, tally]

theorem tally_append (deeds more : List (Deed ι)) :
    tally (deeds ++ more) = tally deeds + tally more := by
  rw [tally, List.map_append, List.sum_append, tally, tally]

theorem share_cons (d : Deed ι) (deeds : List (Deed ι)) :
    share n (d :: deeds) = (if d.number = n then d.effect.weight else 0) + share n deeds := by
  rw [share, List.filter_cons]
  by_cases hd : d.number = n
  · simp only [hd, decide_true, if_true, tally_cons]
    rfl
  · simp only [hd, decide_false, if_false, Bool.false_eq_true, zero_add]
    rfl

theorem share_eq_zero (h : ∀ d ∈ deeds, d.number < n) : share n deeds = 0 := by
  have hnone : deeds.filter (·.number = n) = [] := by
    refine List.filter_eq_nil_iff.2 fun d hd heq => ?_
    have := h d hd
    have := of_decide_eq_true heq
    omega
  rw [share, hnone]
  rfl

theorem tally_eq_sum {k : Nat} (h : ∀ d ∈ deeds, d.number < k) :
    tally deeds = ∑ m : Fin k, share m deeds := by
  rw [Fin.sum_univ_eq_sum_range (fun m => share m deeds)]
  induction deeds with
  | nil => exact Finset.sum_const_zero.symm
  | cons d deeds ih =>
      obtain ⟨hd, hrest⟩ := List.forall_mem_cons.1 h
      simp only [share_cons, Finset.sum_add_distrib, Finset.sum_ite_eq, Finset.mem_range, hd,
        if_true, tally_cons, ← ih hrest]

/-! ### The books -/

def isQuiet (s : Throng ι α) : Bool :=
  s.calls.all fun c => match c.2 with
    | .done _ => true
    | .step _ _ => false

theorem done_of_isQuiet (h : s.isQuiet) {c : ι × Job α} (hc : c ∈ s.calls) :
    ∃ a, c.2 = .done a := by
  have hdone := List.all_eq_true.1 h c hc
  split at hdone
  · rename_i a heq
    exact ⟨a, heq⟩
  · cases hdone

/-- The counters show what was added, and each call, with what it has added, goes on as it does
alone. -/
structure Books (asked : ι → Nat) (s : Throng ι α) : Prop where
  counters : s.world.counters = (tally s.deeds).shown
  numbers : ∀ d ∈ s.deeds, d.number < s.calls.length
  abides : ∀ n q (t : Job α), s.calls[n]? = some (q, t) →
    t.Abides counting (share n s.deeds) fun _ => Balanced (asked q)

namespace Books

theorem perform (h : Books asked s) {q : ι} {e : Effect} {next : e.Reply → Job α}
    (hn : s.calls[n]? = some (q, .step e next)) : Books asked (s.perform n q e next) where
  counters := by
    rw [Throng.perform, tally_cons]
    exact shown_perform h.counters e
  numbers := by
    rw [Throng.perform, List.length_set, List.forall_mem_cons]
    exact ⟨length_of_calls hn, h.numbers⟩
  abides m r t hm := by
    rw [Throng.perform, share_cons]
    rcases calls_perform hn hm with ⟨rfl, rfl, rfl⟩ | ⟨hmn, hm⟩
    · rw [if_pos rfl, add_comm]
      exact (h.abides m r _ hn).2 _ _ rfl
    · rw [if_neg (Ne.symm hmn), zero_add]
      exact h.abides m r t hm

theorem call (h : Books asked s) {q : ι}
    (hjob : (job q).Abides counting 0 fun _ => Balanced (asked q)) :
    Books asked { s with calls := s.calls ++ [(q, job q)] } where
  counters := h.counters
  numbers d hd := by
    rw [List.length_append]
    exact Nat.lt_add_right _ (h.numbers d hd)
  abides m r t hm := by
    rcases calls_call hm with hm | ⟨rfl, rfl, rfl⟩
    · exact h.abides m r t hm
    · rw [share_eq_zero h.numbers]
      exact hjob

theorem step (h : Books asked s)
    (hjob : ∀ q, (job q).Abides counting 0 fun _ => Balanced (asked q)) {move : Move ι}
    {s' : Throng ι α} (hstep : Stepped job s move s') : Books asked s' := by
  cases hstep with
  | idle => exact h
  | call q => exact h.call (hjob q)
  | act hn _ => exact h.perform hn
  | clock => exact ⟨h.counters, h.numbers, h.abides⟩

theorem after (h : Books asked s)
    (hjob : ∀ q, (job q).Abides counting 0 fun _ => Balanced (asked q)) (moves : List (Move ι)) :
    Books asked (s.after job moves) := by
  induction moves using List.reverseRecOn with
  | nil => exact h
  | append_singleton front move ih =>
      rw [after_concat]
      exact ih.step hjob (stepped job _ move)

theorem abides_at (h : Books asked s) (m : Fin s.calls.length) :
    s.calls[m].2.Abides counting (share m s.deeds) fun _ => Balanced (asked s.calls[m].1) :=
  h.abides m _ _ (List.getElem?_eq_getElem m.isLt)

/-- When no call is on its way, all lookups and fetches are over. -/
theorem balanced (h : Books asked s) (hquiet : s.isQuiet) :
    Balanced (s.calls.map fun c => asked c.1).sum s.world.counters := by
  rw [h.counters, tally_eq_sum h.numbers, ← Fin.sum_univ_fun_getElem]
  refine (balanced_sum _ fun m _ => ?_).shown
  obtain ⟨a, ha⟩ : ∃ a, s.calls[m].2 = .done a :=
    done_of_isQuiet hquiet (List.getElem_mem m.isLt)
  have habides := h.abides_at m
  rw [ha] at habides
  exact habides

/-- At no point are more fetches counted than lookups that found nothing. -/
theorem requests_le_misses (h : Books asked s) :
    s.world.counters .requests ≤ s.world.counters .misses := by
  rw [h.counters, tally_eq_sum h.numbers]
  simp only [shown, Finset.sum_apply]
  exact Finset.sum_le_sum fun m _ => requests_le_misses_of_abides (h.abides_at m)

end Books

theorem tally_mono {more : List (Deed ι)} (h : deeds <:+ more) : tally deeds ≤ tally more := by
  obtain ⟨front, rfl⟩ := h
  rw [tally_append]
  exact fun c => Nat.le_add_left _ _

end Throng

namespace Api

/-- A call of a service: for a page at its own interface, or with a request. -/
inductive Call where
  | page (kind : Kind) (name : String)
  | request (r : Request)

namespace Call

abbrev Result := Except FetchError Document ⊕ Answer

def job (a : Almanac) : Call → Job Result
  | .page kind name => return .inl (← a.fetchDocument kind name)
  | .request r => return .inr (← respond a r)

def page? : Call → Option (Kind × String)
  | .page kind name => some (kind, name)
  | .request r => r.page?

theorem counts_job (a : Almanac) (q : Call) :
    (q.job a).Abides counting 0 fun _ => Balanced (if q.page?.isSome then 1 else 0) := by
  cases q with
  | page kind name => exact (counts_fetchDocument a kind name).bind fun _ _ hs => .pure hs
  | request r => exact (counts_respond a r).bind fun _ _ hs => .pure hs

end Call

/-- Any number of calls for pages and with requests are made, and their effects mix in any order.
When none of them is on its way, each lookup of a page is counted once, each that found nothing has
one fetch behind it, which is counted as a success or a failure, and there is one send for each
fetch and for each retry. At no point are more fetches counted than lookups that found nothing. No
counter ever goes back, the one of the milliseconds as long as they fit. -/
theorem counters_agree (a : Almanac) (w : World) (moves : List (Move Call)) :
    let start : Throng Call Call.Result := { world := { w with metrics := {}, sent := [] } }
    let s := start.after (Call.job a) moves
    (s.isQuiet → Balanced (s.calls.countP (·.1.page?.isSome)) s.world.counters) ∧
      s.world.counters .requests ≤ s.world.counters .misses ∧
      ∀ front, front <+: moves → ∀ c,
        (c = .latency → Throng.tally s.deeds .latency < bound64) →
          (start.after (Call.job a) front).world.counters c ≤ s.world.counters c := by
  intro start s
  have hbooks (front : List (Move Call)) :
      (start.after (Call.job a) front).Books fun q => if q.page?.isSome then 1 else 0 := by
    refine Throng.Books.after ⟨?_, ?_, ?_⟩ (Call.counts_job a) front
    · funext c
      cases c <;> rfl
    · exact fun d hd => absurd hd List.not_mem_nil
    · intro n q t h
      cases h
  refine ⟨fun hquiet => ?_, (hbooks moves).requests_le_misses, fun front hfront c hfits => ?_⟩
  · rw [← sum_map_ite]
    exact (hbooks moves).balanced hquiet
  · obtain ⟨rest, rfl⟩ := hfront
    rw [(hbooks front).counters, (hbooks (front ++ rest)).counters]
    refine shown_mono (Throng.tally_mono ?_) hfits
    rw [Throng.after_append]
    exact Throng.deeds_suffix_after _ rest

/-- Two calls look the same page up before either has stored it, one is tried again, a third asks
for no page, and a fourth finds what they have stored. -/
theorem counters_agree_retried :
    let a : Almanac := ⟨"https://wiki.test/wiki", { interval := .zero }, { folder := "cache" }⟩
    let w : World :=
      { disk := .empty, now := default, remote := scripted [.ok ⟨500, []⟩] (.ok ⟨200, [60]⟩),
        reading := .ofNanos }
    let start : Throng Call Call.Result := { world := { w with metrics := {}, sent := [] } }
    let moves : List (Move Call) :=
      [.call (.page .champion "Lux"), .call (.page .champion " LUX"),
        .call (.request ⟨"GET", "/entities/item/%20", [], []⟩)] ++
      (List.replicate 40 [.act 0, .act 1, .act 2]).flatten ++
      .call (.request ⟨"GET", "/entities/champion/lux", [], []⟩) :: List.replicate 20 (.act 3)
    let s := start.after (Call.job a) moves
    s.isQuiet ∧ Balanced 3 s.world.counters ∧ s.world.metrics.hits = 1 ∧
      s.world.metrics.retries = 1 ∧ Throng.tally s.deeds .latency < bound64 ∧
      (start.after (Call.job a) (moves.take 60)).world.counters .latency ≤
        s.world.counters .latency := by
  intro a w start moves s
  have hruns : s.isQuiet ∧ s.calls.countP (·.1.page?.isSome) = 3 ∧ s.world.metrics.hits = 1 ∧
      s.world.metrics.retries = 1 ∧ Throng.tally s.deeds .latency = 1000 := by decide +kernel
  obtain ⟨hquiet, hpages, hhits, hretries, hlatency⟩ := hruns
  have hfits : Throng.tally s.deeds .latency < bound64 := by
    rw [hlatency]
    decide
  obtain ⟨hbalanced, -, hmono⟩ := counters_agree a w moves
  refine ⟨hquiet, hpages ▸ hbalanced hquiet, hhits, hretries, hfits, ?_⟩
  exact hmono _ (List.take_prefix 60 moves) .latency fun _ => hfits

end Api

end StatAlmanac
