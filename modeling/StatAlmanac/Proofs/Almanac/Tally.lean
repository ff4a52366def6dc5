import Mathlib.Algebra.BigOperators.Pi
import Mathlib.Algebra.GroupWithZero.Nat
import StatAlmanac.Proofs.Almanac.Step

/-!
What a request adds to the counters. Its lookup is counted once. If it finds
nothing there is one fetch, which is counted once, after its lookup, with one send
more than it has retries. Nothing else that a request does is counted.
-/

namespace StatAlmanac

/-- What is counted: the events of a service, and the sends. -/
inductive Counter where
  | hits
  | misses
  | requests
  | successes
  | failures
  | retries
  | latency
  | sends
  deriving DecidableEq

abbrev Tally := Counter → Nat

def Event.weight : Event → Tally
  | .hit => Pi.single .hits 1
  | .miss => Pi.single .misses 1
  | .success latency retries => Pi.single .requests 1 + Pi.single .successes 1 +
      Pi.single .retries retries + Pi.single .latency latency.toMillis
  | .failure latency retries => Pi.single .requests 1 + Pi.single .failures 1 +
      Pi.single .retries retries + Pi.single .latency latency.toMillis

def Effect.weight : Effect → Tally
  | .send _ => Pi.single .sends 1
  | .count event => event.weight
  | _ => 0

/-- What the counters show. Milliseconds are counted in 64 bits. -/
def World.counters (w : World) : Tally
  | .hits => w.metrics.hits
  | .misses => w.metrics.misses
  | .requests => w.metrics.requests
  | .successes => w.metrics.successes
  | .failures => w.metrics.failures
  | .retries => w.metrics.retries
  | .latency => w.metrics.latency
  | .sends => w.sent.length

/-- The counters after `asked` lookups, when the requests that made them are over. -/
structure Tally.Balanced (asked : Nat) (t : Tally) : Prop where
  lookups : t .hits + t .misses = asked
  fetches : t .misses = t .requests
  ends : t .requests = t .successes + t .failures
  sends : t .sends = t .requests + t .retries

namespace Tally

theorem balanced_zero : Balanced 0 0 := ⟨rfl, rfl, rfl, rfl⟩

theorem Balanced.add {m n : Nat} {s t : Tally} (hs : Balanced m s) (ht : Balanced n t) :
    Balanced (m + n) (s + t) := by
  obtain ⟨h₁, h₂, h₃, h₄⟩ := hs
  obtain ⟨h₅, h₆, h₇, h₈⟩ := ht
  constructor <;> simp only [Pi.add_apply] <;> omega

theorem balanced_hit : Balanced 1 (Event.weight .hit) := ⟨rfl, rfl, rfl, rfl⟩

theorem balanced_miss (url : String) (result : Except FetchError Bytes) (latency : Duration)
    (retries : Nat) :
    Balanced 1 (Event.weight .miss + (retries + 1) • Effect.weight (.send url) +
      (Fetch.eventOf result latency retries).weight) := by
  cases result with
  | ok body => constructor <;> simp [Fetch.eventOf, Event.weight, Effect.weight, Nat.add_comm]
  | error e => constructor <;> simp [Fetch.eventOf, Event.weight, Effect.weight, Nat.add_comm]

/-- The pact of a job whose effects are counted. When it has an effect, no more fetches are counted
than lookups that found nothing. -/
def counting : Pact Tally where
  allows t _ := t .requests ≤ t .misses
  expects t e _ t' := t' = t + e.weight

variable {α : Type} {t : Tally} {Q : α → Tally → Prop}

abbrev Uncounted (e : Effect) : Prop := e.weight = 0

theorem uncounted_of_isCacheWork {e : Effect} (h : e.isCacheWork) : Uncounted e := by
  cases e with
  | send | count => cases h
  | _ => rfl

theorem uncounted_of_isLook {e : Effect} (h : e.isLook) : Uncounted e :=
  uncounted_of_isCacheWork (Cache.isCacheWork_of_isLook h)

theorem uncounted_of_isWaiting {e : Effect} (h : Fetch.isWaiting e) : Uncounted e := by
  cases e with
  | send | count => cases h
  | _ => rfl

theorem requests_le_misses_of_abides {n : Nat} {s : Job α}
    (h : s.Abides counting t fun _ => Balanced n) : t .requests ≤ t .misses := by
  cases s with
  | done a => exact h.fetches.ge
  | step e next => exact h.1

theorem counts_nothing {s : Job α} (hs : s.Only Uncounted) (ht : t .requests ≤ t .misses) :
    s.Abides counting t fun _ t' => t' = t := by
  refine .of_only (fun _ _ => ht) (fun e _ t' he ht' => ?_) hs
  rw [ht', he, add_zero]

theorem counts_event {event : Event} {f : Unit → Job α} (ht : t .requests ≤ t .misses)
    (h : (f ()).Abides counting (t + event.weight) Q) :
    (Job.count event >>= f).Abides counting t Q := by
  refine .act ht ?_
  rintro - t' rfl
  exact h

/-- A fetch is counted once, and has one send more than retries. -/
theorem counts_fetch (p : FetchPlan) (url : String) (ht : t .requests ≤ t .misses) :
    (Fetch.fetch p url).Abides counting t fun r t' => ∃ latency retries,
      t' = t + (retries + 1) • Effect.weight (.send url) +
        (Fetch.eventOf r latency retries).weight := by
  -- so many sends were made before an attempt, and this is what they add
  have hallows (k : Nat) : (t + k • Effect.weight (.send url)) .requests ≤
      (t + k • Effect.weight (.send url)) .misses := by
    simpa [Effect.weight] using ht
  have hattempting :
      Fetch.Attempting counting url (fun k s => s = t + k • Effect.weight (.send url))
      fun k _ s => s = t + (k + 1) • Effect.weight (.send url) := by
    refine ⟨?_, ?_, ?_, fun _ _ _ h => h⟩
    · rintro k s rfl
      refine ⟨fun _ _ => hallows k, fun e _ s' he hs' => ?_⟩
      rw [hs', uncounted_of_isWaiting he, add_zero]
    · rintro k s rfl
      exact hallows k
    · rintro k s o s' rfl rfl
      rw [add_assoc, succ_nsmul]
  refine hattempting.fetch (by simp) ?_
  rintro last o s' latency rfl
  refine ⟨hallows _, ?_⟩
  rintro - s' rfl
  exact ⟨latency, last, rfl⟩

/-- A request for a page, at whose end the counters have one lookup more. -/
theorem counts_fetchDocument (a : Almanac) (k : Kind) (name : String) :
    (a.fetchDocument k name).Abides counting 0 fun _ t => Balanced 1 t := by
  have hlook : (Job.aside (a.cache.get (Almanac.keyOf k name))).Only Uncounted :=
    Job.only_aside rfl (Job.only_mono (a.cache.only_get _) fun _ => uncounted_of_isLook)
  rw [Almanac.fetchDocument_eq]
  refine (counts_nothing hlook (Nat.le_refl _)).bind ?_
  rintro found t rfl
  cases found with
  | some body =>
      refine counts_event (Nat.le_refl _) (.pure ?_)
      rw [zero_add]
      exact balanced_hit
  | none =>
      refine counts_event (Nat.le_refl _) ((counts_fetch a.plan _ (by decide)).bind ?_)
      rintro r t ⟨latency, retries, rfl⟩
      rw [zero_add]
      have hbalanced := balanced_miss (a.url k name) r latency retries
      have hkeep : (a.keep k name r).Only Uncounted :=
        Almanac.only_keep (fun _ => uncounted_of_isCacheWork) rfl r
      refine (counts_nothing hkeep hbalanced.fetches.ge).mono ?_
      rintro - t rfl
      exact hbalanced

/-! ### The counters -/

def shown (t : Tally) : Tally := fun c => if c = .latency then t c % bound64 else t c

theorem shown_of_ne (t : Tally) {c : Counter} (hc : c ≠ .latency) : t.shown c = t c := if_neg hc

theorem shown_latency (t : Tally) : t.shown .latency = t .latency % bound64 := if_pos rfl

theorem Balanced.shown {n : Nat} {t : Tally} (h : Balanced n t) : Balanced n t.shown :=
  ⟨h.lookups, h.fetches, h.ends, h.sends⟩

/-- Who adds more shows more, as long as the milliseconds fit. -/
theorem shown_mono {s t : Tally} (h : s ≤ t) {c : Counter}
    (hfits : c = .latency → t .latency < bound64) : s.shown c ≤ t.shown c := by
  by_cases hc : c = .latency
  · subst hc
    rw [shown_latency, shown_latency, Nat.mod_eq_of_lt (hfits rfl)]
    exact (Nat.mod_le _ _).trans (h .latency)
  · rw [shown_of_ne s hc, shown_of_ne t hc]
    exact h c

theorem weight_ne_zero (event : Event) : event.weight ≠ 0 := by
  intro h
  cases event with
  | hit => simpa [Event.weight] using congrFun h .hits
  | miss => simpa [Event.weight] using congrFun h .misses
  | success latency retries => simpa [Event.weight] using congrFun h .successes
  | failure latency retries => simpa [Event.weight] using congrFun h .failures

theorem counters_of_uncounted (w : World) {e : Effect} (he : Uncounted e) :
    (w.perform World.nobody e).2.counters = w.counters := by
  have hchange (attempt : Except DiskFault Disk) : (w.change attempt).2.counters = w.counters := by
    cases attempt <;> rfl
  have hpass (nanos : Nat) : (w.pass World.nobody nanos).counters = w.counters := rfl
  cases e with
  | write path content => exact hchange _
  | rename source target => exact hchange _
  | remove path => exact hchange _
  | pause length => exact hpass _
  | send url => simpa [Effect.weight] using congrFun he .sends
  | count event => exact absurd he (weight_ne_zero event)
  | _ => rfl

theorem counters_perform (w : World) (e : Effect) {c : Counter} (hc : c ≠ .latency) :
    (w.perform World.nobody e).2.counters c = e.weight c + w.counters c := by
  cases e with
  | send url =>
    cases c <;> simp [World.perform, World.send, World.counters, Effect.weight, Nat.add_comm]
  | count event =>
      cases event <;> cases c <;>
        simp [World.perform, World.counters, Metrics.add, Metrics.addFetch, Effect.weight,
          Event.weight, Nat.add_comm] at hc ⊢
  | _ => exact (congrFun (counters_of_uncounted w rfl) c).trans (Nat.zero_add _).symm

theorem latency_add {m : Metrics} {t : Tally} (h : m.latency = t .latency % bound64)
    (event : Event) : (m.add event).latency = (event.weight .latency + t .latency) % bound64 := by
  cases event with
  | hit | miss => simpa only [Event.weight, Pi.single_apply, reduceCtorEq, if_false, zero_add]
  | success latency retries | failure latency retries =>
      simp only [Metrics.add, Metrics.addFetch, h, Event.weight, Pi.add_apply, Pi.single_apply,
        reduceCtorEq, if_true, if_false, zero_add, Nat.mod_add_mod]
      rw [add_comm]

theorem latency_perform {w : World} {t : Tally} (h : w.metrics.latency = t .latency % bound64)
    (e : Effect) : (w.perform World.nobody e).2.metrics.latency =
      (e.weight .latency + t .latency) % bound64 := by
  cases e with
  | count event => exact latency_add h event
  | send url => exact h.trans (congrArg (· % bound64) (Nat.zero_add _).symm)
  | _ =>
      refine (congrFun (counters_of_uncounted w rfl) .latency).trans (h.trans ?_)
      exact congrArg (· % bound64) (Nat.zero_add _).symm

theorem shown_perform {w : World} {t : Tally} (h : w.counters = t.shown) (e : Effect) :
    (w.perform World.nobody e).2.counters = (e.weight + t).shown := by
  funext c
  have hshown := congrFun h c
  by_cases hc : c = .latency
  · subst hc
    rw [shown_latency] at hshown ⊢
    exact latency_perform hshown e
  · rw [shown_of_ne t hc] at hshown
    rw [shown_of_ne _ hc, Pi.add_apply, counters_perform w e hc, hshown]

end Tally

end StatAlmanac
