import Mathlib.Data.List.Induction
import StatAlmanac.Proofs.Job.Run
import StatAlmanac.Proofs.Time.Since

/-!
Calls at the same time, whose effects mix in any order. A throng is a world with
all calls made so far and what is left of each to do. It moves on when a call is
made, when one of the calls has its next effect, and when time goes by; any list
of moves is an interleaving. A gate that is taken keeps others out, and a clock
that only goes forward shows the time of day. What a move cannot do it leaves
undone, so there is no list of moves without a meaning.
-/

namespace StatAlmanac

def Effect.hold : Effect → List Gate → List Gate
  | .enter gate, taken => gate :: taken
  | .leave gate, taken => taken.erase gate
  | _, taken => taken

structure Deed (ι : Type) where
  number : Nat
  call : ι
  effect : Effect

inductive Move (ι : Type) where
  | call (q : ι)
  /-- The next effect of the call of this number. -/
  | act (n : Nat)
  | clock (now : Stamp)

structure Throng (ι α : Type) where
  world : World
  /-- The calls in the order in which they were made, and what is left of them. -/
  calls : List (ι × Job α) := []
  taken : List Gate := []
  /-- The effects so far, the last one first. -/
  deeds : List (Deed ι) := []

namespace Throng

variable {ι α : Type} (job : ι → Job α)

def isOpen (s : Throng ι α) : Effect → Bool
  | .enter gate => gate ∉ s.taken
  | _ => true

def reply (s : Throng ι α) (e : Effect) : e.Reply := (s.world.perform World.nobody e).1

def perform (s : Throng ι α) (n : Nat) (q : ι) (e : Effect) (next : e.Reply → Job α) :
    Throng ι α where
  world := (s.world.perform World.nobody e).2
  calls := s.calls.set n (q, next (s.reply e))
  taken := e.hold s.taken
  deeds := ⟨n, q, e⟩ :: s.deeds

def act (s : Throng ι α) (n : Nat) : Throng ι α :=
  match s.calls[n]? with
  | some (q, .step e next) => if s.isOpen e then s.perform n q e next else s
  | _ => s

/-- No clock goes back, and none shows a leap second. -/
def setClock (s : Throng ι α) (now : Stamp) : Throng ι α :=
  if now.isLeap ∨ now.since s.world.now < 0 then s else { s with world := { s.world with now } }

def step (s : Throng ι α) : Move ι → Throng ι α
  | .call q => { s with calls := s.calls ++ [(q, job q)] }
  | .act n => s.act n
  | .clock now => s.setClock now

def after (s : Throng ι α) (moves : List (Move ι)) : Throng ι α := moves.foldl (step job) s

def grants (s : Throng ι α) : Move ι → Bool
  | .act n =>
      match s.calls[n]? with
      | some (_, .step e _) => !s.isOpen e || e.isGranted (s.reply e)
      | _ => true
  | _ => true

/-- Nothing that is asked of the disk is refused. -/
def goesSmoothly : Throng ι α → List (Move ι) → Bool
  | _, [] => true
  | s, move :: moves => s.grants move && goesSmoothly (s.step job move) moves

def Answered (s : Throng ι α) (n : Nat) (q : ι) (a : α) : Prop := s.calls[n]? = some (q, .done a)

variable {job} {s : Throng ι α} {n m : Nat} {q : ι} {e : Effect} {next : e.Reply → Job α}

/-! ### One move -/

inductive Stepped (job : ι → Job α) (s : Throng ι α) : Move ι → Throng ι α → Prop where
  | idle (move : Move ι) : Stepped job s move s
  | call (q : ι) : Stepped job s (.call q) { s with calls := s.calls ++ [(q, job q)] }
  | act {n : Nat} {q : ι} {e : Effect} {next : e.Reply → Job α}
      (hn : s.calls[n]? = some (q, .step e next)) (hopen : s.isOpen e) :
      Stepped job s (.act n) (s.perform n q e next)
  | clock {now : Stamp} (hleap : now.isLeap = false) (hle : 0 ≤ now.since s.world.now) :
      Stepped job s (.clock now) { s with world := { s.world with now } }

theorem stepped (job : ι → Job α) (s : Throng ι α) (move : Move ι) :
    Stepped job s move (s.step job move) := by
  cases move with
  | call q => exact .call q
  | act n =>
      rw [step, act]
      split
      · rename_i q e next hn
        by_cases hopen : s.isOpen e
        · rw [if_pos hopen]
          exact .act hn hopen
        · rw [if_neg hopen]
          exact .idle _
      · exact .idle _
  | clock now =>
      rw [step, setClock]
      split
      · exact .idle _
      · rename_i h
        simp only [not_or, Bool.not_eq_true, Int.not_lt] at h
        exact .clock h.1 h.2

theorem isGranted_of_grants (h : s.grants (.act n)) (hn : s.calls[n]? = some (q, .step e next))
    (hopen : s.isOpen e) : e.isGranted (s.reply e) := by
  simpa [grants, hn, hopen] using h

@[simp] theorem calls_perform_self (hn : n < s.calls.length) :
    (s.perform n q e next).calls[n]? = some (q, next (s.reply e)) :=
  List.getElem?_set_self hn

theorem calls_perform_of_ne (h : m ≠ n) : (s.perform n q e next).calls[m]? = s.calls[m]? :=
  List.getElem?_set_ne h.symm

theorem length_of_calls {c : ι × Job α} (h : s.calls[n]? = some c) : n < s.calls.length :=
  (List.getElem?_eq_some_iff.1 h).1

theorem calls_perform {t : Job α} {r : ι} (hn : s.calls[n]? = some (q, .step e next))
    (hm : (s.perform n q e next).calls[m]? = some (r, t)) :
    (m = n ∧ r = q ∧ t = next (s.reply e)) ∨ (m ≠ n ∧ s.calls[m]? = some (r, t)) := by
  by_cases hmn : m = n
  · subst hmn
    rw [calls_perform_self (length_of_calls hn)] at hm
    obtain ⟨rfl, rfl⟩ := Prod.mk.inj (Option.some.inj hm)
    exact .inl ⟨rfl, rfl, rfl⟩
  · rw [calls_perform_of_ne hmn] at hm
    exact .inr ⟨hmn, hm⟩

theorem calls_call {r : ι} {t : Job α}
    (hm : (s.calls ++ [(q, job q)])[m]? = some (r, t)) :
    s.calls[m]? = some (r, t) ∨ (m = s.calls.length ∧ r = q ∧ t = job q) := by
  rw [List.getElem?_append] at hm
  split at hm
  · exact .inl hm
  · rename_i hlt
    rw [List.getElem?_singleton] at hm
    split at hm
    · rename_i hzero
      obtain ⟨rfl, rfl⟩ := Prod.mk.inj (Option.some.inj hm)
      exact .inr ⟨by omega, rfl, rfl⟩
    · cases hm

/-- Whose call is on its way after a move was on its way before, or was called. -/
theorem Stepped.called {move : Move ι} {s' : Throng ι α} {t : Job α} (h : Stepped job s move s')
    (hn : s'.calls[n]? = some (q, t)) : (∃ t', s.calls[n]? = some (q, t')) ∨ move = .call q := by
  cases h with
  | idle => exact .inl ⟨t, hn⟩
  | call q' =>
      rcases calls_call hn with hn | ⟨-, rfl, -⟩
      · exact .inl ⟨t, hn⟩
      · exact .inr rfl
  | act hm _ =>
      rcases calls_perform hm hn with ⟨rfl, rfl, -⟩ | ⟨-, hn⟩
      · exact .inl ⟨_, hm⟩
      · exact .inl ⟨t, hn⟩
  | clock => exact .inl ⟨t, hn⟩

theorem Stepped.deeds_suffix {move : Move ι} {s' : Throng ι α} (h : Stepped job s move s') :
    s.deeds <:+ s'.deeds := by
  cases h with
  | act => exact List.suffix_cons _ _
  | _ => exact List.suffix_refl _

/-! ### All moves -/

@[simp] theorem after_nil (s : Throng ι α) : s.after job [] = s := rfl

theorem after_append (s : Throng ι α) (moves more : List (Move ι)) :
    s.after job (moves ++ more) = (s.after job moves).after job more :=
  List.foldl_append

theorem goesSmoothly_append (s : Throng ι α) (moves more : List (Move ι)) :
    s.goesSmoothly job (moves ++ more) =
      (s.goesSmoothly job moves && (s.after job moves).goesSmoothly job more) := by
  induction moves generalizing s with
  | nil => rfl
  | cons move moves ih => rw [List.cons_append, goesSmoothly, goesSmoothly, ih, Bool.and_assoc]; rfl

theorem after_concat (s : Throng ι α) (moves : List (Move ι)) (move : Move ι) :
    s.after job (moves ++ [move]) = (s.after job moves).step job move :=
  after_append s moves [move]

/-- What holds at first and is kept by every smooth move holds after smooth moves. -/
theorem invariant {I : Throng ι α → Prop} {moves : List (Move ι)} (h : I s)
    (hstep : ∀ front move, front ++ [move] <+: moves → (s.after job front).grants move →
      I (s.after job front) → I ((s.after job front).step job move))
    (hsmooth : s.goesSmoothly job moves) : I (s.after job moves) := by
  induction moves using List.reverseRecOn with
  | nil => exact h
  | append_singleton front move ih =>
      rw [goesSmoothly_append, Bool.and_eq_true] at hsmooth
      have hgrants : (s.after job front).grants move := by
        simpa [goesSmoothly] using hsmooth.2
      rw [after_concat]
      refine hstep front move (List.prefix_refl _) hgrants (ih ?_ hsmooth.1)
      exact fun f m hf => hstep f m (hf.trans (List.prefix_append front [move]))

variable {moves : List (Move ι)}

theorem goesSmoothly_of_prefix {more : List (Move ι)} (h : moves <+: more)
    (hsmooth : s.goesSmoothly job more) : s.goesSmoothly job moves := by
  obtain ⟨rest, rfl⟩ := h
  rw [goesSmoothly_append, Bool.and_eq_true] at hsmooth
  exact hsmooth.1

theorem take_cases (hsmooth : s.goesSmoothly job moves) (n : Nat) :
    s.after job (moves.take (n + 1)) = s.after job (moves.take n) ∨
      ∃ move ∈ moves, (s.after job (moves.take n)).grants move ∧
        Stepped job (s.after job (moves.take n)) move (s.after job (moves.take (n + 1))) := by
  by_cases hn : n < moves.length
  · have htake : moves.take (n + 1) = moves.take n ++ [moves[n]] :=
      List.take_succ_eq_append_getElem hn
    have hinitial := goesSmoothly_of_prefix (List.take_prefix (n + 1) moves) hsmooth
    rw [htake, goesSmoothly_append, Bool.and_eq_true] at hinitial
    refine .inr ⟨moves[n], List.getElem_mem hn, by simpa [goesSmoothly] using hinitial.2, ?_⟩
    rw [htake, after_concat]
    exact stepped job _ _
  · rw [List.take_of_length_le (by omega), List.take_of_length_le (by omega)]
    exact .inl rfl

theorem call_mem {t : Job α} (hs : s.calls = [])
    (h : (s.after job moves).calls[n]? = some (q, t)) : .call q ∈ moves := by
  induction moves using List.reverseRecOn generalizing t with
  | nil =>
      rw [after_nil, hs] at h
      cases h
  | append_singleton front move ih =>
      rw [after_concat] at h
      rw [List.mem_append, List.mem_singleton]
      rcases (stepped job _ move).called h with ⟨t', h⟩ | rfl
      · exact .inl (ih h)
      · exact .inr rfl

theorem deeds_suffix_after (s : Throng ι α) (moves : List (Move ι)) :
    s.deeds <:+ (s.after job moves).deeds := by
  induction moves using List.reverseRecOn with
  | nil => exact List.suffix_refl _
  | append_singleton front move ih =>
      rw [after_concat]
      exact ih.trans (stepped job _ move).deeds_suffix

/-! ### The clock -/

theorem now_pass (w : World) (nanos : Nat) : (w.pass World.nobody nanos).now = w.now := rfl

theorem now_perform (w : World) (e : Effect) : (w.perform World.nobody e).2.now = w.now := by
  have hchange (attempt : Except DiskFault Disk) : (w.change attempt).2.now = w.now := by
    cases attempt <;> rfl
  cases e with
  | write path content => exact hchange _
  | rename source target => exact hchange _
  | remove path => exact hchange _
  | pause length => exact now_pass w _
  | _ => rfl

theorem Stepped.reaches {move : Move ι} {s' : Throng ι α} (h : Stepped job s move s')
    (hnow : s.world.now.isLeap = false) : s.world.now.Reaches s'.world.now := by
  cases h with
  | idle | call => exact .refl hnow
  | act =>
      rw [perform, now_perform]
      exact .refl hnow
  | clock hleap hle => exact ⟨hnow, hleap, hle⟩

theorem reaches_after (hnow : s.world.now.isLeap = false) (moves : List (Move ι)) :
    s.world.now.Reaches (s.after job moves).world.now := by
  induction moves using List.reverseRecOn with
  | nil => exact .refl hnow
  | append_singleton front move ih =>
      rw [after_concat]
      exact ih.trans ((stepped job _ move).reaches ih.stop)

theorem reaches_of_prefix {front moves : List (Move ι)} (hnow : s.world.now.isLeap = false)
    (h : front <+: moves) :
    (s.after job front).world.now.Reaches (s.after job moves).world.now := by
  obtain ⟨rest, rfl⟩ := h
  rw [after_append]
  exact reaches_after (reaches_after hnow front).stop rest

end Throng

end StatAlmanac
