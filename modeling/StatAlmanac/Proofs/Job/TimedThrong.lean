import Mathlib.Data.List.Induction
import StatAlmanac.World.Basic

/-!
Calls at the same time, with the time that they take. Each effect is had at one
moment, a pause keeps its call from going on until it is over, and between any two
moves any time may go by. Who is in a gate keeps others out of it. What a move
cannot do it leaves undone, so that any list of moves is a run.

Nothing forces a call to go on as soon as it can. A run keeps time at a gate if no
time goes by while a call that is in a gate could go on.
-/

namespace StatAlmanac

/-- An effect, the call that had it, and the nanoseconds that had gone by. -/
structure Stroke where
  number : Nat
  effect : Effect
  time : Nat

/-- What is left of a call, and when it can go on. -/
structure Errand (α : Type) where
  rest : Job α
  wakes : Nat

inductive TimedMove (ι : Type) where
  | call (q : ι)
  | act (n : Nat)
  | wait (nanos : Nat)

structure TimedThrong (α : Type) where
  world : World
  calls : List (Errand α) := []
  /-- Who is in which gate. -/
  holders : List (Gate × Nat) := []
  /-- The effects so far, the last one first. -/
  strokes : List Stroke := []

/-- What an effect does at the moment when it is had. -/
def World.instantly (w : World) : (e : Effect) → e.Reply × World
  | .pause _ => ((), w)
  | e => w.perform World.nobody e

namespace Effect

def holders (n : Nat) : Effect → List (Gate × Nat) → List (Gate × Nat)
  | .enter gate, holders => (gate, n) :: holders
  | .leave gate, holders => holders.erase (gate, n)
  | _, holders => holders

/-- When a call that has the effect at this time can go on. -/
def wakes (time : Nat) : Effect → Nat
  | .pause length => time + length.totalNanos
  | _ => time

theorem le_wakes (time : Nat) (e : Effect) : time ≤ e.wakes time := by
  cases e with
  | pause length => exact Nat.le_add_right time length.totalNanos
  | _ => exact Nat.le_refl time

end Effect

namespace World

variable (w : World) (e : Effect)

theorem instantly_clock :
    (w.instantly e).2.elapsed = w.elapsed ∧ (w.instantly e).2.reading = w.reading := by
  have hchange (attempt : Except DiskFault Disk) :
      (w.change attempt).2.elapsed = w.elapsed ∧ (w.change attempt).2.reading = w.reading := by
    cases attempt <;> exact ⟨rfl, rfl⟩
  cases e with
  | write path content => exact hchange _
  | rename source target => exact hchange _
  | remove path => exact hchange _
  | _ => exact ⟨rfl, rfl⟩

theorem instantly_lastSend (h : ∀ r, e ≠ .markSend r) :
    (w.instantly e).2.lastSend = w.lastSend := by
  have hchange (attempt : Except DiskFault Disk) :
      (w.change attempt).2.lastSend = w.lastSend := by
    cases attempt <;> rfl
  cases e with
  | write path content => exact hchange _
  | rename source target => exact hchange _
  | remove path => exact hchange _
  | markSend r => exact absurd rfl (h r)
  | _ => rfl

end World

namespace TimedThrong

variable {ι α : Type} (job : ι → Job α)

def ofWorld (w : World) : TimedThrong α := { world := w }

def isOpen (s : TimedThrong α) : Effect → Bool
  | .enter gate => gate ∉ s.holders.map (·.1)
  | _ => true

def reply (s : TimedThrong α) (e : Effect) : e.Reply := (s.world.instantly e).1

def perform (s : TimedThrong α) (n : Nat) (e : Effect) (next : e.Reply → Job α) :
    TimedThrong α where
  world := (s.world.instantly e).2
  calls := s.calls.set n ⟨next (s.reply e), e.wakes s.world.elapsed⟩
  holders := e.holders n s.holders
  strokes := ⟨n, e, s.world.elapsed⟩ :: s.strokes

def act (s : TimedThrong α) (n : Nat) : TimedThrong α :=
  match s.calls[n]? with
  | some ⟨.step e next, wakes⟩ =>
      if wakes ≤ s.world.elapsed && s.isOpen e then s.perform n e next else s
  | _ => s

def wait (s : TimedThrong α) (nanos : Nat) : TimedThrong α :=
  { s with world := { s.world with elapsed := s.world.elapsed + nanos } }

def step (s : TimedThrong α) : TimedMove ι → TimedThrong α
  | .call q => { s with calls := s.calls ++ [⟨job q, s.world.elapsed⟩] }
  | .act n => s.act n
  | .wait nanos => s.wait nanos

def after (s : TimedThrong α) (moves : List (TimedMove ι)) : TimedThrong α :=
  moves.foldl (step job) s

/-- No call that is in a gate can go on before this time. -/
def isHeldUntil (s : TimedThrong α) (time : Nat) : Bool :=
  s.holders.all fun h => (s.calls[h.2]?).all fun c => time ≤ c.wakes

def isPrompt (s : TimedThrong α) : TimedMove ι → Bool
  | .wait nanos => s.isHeldUntil (s.world.elapsed + nanos)
  | _ => true

def keepsTime : TimedThrong α → List (TimedMove ι) → Bool
  | _, [] => true
  | s, move :: moves => s.isPrompt move && keepsTime (s.step job move) moves

variable {job} {s : TimedThrong α} {n m : Nat} {e : Effect} {next : e.Reply → Job α}

/-! ### One move -/

inductive Stepped (job : ι → Job α) (s : TimedThrong α) : TimedMove ι → TimedThrong α → Prop where
  | idle (move : TimedMove ι) : Stepped job s move s
  | call (q : ι) :
      Stepped job s (.call q) { s with calls := s.calls ++ [⟨job q, s.world.elapsed⟩] }
  | act {n wakes : Nat} {e : Effect} {next : e.Reply → Job α}
      (hn : s.calls[n]? = some ⟨.step e next, wakes⟩) (hawake : wakes ≤ s.world.elapsed)
      (hopen : s.isOpen e) : Stepped job s (.act n) (s.perform n e next)
  | wait (nanos : Nat) : Stepped job s (.wait nanos) (s.wait nanos)

theorem stepped (job : ι → Job α) (s : TimedThrong α) (move : TimedMove ι) :
    Stepped job s move (s.step job move) := by
  cases move with
  | call q => exact .call q
  | wait nanos => exact .wait nanos
  | act n =>
      rw [step, act]
      split
      · rename_i e next wakes hn
        by_cases hready : (decide (wakes ≤ s.world.elapsed) && s.isOpen e) = true
        · rw [if_pos hready]
          simp only [Bool.and_eq_true, decide_eq_true_eq] at hready
          exact .act hn hready.1 hready.2
        · rw [if_neg hready]
          exact .idle _
      · exact .idle _

theorem calls_perform {c d : Errand α} (hn : s.calls[n]? = some d)
    (hm : (s.perform n e next).calls[m]? = some c) :
    (m = n ∧ c = ⟨next (s.reply e), e.wakes s.world.elapsed⟩) ∨ (m ≠ n ∧ s.calls[m]? = some c) := by
  have hlt : n < s.calls.length := (List.getElem?_eq_some_iff.1 hn).1
  by_cases hmn : m = n
  · subst hmn
    rw [perform, List.getElem?_set_self hlt, Option.some.injEq] at hm
    exact .inl ⟨rfl, hm.symm⟩
  · rw [perform, List.getElem?_set_ne (Ne.symm hmn)] at hm
    exact .inr ⟨hmn, hm⟩

theorem calls_call {c d : Errand α} (hm : (s.calls ++ [d])[m]? = some c) :
    s.calls[m]? = some c ∨ (m = s.calls.length ∧ c = d) := by
  rw [List.getElem?_append] at hm
  split at hm
  · exact .inl hm
  · simp only [List.getElem?_singleton, Option.ite_none_right_eq_some, Option.some.injEq] at hm
    exact .inr ⟨by omega, hm.2.symm⟩

theorem le_wakes_of_isHeldUntil {time : Nat} {gate : Gate} {c : Errand α}
    (h : s.isHeldUntil time) (hheld : (gate, n) ∈ s.holders) (hn : s.calls[n]? = some c) :
    time ≤ c.wakes := by
  have hall := List.all_eq_true.1 h (gate, n) hheld
  simpa [hn] using hall

/-! ### All moves -/

theorem after_append (s : TimedThrong α) (moves more : List (TimedMove ι)) :
    s.after job (moves ++ more) = (s.after job moves).after job more :=
  List.foldl_append

theorem after_concat (s : TimedThrong α) (moves : List (TimedMove ι)) (move : TimedMove ι) :
    s.after job (moves ++ [move]) = (s.after job moves).step job move :=
  after_append s moves [move]

theorem keepsTime_append (s : TimedThrong α) (moves more : List (TimedMove ι)) :
    s.keepsTime job (moves ++ more) =
      (s.keepsTime job moves && (s.after job moves).keepsTime job more) := by
  induction moves generalizing s with
  | nil => rfl
  | cons move moves ih => rw [List.cons_append, keepsTime, keepsTime, ih, Bool.and_assoc]; rfl

theorem invariant {I : TimedThrong α → Prop} {moves : List (TimedMove ι)} (h : I s)
    (hstep : ∀ front move, front ++ [move] <+: moves → I (s.after job front) →
      I ((s.after job front).step job move)) : I (s.after job moves) := by
  induction moves using List.reverseRecOn with
  | nil => exact h
  | append_singleton front move ih =>
      rw [after_concat]
      refine hstep front move (List.prefix_refl _) (ih ?_)
      exact fun f m hf => hstep f m (hf.trans (List.prefix_append front [move]))

theorem isPrompt_of_prefix {front moves : List (TimedMove ι)} {move : TimedMove ι}
    (h : front ++ [move] <+: moves) (htime : s.keepsTime job moves) :
    (s.after job front).isPrompt move := by
  obtain ⟨rest, rfl⟩ := h
  simp only [keepsTime_append, keepsTime, Bool.and_eq_true] at htime
  exact htime.1.2.1

theorem Stepped.elapsed_le {move : TimedMove ι} {s' : TimedThrong α} (h : Stepped job s move s') :
    s.world.elapsed ≤ s'.world.elapsed := by
  cases h with
  | idle | call => exact Nat.le_refl _
  | act => exact Nat.le_of_eq (s.world.instantly_clock _).1.symm
  | wait nanos => exact Nat.le_add_right _ nanos

theorem elapsed_le_of_prefix (job : ι → Job α) (s : TimedThrong α)
    {front moves : List (TimedMove ι)} (h : front <+: moves) :
    (s.after job front).world.elapsed ≤ (s.after job moves).world.elapsed := by
  obtain ⟨rest, rfl⟩ := h
  rw [after_append]
  generalize s.after job front = s
  induction rest generalizing s with
  | nil => exact Nat.le_refl _
  | cons move rest ih => exact Nat.le_trans (stepped job s move).elapsed_le (ih _)

end TimedThrong

end StatAlmanac
