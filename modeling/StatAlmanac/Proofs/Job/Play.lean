import StatAlmanac.World.Basic

/-!
Plays of jobs. Whoever plays a job answers each effect as they like, given what
was asked before; the play logs the effects. A world is one such player, so what
holds of all plays of a job holds of its runs in all worlds.
-/

namespace StatAlmanac

/-- Answers to effects, which may depend on the effects before. -/
abbrev Player := List Effect → (e : Effect) → e.Reply

namespace Job

variable {α β : Type}

def play (player : Player) : Job α → List Effect → α × List Effect
  | .done a, log => (a, log)
  | .step e next, log => play player (next (player log e)) (log ++ [e])

theorem play_pure (player : Player) (a : α) (log : List Effect) :
    (pure a : Job α).play player log = (a, log) := rfl

theorem play_bind (player : Player) (t : Job α) (f : α → Job β) (log : List Effect) :
    (t >>= f).play player log =
      (f (t.play player log).1).play player (t.play player log).2 := by
  induction t generalizing log with
  | done a => rfl
  | step e next ih => exact ih _ _

/-- The job has only effects that satisfy `P`, whatever the answers are. -/
def Only (P : Effect → Prop) : Job α → Prop
  | .done _ => True
  | .step e next => P e ∧ ∀ reply, Only P (next reply)

theorem only_pure {P : Effect → Prop} (a : α) : (pure a : Job α).Only P := trivial

theorem only_act {P : Effect → Prop} {e : Effect} (h : P e) : (act e).Only P :=
  ⟨h, fun _ => trivial⟩

theorem only_mono {P P' : Effect → Prop} {t : Job α} (h : t.Only P) (hP : ∀ e, P e → P' e) :
    t.Only P' := by
  induction t with
  | done a => trivial
  | step e next ih => exact ⟨hP e h.1, fun reply => ih reply (h.2 reply)⟩

theorem only_bind {P : Effect → Prop} {t : Job α} {f : α → Job β} (ht : t.Only P)
    (hf : ∀ a, (f a).Only P) : (t >>= f).Only P := by
  induction t with
  | done a => exact hf a
  | step e next ih => exact ⟨ht.1, fun reply => ih reply (ht.2 reply)⟩

theorem only_inside {P : Effect → Prop} {gate : Gate} {t : Job α} (henter : P (.enter gate))
    (hleave : P (.leave gate)) (ht : t.Only P) : (Job.inside gate t).Only P :=
  only_bind (only_act henter) fun _ => only_bind ht fun a =>
    only_bind (only_act hleave) fun _ => only_pure a

theorem only_aside {P : Effect → Prop} {t : Job α} (hgive : P .giveWay) (ht : t.Only P) :
    (aside t).Only P :=
  only_bind ht fun a => only_bind (only_act hgive) fun _ => only_pure a

theorem play_of_only {P : Effect → Prop} (player : Player) {t : Job α} (h : t.Only P)
    (log : List Effect) :
    ∃ trace, (t.play player log).2 = log ++ trace ∧ ∀ e ∈ trace, P e := by
  induction t generalizing log with
  | done a => exact ⟨[], (List.append_nil log).symm, nofun⟩
  | step e next ih =>
      obtain ⟨trace, htrace, hall⟩ := ih (player log e) (h.2 _) (log ++ [e])
      refine ⟨e :: trace, ?_, ?_⟩
      · rw [play, htrace, List.append_assoc]
        rfl
      · intro d hd
        rcases List.mem_cons.1 hd with rfl | hd
        · exact h.1
        · exact hall d hd

end Job

namespace World

def after (others : Others) (w : World) (log : List Effect) : World :=
  log.foldl (fun w e => (w.perform others e).2) w

def player (others : Others) (w : World) : Player :=
  fun log e => ((w.after others log).perform others e).1

end World

theorem Job.runWith_eq_play {α : Type} (others : World.Others) (w : World) (t : Job α)
    (log : List Effect) :
    t.runWith others (w.after others log) =
      ((t.play (w.player others) log).1, w.after others (t.play (w.player others) log).2) := by
  induction t generalizing log with
  | done a => rfl
  | step e next ih =>
      have hafter : ((w.after others log).perform others e).2 = w.after others (log ++ [e]) := by
        rw [World.after, World.after, List.foldl_append]
        rfl
      rw [runWith, hafter, ih]
      rfl

end StatAlmanac
