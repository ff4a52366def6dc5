import StatAlmanac.Fetch.Attempts
import StatAlmanac.Proofs.Job.Play

/-!
How a fetch goes, whatever comes back for its sends and whoever answers its other
effects. It sends until a reply is not transient, at most one time more than the
plan has retries; it waits between two sends, as long as the plan says, and not
behind the last one; and it is counted once.
-/

namespace StatAlmanac.Fetch

def isTransient : Outcome → Bool
  | .error _ => true
  | .ok response =>
      response.status = 408 ∨ response.status = 429 ∨
        500 ≤ response.status ∧ response.status ≤ 599

def failureOf : Outcome → Passing
  | .error failure => failure
  | .ok response => .status response.status

def resultOf (url : String) (response : Response) : Except FetchError Bytes :=
  if 200 ≤ response.status ∧ response.status ≤ 299 then .ok response.body
  else if response.status = 404 ∨ response.status = 410 then .error (.notFound url)
  else .error (.rejected url response.status)

theorem settle_of_isTransient (url : String) {o : Outcome} (h : isTransient o) :
    settle url o = .error (failureOf o) := by
  cases o with
  | error failure => rfl
  | ok response =>
      have hstatus := of_decide_eq_true h
      have hverdict : Verdict.ofStatus response.status = .passing := by
        rw [Verdict.ofStatus, if_neg (by omega), if_neg (by omega), if_pos (by omega)]
      rw [settle, hverdict]
      rfl

theorem settle_of_not_isTransient (url : String) {o : Outcome} (h : isTransient o = false) :
    ∃ response, o = .ok response ∧ settle url o = .ok (resultOf url response) := by
  cases o with
  | error failure => cases h
  | ok response =>
      have hstatus := of_decide_eq_false h
      refine ⟨response, rfl, ?_⟩
      rw [settle, Verdict.ofStatus, resultOf]
      by_cases hsuccess : 200 ≤ response.status ∧ response.status ≤ 299
      · rw [if_pos hsuccess, if_pos hsuccess]
      · rw [if_neg hsuccess, if_neg hsuccess]
        by_cases hmissing : response.status = 404 ∨ response.status = 410
        · rw [if_pos hmissing, if_pos hmissing]
        · rw [if_neg hmissing, if_neg hmissing, if_neg hstatus]

/-! ### Logs -/

def isSend : Effect → Bool
  | .send _ => true
  | _ => false

def counted (log : List Effect) : List Event :=
  log.filterMap fun
    | .count event => some event
    | _ => none

def isPacing : Effect → Bool
  | .lastSend | .ticks | .pause _ | .markSend _ => true
  | _ => false

/-- A log without the waiting for turns, which goes on inside the gate. -/
def unpaced (gated : Bool) : List Effect → List Effect
  | [] => []
  | .enter .pacer :: rest => unpaced true rest
  | .leave .pacer :: rest => unpaced false rest
  | e :: rest => if gated && isPacing e then unpaced gated rest else e :: unpaced gated rest

/-- Sends with the waits of the plan between them, the first wait being that behind attempt `i`. -/
def schedule (p : FetchPlan) (url : String) (i : Nat) : (retries : Nat) → List Effect
  | 0 => [.send url]
  | retries + 1 => .send url :: .pause (p.backoff i) :: schedule p url (i + 1) retries

/-- Answers the sends of a job from a sequence, and leaves all else to another player. -/
def answering (r : Nat → Outcome) (other : Player) : Player := fun log e =>
  match e with
  | .send _ => r (log.countP isSend)
  | e => other log e

theorem countP_unpaced (gated : Bool) (log : List Effect) :
    (unpaced gated log).countP isSend = log.countP isSend := by
  fun_induction unpaced gated log with
  | case1 => rfl
  | case2 gated rest ih => rw [ih]; rfl
  | case3 gated rest ih => rw [ih]; rfl
  | case4 gated e rest _ _ hpacing ih =>
      have hsend : isSend e = false := by
        cases e <;> first | rfl | simp [isPacing] at hpacing
      rw [ih, List.countP_cons_of_neg (by simp [hsend])]
  | case5 gated e rest _ _ hpacing ih => rw [List.countP_cons, List.countP_cons, ih]

theorem counted_unpaced (gated : Bool) (log : List Effect) :
    counted (unpaced gated log) = counted log := by
  fun_induction unpaced gated log with
  | case1 => rfl
  | case2 gated rest ih => rw [ih]; rfl
  | case3 gated rest ih => rw [ih]; rfl
  | case4 gated e rest _ _ hpacing ih =>
      rw [ih]
      cases e <;> first | rfl | simp [isPacing] at hpacing
  | case5 gated e rest _ _ hpacing ih =>
      rw [counted, List.filterMap_cons, ← counted, ih, counted, counted, List.filterMap_cons]

theorem countP_schedule (p : FetchPlan) (url : String) (i retries : Nat) :
    (schedule p url i retries).countP isSend = retries + 1 := by
  induction retries generalizing i with
  | zero => rfl
  | succ retries ih =>
      rw [schedule, List.countP_cons_of_pos rfl, List.countP_cons_of_neg (by simp [isSend]), ih]

theorem counted_schedule (p : FetchPlan) (url : String) (i retries : Nat) :
    counted (schedule p url i retries) = [] := by
  induction retries generalizing i with
  | zero => rfl
  | succ retries ih => exact ih (i + 1)

/-! ### Plays -/

variable (p : FetchPlan) (url : String) (r : Nat → Outcome) (other : Player)

theorem only_pacing (interval : Duration) :
    ∃ body : Job Unit, pace interval = .inside .pacer body ∧ body.Only fun e => isPacing e := by
  refine ⟨_, rfl, Job.only_bind (Job.only_act rfl) fun last => ?_⟩
  have hmark : (do Job.markSend (← Job.ticks)).Only fun e => isPacing e :=
    Job.only_bind (Job.only_act rfl) fun _ => Job.only_act rfl
  cases last with
  | none => exact hmark
  | some last =>
      refine Job.only_bind (Job.only_act rfl) fun reading => ?_
      by_cases hwait : reading - last < interval
      · simp only [hwait, if_true]
        exact Job.only_bind (Job.only_act rfl) fun _ => hmark
      · simp only [hwait, if_false]
        exact hmark

theorem unpaced_of_isPacing {trace : List Effect} (h : ∀ e ∈ trace, isPacing e)
    (rest : List Effect) : unpaced true (trace ++ rest) = unpaced true rest := by
  induction trace with
  | nil => rfl
  | cons e trace ih =>
      have hpacing := h e List.mem_cons_self
      have hcons : unpaced true (e :: (trace ++ rest)) = unpaced true (trace ++ rest) := by
        cases e <;> first | rfl | cases hpacing
      rw [List.cons_append, hcons, ih fun d hd => h d (List.mem_cons_of_mem e hd)]

theorem pace_play (player : Player) (interval : Duration) (log : List Effect) :
    ∃ trace, ((pace interval).play player log).2 = log ++ trace ∧
      ∀ rest, unpaced false (trace ++ rest) = unpaced false rest := by
  obtain ⟨body, hbody, honly⟩ := only_pacing interval
  obtain ⟨trace, htrace, hall⟩ := Job.play_of_only player honly (log ++ [.enter .pacer])
  refine ⟨.enter .pacer :: (trace ++ [.leave .pacer]), ?_, fun rest => ?_⟩
  · have hlog : ((pace interval).play player log).2 =
        (body.play player (log ++ [.enter .pacer])).2 ++ [.leave .pacer] := by
      rw [hbody]
      show ((body >>= fun a => Job.leave .pacer >>= fun _ => pure a).play player _).2 = _
      rw [Job.play_bind]
      rfl
    rw [hlog, htrace, List.append_assoc, List.append_assoc]
    rfl
  · rw [List.cons_append, List.append_assoc]
    exact unpaced_of_isPacing hall _

/-! ### Attempts -/

variable (p : FetchPlan) (url : String) (r : Nat → Outcome) (other : Player)

/-- The first of some replies that is not transient. -/
def decisive? (r : Nat → Outcome) (first count : Nat) : Option Nat :=
  (List.range' first count).find? fun i => !isTransient (r i)

/-- The result of attempts, given the decisive reply, or that of the last attempt if none is. -/
def IsResult (last : Nat) (result : Except FetchError Bytes) : Option Nat → Prop
  | some k => ∃ response, r k = .ok response ∧ result = resultOf url response
  | none => result = .error (.exhausted url (last + 1) (failureOf (r last)))

theorem decisive?_of_not_isTransient {i : Nat} (h : isTransient (r i) = false) (count : Nat) :
    decisive? r i (count + 1) = some i := by
  rw [decisive?, List.range'_succ, List.find?_cons_of_pos (by simp [h])]

theorem decisive?_of_isTransient {i : Nat} (h : isTransient (r i)) (count : Nat) :
    decisive? r i (count + 1) = decisive? r (i + 1) count := by
  rw [decisive?, List.range'_succ, List.find?_cons_of_neg (by simp [h]), decisive?]

theorem send_play (interval : Duration) {i : Nat} (log : List Effect)
    (hlog : log.countP isSend = i) :
    ∃ trace, ((do pace interval; Job.send url).play (answering r other) log) =
        (r i, log ++ trace) ∧
      (log ++ trace).countP isSend = i + 1 ∧
      ∀ rest, unpaced false (trace ++ rest) = .send url :: unpaced false rest := by
  obtain ⟨trace, htrace, hunpaced⟩ := pace_play (answering r other) interval log
  -- nothing is sent while the job waits
  have hcount : (log ++ trace).countP isSend = i := by
    have hnone := countP_unpaced false (trace ++ [])
    rw [hunpaced, List.append_nil] at hnone
    rw [List.countP_append, hlog, ← hnone]
    rfl
  refine ⟨trace ++ [.send url], ?_, ?_, fun rest => ?_⟩
  · rw [Job.play_bind, htrace, ← hcount, ← List.append_assoc]
    rfl
  · rw [← List.append_assoc, List.countP_append, hcount]
    rfl
  · rw [List.append_assoc, hunpaced]
    rfl

def follow (left i : Nat) (o : Outcome) : Job (Except FetchError Bytes × Nat) :=
  match settle url o with
  | .ok result => return (result, i)
  | .error last =>
      match left with
      | 0 => return (.error (.exhausted url (i + 1) last), i)
      | left + 1 => do
          Job.pause (p.backoff i)
          attempts p url left (i + 1)

theorem attempts_eq (left i : Nat) :
    attempts p url left i = (do pace p.interval; Job.send url) >>= follow p url left i := by
  rw [bind_assoc]
  cases left with
  | zero =>
      rw [attempts]
      rfl
  | succ left =>
      rw [attempts]
      rfl

theorem le_of_decisive? {first count k : Nat} (h : decisive? r first count = some k) :
    first ≤ k := by
  have hmem := List.mem_of_find?_eq_some h
  exact (List.mem_range'_1.1 hmem).1

def lastAttempt (left i : Nat) : Nat := (decisive? r i (left + 1)).getD (i + left)

theorem le_lastAttempt (left i : Nat) : i ≤ lastAttempt r left i := by
  rw [lastAttempt]
  cases hdecisive : decisive? r i (left + 1) with
  | none => exact Nat.le_add_right i left
  | some k => exact le_of_decisive? r hdecisive

theorem lastAttempt_of_not_isTransient {i : Nat} (h : isTransient (r i) = false) (left : Nat) :
    lastAttempt r left i = i := by
  rw [lastAttempt, decisive?_of_not_isTransient r h, Option.getD_some]

/-- How attempts go from attempt `i` on, with `left` more allowed: to the first reply that is not
transient, which decides the result, or until none is left. What they log is as scheduled. -/
def AttemptsGo (left i : Nat) (log : List Effect) : Prop :=
  ∃ result trace,
    (attempts p url left i).play (answering r other) log =
      ((result, lastAttempt r left i), log ++ trace) ∧
    IsResult url r (i + left) result (decisive? r i (left + 1)) ∧
    ∀ rest, unpaced false (trace ++ rest) =
      schedule p url i (lastAttempt r left i - i) ++ unpaced false rest

variable {left i : Nat} {log : List Effect}

theorem attemptsGo_of_not_isTransient (left : Nat) (hlog : log.countP isSend = i)
    (h : isTransient (r i) = false) : AttemptsGo p url r other left i log := by
  obtain ⟨sent, hsent, -, hunpaced⟩ := send_play url r other p.interval log hlog
  obtain ⟨response, hresponse, hsettle⟩ := settle_of_not_isTransient url h
  rw [AttemptsGo, decisive?_of_not_isTransient r h, lastAttempt_of_not_isTransient r h,
    Nat.sub_self]
  refine ⟨resultOf url response, sent, ?_, ⟨response, hresponse, rfl⟩, hunpaced⟩
  rw [attempts_eq, Job.play_bind, hsent]
  simp only [follow, hsettle]
  rfl

theorem attemptsGo_zero (hlog : log.countP isSend = i) (h : isTransient (r i)) :
    AttemptsGo p url r other 0 i log := by
  obtain ⟨sent, hsent, -, hunpaced⟩ := send_play url r other p.interval log hlog
  have hnone : decisive? r i (0 + 1) = none := decisive?_of_isTransient r h 0
  have hlast : lastAttempt r 0 i = i := by
    rw [lastAttempt, hnone]
    rfl
  rw [AttemptsGo, hlast, hnone, Nat.sub_self]
  refine ⟨_, sent, ?_, rfl, hunpaced⟩
  rw [attempts_eq, Job.play_bind, hsent]
  simp only [follow, settle_of_isTransient url h]
  rfl

/-- Behind a transient reply there is a pause, and then go the attempts that are left. -/
theorem attemptsGo_succ (hlog : log.countP isSend = i) (h : isTransient (r i))
    (ih : ∀ log, log.countP isSend = i + 1 → AttemptsGo p url r other left (i + 1) log) :
    AttemptsGo p url r other (left + 1) i log := by
  obtain ⟨sent, hsent, hcount, hunpaced⟩ := send_play url r other p.interval log hlog
  have hpaused : (log ++ sent ++ [Effect.pause (p.backoff i)]).countP isSend = i + 1 := by
    rw [List.countP_append, hcount]
    rfl
  obtain ⟨result, trace, hplay, hresult, htrace⟩ := ih _ hpaused
  have hle := le_lastAttempt r left (i + 1)
  have hend : i + (left + 1) = i + 1 + left := by omega
  have hlast : lastAttempt r (left + 1) i = lastAttempt r left (i + 1) := by
    rw [lastAttempt, lastAttempt, decisive?_of_isTransient r h, hend]
  have hretries : lastAttempt r left (i + 1) - i =
      (lastAttempt r left (i + 1) - (i + 1)) + 1 := by omega
  rw [AttemptsGo, decisive?_of_isTransient r h, hend, hlast, hretries]
  refine ⟨result, sent ++ .pause (p.backoff i) :: trace, ?_, hresult, fun rest => ?_⟩
  · rw [attempts_eq, Job.play_bind, hsent]
    simp only [follow, settle_of_isTransient url h]
    rw [Job.play_bind]
    refine Eq.trans hplay ?_
    rw [List.append_assoc, List.append_assoc]
    rfl
  · rw [List.append_assoc, hunpaced, schedule, List.cons_append, List.cons_append,
      List.cons_append, ← htrace]
    rfl

theorem attemptsGo (left i : Nat) (log : List Effect) (hlog : log.countP isSend = i) :
    AttemptsGo p url r other left i log := by
  -- the number of an attempt is that of the sends before it, which answers its send with `r i`
  induction left generalizing i log with
  | zero =>
      cases htransient : isTransient (r i) with
      | true => exact attemptsGo_zero p url r other hlog htransient
      | false => exact attemptsGo_of_not_isTransient p url r other 0 hlog htransient
  | succ left ih =>
      cases htransient : isTransient (r i) with
      | true => exact attemptsGo_succ p url r other hlog htransient (ih (i + 1))
      | false => exact attemptsGo_of_not_isTransient p url r other (left + 1) hlog htransient

/-! ### Fetches -/

/-- The sends of a fetch: up to the decisive reply, or all that the plan allows. -/
def sends : Nat :=
  match decisive? r 0 (p.retries + 1) with
  | some k => k + 1
  | none => p.retries + 1

theorem sends_eq : sends p r = lastAttempt r p.retries 0 + 1 := by
  rw [sends, lastAttempt]
  cases decisive? r 0 (p.retries + 1) with
  | none => rw [Option.getD_none, Nat.zero_add]
  | some k => rfl

def eventOf (result : Except FetchError Bytes) (latency : Duration) (retries : Nat) : Event :=
  match result with
  | .ok _ => .success latency retries
  | .error _ => .failure latency retries

def finish (start : Duration) (ended : Except FetchError Bytes × Nat) :
    Job (Except FetchError Bytes) := do
  let latency := (← Job.ticks) - start
  Job.count (eventOf ended.1 latency ended.2)
  return ended.1

theorem fetch_eq : fetch p url = Job.ticks >>= fun start =>
    attempts p url p.retries 0 >>= finish start :=
  rfl

theorem finish_play (player : Player) (start : Duration) (result : Except FetchError Bytes)
    (last : Nat) (log : List Effect) :
    ∃ latency, (finish start (result, last)).play player log =
      (result, log ++ [.ticks, .count (eventOf result latency last)]) := by
  refine ⟨Duration.sub (player log .ticks) start, ?_⟩
  rw [← List.singleton_append, ← List.append_assoc]
  rfl

theorem fetch_play :
    ∃ result latency log,
      (fetch p url).play (answering r other) [] = (result, log) ∧
      IsResult url r p.retries result (decisive? r 0 (p.retries + 1)) ∧
      unpaced false log = .ticks :: (schedule p url 0 (sends p r - 1) ++
        [.ticks, .count (eventOf result latency (sends p r - 1))]) := by
  obtain ⟨result, trace, hplay, hresult, htrace⟩ :=
    attemptsGo p url r other p.retries 0 [.ticks] rfl
  obtain ⟨latency, hfinish⟩ := finish_play (answering r other) (other [] .ticks) result
    (lastAttempt r p.retries 0) ([.ticks] ++ trace)
  rw [Nat.zero_add] at hresult
  rw [sends_eq, Nat.add_sub_cancel]
  refine ⟨result, latency, [.ticks] ++ trace ++
    [.ticks, .count (eventOf result latency (lastAttempt r p.retries 0))], ?_, hresult, ?_⟩
  · rw [fetch_eq, Job.play_bind]
    show (attempts p url p.retries 0 >>= finish (other [] .ticks)).play _ [.ticks] = _
    rw [Job.play_bind, hplay, hfinish]
  · rw [List.append_assoc]
    show Effect.ticks :: unpaced false (trace ++ _) = _
    rw [htrace, Nat.sub_zero]
    rfl

theorem countP_log {log : List Effect} {event : Event}
    (hlog : unpaced false log =
      .ticks :: (schedule p url 0 (sends p r - 1) ++ [.ticks, .count event])) :
    log.countP isSend = sends p r := by
  have hpos : sends p r - 1 + 1 = sends p r := by
    rw [sends_eq]
    rfl
  rw [← countP_unpaced false log, hlog, List.countP_cons_of_neg (by simp [isSend]),
    List.countP_append, countP_schedule, hpos]
  rfl

/-! ### Fetches in a world -/

theorem perform_send (w : World) (e : Effect) :
    (w.perform World.nobody e).2.remote = w.remote ∧
      (w.perform World.nobody e).2.sent.length = w.sent.length + [e].countP isSend := by
  have hchange (attempt : Except DiskFault Disk) :
      (w.change attempt).2.remote = w.remote ∧ (w.change attempt).2.sent = w.sent := by
    cases attempt <;> exact ⟨rfl, rfl⟩
  have hpass (nanos : Nat) : (w.pass World.nobody nanos).remote = w.remote ∧
      (w.pass World.nobody nanos).sent = w.sent := ⟨rfl, rfl⟩
  cases e with
  | write path content => exact ⟨(hchange _).1, congrArg List.length (hchange _).2⟩
  | rename source target => exact ⟨(hchange _).1, congrArg List.length (hchange _).2⟩
  | remove path => exact ⟨(hchange _).1, congrArg List.length (hchange _).2⟩
  | pause length => exact ⟨(hpass _).1, congrArg List.length (hpass _).2⟩
  | _ => exact ⟨rfl, rfl⟩

theorem after_send (w : World) (log : List Effect) :
    (w.after World.nobody log).remote = w.remote ∧
      (w.after World.nobody log).sent.length = w.sent.length + log.countP isSend := by
  induction log generalizing w with
  | nil => exact ⟨rfl, rfl⟩
  | cons e log ih =>
      obtain ⟨hremote, hsent⟩ := perform_send w e
      obtain ⟨hremotes, hsents⟩ := ih (w.perform World.nobody e).2
      refine ⟨hremotes.trans hremote, hsents.trans ?_⟩
      rw [hsent, Nat.add_assoc, ← List.countP_append, List.singleton_append]

/-- A world that has seen no send answers as the other side in it does. -/
theorem player_eq_answering {w : World} (hsent : w.sent = [])
    (hremote : ∀ n url, w.remote n url = r n) :
    w.player World.nobody = answering r (w.player World.nobody) := by
  funext log e
  cases e with
  | send url =>
      obtain ⟨hremotes, hsents⟩ := after_send w log
      rw [hsent, List.length_nil, Nat.zero_add] at hsents
      show (w.after World.nobody log).remote (w.after World.nobody log).sent.length url = _
      rw [hremotes, hsents]
      exact hremote _ url
  | _ => rfl

theorem fetch_runWith {w : World} (hsent : w.sent = [])
    (hremote : ∀ n url, w.remote n url = r n) :
    IsResult url r p.retries ((fetch p url).runWith World.nobody w).1
        (decisive? r 0 (p.retries + 1)) ∧
      ((fetch p url).runWith World.nobody w).2.sent.length = sends p r := by
  obtain ⟨result, latency, log, hplay, hresult, hlog⟩ :=
    fetch_play p url r (w.player World.nobody)
  have hrun := Job.runWith_eq_play World.nobody w (fetch p url) []
  rw [player_eq_answering r hsent hremote, hplay] at hrun
  have hrun' : (fetch p url).runWith World.nobody w = (result, w.after World.nobody log) := hrun
  rw [hrun', (after_send w log).2, hsent, countP_log p url r hlog]
  exact ⟨hresult, Nat.zero_add _⟩

def tally (m : Metrics) (log : List Effect) : Metrics := (counted log).foldl Metrics.add m

/-- The retry protocol. A fetch sends up to the first reply that is not transient, which decides its
result, or as often as the plan allows, and is exhausted then. Between two sends it waits as the
plan says, besides waiting for its turn, and neither before the first nor behind the last one. It
counts as one request, a success or a failure, with one retry for each send but the first. So it
goes in every world in which nothing has been sent and the other side gives these replies. -/
theorem retry_protocol (p : FetchPlan) (url : String) (r : Nat → Outcome) (other : Player) :
    ∃ result log event,
      (fetch p url).play (answering r other) [] = (result, log) ∧
      IsResult url r p.retries result (decisive? r 0 (p.retries + 1)) ∧
      log.countP isSend = sends p r ∧
      unpaced false log =
        .ticks :: (schedule p url 0 (sends p r - 1) ++ [.ticks, .count event]) ∧
      (∀ m, (tally m log).requests = m.requests + 1 ∧
        (tally m log).successes = m.successes + (if result.isOk then 1 else 0) ∧
        (tally m log).failures = m.failures + (if result.isOk then 0 else 1) ∧
        (tally m log).retries = m.retries + (sends p r - 1)) ∧
      ∀ w : World, w.sent = [] → (∀ n url, w.remote n url = r n) →
        IsResult url r p.retries ((fetch p url).runWith World.nobody w).1
          (decisive? r 0 (p.retries + 1)) ∧
        ((fetch p url).runWith World.nobody w).2.sent.length = sends p r := by
  obtain ⟨result, latency, log, hplay, hresult, hlog⟩ := fetch_play p url r other
  refine ⟨result, log, _, hplay, hresult, countP_log p url r hlog, hlog, fun m => ?_,
    fun w => fetch_runWith p url r⟩
  have hcounted : counted log = [eventOf result latency (sends p r - 1)] := by
    rw [← counted_unpaced false log, hlog]
    show counted (schedule p url 0 (sends p r - 1) ++ _) = _
    rw [counted, List.filterMap_append, ← counted, counted_schedule]
    rfl
  rw [tally, hcounted]
  cases result with
  | ok body => exact ⟨rfl, rfl, rfl, rfl⟩
  | error e => exact ⟨rfl, rfl, rfl, rfl⟩

end StatAlmanac.Fetch
