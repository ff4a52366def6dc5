import Mathlib.Data.List.Nodup
import StatAlmanac.Proofs.Fetch.Turns
import StatAlmanac.Proofs.Job.TimedThrong

/-!
Pacing. However the fetches of a service mix, and however much time goes by between
their effects, all sends pass the gate, and what is marked there lies at least one
interval apart. A run that keeps time at the gate marks no send later than it has to.
-/

namespace StatAlmanac.Fetch

/-! ### What has been done -/

def own (n : Nat) (strokes : List Stroke) : List Stroke := strokes.filter (·.number = n)

def sendCount (strokes : List Stroke) : Nat := strokes.countP (isSend ·.effect)

def isEntry : Effect → Bool
  | .enter .pacer => true
  | _ => false

def entry? (strokes : List Stroke) : Option Nat :=
  (strokes.find? (isEntry ·.effect)).map (·.time)

def mark? : Effect → Option Duration
  | .markSend reading => some reading
  | _ => none

def marks (strokes : List Stroke) : List Duration := strokes.filterMap (mark? ·.effect)

/-- The first moment for a send when the gate is entered at `entered` and the last send was marked
`last`. -/
def due (interval : Duration) (entered : Nat) : Option Duration → Nat
  | none => entered
  | some last => max entered (last.totalNanos + interval.totalNanos)

/-- What is said of an effect, given what was done before it, the last first, and what the clock
shows. -/
structure Paced (p : FetchPlan) (reading : Nat → Duration) (onTime : Prop) (back : List Stroke)
    (d : Stroke) : Prop where
  /-- A send comes straight from the gate, where it was marked. -/
  passes : isSend d.effect →
    ∃ r, ((own d.number back).take 2).map (·.effect) = [.leave .pacer, .markSend r]
  /-- A mark is an interval away from all marks before it. -/
  apart : ∀ r, mark? d.effect = some r →
    ∀ r' ∈ marks back, r'.totalNanos + p.interval.totalNanos ≤ r.totalNanos
  /-- A mark shows no time before the send is due, and in a run that keeps time just the moment at
  which it is due, which is also when it is made. -/
  dueThen : ∀ r, mark? d.effect = some r → ∃ time, entry? (own d.number back) = some time ∧
    due p.interval (reading time).totalNanos (marks back).head? ≤ r.totalNanos ∧
    (onTime → r.totalNanos = due p.interval (reading time).totalNanos (marks back).head? ∧
      r = reading d.time)
  /-- Whoever has sent before enters no sooner than the wait behind the last send is over. -/
  backsOff : isEntry d.effect → ∀ k, sendCount (own d.number back) = k + 1 →
    ∃ pause sent rest, own d.number back = pause :: sent :: rest ∧
      pause.effect = .pause (p.backoff k) ∧ isSend sent.effect ∧
      pause.time + (p.backoff k).totalNanos ≤ d.time

/-! ### Marks -/

/-- The world knows the last mark, which is the greatest one and shows no time to come. -/
structure Marked (base : Nat) (w : World) (strokes : List Stroke) : Prop where
  lastSend : w.lastSend = (marks strokes).head?
  past : ∀ r ∈ marks strokes, r.totalNanos ≤ base + w.elapsed
  greatest : ∀ last, w.lastSend = some last → ∀ r ∈ marks strokes, r.totalNanos ≤ last.totalNanos

theorem instantly_lastSend_eq (w : World) (e : Effect) :
    (w.instantly e).2.lastSend = (mark? e).or w.lastSend := by
  cases hmark : mark? e with
  | none =>
      apply w.instantly_lastSend e
      rintro r rfl
      simp [mark?] at hmark
  | some r =>
      cases e with
      | markSend r' => exact hmark
      | _ => simp [mark?] at hmark

theorem marks_cons (d : Stroke) (strokes : List Stroke) :
    marks (d :: strokes) = (mark? d.effect).toList ++ marks strokes := by
  cases hmark : mark? d.effect <;> simp [marks, hmark]

theorem Marked.act {base : Nat} {w : World} {strokes : List Stroke} {e : Effect}
    (h : Marked base w strokes) (n : Nat)
    (hnew : ∀ now, mark? e = some now → now.totalNanos ≤ base + w.elapsed ∧
      ∀ r ∈ marks strokes, r.totalNanos ≤ now.totalNanos) :
    Marked base (w.instantly e).2 (⟨n, e, w.elapsed⟩ :: strokes) := by
  have hmarks := marks_cons ⟨n, e, w.elapsed⟩ strokes
  have hlast := instantly_lastSend_eq w e
  have helapsed := (w.instantly_clock e).1
  cases hmark : mark? e with
  | none =>
      simp only [hmark, Option.toList_none, List.nil_append, Option.none_or] at hmarks hlast
      exact ⟨by rw [hlast, hmarks, h.lastSend], by rw [hmarks, helapsed]; exact h.past,
        by rw [hlast, hmarks]; exact h.greatest⟩
  | some now =>
      obtain ⟨hpast, hgreatest⟩ := hnew now hmark
      simp only [hmark, Option.toList_some, List.singleton_append, Option.some_or] at hmarks hlast
      constructor
      · rw [hlast, hmarks, List.head?_cons]
      · rw [hmarks, helapsed]
        exact List.forall_mem_cons.2 ⟨hpast, h.past⟩
      · rw [hlast, hmarks]
        rintro last ⟨⟩
        exact List.forall_mem_cons.2 ⟨Nat.le_refl _, hgreatest⟩

/-! ### Where a fetch is -/

section

variable (p : FetchPlan) (reading : Nat → Duration) (base : Nat) (onTime : Prop)
  (last : Option Duration) (done : List Stroke) (wakes : Nat)

/-- What holds in the gate, entered at `time`, when `last` is the last mark and the call can go on
at `wakes`. -/
def InPhase (time : Nat) : Phase → Prop
  | .entered => wakes = time
  | .looked seen => seen = last ∧ time ≤ wakes ∧ (onTime → wakes = time)
  | .timed seen now => last = some seen ∧ now.totalNanos = base + wakes ∧
      seen.totalNanos ≤ now.totalNanos ∧ time ≤ wakes ∧ (onTime → wakes = time)
  | .waited => ∃ seen, last = some seen ∧ time ≤ wakes ∧
      seen.totalNanos + p.interval.totalNanos ≤ base + wakes ∧
      (onTime → base + wakes = seen.totalNanos + p.interval.totalNanos)
  | .stamping now => now = reading wakes ∧ time ≤ wakes ∧
      due p.interval (base + time) last ≤ base + wakes ∧
      (onTime → base + wakes = due p.interval (base + time) last)
  | .marked now => ∃ d rest, done = d :: rest ∧ d.effect = .markSend now

def Fits : Stand → Prop
  | .fresh => done = []
  | .away k => sendCount done = k ∧ ∀ j, k = j + 1 → ∃ pause sent rest,
      done = pause :: sent :: rest ∧ pause.effect = .pause (p.backoff j) ∧ isSend sent.effect ∧
      wakes = pause.time + (p.backoff j).totalNanos
  | .inside k time phase => sendCount done = k ∧ entry? done = some time ∧
      InPhase p reading base onTime last done wakes time phase
  | .ready k => sendCount done = k ∧
      ∃ r, (done.take 2).map (·.effect) = [.leave .pacer, .markSend r]
  | .sent k => sendCount done = k ∧ ∃ d rest, done = d :: rest ∧ isSend d.effect
  | .over => True

end

def Stand.isInside : Stand → Bool
  | .inside _ _ _ => true
  | _ => false

variable {p : FetchPlan} {reading : Nat → Duration} {base : Nat} {onTime : Prop}
  {strokes back : List Stroke} {n wakes : Nat} {e : Effect} {stand stand' : Stand}

theorem Fits.congr {last last' : Option Duration} {done : List Stroke}
    (h : Fits p reading base onTime last done wakes stand) (hlast : stand.isInside → last = last') :
    Fits p reading base onTime last' done wakes stand := by
  cases stand with
  | inside k time phase =>
      obtain rfl := hlast rfl
      exact h
  | _ => exact h

theorem own_cons_self (n : Nat) (e : Effect) (time : Nat) (strokes : List Stroke) :
    own n (⟨n, e, time⟩ :: strokes) = ⟨n, e, time⟩ :: own n strokes := by
  simp [own]

theorem own_cons_of_ne {m : Nat} (h : m ≠ n) (e : Effect) (time : Nat) (strokes : List Stroke) :
    own m (⟨n, e, time⟩ :: strokes) = own m strokes := by
  simp [own, Ne.symm h]

theorem InPhase.stamping {w : World} {time : Nat} {done : List Stroke}
    (hle : time ≤ w.elapsed) (hdue : due p.interval (base + time) w.lastSend ≤ base + w.elapsed)
    (honTime : onTime → base + w.elapsed = due p.interval (base + time) w.lastSend) :
    InPhase p w.reading base onTime w.lastSend done w.elapsed time
      (.stamping (w.reading w.elapsed)) :=
  ⟨rfl, hle, hdue, honTime⟩

theorem Leads.fits {w : World} {r : e.Reply} (hlead : Leads p stand e r stand')
    (hfits : Fits p w.reading base onTime w.lastSend (own n strokes) wakes stand)
    (hawake : wakes ≤ w.elapsed) (hheld : stand.isInside → onTime → w.elapsed ≤ wakes)
    (hclock : ∀ n ≤ w.elapsed, (w.reading n).totalNanos = base + n)
    (hmarked : Marked base w strokes) :
    ∃ s, Leads p stand e (w.instantly e).1 s ∧
      Fits p w.reading base onTime (w.instantly e).2.lastSend
        (⟨n, e, w.elapsed⟩ :: own n strokes) (e.wakes w.elapsed) s := by
  have hnow := hclock w.elapsed (Nat.le_refl _)
  cases hlead with
  | start =>
      refine ⟨_, .start, ?_, fun j hj => absurd hj.symm (Nat.succ_ne_zero j)⟩
      rw [show own n strokes = [] from hfits]
      rfl
  | enter => exact ⟨.inside _ w.elapsed .entered, .enter, hfits.1, rfl, rfl⟩
  | look =>
      obtain ⟨hcount, hentry, hentered⟩ := hfits
      obtain rfl : wakes = _ := hentered
      refine ⟨_, .look, hcount, hentry, rfl, hawake, fun hon => ?_⟩
      exact Nat.le_antisymm (hheld rfl hon) hawake
  | first =>
      obtain ⟨hcount, hentry, hseen, hle, hon⟩ := hfits
      refine ⟨_, .first, hcount, hentry, .stamping (Nat.le_trans hle hawake) ?_ fun hT => ?_⟩
      · rw [← hseen, due]
        omega
      · have := hon hT
        have := hheld rfl hT
        rw [← hseen, due]
        omega
  | measure =>
      obtain ⟨hcount, hentry, hseen, hle, hon⟩ := hfits
      refine ⟨_, .measure, hcount, hentry, hseen.symm, hnow, ?_, Nat.le_trans hle hawake,
        fun hT => ?_⟩
      · -- no mark shows a time to come
        refine Nat.le_trans (hmarked.past _ ?_) (Nat.le_of_eq hnow.symm)
        rw [hmarked.lastSend] at hseen
        exact List.mem_of_mem_head? hseen.symm
      · exact Nat.le_antisymm (Nat.le_trans (hheld rfl hT) (Nat.le_of_eq (hon hT)))
          (Nat.le_trans hle hawake)
  | @wait k time seen now hshort =>
      obtain ⟨hcount, hentry, hseen, hread, hpast, hle, hon⟩ := hfits
      have hover : ((p.interval - (now - seen)).totalNanos : Nat) =
          p.interval.totalNanos - (now.totalNanos - seen.totalNanos) := by
        simp only [Duration.totalNanos_sub]
      have hgone := hshort
      rw [Duration.lt_iff, Duration.totalNanos_sub] at hgone
      refine ⟨_, .wait hshort, hcount, hentry, seen, hseen, ?_, ?_, fun hT => ?_⟩
      · exact Nat.le_trans (Nat.le_trans hle hawake) (Effect.le_wakes _ _)
      · rw [Effect.wakes, hover]
        omega
      · have := hheld rfl hT
        rw [Effect.wakes, hover]
        omega
  | @late k time seen now _ hlong =>
      obtain ⟨hcount, hentry, hseen, hread, hpast, hle, hon⟩ := hfits
      have hgone := hlong
      rw [Duration.lt_iff, Duration.totalNanos_sub] at hgone
      refine ⟨_, .late hlong, hcount, hentry, .stamping (Nat.le_trans hle hawake) ?_ fun hT => ?_⟩
      · rw [hseen, due]
        omega
      · have := hon hT
        have := hheld rfl hT
        rw [hseen, due]
        omega
  | wake =>
      obtain ⟨hcount, hentry, seen, hseen, hle, hover, hon⟩ := hfits
      refine ⟨_, .wake, hcount, hentry, .stamping (Nat.le_trans hle hawake) ?_ fun hT => ?_⟩
      · rw [hseen, due]
        omega
      · have := hon hT
        have := hheld rfl hT
        rw [hseen, due]
        omega
  | mark => exact ⟨_, .mark, hfits.1, hfits.2.1, _, _, rfl, rfl⟩
  | @leave k time now =>
      obtain ⟨hcount, hentry, d, rest, hdone, hmark⟩ := hfits
      refine ⟨_, .leave, hcount, now, ?_⟩
      rw [hdone, ← hmark]
      rfl
  | @send k url o =>
      refine ⟨_, .send, ?_, _, _, rfl, rfl⟩
      rw [← hfits.1]
      exact List.countP_cons_of_pos rfl
  | @backOff k =>
      obtain ⟨hcount, sent, rest, hdone, hsent⟩ := hfits
      refine ⟨_, .backOff, hcount, fun j hj => ?_⟩
      obtain rfl : k = j := Nat.succ.inj hj
      exact ⟨_, sent, rest, congrArg _ hdone, rfl, hsent, rfl⟩
  | stop => exact ⟨_, .stop, trivial⟩
  | count => exact ⟨_, .count, trivial⟩

theorem Paced.quiet {d : Stroke} (hsend : isSend d.effect = false) (hmark : mark? d.effect = none)
    (hentry : isEntry d.effect = false) : Paced p reading onTime back d where
  passes h := by simp [hsend] at h
  apart r h := by simp [hmark] at h
  dueThen r h := by simp [hmark] at h
  backsOff h := by simp [hentry] at h

theorem Leads.paced {w : World} {r : e.Reply} (hlead : Leads p stand e r stand')
    (hfits : Fits p w.reading base onTime w.lastSend (own n strokes) wakes stand)
    (hawake : wakes ≤ w.elapsed) (hheld : stand.isInside → onTime → w.elapsed ≤ wakes)
    (hclock : ∀ n ≤ w.elapsed, (w.reading n).totalNanos = base + n)
    (hmarked : Marked base w strokes) :
    Paced p w.reading onTime strokes ⟨n, e, w.elapsed⟩ := by
  cases hlead with
  | enter =>
      refine ⟨fun h => absurd h Bool.false_ne_true, by simp [mark?], by simp [mark?], ?_⟩
      intro _ k hcount
      obtain ⟨pause, sent, rest, hown, hpause, hsent, hwakes⟩ :=
        hfits.2 k (hfits.1.symm.trans hcount)
      exact ⟨pause, sent, rest, hown, hpause, hsent, hwakes ▸ hawake⟩
  | @mark k time now =>
      obtain ⟨hcount, hentry, rfl, hle, hdue, hon⟩ := hfits
      have hnow := hclock wakes hawake
      have htime := hclock time (Nat.le_trans hle hawake)
      refine ⟨fun h => absurd h Bool.false_ne_true, ?_, ?_, fun h => absurd h Bool.false_ne_true⟩
      · rintro r hr r' hr'
        obtain rfl : w.reading wakes = r := Option.some.inj hr
        cases hlast : w.lastSend with
        | none =>
            have hnone := hmarked.lastSend
            rw [hlast, eq_comm, List.head?_eq_none_iff] at hnone
            simp [hnone] at hr'
        | some last =>
            have := hmarked.greatest last hlast r' hr'
            rw [hlast, due] at hdue
            omega
      · rintro r hr
        obtain rfl : w.reading wakes = r := Option.some.inj hr
        refine ⟨time, hentry, ?_⟩
        rw [htime, ← hmarked.lastSend, hnow]
        refine ⟨hdue, fun hT => ⟨hon hT, ?_⟩⟩
        rw [Nat.le_antisymm hawake (hheld rfl hT)]
  | send =>
      exact ⟨fun _ => hfits.2, by simp [mark?], by simp [mark?],
        fun h => absurd h Bool.false_ne_true⟩
  | _ => exact .quiet rfl rfl rfl

/-! ### Fetches at the same time -/

theorem Leads.isInside {r : e.Reply} (hlead : Leads p stand e r stand')
    {holders : List (Gate × Nat)} (hnodup : (holders.map (·.1)).Nodup)
    (hinside : stand.isInside ↔ (Gate.pacer, n) ∈ holders) :
    stand'.isInside ↔ (Gate.pacer, n) ∈ e.holders n holders := by
  cases hlead with
  | enter => simp [Stand.isInside, Effect.holders]
  | leave => simp [Stand.isInside, Effect.holders, (List.Nodup.of_map _ hnodup).mem_erase_iff]
  | _ => exact hinside

/-- An effect makes a difference to the gates for its own call only. -/
theorem mem_holders_of_ne {m : Nat} (h : m ≠ n) (gate : Gate) (e : Effect)
    (holders : List (Gate × Nat)) :
    (gate, m) ∈ e.holders n holders ↔ (gate, m) ∈ holders := by
  cases e with
  | enter other => simp [Effect.holders, h]
  | leave other => simp [Effect.holders, List.mem_erase_of_ne, h]
  | _ => exact Iff.rfl

/-- An effect makes no difference to where another call is. Only a mark could, and two calls are not
in the gate at one time. -/
theorem Fits.bystander {w : World} {m time : Nat} {holders : List (Gate × Nat)}
    (h : Fits p reading base onTime w.lastSend (own m strokes) wakes stand) (hne : m ≠ n)
    (hnodup : (holders.map (·.1)).Nodup) (hwithin : stand.isInside → (Gate.pacer, m) ∈ holders)
    (hmark : ∀ now, mark? e = some now → (Gate.pacer, n) ∈ holders) :
    Fits p reading base onTime (w.instantly e).2.lastSend
      (own m (⟨n, e, time⟩ :: strokes)) wakes stand := by
  rw [own_cons_of_ne hne]
  refine h.congr fun hin => ?_
  rw [instantly_lastSend_eq]
  cases hnew : mark? e with
  | none => rfl
  | some now =>
      have hboth := List.inj_on_of_nodup_map hnodup (hwithin hin) (hmark now hnew) rfl
      exact absurd (Prod.mk.inj hboth).2 hne

variable {α : Type}

structure Orderly (p : FetchPlan) (reading : Nat → Duration) (base : Nat) (onTime : Prop)
    (s : TimedThrong α) : Prop where
  reading_eq : s.world.reading = reading
  numbers : ∀ d ∈ s.strokes, d.number < s.calls.length
  marked : Marked base s.world s.strokes
  nodup : (s.holders.map (·.1)).Nodup
  held : ∀ h ∈ s.holders, h.2 < s.calls.length
  prompt : onTime → ∀ n c, (Gate.pacer, n) ∈ s.holders → s.calls[n]? = some c →
    s.world.elapsed ≤ c.wakes
  stands : ∀ n c, s.calls[n]? = some c → ∃ stand : Stand,
    c.rest.Abides (turns p) stand (fun _ _ => True) ∧
    Fits p reading base onTime s.world.lastSend (own n s.strokes) c.wakes stand ∧
    (stand.isInside ↔ (Gate.pacer, n) ∈ s.holders)
  paced : ∀ d back, d :: back <:+ s.strokes → Paced p reading onTime back d

variable {s : TimedThrong α}

theorem orderly_start {w : World} (hlast : w.lastSend = none) :
    Orderly p w.reading base onTime (TimedThrong.ofWorld w : TimedThrong α) where
  reading_eq := rfl
  numbers := by simp [TimedThrong.ofWorld]
  marked := ⟨hlast, by simp [marks, TimedThrong.ofWorld], by simp [marks, TimedThrong.ofWorld]⟩
  nodup := .nil
  held := by simp [TimedThrong.ofWorld]
  prompt := by simp [TimedThrong.ofWorld]
  stands := by simp [TimedThrong.ofWorld]
  paced := by simp [TimedThrong.ofWorld]

theorem Orderly.call (h : Orderly p reading base onTime s) {t : Job α}
    (ht : t.Abides (turns p) .fresh fun _ _ => True) :
    Orderly p reading base onTime { s with calls := s.calls ++ [⟨t, s.world.elapsed⟩] } := by
  refine { h with numbers := ?_, held := ?_, prompt := ?_, stands := ?_ }
  · intro d hd
    have := h.numbers d hd
    simp only [List.length_append, List.length_singleton]
    omega
  · intro g hg
    have := h.held g hg
    simp only [List.length_append, List.length_singleton]
    omega
  · intro hT n c hheld hn
    rcases TimedThrong.calls_call hn with hn | ⟨-, rfl⟩
    · exact h.prompt hT n c hheld hn
    · exact Nat.le_refl _
  · intro n c hn
    rcases TimedThrong.calls_call hn with hn | ⟨rfl, rfl⟩
    · exact h.stands n c hn
    · -- nothing has been done yet under a new number
      refine ⟨.fresh, ht, ?_, ?_⟩
      · apply List.filter_eq_nil_iff.2
        intro d hd
        have := h.numbers d hd
        simp only [decide_eq_true_eq]
        omega
      · simp only [Stand.isInside, Bool.false_eq_true, false_iff]
        intro hheld
        exact Nat.lt_irrefl _ (h.held _ hheld)

theorem Orderly.wait (h : Orderly p reading base onTime s) (nanos : Nat)
    (hprompt : onTime → s.isHeldUntil (s.world.elapsed + nanos)) :
    Orderly p reading base onTime (s.wait nanos) := by
  refine { h with marked := { h.marked with past := ?_ }, prompt := ?_ }
  · intro r hr
    have := h.marked.past r hr
    show r.totalNanos ≤ base + (s.world.elapsed + nanos)
    omega
  · intro hT n c hheld hn
    exact TimedThrong.le_wakes_of_isHeldUntil (hprompt hT) hheld hn

theorem Leads.stamping_of_mark {r : e.Reply} (hlead : Leads p stand e r stand') {now : Duration}
    (hmark : mark? e = some now) :
    ∃ k time, stand = .inside k time (.stamping now) := by
  cases hlead with
  | @mark k time now' =>
      obtain rfl : now' = now := Option.some.inj hmark
      exact ⟨k, time, rfl⟩
  | _ => simp [mark?] at hmark

theorem nodup_holders {holders : List (Gate × Nat)} (h : (holders.map (·.1)).Nodup)
    (hopen : ∀ gate, e = .enter gate → gate ∉ holders.map (·.1)) (n : Nat) :
    ((e.holders n holders).map (·.1)).Nodup := by
  cases e with
  | enter gate => exact List.nodup_cons.2 ⟨hopen gate rfl, h⟩
  | leave gate => exact h.sublist (List.erase_sublist.map _)
  | _ => exact h

theorem mem_holders {holders : List (Gate × Nat)} {g : Gate × Nat}
    (h : g ∈ e.holders n holders) : g ∈ holders ∨ g.2 = n := by
  cases e with
  | enter gate =>
      rcases List.mem_cons.1 h with rfl | h
      · exact .inr rfl
      · exact .inl h
  | leave gate => exact .inl (List.mem_of_mem_erase h)
  | _ => exact .inl h

theorem Orderly.act (h : Orderly p reading base onTime s) {next : e.Reply → Job α}
    (hclock : ∀ n ≤ s.world.elapsed, (reading n).totalNanos = base + n)
    (hn : s.calls[n]? = some ⟨.step e next, wakes⟩) (hawake : wakes ≤ s.world.elapsed)
    (hopen : s.isOpen e) : Orderly p reading base onTime (s.perform n e next) := by
  obtain ⟨stand, ⟨⟨r, stand₀, hlead⟩, hnext⟩, hfits, hinside⟩ := h.stands n _ hn
  have hlt : n < s.calls.length := (List.getElem?_eq_some_iff.1 hn).1
  have hheld : stand.isInside → onTime → s.world.elapsed ≤ wakes := fun hi hT =>
    h.prompt hT n _ (hinside.1 hi) hn
  obtain rfl := h.reading_eq
  obtain ⟨stand', hlead', hfits'⟩ := hlead.fits hfits hawake hheld hclock h.marked
  have hpaced := hlead.paced hfits hawake hheld hclock h.marked
  obtain ⟨helapsed, hreading⟩ := s.world.instantly_clock e
  have hmark : ∀ now, mark? e = some now →
      stand.isInside ∧ now.totalNanos ≤ base + s.world.elapsed := by
    intro now hnow
    obtain ⟨k, time, rfl⟩ := hlead.stamping_of_mark hnow
    obtain ⟨-, -, rfl, -⟩ := hfits
    exact ⟨rfl, Nat.le_trans (Nat.le_of_eq (hclock wakes hawake)) (Nat.add_le_add_left hawake base)⟩
  have hlength : (s.perform n e next).calls.length = s.calls.length := List.length_set
  constructor
  case reading_eq => exact hreading
  case numbers =>
    intro d hd
    rw [hlength]
    rcases List.mem_cons.1 hd with rfl | hd
    · exact hlt
    · exact h.numbers d hd
  case marked =>
    refine h.marked.act n fun now hnow => ⟨(hmark now hnow).2, fun r hr => ?_⟩
    exact Nat.le_of_add_right_le (hpaced.apart now hnow r hr)
  case nodup =>
    refine nodup_holders h.nodup ?_ n
    rintro gate rfl
    simpa [TimedThrong.isOpen] using hopen
  case held =>
    intro g hg
    rw [hlength]
    rcases mem_holders hg with hg | hg
    · exact h.held g hg
    · rw [hg]
      exact hlt
  case prompt =>
    intro hT m c hm hc
    show (s.world.instantly e).2.elapsed ≤ c.wakes
    rw [helapsed]
    rcases TimedThrong.calls_perform hn hc with ⟨-, rfl⟩ | ⟨hne, hc⟩
    · exact e.le_wakes s.world.elapsed
    · exact h.prompt hT m c ((mem_holders_of_ne hne _ _ _).1 hm) hc
  case stands =>
    intro m c hc
    rcases TimedThrong.calls_perform hn hc with ⟨rfl, rfl⟩ | ⟨hne, hc⟩
    · refine ⟨stand', hnext _ _ hlead', ?_, hlead'.isInside h.nodup hinside⟩
      rw [show (s.perform m e next).strokes = ⟨m, e, s.world.elapsed⟩ :: s.strokes from rfl,
        own_cons_self]
      exact hfits'
    · obtain ⟨other, hother, hothers, hwithin⟩ := h.stands m c hc
      refine ⟨other, hother, ?_, hwithin.trans (mem_holders_of_ne hne _ _ _).symm⟩
      exact hothers.bystander hne h.nodup hwithin.1 fun now hnow => hinside.1 (hmark now hnow).1
  case paced =>
    intro d back hd
    rcases List.suffix_cons_iff.1 hd with heq | hd
    · cases heq
      exact hpaced
    · exact h.paced d back hd

/-- Pacing. Let fetches by one plan be made in any number and their effects mix in any way, with any
time between them, on a clock that shows all the time that goes by. Each send comes straight from
the gate, and is marked there at least one interval behind all sends before it, and no sooner than
whoever enters again has waited as the plan says. In a run that keeps time at the gate it is marked
at the very moment of the entry, or when the interval is over if that is later. -/
theorem fetches_paced (p : FetchPlan) (w : World) (moves : List (TimedMove String))
    (hlast : w.lastSend = none)
    (hclock : ∀ n ≤ ((TimedThrong.ofWorld w).after (fetch p) moves).world.elapsed,
      (w.reading n).totalNanos = (w.reading 0).totalNanos + n) :
    ∀ d back, d :: back <:+ ((TimedThrong.ofWorld w).after (fetch p) moves).strokes →
      Paced p w.reading ((TimedThrong.ofWorld w).keepsTime (fetch p) moves) back d := by
  generalize htime : (TimedThrong.ofWorld w).keepsTime (fetch p) moves = onTime
  suffices h : Orderly p w.reading (w.reading 0).totalNanos onTime
      ((TimedThrong.ofWorld w).after (fetch p) moves) from h.paced
  refine TimedThrong.invariant (orderly_start hlast) fun front move hfront h => ?_
  have hle := TimedThrong.elapsed_le_of_prefix (fetch p) (.ofWorld w)
    ((List.prefix_append front [move]).trans hfront)
  have hstep := TimedThrong.stepped (fetch p) ((TimedThrong.ofWorld w).after (fetch p) front) move
  generalize ((TimedThrong.ofWorld w).after (fetch p) front).step (fetch p) move = s' at hstep ⊢
  cases hstep with
  | idle => exact h
  | call q => exact h.call ((abides_fetch p q).mono fun _ _ _ => trivial)
  | act hn hawake hopen =>
      exact h.act (fun n hn => hclock n (Nat.le_trans hn hle)) hn hawake hopen
  | wait nanos =>
      refine h.wait nanos fun hT => ?_
      subst htime
      exact TimedThrong.isPrompt_of_prefix hfront hT

/-- Two fetches start together. The second one waits in the gate while the first one, which is tried
again, is over its own wait, and is the first to be due again. -/
theorem fetches_paced_retried :
    let p : FetchPlan := { interval := .ofNanos 10, delay := .ofNanos 3, retries := 1 }
    let w : World :=
      { disk := .empty, now := default, remote := scripted [.error .timeout] (.ok ⟨200, []⟩),
        reading := .ofNanos }
    let moves : List (TimedMove String) :=
      [.call "lux", .call "orb", .act 0, .act 1] ++ List.replicate 7 (.act 0) ++ [.wait 5] ++
      List.replicate 4 (.act 1) ++ [.wait 5] ++ List.replicate 6 (.act 1) ++
      List.replicate 4 (.act 0) ++ [.wait 10] ++ List.replicate 6 (.act 0)
    let s := (TimedThrong.ofWorld w).after (fetch p) moves
    (TimedThrong.ofWorld w).keepsTime (fetch p) moves ∧
      (marks s.strokes).map Duration.totalNanos = [20, 10, 0] ∧
      ∀ d back, d :: back <:+ s.strokes →
        Paced p w.reading ((TimedThrong.ofWorld w).keepsTime (fetch p) moves) back d := by
  intro p w moves s
  have hruns : (TimedThrong.ofWorld w).keepsTime (fetch p) moves ∧
      (marks s.strokes).map Duration.totalNanos = [20, 10, 0] ∧
      ((TimedThrong.ofWorld w).after (fetch p) moves).world.elapsed = 20 := by
    decide +kernel
  obtain ⟨htime, hmarks, helapsed⟩ := hruns
  have hpaced := fetches_paced p w moves rfl
  rw [helapsed] at hpaced
  have hclock : ∀ n ≤ 20, (w.reading n).totalNanos = (w.reading 0).totalNanos + n := by
    intro n hn
    show (Duration.ofParts 0 n).totalNanos = (Duration.ofParts 0 0).totalNanos + n
    rw [Duration.totalNanos_ofParts, Duration.totalNanos_ofParts] <;>
      simp only [nanosPerSecond, bound64] <;> omega
  exact ⟨htime, hmarks, hpaced hclock⟩

end StatAlmanac.Fetch
