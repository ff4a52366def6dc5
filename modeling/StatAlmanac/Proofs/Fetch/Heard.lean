import StatAlmanac.Proofs.Fetch.Retry
import StatAlmanac.Proofs.Job.Pact

/-!
What a fetch comes to, by the replies that it hears. Its result is that of the last
reply, whichever attempt this was, and its waits make no difference to it. A fetch
leaves the disk and the other side as they are, as long as nobody else does anything
but let time go by.
-/

namespace StatAlmanac

namespace World

/-- Others do nothing but let the time of day go on, within `clock`. -/
def Idle (clock : Stamp → Prop) (others : Others) : Prop :=
  ∀ n w, clock w.now → ∃ now, clock now ∧ others n w = { w with now }

theorem idle_nobody (clock : Stamp → Prop) : Idle clock nobody := fun _ w hw => ⟨w.now, hw, rfl⟩

end World

namespace Fetch

def ended (p : FetchPlan) (url : String) (o : Outcome) : Except FetchError Bytes :=
  match settle url o with
  | .ok result => result
  | .error last => .error (.exhausted url (p.retries + 1) last)

theorem heard_of_ended {p : FetchPlan} {url : String} {o : Outcome} {body : Bytes}
    (h : ended p url o = .ok body) : ∃ response, o = .ok response ∧ response.body = body := by
  cases hdecided : isTransient o with
  | true =>
      rw [ended, settle_of_isTransient url hdecided] at h
      cases h
  | false =>
      obtain ⟨response, ho, hsettle⟩ := settle_of_not_isTransient url hdecided
      rw [ended, hsettle] at h
      refine ⟨response, ho, ?_⟩
      simp only [resultOf] at h
      split at h
      · exact Except.ok.inj h
      · split at h
        · cases h
        · cases h

/-! ### The rule for a fetch -/

def isWaiting : Effect → Bool
  | .enter .pacer | .leave .pacer => true
  | e => isPacing e

theorem isWaiting_of_isPacing {e : Effect} (h : isPacing e) : isWaiting e := by
  cases e with
  | enter => cases h
  | leave => cases h
  | _ => exact h

theorem only_pace (interval : Duration) : (pace interval).Only fun e => isWaiting e := by
  obtain ⟨body, hbody, honly⟩ := only_pacing interval
  rw [hbody]
  exact Job.only_inside rfl rfl (Job.only_mono honly fun _ => isWaiting_of_isPacing)

variable {σ : Type} {P : Pact σ} {p : FetchPlan} {url : String} {s : σ}
  {I : Nat → σ → Prop} {J : Nat → Outcome → σ → Prop}

/-- The stand does not change while the job waits. -/
structure WaitsUnder (P : Pact σ) (s : σ) : Prop where
  allows : ∀ e, isWaiting e → P.allows s e
  stays : ∀ e r s', isWaiting e → P.expects s e r s' → s' = s

theorem WaitsUnder.act (hwait : WaitsUnder P s) {α : Type} {e : Effect} {f : e.Reply → Job α}
    {Q : α → σ → Prop} (he : isWaiting e) (h : ∀ r, (f r).Abides P s Q) :
    (Job.act e >>= f).Abides P s Q := by
  refine .act (hwait.allows e he) fun r s' hr => ?_
  obtain rfl := hwait.stays e r s' he hr
  exact h r

theorem WaitsUnder.pace (hwait : WaitsUnder P s) (interval : Duration) :
    (pace interval).Abides P s fun _ s' => s' = s :=
  .of_only hwait.allows hwait.stays (only_pace interval)

/-- How the stand changes in the attempts of a fetch: `I k` is the stand before attempt `k`, and `J
k o` the stand behind it when its outcome is `o`. -/
structure Attempting (P : Pact σ) (url : String) (I : Nat → σ → Prop)
    (J : Nat → Outcome → σ → Prop) : Prop where
  waits : ∀ k s, I k s → WaitsUnder P s
  allows : ∀ k s, I k s → P.allows s (.send url)
  hears : ∀ k s o s', I k s → P.expects s (.send url) o s' → J k o s'
  next : ∀ k o s, J k o s → I (k + 1) s

theorem Attempting.attempt (h : Attempting P url I J) {interval : Duration} {k : Nat} (hs : I k s) :
    (do pace interval; Job.send url).Abides P s fun o s' => J k o s' := by
  refine ((h.waits k s hs).pace interval).bind ?_
  rintro - s' rfl
  exact ⟨h.allows k s' hs, fun o s'' ho => h.hears k s' o s'' hs ho⟩

theorem Attempting.attempts (h : Attempting P url I J) {left k : Nat} (hleft : k + left = p.retries)
    (hs : I k s) :
    (attempts p url left k).Abides P s fun r s' =>
      ∃ last o, J last o s' ∧ r = (ended p url o, last) := by
  induction left generalizing k s with
  | zero =>
      rw [attempts_eq]
      refine (h.attempt hs).bind fun o s' ho => ?_
      rw [follow]
      cases hsettle : settle url o with
      | ok result => exact ⟨k, o, ho, by rw [ended, hsettle]⟩
      | error last =>
          refine ⟨k, o, ho, ?_⟩
          rw [ended, hsettle, ← hleft]
  | succ left ih =>
      rw [attempts_eq]
      refine (h.attempt hs).bind fun o s' ho => ?_
      rw [follow]
      cases hsettle : settle url o with
      | ok result => exact ⟨k, o, ho, by rw [ended, hsettle]⟩
      | error last =>
          have hs' := h.next k o s' ho
          exact (h.waits _ s' hs').act rfl fun _ => ih (by omega) hs'

theorem Attempting.fetch (h : Attempting P url I J) {Q : Except FetchError Bytes → σ → Prop}
    (hs : I 0 s)
    (hcount : ∀ last o s' latency, J last o s' →
      (Job.count (eventOf (ended p url o) latency last)).Abides P s' fun _ => Q (ended p url o)) :
    (fetch p url).Abides P s Q := by
  rw [fetch_eq]
  refine (h.waits 0 s hs).act rfl fun start => ?_
  refine (h.attempts (Nat.zero_add _) hs).bind ?_
  rintro r s' ⟨last, o, ho, rfl⟩
  refine (h.waits _ s' (h.next last o s' ho)).act rfl fun reading => ?_
  exact .bind (hcount last o s' (Duration.sub reading start) ho) fun _ s'' hQ => .pure hQ

/-! ### What is heard -/

def isErrand (url : String) : Effect → Bool
  | .send asked => asked = url
  | .count _ => true
  | e => isWaiting e

/-- The pact of a job that asks for one page. It hears some of these outcomes. -/
def hearing (url : String) (heard : Outcome → Prop) : Pact Unit where
  allows _ e := isErrand url e
  expects
    | _, .send _, o, _ => heard o
    | _, _, _, _ => True

theorem isErrand_of_isWaiting {e : Effect} (h : isWaiting e) : isErrand url e := by
  cases e with
  | send => cases h
  | count => rfl
  | _ => exact h

/-- A fetch asks for its page alone, and ends with one of the outcomes that it heard. -/
theorem hears_fetch (p : FetchPlan) (url : String) (heard : Outcome → Prop) :
    (fetch p url).Abides (hearing url heard) () fun r _ => ∃ o, heard o ∧ r = ended p url o := by
  have hattempting : Attempting (hearing url heard) url (fun _ _ => True) fun _ o _ => heard o := by
    refine ⟨fun _ _ _ => ⟨fun _ => isErrand_of_isWaiting, fun _ _ _ _ _ => rfl⟩, fun _ _ _ => ?_,
      fun _ _ _ _ _ ho => ho, fun _ _ _ _ => trivial⟩
    exact decide_eq_true rfl
  exact hattempting.fetch trivial fun last o _ _ ho => ⟨rfl, fun _ _ _ => ⟨o, ho, rfl⟩⟩

theorem only_fetch (p : FetchPlan) (url : String) :
    (fetch p url).Only fun e => isErrand url e := by
  refine (hears_fetch p url fun _ => True).only (fun _ _ h => h) fun s e r => ⟨(), ?_⟩
  cases e <;> trivial

variable {clock : Stamp → Prop} {others : World.Others} {w : World}

theorem isGranted_of_isErrand {e : Effect} (r : e.Reply) (h : isErrand url e) : e.isGranted r := by
  cases e with
  | enter | leave | ticks | pause | lastSend | markSend | send | count => rfl
  | _ => cases h

/-- On its errand a job moves nothing on the disk and does not change the other side. -/
theorem perform_errand (hidle : World.Idle clock others) {e : Effect} (he : isErrand url e)
    (hw : clock w.now) :
    clock (w.perform others e).2.now ∧ (w.perform others e).2.disk = w.disk ∧
      (w.perform others e).2.remote = w.remote := by
  cases e with
  | pause length =>
      obtain ⟨now, hnow, hothers⟩ := hidle (w.elapsed + World.pauseTime length) w hw
      rw [World.perform, World.pass, hothers]
      exact ⟨hnow, rfl, rfl⟩
  | enter | leave | ticks | lastSend | markSend | send | count => exact ⟨hw, rfl, rfl⟩
  | _ => cases he

theorem ensures_fetch (hidle : World.Idle clock others) (hw : clock w.now) :
    (fetch p url).Ensures others w fun r w' =>
      clock w'.now ∧ w'.disk = w.disk ∧ w'.remote = w.remote ∧
        ∃ n, r = ended p url (w.remote n url) := by
  have hfetch := hears_fetch p url fun o => ∃ n, o = w.remote n url
  refine (hfetch.ensures
    (fun w' _ => clock w'.now ∧ w'.disk = w.disk ∧ w'.remote = w.remote) ?_
    ⟨hw, rfl, rfl⟩).mono ?_
  · rintro w' s e ⟨hw', hdisk, hremote⟩ he -
    obtain ⟨hw'', hdisk', hremote'⟩ := perform_errand hidle he hw'
    refine ⟨(), ?_, hw'', hdisk'.trans hdisk, hremote'.trans hremote⟩
    cases e with
    | send asked =>
        obtain rfl := of_decide_eq_true he
        exact ⟨w'.sent.length, by rw [← hremote]; rfl⟩
    | _ => trivial
  · rintro r w' ⟨-, ⟨o, ⟨n, rfl⟩, rfl⟩, hw', hdisk, hremote⟩
    exact ⟨hw', hdisk, hremote, n, rfl⟩

end Fetch

end StatAlmanac
