import StatAlmanac.Proofs.Cache.Concurrency

/-!
Any interleaving of calls of one cache that starts with nothing in its folder.
What a `get` returns was handed to a `put` of its key; a `get` that comes after a
`put` has returned finds something as long as what is recorded of its key stays
fresh; and whenever no change is on its way, every record has the document that
was put last.
-/

namespace StatAlmanac

namespace Cache

variable {c : Cache} {handed : String → Bytes → Prop} {stop : Stamp} {v : View} {q : CacheCall}
  {key name : String} {document : Bytes} {r : Record} {s : Throng CacheCall CacheAnswer} {n g : Nat}
  {t : Job CacheAnswer} {e : Effect} {next : e.Reply → Job CacheAnswer} {a : CacheAnswer}
  {found : Option Bytes} {w : World} {moves : List (Move CacheCall)}

/-! ### What a call does -/

/-- What a call does: look, enter the gate, work in it, or leave it. -/
inductive Acts (c : Cache) (handed : String → Bytes → Prop) (stop : Stamp)
    (s : Throng CacheCall CacheAnswer) (q : CacheCall) :
    (e : Effect) → (e.Reply → Job CacheAnswer) → Prop where
  | look {e : Effect} {next : e.Reply → Job CacheAnswer} : e.isLook →
      c.KeepsTo handed stop q (next (s.reply e)) .outside → Acts c handed stop s q e next
  | enter {v : View} {next : Unit → Job CacheAnswer} :
      c.KeepsTo handed stop q (next ()) (.inside v s.world.disk) →
      Acts c handed stop s q (.enter .index) next
  | work {v : View} {e : Effect} {next : e.Reply → Job CacheAnswer} : e.isFileWork →
      c.Offers handed stop v → v.index = (c.view s.world.disk).index →
      c.KeepsTo handed stop q (next (s.reply e))
        (.inside v (s.world.perform World.nobody e).2.disk) →
      Acts c handed stop s q e next
  | leave {v : View} {next : Unit → Job CacheAnswer} :
      c.Changes (·.Reaches stop) q v (c.view s.world.disk) →
      Acts c handed stop s q (.leave .index) next

theorem Guarded.acts (h : c.Guarded handed stop s)
    (hhands : ∀ (n : Nat) q t, s.calls[n]? = some (q, t) → q.Hands handed)
    (hclock : s.world.now.Reaches stop) (hn : s.calls[n]? = some (q, .step e next))
    (hopen : s.isOpen e) (hgranted : e.isGranted (s.reply e)) : c.Acts handed stop s q e next := by
  have hshown := h.offers hhands
  cases h with
  | free _ hplaced _ _ hcalls =>
      rcases hcalls n _ hn with hout | hpast
      · rcases hout.1 with hlook | ⟨rfl, -⟩
        · exact .look hlook (hout.look hlook hclock hshown)
        · exact .enter (hout.2 _ _ ⟨_, hshown, hplaced, rfl⟩)
      · exact absurd hpast.1 id
  | held m q' t v hgate hcall _ hoffers _ hinside hcalls =>
      by_cases hne : n = m
      · subst hne
        obtain ⟨rfl, rfl⟩ := Prod.mk.inj (Option.some.inj (hn.symm.trans hcall))
        rcases hinside.inside_cases with
          ⟨e', next', heq, hwork, hpartway⟩ | ⟨next', heq, hchanges, -, -⟩
        · cases heq
          exact .work hwork hoffers hpartway.index_eq.symm (hinside.work hwork hclock hgranted)
        · cases heq
          exact .leave hchanges
      · rcases hcalls n _ hne hn with hout | hpast
        · rcases hout.1 with hlook | ⟨rfl, -⟩
          · exact .look hlook (hout.look hlook hclock hshown)
          · simp [Throng.isOpen, hgate] at hopen
        · exact absurd hpast.1 id

theorem Guarded.keeps_record (h : c.Guarded handed stop s)
    (hhands : ∀ (n : Nat) q t, s.calls[n]? = some (q, t) → q.Hands handed)
    (hclock : s.world.now.Reaches stop) {move : Move CacheCall} (hgrants : s.grants move)
    {s' : Throng CacheCall CacheAnswer} (hstep : Throng.Stepped c.job s move s')
    (hr : (c.view s.world.disk).index.find? key = some r)
    (hfresh : (c.toEntry key r).isFresh stop) :
    ∃ r', (c.view s'.world.disk).index.find? key = some r' := by
  cases hstep with
  | idle | call | clock => exact ⟨r, hr⟩
  | act hn hopen =>
      rw [Throng.perform]
      cases h.acts hhands hclock hn hopen (Throng.isGranted_of_grants hgrants hn hopen) with
      | look hlook _ =>
          rw [perform_look hlook]
          exact ⟨r, hr⟩
      | enter | leave => exact ⟨r, hr⟩
      | work _ hoffers hindex hinside =>
          rcases hinside.inside_cases with ⟨_, _, _, _, hpartway⟩ | ⟨_, _, hchanges, _, _⟩
          · exact ⟨r, by rw [hpartway.index_eq, hindex, hr]⟩
          · exact hoffers.keeps_record hchanges (hindex ▸ hr) hfresh

theorem Guarded.record_of_put (hc : c.isEnabled) (h : c.Guarded handed stop s)
    (hhands : ∀ (n : Nat) q t, s.calls[n]? = some (q, t) → q.Hands handed)
    (hclock : s.world.now.Reaches stop) {move : Move CacheCall}
    (hmove : ∀ q, move = .call q → q.isMeasurable) (hgrants : s.grants move)
    {s' : Throng CacheCall CacheAnswer} (hstep : Throng.Stepped c.job s move s')
    (hbefore : ¬s.Answered n (.put key name document) (.put (.ok ())))
    (hafter : s'.Answered n (.put key name document) (.put (.ok ()))) :
    ∃ r, (c.view s'.world.disk).index.find? key = some r := by
  -- outside the gate a `put` does not succeed
  have hout (q : CacheCall) (t : Job CacheAnswer) (hq : c.KeepsTo handed stop q t .outside)
      (hput : q = .put key name document) (ht : t = .done (.put (.ok ()))) : False := by
    subst hput ht
    exact absurd (hq.put key name document rfl rfl) (by rintro ⟨⟩)
  cases hstep with
  | idle | clock => exact absurd hafter hbefore
  | call q =>
      rcases Throng.calls_call hafter with hold | ⟨-, hq, ht⟩
      · exact absurd hold hbefore
      · exact (hout q _ (among_job hc (fun d hd => hd.isKey) (hmove q rfl)) hq.symm ht.symm).elim
  | act hm hopen =>
      rcases Throng.calls_perform hm hafter with ⟨-, hq, ht⟩ | ⟨-, hold⟩
      · cases h.acts hhands hclock hm hopen (Throng.isGranted_of_grants hgrants hm hopen) with
        | look _ hkeeps => exact (hout _ _ hkeeps hq.symm ht.symm).elim
        | enter hkeeps =>
            have hdone : c.KeepsTo handed stop _ (.done (.put (.ok ()))) _ := ht ▸ hkeeps
            exact absurd rfl (hdone.isOut _ _)
        | work _ _ _ hkeeps =>
            rw [← ht] at hkeeps
            exact absurd rfl (hkeeps.isOut _ _)
        | leave hchanges =>
            subst hq
            show ∃ r, (c.view s.world.disk).index.find? key = some r
            generalize c.view s.world.disk = v' at hchanges ⊢
            cases hchanges with
            | put => exact ⟨_, Table.find?_insert_self _ _ _⟩
      · exact absurd hold hbefore

theorem Guarded.ends (h : c.Guarded handed stop s) (hn : s.Answered n q a) :
    ∃ stand, c.Ends (·.Reaches stop) (fun d => c.Offers handed stop (c.view d)) q a stand := by
  have hout (h : c.IsOut handed stop (q, .done a)) :
      ∃ stand, c.Ends (·.Reaches stop) (fun d => c.Offers handed stop (c.view d)) q a stand := by
    rcases h with h | h
    · exact ⟨_, h⟩
    · exact ⟨_, h⟩
  cases h with
  | free _ _ _ _ hcalls => exact hout (hcalls n _ hn)
  | held m q' t v _ hcall _ _ _ hinside hcalls =>
      by_cases hne : n = m
      · subst hne
        obtain ⟨rfl, rfl⟩ := Prod.mk.inj (Option.some.inj (hn.symm.trans hcall))
        exact ⟨_, hinside⟩
      · exact hout (hcalls n _ hne hn)

/-- With no change on its way nobody is in the gate. -/
theorem Guarded.settled (h : c.Guarded handed stop s)
    (hdone : ∀ (n : Nat) q t, s.calls[n]? = some (q, t) → q.isChange → ∃ a, t = .done a) :
    Settled s.deeds (c.view s.world.disk) := by
  cases h with
  | free _ _ _ hsettled _ => exact hsettled
  | held n q t v _ hcall hchange _ _ hinside _ =>
      obtain ⟨a, rfl⟩ := hdone n q t hcall hchange
      exact absurd rfl (hinside.isOut _ _)

/-! ### What a `get` finds -/

theorem Finds.isHanded
    (h : c.Finds (·.Reaches stop) (fun d => c.Offers handed stop (c.view d)) key found)
    (hfound : found = some document) : handed key document := by
  cases h with
  | missing => cases hfound
  | stale => cases hfound
  | fresh hd hr hd' =>
      refine hd'.handed key document ?_
      rw [documents_view (hd.isKey key _ hr), hfound]

structure Shows (c : Cache) (stop : Stamp) (key : String) (d : Disk) : Prop where
  record : ∃ r, (c.view d).index.find? key = some r ∧ r.storedAt.isLeap = false ∧
    (c.toEntry key r).isFresh stop
  document : ((c.view d).documents key).isSome

theorem Finds.isSome (h : c.Finds (·.Reaches stop) (c.Shows stop key) key found) :
    found.isSome := by
  cases h with
  | missing hd hr =>
      obtain ⟨r, hr', -, -⟩ := hd.record
      rw [hr] at hr'
      cases hr'
  | stale hd hr hnow hstale =>
      obtain ⟨r, hr', hleap, hfresh⟩ := hd.record
      obtain rfl := Option.some.inj (hr.symm.trans hr')
      rw [isFresh_of_reaches hnow hleap hfresh] at hstale
      cases hstale
  | @fresh d d' r hd hr hd' =>
      obtain ⟨x, hx⟩ := Option.isSome_iff_exists.1 hd'.document
      have hdocument := hd'.document
      rwa [documents_view (isKey_of_documents hx)] at hdocument

/-- What is left of a `get` finds something, if the key shows whenever it looks. -/
abbrev Watches (c : Cache) (stop : Stamp) (key : String) (t : Job CacheAnswer) : Prop :=
  t.Abides (looking (·.Reaches stop) (c.Shows stop key)) () fun a _ =>
    ∃ document, a = .get (some document)

theorem watches_get (hc : c.isEnabled) : c.Watches stop key (c.job (.get key)) := by
  refine .map ((looks_get hc).mono fun found _ hfound => ?_)
  obtain ⟨document, rfl⟩ := Option.isSome_iff_exists.1 hfound.isSome
  exact ⟨document, rfl⟩

theorem watches_step (hc : c.isEnabled) (hshows : c.Shows stop key s.world.disk)
    (hclock : s.world.now.Reaches stop)
    (h : ∀ t, s.calls[g]? = some (.get key, t) → c.Watches stop key t) {move : Move CacheCall}
    {s' : Throng CacheCall CacheAnswer} (hstep : Throng.Stepped c.job s move s') :
    ∀ t, s'.calls[g]? = some (.get key, t) → c.Watches stop key t := by
  intro t ht
  cases hstep with
  | idle | clock => exact h t ht
  | call q =>
      rcases Throng.calls_call ht with ht | ⟨-, rfl, rfl⟩
      · exact h t ht
      · exact watches_get hc
  | @act n q e next hn _ =>
      rcases Throng.calls_perform hn ht with ⟨rfl, rfl, rfl⟩ | ⟨-, ht⟩
      · obtain ⟨hlook, hrest⟩ := h _ hn
        cases e with
        | read path => exact hrest _ () ⟨s.world.disk, hshows, rfl⟩
        | now => exact hrest _ () hclock
        | _ => cases hlook
      · exact h t ht

/-! ### Whole runs -/

def HandedIn (moves : List (Move CacheCall)) (key : String) (document : Bytes) : Prop :=
  ∃ name, .call (.put key name document) ∈ moves

theorem guarded_after (hc : c.isEnabled) (hstart : c.StartsBare w.disk)
    (hnow : w.now.isLeap = false) (hcalls : ∀ q, .call q ∈ moves → q.isMeasurable)
    (hhanded : ∀ key document, HandedIn moves key document → handed key document)
    (hstop : (({ world := w } : Throng CacheCall CacheAnswer).after c.job moves).world.now.Reaches
      stop)
    (hsmooth : ({ world := w } : Throng CacheCall CacheAnswer).goesSmoothly c.job moves) :
    c.Guarded handed stop (({ world := w } : Throng CacheCall CacheAnswer).after c.job moves) := by
  refine Throng.invariant ?_ (fun front move hinitial hgrants hguarded => ?_) hsmooth
  · refine .free rfl (.inl hstart) ?_ ?_ ?_
    · rw [hstart.view]
      exact offers_empty
    · rw [hstart.view]
      rintro key r ⟨⟩
    · rintro n call ⟨⟩
  · have hfront : front <+: moves := (List.prefix_append front [move]).trans hinitial
    refine hguarded.step hc (fun n q t hn => ?_) ?_ (fun q hq => ?_) hgrants
      (Throng.stepped c.job _ move)
    · rintro key name document rfl
      exact hhanded key document ⟨name, hfront.subset (Throng.call_mem rfl hn)⟩
    · exact (Throng.reaches_of_prefix hnow hfront).trans hstop
    · exact hcalls q (hinitial.subset (by simp [hq]))

/-- From the return of a `put` on, records that stay fresh stay, and who looks sees the key. -/
theorem watched_after (hc : c.isEnabled) (hstart : c.StartsBare w.disk)
    (hnow : w.now.isLeap = false) (hcalls : ∀ q, .call q ∈ moves → q.isMeasurable)
    (hsmooth : ({ world := w } : Throng CacheCall CacheAnswer).goesSmoothly c.job moves)
    (state : Nat → Throng CacheCall CacheAnswer)
    (hstate : state = fun n => Throng.after c.job { world := w } (moves.take n)) {i j p : Nat}
    (hbefore : ¬(state i).Answered p (.put key name document) (.put (.ok ())))
    (hafter : (state (i + 1)).Answered p (.put key name document) (.put (.ok ())))
    (hlater : (state (i + 1)).calls.length ≤ g)
    (hfresh : ∀ n r, i < n → n ≤ j → (c.indexOn (state n).world.disk).find? key = some r →
      (c.toEntry key r).isFresh (state j).world.now) :
    ∀ n, i + 1 ≤ n → n ≤ j →
      (∃ r, (c.view (state n).world.disk).index.find? key = some r) ∧
        ∀ t, (state n).calls[g]? = some (.get key, t) →
          c.Watches (state j).world.now key t := by
  have hreaches (n : Nat) (hn : n ≤ j) : (state n).world.now.Reaches (state j).world.now := by
    simp only [hstate]
    exact Throng.reaches_of_prefix hnow (List.take_prefix_take_left hn)
  have hguarded (n : Nat) (hn : n ≤ j) :
      c.Guarded (HandedIn moves) (state j).world.now (state n) := by
    have hinitial := List.take_prefix n moves
    have hreach := hreaches n hn
    simp only [hstate] at hreach ⊢
    exact guarded_after hc hstart hnow (fun q hq => hcalls q (hinitial.subset hq))
      (fun key document h => h.imp fun name hname => hinitial.subset hname) hreach
      (Throng.goesSmoothly_of_prefix hinitial hsmooth)
  have hhands (n : Nat) : ∀ (m : Nat) q t, (state n).calls[m]? = some (q, t) →
      q.Hands (HandedIn moves) := by
    rintro m q t hm key name document rfl
    simp only [hstate] at hm
    exact ⟨name, (List.take_prefix n moves).subset (Throng.call_mem rfl hm)⟩
  have hmove (n : Nat) : state (n + 1) = state n ∨ ∃ move ∈ moves, (state n).grants move ∧
      Throng.Stepped c.job (state n) move (state (n + 1)) := by
    simp only [hstate]
    exact Throng.take_cases hsmooth n
  intro n hin
  induction n, hin using Nat.le_induction with
  | base =>
      intro hij
      constructor
      · rcases hmove i with heq | ⟨move, hmem, hgrants, hstep⟩
        · exact absurd (heq ▸ hafter) hbefore
        · exact (hguarded i (by omega)).record_of_put hc (hhands i) (hreaches i (by omega))
            (fun q hq => hcalls q (hq ▸ hmem)) hgrants hstep hbefore hafter
      · intro t ht
        rw [List.getElem?_eq_none hlater] at ht
        cases ht
  | succ n hin ih =>
      intro hnj
      obtain ⟨⟨r, hr⟩, hwatches⟩ := ih (by omega)
      rcases hmove n with heq | ⟨move, -, hgrants, hstep⟩
      · rw [heq]
        exact ⟨⟨r, hr⟩, hwatches⟩
      · have hn := hguarded n (by omega)
        have hoffers := hn.offers (hhands n)
        have hstays := hfresh n r (by omega) (by omega) hr
        have hshows : c.Shows (state j).world.now key (state n).world.disk :=
          ⟨⟨r, hr, hoffers.notLeap key r hr, hstays⟩, hoffers.isStored key r hr hstays⟩
        exact ⟨hn.keeps_record (hhands n) (hreaches n (by omega)) hgrants hstep hr hstays,
          watches_step hc hshows (hreaches n (by omega)) hwatches hstep⟩

/-- Calls of one cache at the same time, in any interleaving, starting with nothing in the folder,
on a disk that refuses nothing and under a clock that does not go back. A `get` returns nothing or
what some `put` of its key was handed. One that is called when a `put` of its key has returned, and
returns while every record of the key since then is fresh, returns something. Whenever no `put` and
no `sweep` is on its way, every record has a document of its size, the one that was put last. -/
theorem interleaving_safe (hc : c.isEnabled) (hstart : c.StartsBare w.disk)
    (hnow : w.now.isLeap = false) (hcalls : ∀ q, .call q ∈ moves → q.isMeasurable)
    (hsmooth : ({ world := w } : Throng CacheCall CacheAnswer).goesSmoothly c.job moves) :
    let state (n : Nat) : Throng CacheCall CacheAnswer :=
      Throng.after c.job { world := w } (moves.take n)
    (∀ j g key document, (state j).Answered g (.get key) (.get (some document)) →
      ∃ name, .call (.put key name document) ∈ moves.take j) ∧
    (∀ i j p g key name document found,
      ¬(state i).Answered p (.put key name document) (.put (.ok ())) →
      (state (i + 1)).Answered p (.put key name document) (.put (.ok ())) →
      (state (i + 1)).calls.length ≤ g → i < j → (state j).Answered g (.get key) (.get found) →
      (∀ n r, i < n → n ≤ j → (c.indexOn (state n).world.disk).find? key = some r →
        (c.toEntry key r).isFresh (state j).world.now) →
      found.isSome) ∧
    ∀ j, (∀ (n : Nat) q t, (state j).calls[n]? = some (q, t) → q.isChange → ∃ a, t = .done a) →
      ∀ key r, (c.indexOn (state j).world.disk).find? key = some r →
        ∃ document, (state j).world.disk.read (c.documentPath key) = .ok document ∧
          document.length = r.size ∧ lastPut key (state j).deeds = some document := by
  intro state
  have hguarded (j : Nat) :
      c.Guarded (HandedIn (moves.take j)) (state j).world.now (state j) := by
    have hinitial := List.take_prefix j moves
    exact guarded_after hc hstart hnow (fun q hq => hcalls q (hinitial.subset hq))
      (fun _ _ h => h) (.refl (Throng.reaches_after hnow _).stop)
      (Throng.goesSmoothly_of_prefix hinitial hsmooth)
  refine ⟨?_, ?_, ?_⟩
  · intro j g key document hget
    obtain ⟨stand, hends⟩ := (hguarded j).ends hget
    exact (hends.get key _ rfl rfl).isHanded rfl
  · intro i j p g key name document found hbefore hafter hlater hij hget hfresh
    obtain ⟨-, hwatches⟩ := watched_after hc hstart hnow hcalls hsmooth state rfl hbefore hafter
      hlater hfresh j hij (le_refl j)
    obtain ⟨x, hx⟩ := hwatches _ hget
    rw [CacheAnswer.get.inj hx]
    rfl
  · intro j hdone key r hr
    obtain ⟨document, hdocument, hsize, hlast⟩ := (hguarded j).settled hdone key r hr
    rw [documents_view (isKey_of_documents hdocument)] at hdocument
    exact ⟨document, Disk.toOption_eq_some.1 hdocument, hsize, hlast⟩

/-- A `put` is overtaken by a `get` between the moves of its document and of its index; a `sweep`
that waits at the gate goes between the two looks of a second `get`. -/
theorem interleaving_safe_overtaken :
    let c : Cache := { folder := "cache" }
    let w : World :=
      { disk := .empty, now := default, remote := scripted [] (.error .timeout),
        reading := fun _ => .zero }
    let moves : List (Move CacheCall) :=
      .call (.put "rune" "Rune" [60, 62]) :: List.replicate 5 (.act 0) ++
      [.call (.get "rune"), .act 1, .call .sweep, .act 2] ++ List.replicate 4 (.act 0) ++
      [.call (.get "rune"), .act 3] ++ List.replicate 4 (.act 2) ++ [.act 3, .act 3]
    let state (n : Nat) : Throng CacheCall CacheAnswer :=
      Throng.after c.job { world := w } (moves.take n)
    (∀ j g key document, (state j).Answered g (.get key) (.get (some document)) →
      ∃ name, .call (.put key name document) ∈ moves.take j) ∧
    (∀ i j p g key name document found,
      ¬(state i).Answered p (.put key name document) (.put (.ok ())) →
      (state (i + 1)).Answered p (.put key name document) (.put (.ok ())) →
      (state (i + 1)).calls.length ≤ g → i < j → (state j).Answered g (.get key) (.get found) →
      (∀ n r, i < n → n ≤ j → (c.indexOn (state n).world.disk).find? key = some r →
        (c.toEntry key r).isFresh (state j).world.now) →
      found.isSome) ∧
    ∀ j, (∀ (n : Nat) q t, (state j).calls[n]? = some (q, t) → q.isChange → ∃ a, t = .done a) →
      ∀ key r, (c.indexOn (state j).world.disk).find? key = some r →
        ∃ document, (state j).world.disk.read (c.documentPath key) = .ok document ∧
          document.length = r.size ∧ lastPut key (state j).deeds = some document := by
  have hstart : ({ folder := "cache" } : Cache).StartsBare .empty := by
    apply startsBare_of_missing
    · intro name p n hn
      cases hn
    · decide
    · intro p hp
      cases hp
  intro c w moves
  have hcalls : ∀ q, .call q ∈ moves → q.isMeasurable := by
    intro q hq
    simp [moves] at hq
    rcases hq with rfl | rfl | rfl | rfl
    · decide
    · rfl
    · rfl
    · rfl
  have hsmooth : ({ world := w } : Throng CacheCall CacheAnswer).goesSmoothly c.job moves := by
    decide +kernel
  exact interleaving_safe (c := c) (w := w) rfl hstart rfl hcalls hsmooth

end Cache

end StatAlmanac
