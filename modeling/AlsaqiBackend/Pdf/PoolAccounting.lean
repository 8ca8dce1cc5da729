import AlsaqiBackend.Pdf.PoolInvariant

/-!
# The account of the pool

`accounted_along_iff`: along a run every browser is given back exactly once, the borrowed browsers are
the ones that unfinished renders hold, none is lent more than fifty times, and a pool that drains can
finish as soon as the renders have, exactly when no step takes a lent browser out of use without giving
it back. Steps that do are the ends of renders, the crashes and the closing timer after `dispose`, when
`this.pool` is `null`, and the failing job whose browser had lost its connection before it was lent.

Over the invariant the account is that every lent browser is kept (`PoolInv.accounted_iff_kept`), and
`step_spec` says which steps keep that.
-/

namespace AlsaqiBackend.Pdf

open AlsaqiBackend.Lib PoolState

set_option linter.unusedSectionVars false

variable {B R : Type*} [DecidableEq B] [DecidableEq R]

/-! ## The steps -/

/-- The step takes no lent browser out of use without giving it back. -/
def PoolAction.Orderly (s : PoolState B R) : PoolAction B R → Prop
  -- a render ends
  | .attemptEnds r | .jobSucceeds r =>
    ∀ b ∈ (s.phase r).browser?, (s.browsers b).place = .lent → s.disposed = false
  | .jobFails r => ∀ b ∈ (s.phase r).browser?,
    (s.browsers b).place = .lent → s.disposed = false ∧ (s.browsers b).connected = true
  -- a browser is lost
  | .crash b => (s.browsers b).place = .lent → s.disposed = false
  | .timer => ∀ b ∈ s.made, (s.browsers b).place = .lent → (s.browsers b).renderCount = none
  | _ => True

instance (s : PoolState B R) : ∀ a : PoolAction B R, Decidable (a.Orderly s)
  | .attemptEnds r | .jobSucceeds r =>
    inferInstanceAs (Decidable (∀ b ∈ (s.phase r).browser?, (s.browsers b).place = .lent → s.disposed = false))
  | .jobFails r => inferInstanceAs (Decidable (∀ b ∈ (s.phase r).browser?,
    (s.browsers b).place = .lent → s.disposed = false ∧ (s.browsers b).connected = true))
  | .crash b => inferInstanceAs (Decidable ((s.browsers b).place = .lent → s.disposed = false))
  | .timer => inferInstanceAs
    (Decidable (∀ b ∈ s.made, (s.browsers b).place = .lent → (s.browsers b).renderCount = none))
  | .acquire _ | .create _ | .test _ | .untest _ | .lend _ _ | .expire _ | .resume _ | .retry _ | .dispose
  | .drained => inferInstanceAs (Decidable True)

theorem PoolInv.disposed_of_draining {s : PoolState B R} (h : PoolInv s) (hdraining : s.disposal = .draining) :
    s.disposed = true := by
  by_contra hopen
  have hpending := h.stage.2 (Bool.eq_false_of_not_eq_true hopen)
  simp [hdraining] at hpending

/-- A browser outside of the renders changes. -/
theorem PoolInv.outside {s : PoolState B R} {b : B} {x : Browser} (h : PoolInv s) (hok : x.Ok)
    (hknown : s.disposal ≠ .drained → x.connected = true → x.renderCount ≠ none)
    (hpool : s.hasPool = !s.disposed) (hlent : (s.browsers b).place ≠ .lent) (hgone : (s.browsers b).place ≠ .gone)
    (hx : x.place ≠ .lent) :
    PoolInv (s.setBrowser b x) ∧ ((∀ b', s.Kept b') → ∀ b', (s.setBrowser b x).Kept b') := by
  refine ⟨h.setBrowser hok hknown hpool fun r hr => absurd hr (h.not_carried hlent hgone r), fun hk => ?_⟩
  exact PoolInv.kept_of_not_lent hx hk

/-- While requests can be served the pool is there, or drains. -/
theorem PoolInv.not_drained {s : PoolState B R} (h : PoolInv s) (hpending : s.pending ≠ 0) :
    s.disposal ≠ .drained ∧ s.hasPool = !s.disposed := by
  obtain ⟨r, hr⟩ := Finset.card_ne_zero.1 hpending
  have hwaiting : (s.phase r).isWaiting = true := (Finset.mem_filter.1 hr).2
  constructor
  · intro hdrained
    simp [h.settled hdrained r] at hwaiting
  · refine h.asked r ?_ ?_ <;> intro hphase <;> simp [hphase, Phase.isWaiting] at hwaiting

/-- A step keeps the invariant, and the account exactly when it is orderly. -/
theorem step_spec {s t : PoolState B R} {a : PoolAction B R} (h : PoolInv s) (hst : step s a = some t) :
    PoolInv t ∧ ((∀ b, s.Kept b) → ((∀ b, t.Kept b) ↔ a.Orderly s)) := by
  -- Most steps keep every account.
  have hall : ∀ {t : PoolState B R}, PoolInv t ∧ ((∀ b, s.Kept b) → ∀ b, t.Kept b) →
      PoolInv t ∧ ((∀ b, s.Kept b) → ((∀ b, t.Kept b) ↔ True)) :=
    fun ht => ⟨ht.1, fun hk => iff_true_intro (ht.2 hk)⟩
  cases a with
  | acquire r =>
    obtain ⟨hr, hst⟩ := Option.ite_none_right_eq_some.1 hst
    obtain rfl := Option.some.inj hst
    exact hall (h.acquire hr)
  | create b =>
    obtain ⟨⟨hplace, -, hpending, -⟩, hst⟩ := Option.ite_none_right_eq_some.1 hst
    obtain rfl := Option.some.inj hst
    -- The three steps of an idle browser concern no render.
    refine hall (h.outside ((h.browser b).create hplace) (fun _ _ => by simp [Browser.create])
      (h.not_drained hpending).2 ?_ ?_ ?_) <;> simp [hplace, Browser.create]
  | test b =>
    obtain ⟨⟨hplace, hpending⟩, hst⟩ := Option.ite_none_right_eq_some.1 hst
    obtain rfl := Option.some.inj hst
    obtain ⟨hdrained, hpool⟩ := h.not_drained hpending
    have hknown := h.known hdrained b
    refine hall (h.outside ((h.browser b).test hplace hknown) (fun _ => ?_) hpool (by simp [hplace])
      (by simp [hplace]) ?_)
    · unfold Browser.test
      split
      · exact hknown
      · intro hconnected
        cases hconnected
    · unfold Browser.test
      split <;> simp [Browser.close]
  | untest b =>
    obtain ⟨hplace, hst⟩ := Option.ite_none_right_eq_some.1 hst
    obtain rfl := Option.some.inj hst
    refine hall (h.outside ((h.browser b).untest hplace) (fun hdrained => h.known hdrained b)
      (h.pool b (by simp [hplace])) ?_ ?_ ?_) <;> simp [hplace]
  | lend r b =>
    obtain ⟨hplace, hst⟩ := Option.ite_none_right_eq_some.1 hst
    -- The request is the first one of its render, or the second.
    split at hst
    · next hr =>
      obtain rfl := Option.some.inj hst
      exact hall (h.lend hplace (by simp [hr, Phase.isWaiting]) rfl rfl)
    · next hr =>
      obtain rfl := Option.some.inj hst
      exact hall (h.lend hplace (by simp [hr, Phase.isWaiting]) rfl rfl)
    · exact absurd hst.symm (Option.some_ne_none t)
  | expire r =>
    obtain ⟨hr, hst⟩ := Option.ite_none_right_eq_some.1 hst
    obtain rfl := Option.some.inj hst
    refine hall (h.giveUp ?_)
    cases hphase : s.phase r <;> simp_all [Phase.isWaiting, Phase.browser?]
  | resume r =>
    simp only [step] at hst
    split at hst
    · next b hr =>
      obtain rfl := Option.some.inj hst
      exact hall (h.resume hr)
    · exact absurd hst.symm (Option.some_ne_none t)
  | retry r =>
    simp only [step] at hst
    split at hst
    · next hr =>
      obtain rfl := Option.some.inj hst
      have hnone : (s.phase r).browser? = none := by simp [hr, Phase.browser?]
      split
      · next hpending =>
        exact hall (h.goOn hnone rfl (h.asked r (by simp [hr]) (by simp [hr])) (by simp [hpending]))
      · exact hall (h.giveUp hnone)
    · exact absurd hst.symm (Option.some_ne_none t)
  | crash b =>
    obtain ⟨hup, hst⟩ := Option.ite_none_right_eq_some.1 hst
    obtain rfl := Option.some.inj hst
    exact h.crash hup
  | attemptEnds r =>
    simp only [step] at hst
    split at hst
    · next b hr =>
      obtain rfl := Option.some.inj hst
      have hb : (s.phase r).browser? = some b := by simp [hr, Phase.browser?]
      simpa [PoolAction.Orderly, hb] using h.attemptEnds hb
    · exact absurd hst.symm (Option.some_ne_none t)
  | jobSucceeds r =>
    simp only [step] at hst
    split at hst
    · next b hr =>
      obtain rfl := Option.some.inj hst
      have hb : (s.phase r).browser? = some b := by simp [hr, Phase.browser?]
      -- The release of a job that has rendered ends like that of an attempt.
      rw [h.jobSucceeds_eq hb]
      simpa [PoolAction.Orderly, hb] using h.attemptEnds hb
    · exact absurd hst.symm (Option.some_ne_none t)
  | jobFails r =>
    have hb : ∃ b, (s.phase r).browser? = some b ∧ t = s.jobFails r b := by
      simp only [step] at hst
      split at hst
      · next b hr => exact ⟨b, by simp [hr, Phase.browser?], (Option.some.inj hst).symm⟩
      · next b hr => exact ⟨b, by simp [hr, Phase.browser?], (Option.some.inj hst).symm⟩
      · exact absurd hst.symm (Option.some_ne_none t)
    obtain ⟨b, hb, rfl⟩ := hb
    simpa [PoolAction.Orderly, hb] using h.jobFails hb
  | dispose =>
    obtain rfl := Option.some.inj hst
    exact hall h.dispose
  | drained =>
    obtain ⟨⟨hdraining, hdrained⟩, hst⟩ := Option.ite_none_right_eq_some.1 hst
    obtain rfl := Option.some.inj hst
    obtain ⟨hinv, hkept⟩ := h.clear hdrained (h.disposed_of_draining hdraining)
    exact hall ⟨hinv, fun _ => hkept⟩
  | timer =>
    obtain ⟨⟨hdraining, -⟩, hst⟩ := Option.ite_none_right_eq_some.1 hst
    obtain rfl := Option.some.inj hst
    exact h.forceClose hdraining (h.disposed_of_draining hdraining)

/-! ## The account -/

/-- The account of the pool in a state. -/
structure PoolState.Accounted (s : PoolState B R) : Prop where
  /-- Every browser has been given back as often as it has been lent, but for the render that holds it.
  -/
  returned : ∀ b,
    (s.browsers b).lends = (s.browsers b).returns + (s.unfinished.filter fun r => s.held r = some b).card
  borrowed : s.borrowed = (s.unfinished.filter fun r => (s.held r).isSome).card
  fifty : ∀ b, (s.browsers b).lends ≤ maxPagesPerInstance
  /-- Once the renders have finished, so has the drain. -/
  drains : s.disposal = .draining → s.unfinished = ∅ → s.isDrained = true

namespace PoolInv

variable {s : PoolState B R}

theorem mem_unfinished (h : PoolInv s) {r : R} {b : B} (hheld : s.held r = some b) : r ∈ s.unfinished := by
  have hb := (held_eq_some.1 hheld).1
  refine h.live r ?_ ?_ <;> intro hphase <;> simp [hphase, Phase.browser?] at hb

/-- A kept browser has one render while it is lent, and none otherwise. -/
theorem card_held (h : PoolInv s) {b : B} (hk : s.Kept b) :
    (s.unfinished.filter fun r => s.held r = some b).card = if (s.browsers b).place = .lent then 1 else 0 := by
  split
  · next hlent =>
    obtain ⟨r, hr⟩ := hk hlent
    -- The render that holds a lent browser is the only one.
    refine Finset.card_eq_one.2 ⟨r, Finset.eq_singleton_iff_unique_mem.2 ⟨?_, ?_⟩⟩
    · exact Finset.mem_filter.2 ⟨h.mem_unfinished hr, hr⟩
    · intro r' hr'
      exact h.unique r' r b (held_eq_some.1 (Finset.mem_filter.1 hr').2).1 (held_eq_some.1 hr).1
  · next hplace =>
    refine Finset.card_eq_zero.2 (Finset.filter_eq_empty_iff.2 fun r _ hr => hplace ?_)
    exact h.lent_of_held hr

/-- The lent browsers are the held ones, one for each render. -/
theorem borrowed_eq (h : PoolInv s) (hk : ∀ b, s.Kept b) :
    s.borrowed = (s.unfinished.filter fun r => (s.held r).isSome).card := by
  -- Each render that holds a browser is sent to it.
  refine (Finset.card_bij (fun r hr => (s.held r).get (Finset.mem_filter.1 hr).2) ?_ ?_ ?_).symm
  · intro r hr
    have hheld : s.held r = some ((s.held r).get (Finset.mem_filter.1 hr).2) := (Option.some_get _).symm
    have hlent := h.lent_of_held hheld
    exact Finset.mem_filter.2 ⟨h.made _ (by simp [hlent]), hlent⟩
  · intro r hr r' hr' heq
    have hheld : s.held r = some ((s.held r).get (Finset.mem_filter.1 hr).2) := (Option.some_get _).symm
    have hheld' : s.held r' = some ((s.held r).get (Finset.mem_filter.1 hr).2) := heq ▸ (Option.some_get _).symm
    exact h.unique r r' _ (held_eq_some.1 hheld).1 (held_eq_some.1 hheld').1
  · intro b hb
    obtain ⟨r, hr⟩ := hk b (Finset.mem_filter.1 hb).2
    refine ⟨r, Finset.mem_filter.2 ⟨h.mem_unfinished hr, by simp [hr]⟩, ?_⟩
    simp [hr]

/-- The account holds exactly when no lent browser is without a render. -/
theorem accounted_iff_kept (h : PoolInv s) : s.Accounted ↔ ∀ b, s.Kept b := by
  constructor
  · intro hs b hlent
    have hreturned := hs.returned b
    have hcounted := (h.browser b).counted
    rw [if_pos hlent] at hcounted
    -- The counters of a lent browser differ by one, which the account leaves to one render.
    have hone : (s.unfinished.filter fun r => s.held r = some b).card ≠ 0 := by omega
    obtain ⟨r, hr⟩ := Finset.card_ne_zero.1 hone
    exact ⟨r, (Finset.mem_filter.1 hr).2⟩
  · intro hk
    refine ⟨fun b => ?_, h.borrowed_eq hk, fun b => (h.browser b).fifty, fun _ hempty => ?_⟩
    · rw [h.card_held (hk b)]
      exact (h.browser b).counted
    -- Without unfinished renders no request waits, and a lent browser would have one.
    · refine h.isDrained_iff.2 ⟨fun r => ?_, fun b hlent => ?_⟩
      · have hr : r ∉ s.unfinished := by simp [hempty]
        by_contra hwaiting
        refine hr (h.live r ?_ ?_) <;> intro hphase <;> simp [hphase, Phase.isWaiting] at hwaiting
      · obtain ⟨r, hr⟩ := hk b hlent
        simpa [hempty] using h.mem_unfinished hr

end PoolInv

/-- From before the first request, the account holds along a run exactly when all its steps are orderly.
-/
theorem accounted_along_iff (as : List (PoolAction B R)) :
    Along step Accounted fresh as ↔ Guarded step (fun s a => a.Orderly s) (fresh : PoolState B R) as := by
  refine along_iff_guarded (I := PoolInv) (fun s a t hs hst => (step_spec hs hst).1) ?_ as PoolInv.fresh ?_
  · intro s a t hs hP hst
    obtain ⟨ht, hkept⟩ := step_spec hs hst
    rw [ht.accounted_iff_kept]
    exact hkept (hs.accounted_iff_kept.1 hP)
  · exact PoolInv.fresh.accounted_iff_kept.2 nofun

/-- A render is lent a browser, `dispose` is called, and the render ends: the browser stays borrowed, so
that the drain cannot finish. -/
theorem browser_not_returned :
    ¬∀ as : List (PoolAction ℕ ℕ), Along step Accounted (fresh : PoolState ℕ ℕ) as := by
  intro h
  have hlast := (h [.acquire 0, .create 0, .test 0, .lend 0 0, .resume 0, .dispose, .attemptEnds 0]).last
    (Option.some_get (by decide)).symm
  exact absurd hlast.borrowed (by decide)

end AlsaqiBackend.Pdf
