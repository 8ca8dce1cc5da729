import AlsaqiBackend.Pdf.BrowserPool

/-!
# The invariant of the pool of browsers

`PoolInv` holds in every state that a run reaches: the counters of each browser agree with its place
(`Browser.Ok`), a browser that a render has been handed is lent or has crashed while it was, and no two
renders have one browser. `Kept` says that a browser the pool still has lent is held by some render.

There is one lemma for each thing that can happen, to a browser outside of the renders, to a render, or
to both. It says that the invariant stays, and when the lent browsers stay kept.
-/

namespace AlsaqiBackend.Pdf

/-! ## One browser -/

/-- The invariant of a browser. -/
structure Browser.Ok (x : Browser) : Prop where
  /-- It has been lent once more than taken back while it is lent. -/
  counted : x.lends = x.returns + if x.place = .lent then 1 else 0
  fifty : x.lends ≤ maxPagesPerInstance
  unused : x.place = .unmade → x.lends = 0 ∧ x.connected = false
  tested : x.place = .testing → x.lends < maxPagesPerInstance
  /-- The count of renders has followed every lend but the one that lasts. -/
  rendered : ∀ n, x.renderCount = some n → x.lends ≤ n + if x.place = .lent then 1 else 0
  crashed : x.crashedLent = true → x.connected = false ∧ (x.place = .lent ∨ x.place = .gone)

namespace Browser

variable {x y : Browser}

theorem unmade_ok : unmade.Ok := ⟨rfl, Nat.zero_le _, fun _ => ⟨rfl, rfl⟩, nofun, nofun, nofun⟩

/-- A browser elsewhere than with a render has not crashed there. -/
theorem Ok.not_crashed (h : x.Ok) (hlent : x.place ≠ .lent) (hgone : x.place ≠ .gone) : x.crashedLent = false := by
  by_contra hc
  obtain ⟨-, hplace⟩ := h.crashed (Bool.eq_true_of_not_eq_false hc)
  exact hplace.elim hlent hgone

theorem Ok.create (h : x.Ok) (hplace : x.place = .unmade) : x.create.Ok where
  counted := by simpa [Browser.create, hplace] using h.counted
  fifty := h.fifty
  unused := nofun
  tested := nofun
  rendered := by simp [Browser.create, (h.unused hplace).1]
  crashed := by simp [Browser.create, h.not_crashed (by simp [hplace]) (by simp [hplace])]

/-- Closing a browser that is not lent. -/
theorem Ok.close (h : x.Ok) (hplace : x.place ≠ .lent) : x.close.Ok where
  counted := by simpa [Browser.close, hplace] using h.counted
  fifty := h.fifty
  unused := nofun
  tested := nofun
  rendered := nofun
  crashed := fun _ => ⟨rfl, Or.inr rfl⟩

/-- Validation lets only a browser through that has been lent less than fifty times, as its entry says.
-/
theorem Ok.test (h : x.Ok) (hplace : x.place = .idle) (hcount : x.connected = true → x.renderCount ≠ none) :
    x.test.Ok := by
  unfold Browser.test
  split
  · next hvalid =>
    obtain ⟨hconnected, hfew⟩ := Bool.and_eq_true_iff.1 hvalid
    obtain ⟨n, hn⟩ := Option.ne_none_iff_exists'.1 (hcount hconnected)
    -- The entry counts every lend of an idle browser, and is below fifty.
    have hlends : x.lends ≤ n := by simpa [hplace] using h.rendered n hn
    have hn50 : n < maxPagesPerInstance := by simpa [hn] using hfew
    constructor
    · simpa [hplace] using h.counted
    · exact h.fifty
    · nofun
    · exact fun _ => lt_of_le_of_lt hlends hn50
    · simpa [hplace] using h.rendered
    · simp [h.not_crashed (by simp [hplace]) (by simp [hplace])]
  · exact h.close (by simp [hplace])

theorem Ok.untest (h : x.Ok) (hplace : x.place = .testing) : ({ x with place := .idle } : Browser).Ok where
  counted := by simpa [hplace] using h.counted
  fifty := h.fifty
  unused := nofun
  tested := nofun
  rendered := by simpa [hplace] using h.rendered
  crashed := by simp [h.not_crashed (by simp [hplace]) (by simp [hplace])]

theorem Ok.lend (h : x.Ok) (hplace : x.place = .testing) : x.lend.Ok where
  counted := by
    have hcounted : x.lends = x.returns := by simpa [hplace] using h.counted
    simpa [Browser.lend] using hcounted
  fifty := h.tested hplace
  unused := nofun
  tested := nofun
  rendered := by
    intro n hn
    have hle : x.lends ≤ n := by simpa [hplace] using h.rendered n hn
    simpa [Browser.lend] using hle
  crashed := by simp [Browser.lend, h.not_crashed (by simp [hplace]) (by simp [hplace])]

/-- What the pool takes back has been lent. -/
theorem poolRelease_eq_some :
    x.poolRelease = some y ↔ x.place = .lent ∧ y = { x with place := .idle, returns := x.returns + 1 } := by
  unfold poolRelease
  split <;> simp_all [eq_comm]

theorem poolDestroy_eq_some :
    x.poolDestroy = some y ↔ x.place = .lent ∧ y = { x.close with returns := x.returns + 1 } := by
  unfold poolDestroy
  split <;> simp_all [eq_comm]

theorem poolDestroy_of_lent (hplace : x.place = .lent) :
    x.poolDestroy = some { x.close with returns := x.returns + 1 } := if_pos hplace

theorem poolDestroy_of_not_lent (hplace : x.place ≠ .lent) : x.poolDestroy = none := if_neg hplace

/-- A lent browser that is destroyed. -/
theorem Ok.destroyed (h : x.Ok) (hplace : x.place = .lent) :
    ({ x.close with returns := x.returns + 1 } : Browser).Ok where
  counted := by
    have hcounted : x.lends = x.returns + 1 := by simpa [hplace] using h.counted
    simpa [Browser.close] using hcounted
  fifty := h.fifty
  unused := nofun
  tested := nofun
  rendered := nofun
  crashed := fun _ => ⟨rfl, Or.inr rfl⟩

/-- And one that is destroyed if it is lent. -/
theorem Ok.poolDestroy (h : x.Ok) : (x.poolDestroy.getD x).Ok := by
  by_cases hplace : x.place = .lent
  · rw [poolDestroy_of_lent hplace]
    exact h.destroyed hplace
  · rw [poolDestroy_of_not_lent hplace]
    exact h

/-- A lent browser that loses its connection. -/
theorem Ok.down (h : x.Ok) : ({ x with
    connected := false, renderCount := none, crashedLent := x.crashedLent || x.place = .lent } : Browser).Ok where
  counted := h.counted
  fifty := h.fifty
  unused := fun hplace => ⟨(h.unused hplace).1, rfl⟩
  tested := h.tested
  rendered := nofun
  crashed := by
    intro hc
    obtain hc | hlent := (Bool.or_eq_true _ _).mp hc
    · exact ⟨rfl, (h.crashed hc).2⟩
    · exact ⟨rfl, Or.inl (of_decide_eq_true hlent)⟩

theorem Ok.disconnect (h : x.Ok) (hasPool : Bool) : (x.disconnect hasPool).Ok := by
  unfold Browser.disconnect
  split
  · exact h.down.poolDestroy
  · exact h.down

/-- A crash takes a browser back only through `this.pool`. -/
theorem disconnect_place (hasPool : Bool) (x : Browser) :
    (x.disconnect hasPool).place = .lent ↔ x.place = .lent ∧ hasPool = false := by
  unfold Browser.disconnect poolDestroy
  cases hasPool <;> by_cases hlent : x.place = .lent <;> simp [hlent, close]

theorem disconnect_crashedLent (hasPool : Bool) (x : Browser) :
    (x.disconnect hasPool).crashedLent = (x.crashedLent || x.place = .lent) := by
  unfold Browser.disconnect poolDestroy
  cases hasPool <;> by_cases hlent : x.place = .lent <;> simp [hlent, close]

theorem disconnect_connected (hasPool : Bool) (x : Browser) : (x.disconnect hasPool).connected = false := by
  unfold Browser.disconnect poolDestroy
  cases hasPool <;> by_cases hlent : x.place = .lent <;> simp [hlent, close]

theorem Ok.release (h : x.Ok) (hasPool : Bool) : (x.release hasPool).1.Ok := by
  have hcounted : ({ x with renderCount := x.renderCount.map (· + 1) } : Browser).Ok := by
    refine ⟨h.counted, h.fifty, h.unused, h.tested, ?_, h.crashed⟩
    intro n hn
    obtain ⟨m, hm, rfl⟩ := Option.map_eq_some_iff.1 hn
    -- The count goes up, and the number of lends does not.
    have hle := h.rendered m hm
    show x.lends ≤ m + 1 + if x.place = .lent then 1 else 0
    omega
  unfold Browser.release
  split
  · exact h
  split
  · have hforgotten : ({ x with renderCount := none } : Browser).Ok :=
      ⟨h.counted, h.fifty, h.unused, h.tested, nofun, h.crashed⟩
    exact hforgotten.poolDestroy
  next hconnected =>
  dsimp only
  split
  · next y hy =>
    obtain ⟨hlent, rfl⟩ := poolRelease_eq_some.1 hy
    have hlent' : x.place = .lent := hlent
    have hup : x.connected = true := by simpa using hconnected
    -- A connected browser has not crashed.
    have hcrashed : x.crashedLent = false := by
      by_contra hc
      exact absurd (h.crashed (Bool.eq_true_of_not_eq_false hc)).1 (by simp [hup])
    constructor
    · simpa [hlent'] using h.counted
    · exact h.fifty
    · nofun
    · nofun
    · intro n hn
      obtain ⟨m, hm, rfl⟩ := Option.map_eq_some_iff.1 hn
      simpa [hlent'] using h.rendered m hm
    · simp [hcrashed]
  · exact hcounted

/-- `release` takes a lent browser back exactly when `this.pool` is there. -/
theorem release_place (hasPool : Bool) (x : Browser) :
    (x.release hasPool).1.place = .lent ↔ x.place = .lent ∧ hasPool = false := by
  unfold Browser.release poolDestroy poolRelease
  cases hasPool <;> cases x.connected <;> by_cases hlent : x.place = .lent <;> simp [hlent, close]

theorem release_known (hasPool : Bool) (h : x.connected = true → x.renderCount ≠ none)
    (hup : (x.release hasPool).1.connected = true) : (x.release hasPool).1.renderCount ≠ none := by
  revert hup
  unfold Browser.release poolDestroy poolRelease
  cases hasPool <;> cases hx : x.connected <;> by_cases hlent : x.place = .lent <;> simp_all [close]

/-- A lent browser is never rejected. -/
theorem release_outcome (hasPool : Bool) (h : x.place = .lent ∨ x.connected = false) :
    (x.release hasPool).2 ≠ .rejected := by
  unfold Browser.release poolDestroy poolRelease
  cases hasPool <;> cases hx : x.connected <;> by_cases hlent : x.place = .lent <;> simp_all

end Browser

/-! ## All browsers and renders -/

set_option linter.unusedSectionVars false

variable {B R : Type*} [DecidableEq B] [DecidableEq R]

namespace PoolState

/-- The browser that the render holds: the one it has been handed, unless that has crashed while it was
lent. -/
def held (s : PoolState B R) (r : R) : Option B :=
  (s.phase r).browser?.filter fun b => !(s.browsers b).crashedLent

/-- If the pool still has the browser lent, a render holds it. -/
def Kept (s : PoolState B R) (b : B) : Prop := (s.browsers b).place = .lent → ∃ r, s.held r = some b

end PoolState

/-- What holds in every state that a run reaches. -/
structure PoolInv (s : PoolState B R) : Prop where
  browser : ∀ b, (s.browsers b).Ok
  made : ∀ b, (s.browsers b).place ≠ .unmade → b ∈ s.made
  /-- A connected browser has its entry, as long as requests can be served. -/
  known : s.disposal ≠ .drained → ∀ b, (s.browsers b).connected = true → (s.browsers b).renderCount ≠ none
  live : ∀ r, s.phase r ≠ .unborn → s.phase r ≠ .over → r ∈ s.unfinished
  /-- A browser that has been handed to a render is lent, or has crashed. -/
  carried : ∀ r b, (s.phase r).browser? = some b →
    (s.browsers b).place = .lent ∨ (s.browsers b).crashedLent = true
  unique : ∀ r r' b, (s.phase r).browser? = some b → (s.phase r').browser? = some b → r = r'
  settled : s.disposal = .drained → ∀ r, (s.phase r).isWaiting = false
  stage : s.disposal = .pending ↔ s.disposed = false
  closed : s.disposed = true → s.hasPool = false
  pool : ∀ b, (s.browsers b).place ≠ .unmade → s.hasPool = !s.disposed
  asked : ∀ r, s.phase r ≠ .unborn → s.phase r ≠ .over → s.hasPool = !s.disposed

namespace PoolState

variable {s : PoolState B R} {b b' : B} {r r' : R} {x : Browser} {p : Phase B}

theorem held_eq_some : s.held r = some b ↔ (s.phase r).browser? = some b ∧ (s.browsers b).crashedLent = false := by
  simp [held, Option.filter_eq_some_iff]

@[simp] theorem setBrowser_browsers : (s.setBrowser b x).browsers = Function.update s.browsers b x := rfl

@[simp] theorem setPhase_browsers : (s.setPhase r p).browsers = s.browsers := rfl

@[simp] theorem finish_browsers : (s.finish r).browsers = s.browsers := rfl

@[simp] theorem setBrowser_phase : (s.setBrowser b x).phase = s.phase := rfl

theorem kept_setBrowser (hne : b' ≠ b) : (s.setBrowser b x).Kept b' ↔ s.Kept b' := by
  simp [Kept, held_eq_some, hne]

theorem kept_setPhase (hheld : (s.setPhase r p).held r = some b ↔ s.held r = some b) :
    (s.setPhase r p).Kept b ↔ s.Kept b := by
  refine imp_congr Iff.rfl (exists_congr fun r' => ?_)
  by_cases hr : r' = r
  · rw [hr]
    exact hheld
  · simp [held_eq_some, setPhase, hr]

theorem kept_finish (hheld : s.held r ≠ some b) : (s.finish r).Kept b ↔ s.Kept b := by
  refine imp_congr Iff.rfl (exists_congr fun r' => ?_)
  by_cases hr : r' = r
  · rw [hr]
    exact iff_of_false (by simp [held_eq_some, finish, Phase.browser?]) hheld
  · simp [held_eq_some, finish, hr]

end PoolState

open PoolState

namespace PoolInv

variable {s : PoolState B R} {b : B} {r : R} {x : Browser} {p : Phase B}

theorem fresh : PoolInv (PoolState.fresh : PoolState B R) where
  browser := fun _ => Browser.unmade_ok
  made := fun _ h => absurd rfl h
  known := nofun
  live := fun _ h => absurd rfl h
  carried := nofun
  unique := nofun
  settled := nofun
  stage := ⟨fun _ => rfl, fun _ => rfl⟩
  closed := nofun
  pool := fun _ h => absurd rfl h
  asked := fun _ h => absurd rfl h

/-- One browser changes. -/
theorem setBrowser (h : PoolInv s) (hx : x.Ok)
    (hknown : s.disposal ≠ .drained → x.connected = true → x.renderCount ≠ none)
    (hpool : s.hasPool = !s.disposed)
    (hcarried : ∀ r, (s.phase r).browser? = some b → x.place = .lent ∨ x.crashedLent = true) :
    PoolInv (s.setBrowser b x) where
  browser := by
    intro b'
    obtain rfl | hne := eq_or_ne b' b
    · simpa using hx
    · simpa [hne] using h.browser b'
  made := by
    intro b' hb'
    obtain rfl | hne := eq_or_ne b' b
    · exact Finset.mem_insert_self b' s.made
    · exact Finset.mem_insert_of_mem (h.made b' (by simpa [hne] using hb'))
  known := by
    intro hdrained b'
    obtain rfl | hne := eq_or_ne b' b
    · simpa using hknown hdrained
    · simpa [hne] using h.known hdrained b'
  live := h.live
  carried := by
    intro r b' hb'
    obtain rfl | hne := eq_or_ne b' b
    · simpa using hcarried r hb'
    · simpa [hne] using h.carried r b' hb'
  unique := h.unique
  settled := h.settled
  stage := h.stage
  closed := h.closed
  pool := fun _ _ => hpool
  asked := h.asked

/-- One render goes on. -/
theorem setPhase (h : PoolInv s) (hasked : p ≠ .over → s.hasPool = !s.disposed)
    (hwaiting : p.isWaiting = true → s.disposal ≠ .drained)
    (hcarried : ∀ b, p.browser? = some b → ((s.browsers b).place = .lent ∨ (s.browsers b).crashedLent = true) ∧
      ∀ r', (s.phase r').browser? = some b → r' = r) :
    PoolInv (s.setPhase r p) where
  browser := h.browser
  made := h.made
  known := h.known
  live := by
    intro r' hunborn hover
    obtain rfl | hne := eq_or_ne r' r
    · exact Finset.mem_insert_self r' s.unfinished
    · simp only [PoolState.setPhase, Function.update_of_ne hne] at hunborn hover
      exact Finset.mem_insert_of_mem (h.live r' hunborn hover)
  carried := by
    intro r' b hb
    obtain rfl | hne := eq_or_ne r' r
    · exact (hcarried b (by simpa [PoolState.setPhase] using hb)).1
    · exact h.carried r' b (by simpa [PoolState.setPhase, hne] using hb)
  unique := by
    intro r₁ r₂ b h₁ h₂
    simp only [PoolState.setPhase, Function.update_apply] at h₁ h₂
    -- One of the two renders may be the one that goes on.
    split at h₁ <;> split at h₂
    · next e₁ e₂ => rw [e₁, e₂]
    · next e₁ _ => rw [e₁, (hcarried b h₁).2 r₂ h₂]
    · next _ e₂ => rw [e₂, (hcarried b h₂).2 r₁ h₁]
    · exact h.unique r₁ r₂ b h₁ h₂
  settled := by
    intro hdrained r'
    obtain rfl | hne := eq_or_ne r' r
    · have hp : p.isWaiting = false := by
        by_contra hw
        exact hwaiting (Bool.eq_true_of_not_eq_false hw) hdrained
      simpa [PoolState.setPhase] using hp
    · simpa [PoolState.setPhase, hne] using h.settled hdrained r'
  stage := h.stage
  closed := h.closed
  pool := h.pool
  asked := by
    intro r' hunborn hover
    obtain rfl | hne := eq_or_ne r' r
    · exact hasked (by simpa [PoolState.setPhase] using hover)
    · simp only [PoolState.setPhase, Function.update_of_ne hne] at hunborn hover
      exact h.asked r' hunborn hover

theorem finish (h : PoolInv s) (r : R) : PoolInv (s.finish r) := by
  -- The end of a render is a phase without a browser, and takes it from the unfinished ones.
  have hover : PoolInv (s.setPhase r .over) := h.setPhase (absurd rfl) nofun nofun
  refine { hover with live := ?_ }
  intro r' hunborn hover
  have hne : r' ≠ r := by
    rintro rfl
    exact hover (by simp [PoolState.finish])
  simp only [PoolState.finish, Function.update_of_ne hne] at hunborn hover
  exact Finset.mem_erase.2 ⟨hne, h.live r' hunborn hover⟩

/-- A browser that has been handed to a render was made for it by the pool. -/
theorem made_of_carried (h : PoolInv s) (hb : (s.phase r).browser? = some b) :
    (s.browsers b).place = .lent ∨ (s.browsers b).place = .gone := by
  obtain hlent | hcrashed := h.carried r b hb
  · exact Or.inl hlent
  · exact ((h.browser b).crashed hcrashed).2

theorem hasPool_of_carried (h : PoolInv s) (hb : (s.phase r).browser? = some b) : s.hasPool = !s.disposed := by
  refine h.pool b ?_
  obtain hplace | hplace := h.made_of_carried hb <;> simp [hplace]

/-- A browser that is not with a render has been handed to none. -/
theorem not_carried (h : PoolInv s) (hlent : (s.browsers b).place ≠ .lent) (hgone : (s.browsers b).place ≠ .gone)
    (r : R) : (s.phase r).browser? ≠ some b := by
  intro hb
  exact (h.made_of_carried hb).elim hlent hgone

/-- The browser of a render is lent exactly when the render holds it. -/
theorem lent_of_held (h : PoolInv s) (hheld : s.held r = some b) : (s.browsers b).place = .lent := by
  obtain ⟨hb, hcrashed⟩ := held_eq_some.1 hheld
  refine (h.carried r b hb).resolve_right ?_
  simp [hcrashed]

/-- A render does not hold the browser that it was handed once the pool does not lend it. -/
theorem held_eq_none (h : PoolInv s) (hb : (s.phase r).browser? = some b) (hplace : (s.browsers b).place ≠ .lent) :
    s.held r = none := by
  by_contra hheld
  obtain ⟨b', hb'⟩ := Option.ne_none_iff_exists'.1 hheld
  obtain rfl := Option.some.inj ((held_eq_some.1 hb').1.symm.trans hb)
  exact hplace (h.lent_of_held hb')

/-! ### What the steps keep -/

/-- A browser that the pool does not lend changes into another one. -/
theorem kept_of_not_lent (hplace : x.place ≠ .lent) (hk : ∀ b', s.Kept b') (b' : B) :
    (s.setBrowser b x).Kept b' := by
  obtain rfl | hne := eq_or_ne b' b
  · intro hlent
    exact absurd (by simpa using hlent) hplace
  · exact (kept_setBrowser hne).2 (hk b')

/-- A render stops having its browser, which changes: nothing is lost if the pool does not lend it any
more. -/
theorem kept_drop {s₀ : PoolState B R} (hb : (s.phase r).browser? = some b)
    (hnone : ∀ r', (s₀.phase r').browser? ≠ some b)
    (hrest : ∀ b', s.held r ≠ some b' → (s₀.Kept b' ↔ s.Kept b')) (hk : ∀ b', s.Kept b') :
    (∀ b', (s₀.setBrowser b x).Kept b') ↔ x.place ≠ .lent := by
  constructor
  -- A lent browser that nobody has is lost.
  · intro hkept hlent
    obtain ⟨r', hr'⟩ := hkept b (by simpa using hlent)
    exact hnone r' (held_eq_some.1 hr').1
  · intro hplace b'
    obtain rfl | hne := eq_or_ne b' b
    · intro hlent
      exact absurd (by simpa using hlent) hplace
    -- The render held no other browser.
    · refine (kept_setBrowser hne).2 ((hrest b' fun hheld => hne ?_).2 (hk b'))
      exact Option.some.inj ((held_eq_some.1 hheld).1.symm.trans hb)

/-- After the end of a render nobody has its browser. -/
theorem finish_browser (h : PoolInv s) (hb : (s.phase r).browser? = some b) (r' : R) :
    ((s.finish r).phase r').browser? ≠ some b := by
  intro hb'
  obtain rfl | hne := eq_or_ne r' r
  · simp [PoolState.finish, Phase.browser?] at hb'
  · exact hne (h.unique r' r b (by simpa [PoolState.finish, hne] using hb') hb)

/-- A caller that calls `release` and is over keeps the account exactly when `this.pool` is there for
what is lent. -/
theorem attemptEnds (h : PoolInv s) (hb : (s.phase r).browser? = some b) :
    PoolInv (s.attemptEnds r b) ∧ ((∀ b', s.Kept b') →
      ((∀ b', (s.attemptEnds r b).Kept b') ↔ ((s.browsers b).place = .lent → s.disposed = false))) := by
  have hpool := h.hasPool_of_carried hb
  have hnone := h.finish_browser hb
  -- the end of the render and the change of the browser commute
  have hswap : s.attemptEnds r b = (s.finish r).setBrowser b ((s.browsers b).release s.hasPool).1 := rfl
  rw [hswap]
  constructor
  · refine (h.finish r).setBrowser ((h.browser b).release s.hasPool) ?_ hpool fun r' hr' => absurd hr' (hnone r')
    intro hdrained
    exact Browser.release_known s.hasPool (h.known hdrained b)
  · intro hk
    rw [kept_drop hb hnone (fun b' => kept_finish) hk, ne_eq, Browser.release_place, hpool]
    simp

/-- The release of a job is not rejected, so that a job that has rendered ends like an attempt. -/
theorem jobSucceeds_eq (h : PoolInv s) (hb : (s.phase r).browser? = some b) :
    s.jobSucceeds r b = s.attemptEnds r b := by
  have houtcome : ((s.browsers b).release s.hasPool).2 ≠ .rejected := by
    refine Browser.release_outcome s.hasPool ?_
    obtain hlent | hcrashed := h.carried r b hb
    · exact Or.inl hlent
    · exact Or.inr ((h.browser b).crashed hcrashed).1
  unfold PoolState.jobSucceeds
  dsimp only
  split
  · next hrejected => exact absurd hrejected houtcome
  · rfl

/-- A render that is over without `release` loses the browser that it holds. -/
theorem kept_finish_iff (h : PoolInv s) (hk : ∀ b', s.Kept b') :
    (∀ b', (s.finish r).Kept b') ↔ s.held r = none := by
  constructor
  · intro hkept
    by_contra hheld
    obtain ⟨b, hb⟩ := Option.ne_none_iff_exists'.1 hheld
    obtain ⟨r', hr'⟩ := hkept b (h.lent_of_held hb)
    exact h.finish_browser (held_eq_some.1 hb).1 r' (held_eq_some.1 hr').1
  · intro hnone b'
    exact (kept_finish (by simp [hnone])).2 (hk b')

theorem jobFails (h : PoolInv s) (hb : (s.phase r).browser? = some b) :
    PoolInv (s.jobFails r b) ∧ ((∀ b', s.Kept b') → ((∀ b', (s.jobFails r b).Kept b') ↔
      ((s.browsers b).place = .lent → s.disposed = false ∧ (s.browsers b).connected = true))) := by
  unfold PoolState.jobFails
  split
  · next hdown =>
    have hdown' : (s.browsers b).connected = false := by simpa using hdown
    refine ⟨h.finish r, fun hk => ?_⟩
    -- A browser that is down and still lent had crashed before it was lent.
    have hheld : s.held r = none ↔ (s.browsers b).place ≠ .lent := by
      constructor
      · intro hnone hlent
        obtain ⟨r', hr'⟩ := hk b hlent
        obtain rfl := h.unique r' r b (held_eq_some.1 hr').1 hb
        simp [hnone] at hr'
      · exact h.held_eq_none hb
    rw [h.kept_finish_iff hk, hheld]
    simp [hdown']
  · next hup =>
    have hup' : (s.browsers b).connected = true := by simpa using hup
    simpa [hup'] using h.attemptEnds hb

/-- `BrowserPool.acquire` destroys the browser that is not connected, with the pool it has at hand. -/
theorem resume (h : PoolInv s) (hb : s.phase r = .handed b) :
    PoolInv (s.resume r b) ∧ ((∀ b', s.Kept b') → ∀ b', (s.resume r b).Kept b') := by
  have hbrowser : (s.phase r).browser? = some b := by rw [hb, Phase.browser?]
  unfold PoolState.resume
  split
  · constructor
    · refine h.setPhase (fun _ => h.hasPool_of_carried hbrowser) nofun ?_
      rintro b' ⟨⟩
      exact ⟨h.carried r b hbrowser, fun r' hr' => h.unique r' r b hr' hbrowser⟩
    · intro hk b'
      refine (kept_setPhase ?_).2 (hk b')
      simp [held_eq_some, PoolState.setPhase, hb, Phase.browser?]
  split
  · next x hx =>
    obtain ⟨hlent, rfl⟩ := Browser.poolDestroy_eq_some.1 hx
    have hnone : ∀ r', ((s.setPhase r .retrying).phase r').browser? ≠ some b := by
      intro r' hr'
      obtain rfl | hne := eq_or_ne r' r
      · simp [PoolState.setPhase, Phase.browser?] at hr'
      · exact hne (h.unique r' r b (by simpa [PoolState.setPhase, hne] using hr') hbrowser)
    have hretrying : PoolInv (s.setPhase r .retrying) :=
      h.setPhase (fun _ => h.hasPool_of_carried hbrowser) nofun nofun
    -- the destroyed browser is the same before and after the render goes on
    rw [show ∀ y, (s.setBrowser b y).setPhase r .retrying = (s.setPhase r .retrying).setBrowser b y from fun _ => rfl]
    constructor
    · exact hretrying.setBrowser ((h.browser b).destroyed hlent) nofun (h.hasPool_of_carried hbrowser)
        fun r' hr' => absurd hr' (hnone r')
    · intro hk
      refine (kept_drop hbrowser hnone (fun b' hheld => kept_setPhase ?_) hk).2 (by simp [Browser.close])
      exact iff_of_false (by simp [held_eq_some, PoolState.setPhase, Phase.browser?]) hheld
  · next hdestroy =>
    -- `pool.destroy` rejects only what is not lent.
    refine ⟨h.finish r, fun hk => (h.kept_finish_iff hk).2 (h.held_eq_none hbrowser fun hlent => ?_)⟩
    rw [Browser.poolDestroy_of_lent hlent] at hdestroy
    exact absurd hdestroy (Option.some_ne_none _)

/-- A crash keeps the account where the event can destroy the browser, or the pool does not lend it. -/
theorem crash (h : PoolInv s) (hup : (s.browsers b).connected = true) :
    PoolInv (s.setBrowser b ((s.browsers b).disconnect s.hasPool)) ∧ ((∀ b', s.Kept b') →
      ((∀ b', (s.setBrowser b ((s.browsers b).disconnect s.hasPool)).Kept b') ↔
        ((s.browsers b).place = .lent → s.disposed = false))) := by
  have hmade : (s.browsers b).place ≠ .unmade := by
    intro hplace
    simp [((h.browser b).unused hplace).2] at hup
  have hpool := h.pool b hmade
  have hdown := Browser.disconnect_connected s.hasPool (s.browsers b)
  constructor
  · refine h.setBrowser ((h.browser b).disconnect s.hasPool) (by simp [hdown]) hpool fun r hr => Or.inr ?_
    obtain hlent | hcrashed := h.carried r b hr
    · simp [Browser.disconnect_crashedLent, hlent]
    · simp [Browser.disconnect_crashedLent, hcrashed]
  · intro hk
    -- a lent browser that has crashed is held by nobody
    have hkept : (s.setBrowser b ((s.browsers b).disconnect s.hasPool)).Kept b ↔
        ((s.browsers b).place = .lent → s.disposed = false) := by
      simp only [Kept, setBrowser_browsers, Function.update_self, Browser.disconnect_place, held_eq_some,
        Browser.disconnect_crashedLent, hpool]
      constructor
      · intro hlost hlent
        by_contra hd
        obtain ⟨r, -, hr⟩ := hlost ⟨hlent, by simp [hd]⟩
        simp [hlent] at hr
      · rintro hgood ⟨hlent, hd⟩
        simp [hgood hlent] at hd
    rw [← hkept]
    constructor
    · exact fun hall => hall b
    · intro hb b'
      obtain rfl | hne := eq_or_ne b' b
      · exact hb
      · exact (kept_setBrowser hne).2 (hk b')

/-- A browser is lent to a request. -/
theorem lend (h : PoolInv s) (hplace : (s.browsers b).place = .testing) (hr : (s.phase r).isWaiting = true)
    (hp : p.browser? = some b) (hwait : p.isWaiting = false) :
    PoolInv ((s.setBrowser b (s.browsers b).lend).setPhase r p) ∧ ((∀ b', s.Kept b') →
      ∀ b', ((s.setBrowser b (s.browsers b).lend).setPhase r p).Kept b') := by
  have hnone : ∀ r', (s.phase r').browser? ≠ some b := h.not_carried (by simp [hplace]) (by simp [hplace])
  have hcrashed : (s.browsers b).crashedLent = false :=
    (h.browser b).not_crashed (by simp [hplace]) (by simp [hplace])
  have hlent : PoolInv (s.setBrowser b (s.browsers b).lend) := by
    refine h.setBrowser ((h.browser b).lend hplace) (fun hdrained => h.known hdrained b)
      (h.pool b (by simp [hplace])) fun r' hr' => absurd hr' (hnone r')
  constructor
  · refine hlent.setPhase (fun _ => h.pool b (by simp [hplace])) (by simp [hwait]) ?_
    intro b' hb'
    obtain rfl := Option.some.inj (hb'.symm.trans hp)
    exact ⟨Or.inl (by simp [Browser.lend]), fun r' hr' => absurd hr' (hnone r')⟩
  · intro hk b'
    obtain rfl | hne := eq_or_ne b' b
    · intro _
      refine ⟨r, held_eq_some.2 ⟨?_, ?_⟩⟩
      · simpa [PoolState.setPhase] using hp
      · simpa [Browser.lend] using hcrashed
    · refine (kept_setPhase ?_).2 ((kept_setBrowser hne).2 (hk b'))
      -- Another browser is not the one that the waiting render gets.
      have hbefore : (s.phase r).browser? ≠ some b' := by
        intro hb'
        cases hphase : s.phase r <;> simp_all [Phase.browser?, Phase.isWaiting]
      refine iff_of_false ?_ (by simp [held_eq_some, hbefore])
      simp [held_eq_some, PoolState.setPhase, hp, hne.symm]

/-- A render without a browser goes on to a phase without one, or is over. -/
theorem goOn (h : PoolInv s) (hr : (s.phase r).browser? = none) (hp : p.browser? = none)
    (hasked : s.hasPool = !s.disposed) (hwait : p.isWaiting = true → s.disposal ≠ .drained) :
    PoolInv (s.setPhase r p) ∧ ((∀ b', s.Kept b') → ∀ b', (s.setPhase r p).Kept b') := by
  refine ⟨h.setPhase (fun _ => hasked) hwait (by simp [hp]), fun hk b' => (kept_setPhase ?_).2 (hk b')⟩
  exact iff_of_false (by simp [held_eq_some, PoolState.setPhase, hp]) (by simp [held_eq_some, hr])

theorem giveUp (h : PoolInv s) (hr : (s.phase r).browser? = none) :
    PoolInv (s.finish r) ∧ ((∀ b', s.Kept b') → ∀ b', (s.finish r).Kept b') :=
  ⟨h.finish r, fun hk => (h.kept_finish_iff hk).2 (by simp [PoolState.held, hr])⟩

theorem acquire (h : PoolInv s) (hr : s.phase r = .unborn) :
    PoolInv (s.acquire r) ∧ ((∀ b', s.Kept b') → ∀ b', (s.acquire r).Kept b') := by
  have hnone : (s.phase r).browser? = none := by simp [hr, Phase.browser?]
  unfold PoolState.acquire
  split
  · exact h.giveUp hnone
  · next hopen =>
    have hopen' : s.disposed = false := by simpa using hopen
    -- `ensurePool` creates the pool before the wrapper is disposed, and not after it.
    have hpool : PoolInv { s with hasPool := true } :=
      { h with
        closed := fun hdisposed => absurd hdisposed hopen
        pool := fun _ _ => by simp [hopen']
        asked := fun _ _ _ => by simp [hopen'] }
    exact hpool.goOn (p := .waiting false) hnone rfl (by simp [hopen']) fun _ => by simp [h.stage.2 hopen']

theorem dispose (h : PoolInv s) : PoolInv s.dispose ∧ ((∀ b', s.Kept b') → ∀ b', s.dispose.Kept b') := by
  unfold PoolState.dispose
  split
  · exact ⟨h, id⟩
  next hopen =>
  have hopen' : s.disposed = false := by simpa using hopen
  split
  · next hempty =>
    -- no pool, no render and no browser
    have hunmade : ∀ b, (s.browsers b).place = .unmade := by
      intro b
      by_contra hb
      simp [h.pool b hb, hopen'] at hempty
    have hidle : ∀ r, s.phase r = .unborn ∨ s.phase r = .over := by
      intro r
      by_contra hlive
      obtain ⟨hunborn, hover⟩ := not_or.1 hlive
      simp [h.asked r hunborn hover, hopen'] at hempty
    refine ⟨⟨h.browser, h.made, fun hdrained => absurd rfl hdrained, h.live, h.carried, h.unique,
      ?_, ?_, ?_, ?_, ?_⟩, id⟩
    · intro _ r
      obtain hr | hr := hidle r <;> simp [hr, Phase.isWaiting]
    · simp
    · simpa using hempty
    · exact fun b hb => absurd (hunmade b) hb
    · intro r hunborn hover
      exact absurd (hidle r) (not_or.2 ⟨hunborn, hover⟩)
  · refine ⟨⟨h.browser, h.made, fun _ => h.known (by simp [h.stage.2 hopen']), h.live, h.carried, h.unique, nofun,
      ?_, fun _ => rfl, fun _ _ => rfl, fun _ _ _ => rfl⟩, id⟩
    simp

/-- Nothing is lent, and no request waits, when the pool has drained. -/
theorem isDrained_iff (h : PoolInv s) :
    s.isDrained = true ↔ (∀ r, (s.phase r).isWaiting = false) ∧ ∀ b, (s.browsers b).place ≠ .lent := by
  rw [isDrained, Bool.and_eq_true, decide_eq_true_iff, decide_eq_true_iff]
  refine and_congr ?_ ?_
  · rw [pending, Finset.card_eq_zero, Finset.filter_eq_empty_iff]
    constructor
    · intro hnone r
      by_contra hr
      -- What waits is among the unfinished renders, which `pending` counts.
      have hlive : r ∈ s.unfinished := by
        refine h.live r ?_ ?_ <;> rintro hphase <;> simp [hphase, Phase.isWaiting] at hr
      exact hnone hlive (Bool.eq_true_of_not_eq_false hr)
    · intro hnone r _
      simp [hnone r]
  · rw [borrowed, Finset.card_eq_zero, Finset.filter_eq_empty_iff]
    constructor
    · intro hnone b hlent
      exact hnone (h.made b (by simp [hlent])) hlent
    · exact fun hnone b _ => hnone b

theorem clear (h : PoolInv s) (hdrained : s.isDrained = true) (hdisposed : s.disposed = true) :
    PoolInv s.clear ∧ ∀ b', s.clear.Kept b' := by
  obtain ⟨hwaiting, hlent⟩ := h.isDrained_iff.1 hdrained
  -- Each browser is closed, or only loses its entry.
  have hplace : ∀ b, (s.browsers b).place = .idle ∧ s.clear.browsers b = (s.browsers b).close ∨
      s.clear.browsers b = { s.browsers b with renderCount := none } := by
    intro b
    by_cases hidle : (s.browsers b).place = .idle
    · exact Or.inl ⟨hidle, if_pos hidle⟩
    · exact Or.inr (if_neg hidle)
  constructor
  · refine ⟨?_, ?_, fun hd => absurd rfl hd, h.live, ?_, h.unique, fun _ => hwaiting, ?_, h.closed, ?_, h.asked⟩
    · intro b
      obtain ⟨-, hb⟩ | hb := hplace b
      · exact hb ▸ (h.browser b).close (hlent b)
      · have hok := h.browser b
        exact hb ▸ ⟨hok.counted, hok.fifty, hok.unused, hok.tested, nofun, hok.crashed⟩
    · intro b hb
      obtain ⟨hidle, -⟩ | hrest := hplace b
      · exact h.made b (by simp [hidle])
      · exact h.made b (by simpa [hrest] using hb)
    · intro r b hb
      have hcrashed := (h.carried r b hb).resolve_left (hlent b)
      obtain ⟨-, hrest⟩ | hrest := hplace b
      · exact Or.inr (by simpa [hrest, Browser.close] using hcrashed)
      · exact Or.inr (by simpa [hrest] using hcrashed)
    · show Disposal.drained = .pending ↔ s.disposed = false
      simp [hdisposed]
    · intro b hb
      obtain ⟨hidle, -⟩ | hrest := hplace b
      · exact h.pool b (by simp [hidle])
      · exact h.pool b (by simpa [hrest] using hb)
  · intro b hb
    obtain ⟨-, hrest⟩ | hrest := hplace b
    · simp [hrest, Browser.close] at hb
    · exact absurd (by simpa [hrest] using hb) (hlent b)

/-- The timer closes what `meta` lists. A lent browser of these is held by nobody afterwards. -/
theorem forceClose (h : PoolInv s) (hdraining : s.disposal = .draining) (hdisposed : s.disposed = true) :
    PoolInv s.forceClose ∧ ((∀ b', s.Kept b') → ((∀ b', s.forceClose.Kept b') ↔
      ∀ b ∈ s.made, (s.browsers b).place = .lent → (s.browsers b).renderCount = none)) := by
  have hpool : s.hasPool = false := h.closed hdisposed
  have hbrowser : ∀ b, s.forceClose.browsers b =
      if (s.browsers b).renderCount.isSome then (s.browsers b).disconnect false else s.browsers b := by
    intro b
    rw [PoolState.forceClose, hpool]
  -- The events of the closed browsers find no pool, so that the places stay.
  have hplace : ∀ b, (s.forceClose.browsers b).place = (s.browsers b).place := by
    intro b
    rw [hbrowser]
    split <;> rfl
  constructor
  · refine ⟨?_, ?_, ?_, h.live, ?_, h.unique, nofun, ?_, h.closed, ?_, h.asked⟩
    · intro b
      rw [hbrowser]
      split
      · exact (h.browser b).disconnect false
      · exact h.browser b
    · intro b hb
      exact h.made b (hplace b ▸ hb)
    · intro _ b hb
      have hknown := h.known (by simp [hdraining]) b
      rw [hbrowser] at hb ⊢
      split at hb
      · simp [Browser.disconnect_connected] at hb
      · next hentry => exact if_neg hentry ▸ hknown hb
    · intro r b hb
      rw [hplace]
      refine (h.carried r b hb).imp_right fun hcrashed => ?_
      rw [hbrowser]
      split
      · simp [Browser.disconnect_crashedLent, hcrashed]
      · exact hcrashed
    · show Disposal.forced = .pending ↔ s.disposed = false
      simp [hdisposed]
    · intro b hb
      exact h.pool b (hplace b ▸ hb)
  · intro hk
    constructor
    · intro hkept b _ hlent
      by_contra hentry
      obtain ⟨r, hr⟩ := hkept b (by rw [hplace, hlent])
      -- A lent browser with an entry is closed, and then nobody holds it.
      have hcrashed := (held_eq_some.1 hr).2
      simp [hbrowser, Option.isSome_iff_ne_none.2 hentry, Browser.disconnect_crashedLent, hlent] at hcrashed
    · intro hclosed b hlent
      have hlent' : (s.browsers b).place = .lent := hplace b ▸ hlent
      obtain ⟨r, hr⟩ := hk b hlent'
      refine ⟨r, held_eq_some.2 ⟨(held_eq_some.1 hr).1, ?_⟩⟩
      simpa [hbrowser, hclosed b (h.made b (by simp [hlent'])) hlent'] using (held_eq_some.1 hr).2

end PoolInv

end AlsaqiBackend.Pdf
