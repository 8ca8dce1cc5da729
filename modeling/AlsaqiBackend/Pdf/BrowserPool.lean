import AlsaqiBackend.Lib.Run
import Mathlib.Data.Finset.Card

/-!
# The pool of browsers

`BrowserPool` wraps a `generic-pool` of Puppeteer browsers. A render (`renderPdfAttempt` of the engine,
or `processPdfJob` of the worker) acquires a browser, works with it, and gives it back on whichever path
it ends; a browser that loses its connection is given back by its `disconnected` event; `dispose` takes
the pool away from the wrapper and waits until it has drained, or until a timer closes what is left.

The underlying pool is the documented one: what it lends it has validated, `release` and `destroy` take
back what is lent and reject everything else, and draining ends when no request waits and nothing is
lent.
-/

namespace AlsaqiBackend.Pdf

/-! ## A browser -/

/-- Where a browser is for the underlying pool. -/
inductive Place where
  /-- Not created yet. -/
  | unmade
  | idle
  /-- Taken out to be validated for a request. -/
  | testing
  | lent
  /-- Destroyed. -/
  | gone
  deriving DecidableEq, Repr

/-- A browser, with the `renderCount` of its entry in `meta` and, for the account of the pool, how often
it has been lent and taken back, and whether it lost its connection while it was lent. -/
structure Browser where
  place : Place
  connected : Bool
  renderCount : Option ℕ
  lends : ℕ
  returns : ℕ
  crashedLent : Bool
  deriving DecidableEq, Repr

def maxPoolSize : ℕ := 3

def maxPagesPerInstance : ℕ := 50

/-- How `BrowserPool.release` ends. -/
inductive ReleaseOutcome where
  | returned
  /-- `BrowserCrashedError`. -/
  | crashed
  /-- The underlying pool does not know the browser. -/
  | rejected
  deriving DecidableEq, Repr

namespace Browser

def unmade : Browser := ⟨.unmade, false, none, 0, 0, false⟩

/-- `factory.create`. -/
def create (x : Browser) : Browser := { x with place := .idle, connected := true, renderCount := some 0 }

/-- `factory.destroy`: the entry is deleted and the browser closed. -/
def close (x : Browser) : Browser := { x with place := .gone, connected := false, renderCount := none }

/-- `factory.validate`. -/
def validate (x : Browser) : Bool := x.connected && !(x.renderCount.any fun n => maxPagesPerInstance ≤ n)

/-- The underlying pool takes an idle browser out for a request, or recycles it. -/
def test (x : Browser) : Browser := if x.validate then { x with place := .testing } else x.close

/-- The validated browser is lent. -/
def lend (x : Browser) : Browser := { x with place := .lent, lends := x.lends + 1 }

/-- `pool.release`. -/
def poolRelease (x : Browser) : Option Browser :=
  if x.place = .lent then some { x with place := .idle, returns := x.returns + 1 } else none

/-- `pool.destroy`. -/
def poolDestroy (x : Browser) : Option Browser :=
  if x.place = .lent then some { x.close with returns := x.returns + 1 } else none

/-- The connection is lost, and the `disconnected` event deletes the entry and destroys the browser in
`this.pool`, where there is one. -/
def disconnect (hasPool : Bool) (x : Browser) : Browser :=
  let down := { x with connected := false, renderCount := none, crashedLent := x.crashedLent || x.place = .lent }
  -- The event ignores the error of a browser that is not lent.
  if hasPool then down.poolDestroy.getD down else down

/-- `BrowserPool.release`. -/
def release (hasPool : Bool) (x : Browser) : Browser × ReleaseOutcome :=
  -- Without a pool `release` returns at once, and nobody takes the browser back.
  if !hasPool then (x, .returned)
  else
    let counted := { x with renderCount := x.renderCount.map (· + 1) }
    if !x.connected then
      let forgotten := { counted with renderCount := none }
      (forgotten.poolDestroy.getD forgotten, .crashed)
    else
      match counted.poolRelease with
      | some y => (y, .returned)
      | none => (counted, .rejected)

end Browser

/-! ## Renders -/

/-- How far a render is. -/
inductive Phase (B : Type*) where
  | unborn
  /-- `pool.acquire` has been called, for the first or for the second time. -/
  | waiting (again : Bool)
  /-- The pool has lent the browser, and `BrowserPool.acquire` has not looked at it yet. -/
  | handed (browser : B)
  /-- The browser was not connected and has been destroyed. -/
  | retrying
  /-- The caller works with the browser. -/
  | holding (browser : B)
  /-- `processPdfJob` could not release the browser and handles the error. -/
  | failed (browser : B)
  | over
  deriving DecidableEq, Repr

/-- The browser that a render has been handed. -/
def Phase.browser? {B : Type*} : Phase B → Option B
  | handed b | holding b | failed b => some b
  | _ => none

def Phase.isWaiting {B : Type*} : Phase B → Bool
  | waiting _ => true
  | _ => false

/-- How far `dispose` is. -/
inductive Disposal where
  | pending
  | draining
  | drained
  | forced
  deriving DecidableEq, Repr

variable {B R : Type*}

/-- The wrapper, its browsers and the renders. `hasPool` says that `this.pool` is not `null`, `made`
lists the browsers there have been, and `unfinished` the renders that go on. -/
structure PoolState (B R : Type*) where
  browsers : B → Browser
  made : Finset B
  phase : R → Phase B
  unfinished : Finset R
  hasPool : Bool
  disposed : Bool
  disposal : Disposal

inductive PoolAction (B R : Type*) where
  /-- A render calls `BrowserPool.acquire`. -/
  | acquire (r : R)
  /-- `factory.create` has launched a browser. -/
  | create (b : B)
  | test (b : B)
  /-- No request waits for the validated browser any more. -/
  | untest (b : B)
  | lend (r : R) (b : B)
  /-- `acquireTimeoutMillis` is over. -/
  | expire (r : R)
  /-- `BrowserPool.acquire` goes on with the browser it has been handed. -/
  | resume (r : R)
  /-- It asks for another one. -/
  | retry (r : R)
  | crash (b : B)
  /-- `renderPdfAttempt` comes to its `finally`, whether it succeeded, failed or timed out. -/
  | attemptEnds (r : R)
  /-- `processPdfJob` has rendered. -/
  | jobSucceeds (r : R)
  /-- `processPdfJob` comes to its `catch` with a browser, after an error or a timeout. -/
  | jobFails (r : R)
  | dispose
  /-- `pool.drain` is over, and `pool.clear` follows. -/
  | drained
  /-- `DISPOSE_TIMEOUT_MS` is over. -/
  | timer

namespace PoolState

variable [DecidableEq B] [DecidableEq R]

/-- Before the first request. -/
def fresh : PoolState B R := ⟨fun _ => .unmade, ∅, fun _ => .unborn, ∅, false, false, .pending⟩

def setBrowser (s : PoolState B R) (b : B) (x : Browser) : PoolState B R :=
  { s with browsers := Function.update s.browsers b x, made := insert b s.made }

def setPhase (s : PoolState B R) (r : R) (p : Phase B) : PoolState B R :=
  { s with phase := Function.update s.phase r p, unfinished := insert r s.unfinished }

/-- The render is over. -/
def finish (s : PoolState B R) (r : R) : PoolState B R :=
  { s with phase := Function.update s.phase r .over, unfinished := s.unfinished.erase r }

/-- `pool.borrowed`. -/
def borrowed (s : PoolState B R) : ℕ := (s.made.filter fun b => (s.browsers b).place = .lent).card

/-- `pool.pending`. -/
def pending (s : PoolState B R) : ℕ := (s.unfinished.filter fun r => (s.phase r).isWaiting).card

/-- `pool.size`. -/
def size (s : PoolState B R) : ℕ :=
  (s.made.filter fun b => (s.browsers b).place ∈ [.idle, .testing, .lent]).card

/-- The underlying pool serves requests, also while it drains. -/
def serves (s : PoolState B R) : Bool := s.hasPool || s.disposal = .draining || s.disposal = .forced

/-- `BrowserPool.acquire` up to the answer of `pool.acquire`. `ensurePool` throws after `dispose`, and
creates the pool that is missing. -/
def acquire (s : PoolState B R) (r : R) : PoolState B R :=
  -- `ensurePool` throws, or creates the pool that is missing.
  if s.disposed then s.finish r else { s.setPhase r (.waiting false) with hasPool := true }

/-- The rest of `BrowserPool.acquire`, which throws where `pool.destroy` rejects. -/
def resume (s : PoolState B R) (r : R) (b : B) : PoolState B R :=
  if (s.browsers b).connected then s.setPhase r (.holding b)
  else
    match (s.browsers b).poolDestroy with
    | some x => (s.setBrowser b x).setPhase r .retrying
    | none => s.finish r

/-- `renderPdfAttempt` releases the browser and is over, with whatever error. -/
def attemptEnds (s : PoolState B R) (r : R) (b : B) : PoolState B R :=
  (s.setBrowser b ((s.browsers b).release s.hasPool).1).finish r

/-- `processPdfJob` releases the browser. A `BrowserCrashedError` ends the job; after any other error
its `catch` still has the browser. -/
def jobSucceeds (s : PoolState B R) (r : R) (b : B) : PoolState B R :=
  let released := (s.browsers b).release s.hasPool
  match released.2 with
  | .rejected => (s.setBrowser b released.1).setPhase r (.failed b)
  | _ => (s.setBrowser b released.1).finish r

/-- The `catch` of `processPdfJob` releases the browser unless `isCrashed`. -/
def jobFails (s : PoolState B R) (r : R) (b : B) : PoolState B R :=
  -- Of a crashed browser the job expects that its event has given it back.
  if !(s.browsers b).connected then s.finish r else s.attemptEnds r b

/-- `BrowserPool.dispose` up to its race. -/
def dispose (s : PoolState B R) : PoolState B R :=
  if s.disposed then s
  else if !s.hasPool then { s with disposed := true, disposal := .drained }
  else { s with disposed := true, hasPool := false, disposal := .draining }

/-- `pool.clear`, and `meta.clear`. -/
def clear (s : PoolState B R) : PoolState B R :=
  { s with
    browsers := fun b =>
      let x := s.browsers b
      -- `clear` destroys what is idle, and every other browser loses its entry.
      if x.place = .idle then x.close else { x with renderCount := none }
    disposal := .drained }

/-- The timer closes the browsers that `meta` lists, with their events, and clears it. -/
def forceClose (s : PoolState B R) : PoolState B R :=
  { s with
    browsers := fun b => if (s.browsers b).renderCount.isSome then (s.browsers b).disconnect s.hasPool else s.browsers b
    disposal := .forced }

/-- What `pool.drain` waits for. -/
def isDrained (s : PoolState B R) : Bool := s.pending = 0 && s.borrowed = 0

/-- One step of the system; `none` for a step that cannot be taken. -/
def step (s : PoolState B R) : PoolAction B R → Option (PoolState B R)
  | .acquire r => if s.phase r = .unborn then some (s.acquire r) else none
  | .create b =>
    if (s.browsers b).place = .unmade ∧ s.serves = true ∧ s.pending ≠ 0 ∧ s.size < maxPoolSize then
      some (s.setBrowser b (s.browsers b).create)
    else none
  | .test b =>
    if (s.browsers b).place = .idle ∧ s.pending ≠ 0 then some (s.setBrowser b (s.browsers b).test) else none
  | .untest b =>
    if (s.browsers b).place = .testing then some (s.setBrowser b { s.browsers b with place := .idle }) else none
  | .lend r b =>
    if (s.browsers b).place = .testing then
      match s.phase r with
      | .waiting false => some ((s.setBrowser b (s.browsers b).lend).setPhase r (.handed b))
      | .waiting true => some ((s.setBrowser b (s.browsers b).lend).setPhase r (.holding b))
      | _ => none
    else none
  | .expire r => if (s.phase r).isWaiting then some (s.finish r) else none
  | .resume r =>
    match s.phase r with
    | .handed b => some (s.resume r b)
    | _ => none
  | .retry r =>
    match s.phase r with
    | .retrying => some (if s.disposal = .pending then s.setPhase r (.waiting true) else s.finish r)
    | _ => none
  | .crash b =>
    if (s.browsers b).connected then some (s.setBrowser b ((s.browsers b).disconnect s.hasPool)) else none
  | .attemptEnds r =>
    match s.phase r with
    | .holding b => some (s.attemptEnds r b)
    | _ => none
  | .jobSucceeds r =>
    match s.phase r with
    | .holding b => some (s.jobSucceeds r b)
    | _ => none
  | .jobFails r =>
    match s.phase r with
    | .holding b | .failed b => some (s.jobFails r b)
    | _ => none
  | .dispose => some s.dispose
  -- the drain settles before a timer can fire
  | .drained => if s.disposal = .draining ∧ s.isDrained = true then some s.clear else none
  | .timer => if s.disposal = .draining ∧ s.isDrained = false then some s.forceClose else none

end PoolState

end AlsaqiBackend.Pdf
