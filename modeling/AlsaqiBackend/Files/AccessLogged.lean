import AlsaqiBackend.Files.AccessLog

/-!
# Every access is logged once

`access_logged_iff`: two requests that have been handled are logged with one row each, with the result
and the user of each, and two denials of different categories are told apart by their rows, exactly when
each request is attended (`Attended`: nobody is let through unnamed, the client of a denied one stays
until the response has been handed over, and the user who is known is in the record) and the two are
apart themselves (`Apart`), because the category is not written.

`verdict` says what a request comes to. `Tracks` is the invariant of its run: what the handler has still
to find out comes to that verdict, and what it has done agrees with it.
-/

namespace AlsaqiBackend.Files

open Lib Exchange

variable {ν : Type} (gate : FileGate ν) (v : FileVisit)

/-! ## What the log should say -/

/-- What a request comes to: it is authorised for a user, if one has to be known, or denied, with the
user who is known and the one in the record. -/
inductive Verdict where
  | authorised (user : Option (List Char))
  | denied (category : DenialCategory) (established : Option (List Char)) (recorded : List Char)
  deriving DecidableEq, Repr

def permissionVerdict (user : Principal) : Verdict :=
  let result := checkFilePermission gate v user
  if result.allowed then .authorised (some user.id) else .denied result.category (some user.id) user.id

def identifiedVerdict (user : Principal) : Verdict :=
  if gate.options.checkPermission then permissionVerdict gate v user else .authorised (some user.id)

/-- With a valid signature, its signer is known. -/
def signerVerdict : Verdict :=
  match getSignerStanding v v.sigUserId with
  | some signer =>
    if signer.status = "Active" then identifiedVerdict gate v signer.toPrincipal
    else .denied .authenticationFailure (some v.sigUserId) v.sigUserId
  | none => .denied .authenticationFailure (some v.sigUserId) v.sigUserId

def authVerdict : Verdict :=
  match v.authenticate with
  | .answers _ user => .denied .authenticationFailure (user.map Principal.id) ANONYMOUS_USER_ID
  | .next true _ | .next false none => .denied .authenticationFailure none ANONYMOUS_USER_ID
  | .next false (some user) => identifiedVerdict gate v user

def unsignedVerdict : Verdict := if gate.options.requireAuth then authVerdict gate v else .authorised none

def FileVisit.verdict (v : FileVisit) : Verdict :=
  match signedUrlResult gate.numbers gate.hmac gate.secret v.now v.request with
  | some (.error _) => .denied .authenticationFailure none ANONYMOUS_USER_ID
  | some (.ok result) =>
    if result.valid then signerVerdict gate v
    else if result.expired = some true then .denied .expiredSignedUrl (some v.sigUserId) v.sigUserId
    else unsignedVerdict gate v
  | none => unsignedVerdict gate v

/-- Exactly one row has been written, with the result of the request and the user who is known. -/
def Logged (rows : List FileAccessRow) : Prop :=
  ∃ row, rows = [row] ∧ row.filePath = v.request.path ∧ row.ipAddress = v.ip ∧
    match v.verdict gate with
    | .authorised user => row.result = .granted ∧ ∀ id ∈ user, row.userId = id
    | .denied _ established _ => row.result = .denied ∧ ∀ id ∈ established, row.userId = id

/-- If two requests are denied for reasons of different categories, their rows tell them apart. -/
def ToldApart (v w : FileVisit) (rows rows' : List FileAccessRow) : Prop :=
  ∀ category established recorded category' established' recorded',
    v.verdict gate = .denied category established recorded →
    w.verdict gate = .denied category' established' recorded' → category ≠ category' → rows ≠ rows'

/-- The request is let through for a user; or it is denied, the client stays until the response has been
handed over, and the record has the user who is known. -/
def Attended (actions : List ExchangeAction) : Prop :=
  match v.verdict gate with
  | .authorised user => user ≠ none
  | .denied _ established recorded => .disconnect ∉ actions ∧ ∀ id ∈ established, recorded = id

/-- If two requests are denied for reasons of different categories, they differ in their paths, their
addresses or the users in their records. -/
def Apart (v w : FileVisit) : Prop :=
  ∀ category established recorded category' established' recorded',
    v.verdict gate = .denied category established recorded →
    w.verdict gate = .denied category' established' recorded' → category ≠ category' →
    (recorded, v.request.path, v.ip) ≠ (recorded', w.request.path, w.ip)

/-! ## Runs -/

/-- The handler has not decided yet: nothing has been written, answered or recorded. -/
structure Exchange.Undecided (e : Exchange) : Prop where
  accessGranted : e.accessGranted = false
  denial : e.denial = ⟨ANONYMOUS_USER_ID, .authenticationFailure⟩
  status : e.status = none
  finished : e.finished = false
  rows : e.rows = []

/-- The rows of a request that is let through. -/
def grantedRows (user : Option (List Char)) : List FileAccessRow :=
  user.toList.map fun id => logFileAccess id v.request.path .granted v.ip none

/-- The rows of a denied request, once the listener has been called. -/
def deniedRows (recorded : List Char) (finished : Bool) : List FileAccessRow :=
  if finished then [⟨recorded, v.request.path, .denied, v.ip⟩] else []

/-- The handler has returned as the verdict says. -/
def Settled (e : Exchange) : Prop :=
  match v.verdict gate with
  | .authorised user => e.accessGranted = true ∧ e.rows = grantedRows v user
  | .denied _ _ recorded => e.accessGranted = false ∧ (∃ status, e.status = some status ∧ 400 ≤ status) ∧
      e.denial.userId = recorded ∧ e.rows = deniedRows v recorded e.finished

/-- What the handler is still to find out comes to the verdict on the request, and what it has done
agrees with it. -/
def Tracks (e : Exchange) : Prop :=
  match e.stage with
  | .arrived => e.Undecided
  | .readingSigner => e.Undecided ∧ signerVerdict gate v = v.verdict gate
  | .authenticating => e.Undecided ∧ authVerdict gate v = v.verdict gate
  | .checking user => e.Undecided ∧ permissionVerdict gate v user = v.verdict gate
  | .logging user => e.accessGranted = true ∧ e.status = none ∧ e.finished = false ∧ e.rows = [] ∧
      v.verdict gate = .authorised (some user.id)
  | .serving => e.accessGranted = true ∧ e.status = none ∧ e.finished = false ∧
      ∃ user, v.verdict gate = .authorised user ∧ e.rows = grantedRows v user
  | .ended => Settled gate v e

variable {gate v} {e t : Exchange} {category : DenialCategory} {established : Option (List Char)}
  {recorded : List Char} {user : Principal}

theorem settled_authorised {id : Option (List Char)} (hverdict : v.verdict gate = .authorised id) :
    Settled gate v e ↔ e.accessGranted = true ∧ e.rows = grantedRows v id := by
  rw [Settled, hverdict]

theorem settled_denied (hverdict : v.verdict gate = .denied category established recorded) :
    Settled gate v e ↔ e.accessGranted = false ∧ (∃ status, e.status = some status ∧ 400 ≤ status) ∧
      e.denial.userId = recorded ∧ e.rows = deniedRows v recorded e.finished := by
  rw [Settled, hverdict]

namespace Exchange.Undecided

/-- A denial with the user of the verdict in the record. -/
theorem deny (h : e.Undecided) (hverdict : v.verdict gate = .denied category established recorded)
    (reason : DenialCategory) {status : ℕ} (hstatus : 400 ≤ status) :
    Tracks gate v (e.deny recorded reason status) := by
  have hrows : e.rows = deniedRows v recorded e.finished := by rw [h.rows, h.finished]; rfl
  show Settled gate v (e.deny recorded reason status)
  rw [settled_denied hverdict]
  exact ⟨h.accessGranted, ⟨status, rfl, hstatus⟩, rfl, hrows⟩

/-- An answer that leaves the record as it was. -/
theorem answer (h : e.Undecided) (hverdict : v.verdict gate = .denied category established ANONYMOUS_USER_ID)
    {status : ℕ} (hstatus : 400 ≤ status) : Tracks gate v (e.answer status) := by
  have hrows : e.rows = deniedRows v ANONYMOUS_USER_ID e.finished := by rw [h.rows, h.finished]; rfl
  show Settled gate v (e.answer status)
  rw [settled_denied hverdict]
  exact ⟨h.accessGranted, ⟨status, rfl, hstatus⟩, congrArg Denial.userId h.denial, hrows⟩

theorem grant (h : e.Undecided) (haudit : gate.options.auditAccess = true)
    (hverdict : v.verdict gate = .authorised (some user.id)) : Tracks gate v (e.grant gate.options user) := by
  simp only [Tracks, Exchange.grant, haudit, if_true]
  exact ⟨trivial, h.status, h.finished, h.rows, hverdict⟩

theorem identified (h : e.Undecided) (haudit : gate.options.auditAccess = true)
    (hverdict : identifiedVerdict gate v user = v.verdict gate) :
    Tracks gate v (e.identified gate.options user) := by
  unfold identifiedVerdict at hverdict
  unfold Exchange.identified
  split
  · next hcheck =>
    rw [if_pos hcheck] at hverdict
    exact ⟨⟨h.accessGranted, h.denial, h.status, h.finished, h.rows⟩, hverdict⟩
  · next hcheck =>
    rw [if_neg hcheck] at hverdict
    exact h.grant haudit hverdict.symm

theorem authenticate (h : e.Undecided) (hverdict : unsignedVerdict gate v = v.verdict gate) :
    Tracks gate v (e.authenticate gate.options) := by
  unfold unsignedVerdict at hverdict
  unfold Exchange.authenticate
  split
  · next hrequire =>
    rw [if_pos hrequire] at hverdict
    exact ⟨⟨h.accessGranted, h.denial, h.status, h.finished, h.rows⟩, hverdict⟩
  · next hrequire =>
    rw [if_neg hrequire] at hverdict
    exact ⟨rfl, h.status, h.finished, none, hverdict.symm, h.rows⟩

end Exchange.Undecided

theorem Tracks.arrive (h : e.Undecided) : Tracks gate v (e.arrive gate v) := by
  -- The handler and the verdict go through the same cases.
  have hverdict : v.verdict gate = v.verdict gate := rfl
  conv_rhs at hverdict => rw [FileVisit.verdict]
  unfold Exchange.arrive
  split
  · next hsigned =>
    rw [hsigned] at hverdict
    exact h.answer hverdict (by decide)
  · next result hsigned =>
    rw [hsigned] at hverdict
    dsimp only at hverdict
    split
    · next hvalid =>
      rw [if_pos hvalid] at hverdict
      exact ⟨⟨h.accessGranted, h.denial, h.status, h.finished, h.rows⟩, hverdict.symm⟩
    next hvalid =>
    rw [if_neg hvalid] at hverdict
    split
    · next hexpired =>
      rw [if_pos hexpired] at hverdict
      exact h.deny hverdict _ (by decide)
    · next hexpired =>
      rw [if_neg hexpired] at hverdict
      exact h.authenticate hverdict.symm
  · next hsigned =>
    rw [hsigned] at hverdict
    exact h.authenticate hverdict.symm

theorem Tracks.signerRead (h : e.Undecided) (haudit : gate.options.auditAccess = true)
    (hverdict : signerVerdict gate v = v.verdict gate) : Tracks gate v (e.signerRead gate v) := by
  unfold signerVerdict at hverdict
  unfold Exchange.signerRead
  split
  · next signer hsigner =>
    rw [hsigner] at hverdict
    dsimp only at hverdict
    split
    · next hactive =>
      rw [if_pos hactive] at hverdict
      exact h.identified haudit hverdict
    · next hactive =>
      rw [if_neg hactive] at hverdict
      exact h.deny hverdict.symm _ (by decide)
  · next hsigner =>
    rw [hsigner] at hverdict
    exact h.deny hverdict.symm _ (by decide)

theorem Tracks.authenticated (h : e.Undecided) (haudit : gate.options.auditAccess = true)
    (hverdict : authVerdict gate v = v.verdict gate) : Tracks gate v (e.authenticated gate v) := by
  unfold authVerdict at hverdict
  unfold Exchange.authenticated
  split
  · next status user hanswer =>
    rw [hanswer] at hverdict
    exact h.answer hverdict.symm status.property
  · next hanswer =>
    rw [hanswer] at hverdict
    exact h.deny hverdict.symm _ (by decide)
  · next hanswer =>
    rw [hanswer] at hverdict
    exact h.deny hverdict.symm _ (by decide)
  · next user hanswer =>
    rw [hanswer] at hverdict
    exact h.identified haudit hverdict

theorem Tracks.permissionChecked (h : e.Undecided) (haudit : gate.options.auditAccess = true)
    (hverdict : permissionVerdict gate v user = v.verdict gate) :
    Tracks gate v (e.permissionChecked gate v user) := by
  unfold permissionVerdict at hverdict
  unfold Exchange.permissionChecked
  dsimp only at hverdict ⊢
  split
  · next hallowed =>
    rw [if_pos hallowed] at hverdict
    exact h.grant haudit hverdict.symm
  · next hallowed =>
    rw [if_neg hallowed] at hverdict
    exact h.deny hverdict.symm _ (by decide)

theorem Tracks.proceed (h : Tracks gate v e) (haudit : gate.options.auditAccess = true)
    (hst : e.proceed gate v = some t) : Tracks gate v t := by
  unfold Exchange.proceed at hst
  unfold Tracks at h
  cases hstage : e.stage with
  | arrived =>
    rw [hstage] at h hst
    obtain rfl := Option.some.inj hst
    exact arrive h
  | readingSigner =>
    rw [hstage] at h hst
    obtain rfl := Option.some.inj hst
    exact signerRead h.1 haudit h.2
  | authenticating =>
    rw [hstage] at h hst
    obtain rfl := Option.some.inj hst
    exact authenticated h.1 haudit h.2
  | checking user =>
    rw [hstage] at h hst
    obtain rfl := Option.some.inj hst
    exact permissionChecked h.1 haudit h.2
  | logging user =>
    rw [hstage] at h hst
    obtain rfl := Option.some.inj hst
    obtain ⟨hgranted, hstatus, hfinished, hrows, hverdict⟩ := h
    refine ⟨hgranted, hstatus, hfinished, some user.id, hverdict, ?_⟩
    show e.rows ++ _ = _
    rw [hrows, grantedRows]
    rfl
  | serving =>
    rw [hstage] at h hst
    obtain rfl := Option.some.inj hst
    obtain ⟨hgranted, -, -, user, hverdict, hrows⟩ := h
    exact (settled_authorised hverdict).2 ⟨hgranted, hrows⟩
  | ended =>
    rw [hstage] at hst
    exact absurd hst.symm (Option.some_ne_none t)

/-- A response that has ended is the end of the handler. -/
theorem Tracks.ended (h : Tracks gate v e) (hstatus : e.status ≠ none) : e.stage = .ended := by
  unfold Tracks at h
  cases hstage : e.stage with
  | ended => rfl
  | arrived =>
    rw [hstage] at h
    exact absurd h.status hstatus
  | readingSigner | authenticating | checking _ =>
    rw [hstage] at h
    exact absurd h.1.status hstatus
  | logging _ | serving =>
    rw [hstage] at h
    exact absurd h.2.1 hstatus

/-- The listener writes the row of a denial, and none for a request that is let through. -/
theorem Tracks.finish (h : Tracks gate v e) (haudit : gate.options.auditAccess = true) {status : ℕ}
    (hstatus : e.status = some status) (hfinished : e.finished = false) :
    Tracks gate v (e.finish gate v status) := by
  have hended : e.stage = .ended := h.ended (by simp [hstatus])
  have hsettled : Settled gate v e := by
    unfold Tracks at h
    rw [hended] at h
    exact h
  -- The event comes after the end of the handler, and leaves it there.
  have hgoal : Settled gate v (e.finish gate v status) → Tracks gate v (e.finish gate v status) := by
    intro hs
    have hstage : (e.finish gate v status).stage = .ended := by
      unfold Exchange.finish
      split <;> exact hended
    unfold Tracks
    rw [hstage]
    exact hs
  apply hgoal
  cases hverdict : v.verdict gate with
  | authorised user =>
    rw [settled_authorised hverdict] at hsettled ⊢
    unfold Exchange.finish
    -- `accessGranted` keeps the listener from writing a second row.
    rw [if_neg (by simp [hsettled.1])]
    exact hsettled
  | denied category established recorded =>
    rw [settled_denied hverdict] at hsettled ⊢
    obtain ⟨hgranted, ⟨status', hstatus', hle⟩, hdenial, hrows⟩ := hsettled
    obtain rfl := Option.some.inj (hstatus.symm.trans hstatus')
    unfold Exchange.finish
    -- This is the one row of a denial, since the event comes once.
    rw [if_pos ⟨haudit, hgranted, hle⟩]
    refine ⟨hgranted, ⟨status, hstatus, hle⟩, hdenial, ?_⟩
    show e.rows ++ _ = _
    rw [hrows, hfinished, hdenial]
    rfl

theorem Tracks.disconnect (h : Tracks gate v e) : Tracks gate v { e with connected := false } := by
  obtain ⟨stage, accessGranted, denial, status, connected, finished, rows⟩ := e
  cases stage with
  | arrived => exact ⟨h.accessGranted, h.denial, h.status, h.finished, h.rows⟩
  | readingSigner | authenticating | checking _ =>
    obtain ⟨hu, hverdict⟩ := h
    exact ⟨⟨hu.accessGranted, hu.denial, hu.status, hu.finished, hu.rows⟩, hverdict⟩
  | logging _ | serving | ended => exact h

theorem Tracks.step (h : Tracks gate v e) (haudit : gate.options.auditAccess = true) {a : ExchangeAction}
    (hst : e.step gate v a = some t) : Tracks gate v t := by
  cases a with
  | proceed => exact h.proceed haudit hst
  | disconnect =>
    obtain ⟨-, hst⟩ := Option.ite_none_right_eq_some.1 hst
    obtain rfl := Option.some.inj hst
    exact h.disconnect
  | finish =>
    simp only [Exchange.step] at hst
    split at hst
    · next status hstatus =>
      obtain ⟨⟨-, hfinished⟩, hst⟩ := Option.ite_none_right_eq_some.1 hst
      obtain rfl := Option.some.inj hst
      exact h.finish haudit hstatus hfinished
    · exact absurd hst.symm (Option.some_ne_none t)

/-! ## The client -/

/-- The handler does not touch the connection, nor the event. -/
def SameLink (e t : Exchange) : Prop := t.connected = e.connected ∧ t.finished = e.finished

theorem sameLink_identified (options : SecureFileOptions) (user : Principal) :
    SameLink e (e.identified options user) := by
  unfold Exchange.identified
  split <;> exact ⟨rfl, rfl⟩

theorem sameLink_authenticate (options : SecureFileOptions) : SameLink e (e.authenticate options) := by
  unfold Exchange.authenticate
  split <;> exact ⟨rfl, rfl⟩

theorem sameLink_proceed (hst : e.proceed gate v = some t) : SameLink e t := by
  unfold Exchange.proceed at hst
  split at hst
  · obtain rfl := Option.some.inj hst
    unfold Exchange.arrive
    split
    · exact ⟨rfl, rfl⟩
    · split
      · exact ⟨rfl, rfl⟩
      · split
        · exact ⟨rfl, rfl⟩
        · exact sameLink_authenticate gate.options
    · exact sameLink_authenticate gate.options
  · obtain rfl := Option.some.inj hst
    unfold Exchange.signerRead
    split
    · split
      · exact sameLink_identified gate.options _
      · exact ⟨rfl, rfl⟩
    · exact ⟨rfl, rfl⟩
  · obtain rfl := Option.some.inj hst
    unfold Exchange.authenticated
    split
    · exact ⟨rfl, rfl⟩
    · exact ⟨rfl, rfl⟩
    · exact ⟨rfl, rfl⟩
    · exact sameLink_identified gate.options _
  · obtain rfl := Option.some.inj hst
    unfold Exchange.permissionChecked
    dsimp only
    split <;> exact ⟨rfl, rfl⟩
  · obtain rfl := Option.some.inj hst
    exact ⟨rfl, rfl⟩
  · obtain rfl := Option.some.inj hst
    exact ⟨rfl, rfl⟩
  · exact absurd hst.symm (Option.some_ne_none t)

/-- A step leaves the client there unless it is the one in which it goes away, and the event comes only
while it is there. -/
theorem connected_step {a : ExchangeAction} (hst : e.step gate v a = some t) :
    (t.connected = true ↔ e.connected = true ∧ a ≠ .disconnect) ∧
      ((e.finished = true → e.connected = true) → t.finished = true → t.connected = true) := by
  cases a with
  | proceed =>
    obtain ⟨hconnected, hfinished⟩ := sameLink_proceed hst
    rw [hconnected, hfinished]
    simp
  | disconnect =>
    obtain ⟨⟨-, hfinished⟩, hst⟩ := Option.ite_none_right_eq_some.1 hst
    obtain rfl := Option.some.inj hst
    simp [hfinished]
  | finish =>
    simp only [Exchange.step] at hst
    split at hst
    · next status _ =>
      obtain ⟨⟨hconnected, -⟩, hst⟩ := Option.ite_none_right_eq_some.1 hst
      obtain rfl := Option.some.inj hst
      have hsame : (e.finish gate v status).connected = true := by
        unfold Exchange.finish
        split <;> exact hconnected
      simp [hsame, hconnected]
    · exact absurd hst.symm (Option.some_ne_none t)

theorem connected_run {as : List ExchangeAction} (h : run (Exchange.step gate v) e as = some t) :
    t.connected = true ↔ e.connected = true ∧ .disconnect ∉ as := by
  induction as generalizing e with
  | nil =>
    rw [run, Option.some.injEq] at h
    simp [h]
  | cons a as ih =>
    obtain ⟨u, hst, hrest⟩ := run_cons.1 h
    rw [ih hrest, (connected_step hst).1, List.mem_cons, not_or, and_assoc, ne_comm]

/-- When everything is over, the event has come exactly if the client has stayed. -/
theorem finished_iff {as : List ExchangeAction} (h : run (Exchange.step gate v) .start as = some e)
    (hcomplete : e.IsComplete) : e.finished = true ↔ .disconnect ∉ as := by
  -- The event and the loss of the client exclude each other.
  have hlink : e.finished = true → e.connected = true :=
    run_invariant (I := fun e => e.finished = true → e.connected = true)
      (fun s a t hs hst => (connected_step hst).2 hs) (fun hstart => absurd hstart (by decide)) h
  have hconnected : e.connected = true ↔ .disconnect ∉ as := by
    rw [connected_run h]
    exact and_iff_right rfl
  rw [← hconnected]
  constructor
  · exact hlink
  · intro hc
    exact hcomplete.2.resolve_right (by simp [hc])

/-! ## The log -/

theorem tracks_start : Tracks gate v .start := by
  show Exchange.Undecided .start
  exact ⟨rfl, rfl, rfl, rfl, rfl⟩

/-- The rows of a request that has been handled. -/
theorem rows_of_complete (haudit : gate.options.auditAccess = true) {as : List ExchangeAction}
    (h : run (Exchange.step gate v) .start as = some e) (hcomplete : e.IsComplete) :
    e.rows = match v.verdict gate with
      | .authorised user => grantedRows v user
      | .denied _ _ recorded => deniedRows v recorded (decide (.disconnect ∉ as)) := by
  have htracks : Tracks gate v e :=
    run_invariant (fun s a t hs hst => Tracks.step hs haudit hst) tracks_start h
  have hsettled : Settled gate v e := by
    unfold Tracks at htracks
    rw [hcomplete.1] at htracks
    exact htracks
  have hfinished : e.finished = decide (.disconnect ∉ as) := by
    rw [Bool.eq_iff_iff, finished_iff h hcomplete, decide_eq_true_iff]
  rw [← hfinished]
  cases hverdict : v.verdict gate with
  | authorised user => exact ((settled_authorised hverdict).1 hsettled).2
  | denied category established recorded => exact ((settled_denied hverdict).1 hsettled).2.2.2

/-- One request is logged exactly when it is attended. -/
theorem logged_iff (haudit : gate.options.auditAccess = true) {as : List ExchangeAction}
    (h : run (Exchange.step gate v) .start as = some e) (hcomplete : e.IsComplete) :
    Logged gate v e.rows ↔ Attended gate v as := by
  have hrows := rows_of_complete haudit h hcomplete
  unfold Logged Attended
  cases hverdict : v.verdict gate with
  | authorised user =>
    rw [hverdict] at hrows
    dsimp only at hrows ⊢
    rw [hrows]
    cases user with
    -- Who is let through without a user is not logged.
    | none => simp [grantedRows]
    | some id => simp [grantedRows, logFileAccess]
  | denied category established recorded =>
    rw [hverdict] at hrows
    dsimp only at hrows ⊢
    rw [hrows]
    by_cases hstays : .disconnect ∉ as
    · simp [deniedRows, hstays]
    · simp [deniedRows, hstays]

/-- With auditing on, any two requests that have been handled are logged with one row each, and are told
apart by these if they are denied for reasons of different categories, exactly when each is attended and
they are apart themselves. -/
theorem access_logged_iff (gate : FileGate ν) (haudit : gate.options.auditAccess = true) (v w : FileVisit)
    {as bs : List ExchangeAction} {e f : Exchange} (hv : run (Exchange.step gate v) .start as = some e)
    (hw : run (Exchange.step gate w) .start bs = some f) (he : e.IsComplete) (hf : f.IsComplete) :
    (Logged gate v e.rows ∧ Logged gate w f.rows ∧ ToldApart gate v w e.rows f.rows) ↔
      Attended gate v as ∧ Attended gate w bs ∧ Apart gate v w := by
  rw [logged_iff haudit hv he, logged_iff haudit hw hf]
  refine and_congr_right fun hattended => and_congr_right fun hattended' => ?_
  have hrows := rows_of_complete haudit hv he
  have hrows' := rows_of_complete haudit hw hf
  unfold ToldApart Apart
  refine forall_congr' fun category => forall_congr' fun established => forall_congr' fun recorded =>
    forall_congr' fun category' => forall_congr' fun established' => forall_congr' fun recorded' =>
    forall_congr' fun hverdict => forall_congr' fun hverdict' => forall_congr' fun _ => not_congr ?_
  -- both rows have been written, and a row has no more than its user, its path and its address
  unfold Attended at hattended hattended'
  rw [hverdict] at hrows hattended
  rw [hverdict'] at hrows' hattended'
  dsimp only at hrows hrows' hattended hattended'
  rw [hrows, hrows']
  simp [deniedRows, hattended.1, hattended'.1]

/-! ## Denials that look alike -/

/-- Auditing on, with one module, which has files. -/
def auditedGate : FileGate ℤ where
  numbers := integers
  hmac := textDigest
  secret := some "secret"
  getModule := fun module => if module = "AuditPlans" then some true else none
  options := ⟨true, true, true⟩

/-- A request of the user `u1` without a signature, for a file of a module or of none. -/
def visitOf (module : Option String) (allowed : Bool) : FileVisit where
  request := ⟨"/f1".toList, []⟩
  ip := "127.0.0.1"
  now := 1700000000
  selectSigner := fun _ => .ok none
  selectModule := fun _ => .ok (some module)
  hasPermission := fun _ _ => .ok allowed
  authenticate := .next false (some ⟨"u1".toList, "Auditor"⟩)
  served := 200

/-- A denial, and a request that is let through. -/
def deniedRun : List ExchangeAction := [.proceed, .proceed, .proceed, .finish]

def grantedRun : List ExchangeAction := [.proceed, .proceed, .proceed, .proceed, .proceed, .finish]

theorem granted_and_denied_logged : ∃ e f,
    run (Exchange.step auditedGate (visitOf (some "AuditPlans") true)) .start grantedRun = some e ∧
      run (Exchange.step auditedGate (visitOf none false)) .start deniedRun = some f ∧
      Logged auditedGate (visitOf (some "AuditPlans") true) e.rows ∧
      Logged auditedGate (visitOf none false) f.rows ∧
      ToldApart auditedGate (visitOf (some "AuditPlans") true) (visitOf none false) e.rows f.rows := by
  have hgranted : (visitOf (some "AuditPlans") true).verdict auditedGate = .authorised (some "u1".toList) := by
    decide +kernel
  have hdenied : (visitOf none false).verdict auditedGate =
      .denied .noValidOwningModule (some "u1".toList) "u1".toList := by decide +kernel
  have hv : run (Exchange.step auditedGate (visitOf (some "AuditPlans") true)) .start grantedRun =
      some ⟨.ended, true, ⟨ANONYMOUS_USER_ID, .authenticationFailure⟩, some 200, true, true,
        [⟨"u1".toList, "/f1".toList, .granted, "127.0.0.1"⟩]⟩ := by decide +kernel
  have hw : run (Exchange.step auditedGate (visitOf none false)) .start deniedRun =
      some ⟨.ended, false, ⟨"u1".toList, .noValidOwningModule⟩, some 403, true, true,
        [⟨"u1".toList, "/f1".toList, .denied, "127.0.0.1"⟩]⟩ := by decide +kernel
  refine ⟨_, _, hv, hw, ?_⟩
  refine (access_logged_iff auditedGate rfl _ _ hv hw ⟨rfl, .inl rfl⟩ ⟨rfl, .inl rfl⟩).2 ⟨?_, ?_, ?_⟩
  · rw [Attended, hgranted]
    exact Option.some_ne_none _
  · rw [Attended, hdenied]
    exact ⟨by decide, fun id hid => Option.some.inj hid⟩
  · intro category established recorded _ _ _ hv
    rw [hgranted] at hv
    cases hv

/-- A denial for a missing permission and one for a file without a module write the same row. -/
theorem denials_look_alike : ¬∀ (gate : FileGate ℤ) (v w : FileVisit) (as bs : List ExchangeAction)
    (e f : Exchange),
    gate.options.auditAccess = true → run (Exchange.step gate v) .start as = some e →
      run (Exchange.step gate w) .start bs = some f → e.IsComplete → f.IsComplete →
        Logged gate v e.rows ∧ Logged gate w f.rows ∧ ToldApart gate v w e.rows f.rows := by
  intro h
  have hv : run (Exchange.step auditedGate (visitOf (some "AuditPlans") false)) .start deniedRun =
      some ⟨.ended, false, ⟨"u1".toList, .missingModulePermission⟩, some 403, true, true,
        [⟨"u1".toList, "/f1".toList, .denied, "127.0.0.1"⟩]⟩ := by decide +kernel
  have hw : run (Exchange.step auditedGate (visitOf none false)) .start deniedRun =
      some ⟨.ended, false, ⟨"u1".toList, .noValidOwningModule⟩, some 403, true, true,
        [⟨"u1".toList, "/f1".toList, .denied, "127.0.0.1"⟩]⟩ := by decide +kernel
  have hapart := (h auditedGate _ _ _ _ _ _ rfl hv hw ⟨rfl, .inl rfl⟩ ⟨rfl, .inl rfl⟩).2.2
  exact hapart .missingModulePermission (some "u1".toList) "u1".toList .noValidOwningModule (some "u1".toList)
    "u1".toList (by decide +kernel) (by decide +kernel) (by decide) rfl

end AlsaqiBackend.Files
