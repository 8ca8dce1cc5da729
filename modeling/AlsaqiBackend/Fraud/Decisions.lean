import AlsaqiBackend.Fraud.AccessRequests
import AlsaqiBackend.Lib.Run

/-!
# Every request is decided once, and every approval ends when it should

A user has at most one pending request, a request is decided at most once, and `getMyStatus` reports an approval
as long as the clock is before the expiry that one computed. This holds along the runs whose statements are
orderly (`lawful_along_iff`): an `INSERT` finds the user without a pending request, an `UPDATE` finds its request
pending, and at no time does the reading of an expiry in the time zone of the session decide what its user sees.
-/

namespace AlsaqiBackend.Fraud

open AlsaqiBackend.Lib AlsaqiBackend.Cron

variable {K : Type} [DecidableEq K] {session : LocalClock} {s t : FraudState K} {now : ℤ}
  {rows : List (AccessRequest K)} {r : AccessRequest K} {id userId : K}

/-! ## Lawful states -/

/-- The clock is before the expiry that was computed. -/
def unexpired (now : ℤ) (expiresAt : Option ℤ) : Bool := expiresAt.all fun e => now < e

/-- What holds at any time. -/
structure Lawful (session : LocalClock) (s : FraudState K) : Prop where
  onePending : ∀ r ∈ s.rows, ∀ r' ∈ s.rows, r.userId = r'.userId → r.status = .pending →
    r'.status = .pending → r.id = r'.id
  decidedOnce : (s.decisions.map Decision.requestId).Nodup
  lasting : ∀ d ∈ s.decisions, ∀ r ∈ s.rows, r.id = d.requestId → r.outcome = some d.outcome
  truthful : ∀ userId later, (getMyStatus session s.now s.rows later userId).status = some .approved ↔
    ∃ d ∈ s.decisions, d.userId = userId ∧ ∃ e, d.outcome = .approved e ∧ unexpired s.now e = true

/-! ## Orderly steps -/

/-- An approval of the user that the session takes for unexpired. -/
def SeenApproved (session : LocalClock) (now : ℤ) (rows : List (AccessRequest K)) (userId : K) : Prop :=
  ∃ r ∈ rows, r.userId = userId ∧ r.status = .approved ∧ readsUnexpired session now r = true

/-- An approval of the user that is unexpired. -/
def IsApproved (now : ℤ) (rows : List (AccessRequest K)) (userId : K) : Prop :=
  ∃ r ∈ rows, r.userId = userId ∧ r.status = .approved ∧ unexpired now r.expiresAt = true

/-- Where the session takes an unexpired approval for expired, it sees another one of the user, and where it takes
an expired approval for unexpired, the user has another one. -/
def ReadsExpiries (session : LocalClock) (now : ℤ) (rows : List (AccessRequest K)) : Prop :=
  ∀ r ∈ rows, r.status = .approved →
    (unexpired now r.expiresAt = true → readsUnexpired session now r = false →
      SeenApproved session now rows r.userId) ∧
    (unexpired now r.expiresAt = false → readsUnexpired session now r = true → IsApproved now rows r.userId)

/-- The request is pending, if it is there. -/
def Undecided (rows : List (AccessRequest K)) (id : K) : Prop := ∀ r ∈ rows, r.id = id → r.status = .pending

/-- The next step of a call is orderly. -/
def OrderlyCall (session : LocalClock) (s : FraudState K) : Call K → Prop
  | .creating userId _ _ => existingRequest s.rows userId = none
  | .granting id expiresAt responderId =>
    Undecided s.rows id ∧ ReadsExpiries session s.now (s.grant session id expiresAt responderId).rows
  | .rejecting id _ _ => Undecided s.rows id
  | .approving .. => True
  | .finished => True

/-- The condition on a step: on the statement of a call that takes its next step, and on the expiries at the time
to which a step waits. -/
def Orderly (session : LocalClock) (s : FraudState K) : FraudAction K → Prop
  | .proceed i _ => ∀ call ∈ s.calls[i]?, OrderlyCall session s call
  | .wait ms => ReadsExpiries session (s.now + ms) s.rows
  | _ => True

/-! ## What the table says of the decisions -/

omit [DecidableEq K] in
theorem outcome_eq_approved_iff {e : Option ℤ} :
    r.outcome = some (.approved e) ↔ r.status = .approved ∧ r.expiresAt = e := by
  unfold AccessRequest.outcome
  match r.status with
  | .pending => simp
  | .approved => simp
  | .rejected => simp

omit [DecidableEq K] in
theorem outcome_eq_none_iff : r.outcome = none ↔ r.status = .pending := by
  unfold AccessRequest.outcome
  match r.status with
  | .pending => simp
  | .approved => simp
  | .rejected => simp

/-- A row shows the latest decision about its request, and the requests of the decisions are there. -/
structure Inv (s : FraudState K) : Prop where
  settled : ∀ r ∈ s.rows, r.outcome = (s.decisions.find? fun d => d.requestId = r.id).map Decision.outcome
  known : ∀ d ∈ s.decisions, ∃ r ∈ s.rows, r.id = d.requestId ∧ r.userId = d.userId

/-- A request without a decision is pending. -/
theorem Inv.undecided_iff (hs : Inv s) (hr : r ∈ s.rows) :
    r.status = .pending ↔ r.id ∉ s.decisions.map Decision.requestId := by
  rw [← outcome_eq_none_iff, hs.settled r hr, Option.map_eq_none_iff, List.find?_eq_none]
  simp only [decide_eq_true_eq, List.mem_map, not_exists, not_and]

/-- Where requests are decided once, a row shows a decision exactly when that one was made. -/
theorem Inv.outcome_iff (hs : Inv s) (honce : (s.decisions.map Decision.requestId).Nodup) (hr : r ∈ s.rows)
    {outcome : Outcome} : r.outcome = some outcome ↔
      ∃ d ∈ s.decisions, d.requestId = r.id ∧ d.userId = r.userId ∧ d.outcome = outcome := by
  rw [hs.settled r hr, Option.map_eq_some_iff]
  constructor
  · intro ⟨d, hfound, houtcome⟩
    obtain ⟨hd, hid⟩ := of_find?_key hfound
    obtain ⟨r', hr', hid', huser⟩ := hs.known d hd
    -- The row that the decision is about is `r`, by its id.
    obtain rfl := s.table.eq_of_key_eq hr' hr (hid'.trans hid)
    exact ⟨d, hd, hid, huser.symm, houtcome⟩
  · intro ⟨d, hd, hid, _, houtcome⟩
    exact ⟨d, find?_key_of_mem honce hd hid, houtcome⟩

/-- Then the unexpired approvals are those of the rows. -/
theorem Inv.isApproved_iff (hs : Inv s) (honce : (s.decisions.map Decision.requestId).Nodup) :
    IsApproved s.now s.rows userId ↔
      ∃ d ∈ s.decisions, d.userId = userId ∧ ∃ e, d.outcome = .approved e ∧ unexpired s.now e = true := by
  constructor
  · intro ⟨r, hr, huser, hstatus, hnow⟩
    have houtcome : r.outcome = some (.approved r.expiresAt) := outcome_eq_approved_iff.2 ⟨hstatus, rfl⟩
    obtain ⟨d, hd, _, hduser, hd'⟩ := (hs.outcome_iff honce hr).1 houtcome
    exact ⟨d, hd, hduser.trans huser, r.expiresAt, hd', hnow⟩
  · intro ⟨d, hd, huser, e, houtcome, hnow⟩
    obtain ⟨r, hr, hid, hruser⟩ := hs.known d hd
    have hshows := (hs.outcome_iff honce hr).2 ⟨d, hd, hid.symm, hruser.symm, houtcome⟩
    obtain ⟨hstatus, hexpires⟩ := outcome_eq_approved_iff.1 hshows
    exact ⟨r, hr, hruser.trans huser, hstatus, by rw [hexpires]; exact hnow⟩

omit [DecidableEq K] in
/-- The expiries are read well when each user sees an approval exactly while one of them is unexpired. -/
theorem readsExpiries_iff :
    ReadsExpiries session now rows ↔ ∀ userId, SeenApproved session now rows userId ↔ IsApproved now rows userId := by
  constructor
  · intro h userId
    constructor
    · intro ⟨r, hr, huser, hstatus, hseen⟩
      -- An expired approval that is seen must stand for another one of its user.
      cases hnow : unexpired now r.expiresAt with
      | true => exact ⟨r, hr, huser, hstatus, hnow⟩
      | false => exact huser ▸ (h r hr hstatus).2 hnow hseen
    · intro ⟨r, hr, huser, hstatus, hnow⟩
      -- And an unexpired one that is not seen for another one that is.
      cases hseen : readsUnexpired session now r with
      | true => exact ⟨r, hr, huser, hstatus, hseen⟩
      | false => exact huser ▸ (h r hr hstatus).1 hnow hseen
  · intro h r hr hstatus
    constructor
    · intro hnow _
      exact (h r.userId).2 ⟨r, hr, rfl, hstatus, hnow⟩
    · intro _ hseen
      exact (h r.userId).1 ⟨r, hr, rfl, hstatus, hseen⟩

/-- Each user has at most one pending request. -/
def OnePending (rows : List (AccessRequest K)) : Prop :=
  ∀ r ∈ rows, ∀ r' ∈ rows, r.userId = r'.userId → r.status = .pending → r'.status = .pending → r.id = r'.id

/-- A lawful state, in terms of its rows. -/
theorem Inv.lawful_iff_parts (hs : Inv s) : Lawful session s ↔
    OnePending s.rows ∧ (s.decisions.map Decision.requestId).Nodup ∧ ReadsExpiries session s.now s.rows := by
  constructor
  · intro h
    refine ⟨h.onePending, h.decidedOnce, readsExpiries_iff.2 fun userId => ?_⟩
    rw [hs.isApproved_iff h.decidedOnce, ← h.truthful userId [], getMyStatus_approved_iff]
    exact Iff.rfl
  · intro ⟨hpending, honce, hreads⟩
    refine ⟨hpending, honce, fun d hd r hr hid => ?_, fun userId later => ?_⟩
    · obtain ⟨r', hr', hid', huser⟩ := hs.known d hd
      obtain rfl := s.table.eq_of_key_eq hr' hr (hid'.trans hid.symm)
      exact (hs.outcome_iff honce hr).2 ⟨d, hd, hid.symm, huser.symm, rfl⟩
    · rw [getMyStatus_approved_iff, ← hs.isApproved_iff honce]
      exact readsExpiries_iff.1 hreads userId

/-! ## The statements -/

omit [DecidableEq K] in
theorem mem_rows_insert {new : AccessRequest K} {hfree : new.id ∉ s.rows.map AccessRequest.id} :
    r ∈ (s.insert new hfree).rows ↔ r ∈ s.rows ∨ r = new := by
  show r ∈ (s.table.insert new hfree).rows ↔ _
  exact Keyed.mem_insert

theorem mem_rows_decideRequest {outcome : Outcome} {f : AccessRequest K → AccessRequest K}
    {hkey : ∀ r, (f r).id = r.id} : r ∈ (s.decideRequest id outcome f hkey).rows ↔
      (r ∈ s.rows ∧ r.id ≠ id) ∨ ∃ old ∈ s.rows, old.id = id ∧ f old = r := by
  show r ∈ (s.table.update (fun r => r.id = id) f hkey).rows ↔ _
  exact Keyed.mem_update_key

/-- The decision of an `UPDATE`, where it finds its request. -/
theorem decisions_decideRequest {outcome : Outcome} {f : AccessRequest K → AccessRequest K}
    {hkey : ∀ r, (f r).id = r.id} (hr : r ∈ s.rows) :
    (s.decideRequest r.id outcome f hkey).decisions = ⟨r.id, r.userId, outcome⟩ :: s.decisions := by
  show ((s.rows.filter fun r' => r'.id = r.id).map _) ++ s.decisions = _
  rw [FraudState.rows, Keyed.filter_key_eq hr]
  rfl

/-- An `UPDATE` that finds no request does nothing. -/
theorem decideRequest_of_not (outcome : Outcome) (f : AccessRequest K → AccessRequest K)
    (hkey : ∀ r, (f r).id = r.id) (hid : ∀ r ∈ s.rows, r.id ≠ id) :
    (s.decideRequest id outcome f hkey).rows = s.rows ∧
      (s.decideRequest id outcome f hkey).decisions = s.decisions := by
  have hnone : s.rows.filter (fun r => r.id = id) = [] :=
    List.filter_eq_nil_iff.2 fun r hr heq => hid r hr (of_decide_eq_true heq)
  constructor
  · exact updateWhere_eq_self fun r hr => decide_eq_false (hid r hr)
  · show ((s.rows.filter fun r => r.id = id).map _) ++ s.decisions = _
    rw [hnone]
    rfl

omit [DecidableEq K] in
/-- What a user sees depends on the approved rows. -/
theorem readsExpiries_congr {rows' : List (AccessRequest K)}
    (h : ∀ r, r.status = .approved → (r ∈ rows' ↔ r ∈ rows)) :
    ReadsExpiries session now rows' ↔ ReadsExpiries session now rows := by
  have hexists : ∀ (userId : K) (p : AccessRequest K → Prop),
      (∃ r ∈ rows', r.userId = userId ∧ r.status = .approved ∧ p r) ↔
        ∃ r ∈ rows, r.userId = userId ∧ r.status = .approved ∧ p r := by
    intro userId p
    refine exists_congr fun r => ?_
    constructor
    · intro ⟨hr, huser, hstatus, hp⟩
      exact ⟨(h r hstatus).1 hr, huser, hstatus, hp⟩
    · intro ⟨hr, huser, hstatus, hp⟩
      exact ⟨(h r hstatus).2 hr, huser, hstatus, hp⟩
  rw [readsExpiries_iff, readsExpiries_iff]
  refine forall_congr' fun userId => ?_
  exact iff_congr (hexists userId _) (hexists userId _)

section create

variable {newId : K} {userName reason : String} (hfree : newId ∉ s.rows.map AccessRequest.id)

theorem Inv.insert (hs : Inv s) : Inv (s.insert (newRequest newId userId userName reason s.now) hfree) where
  settled := by
    intro r hr
    rcases mem_rows_insert.1 hr with hold | rfl
    · exact hs.settled r hold
    · show none = Option.map _ (s.decisions.find? fun d => d.requestId = newId)
      -- Every decision is about a row that is there, and the id is a new one.
      have hnone : s.decisions.find? (fun d => d.requestId = newId) = none := by
        rw [List.find?_eq_none]
        intro d hd heq
        obtain ⟨r, hr', hid, _⟩ := hs.known d hd
        have hsame : r.id = newId := hid.trans (of_decide_eq_true heq)
        exact hfree (hsame ▸ List.mem_map_of_mem hr')
      rw [hnone]
      rfl
  known := by
    intro d hd
    obtain ⟨r, hr, hspec⟩ := hs.known d hd
    exact ⟨r, mem_rows_insert.2 (Or.inl hr), hspec⟩

omit hfree in
theorem existingRequest_eq_none_iff :
    existingRequest rows userId = none ↔ ∀ r ∈ rows, r.userId = userId → r.status ≠ .pending := by
  unfold existingRequest
  simp only [List.find?_eq_none, Bool.and_eq_true, decide_eq_true_eq, not_and, ne_eq]

/-- An `INSERT` keeps the requests lawful exactly when the user has no pending one. -/
theorem Inv.lawful_insert_iff (hs : Inv s) (hlawful : Lawful session s) :
    Lawful session (s.insert (newRequest newId userId userName reason s.now) hfree) ↔
      existingRequest s.rows userId = none := by
  obtain ⟨hpending, honce, hreads⟩ := hs.lawful_iff_parts.1 hlawful
  rw [(hs.insert hfree).lawful_iff_parts, existingRequest_eq_none_iff]
  constructor
  · intro ⟨hone, _, _⟩ r hr huser hstatus
    -- A pending request of the user would have the id of the new one.
    have hid := hone r (mem_rows_insert.2 (Or.inl hr)) _ (mem_rows_insert.2 (Or.inr rfl)) huser hstatus rfl
    have hsame : r.id = newId := hid
    exact hfree (hsame ▸ List.mem_map_of_mem hr)
  · intro hnone
    refine ⟨fun r hr r' hr' huser hstatus hstatus' => ?_, honce, (readsExpiries_congr fun r happroved => ?_).2 hreads⟩
    · rcases mem_rows_insert.1 hr with hold | rfl
      · rcases mem_rows_insert.1 hr' with hold' | rfl
        · exact hpending r hold r' hold' huser hstatus hstatus'
        · exact absurd hstatus (hnone r hold huser)
      · rcases mem_rows_insert.1 hr' with hold' | rfl
        · exact absurd hstatus' (hnone r' hold' huser.symm)
        · rfl
    · refine mem_rows_insert.trans (or_iff_left fun heq => ?_)
      rw [heq] at happroved
      cases happroved

end create

section update

variable {outcome : Outcome} {f : AccessRequest K → AccessRequest K} {hkey : ∀ r, (f r).id = r.id}

theorem Inv.decideRequest (hs : Inv s) (hf : ∀ r, (f r).outcome = some outcome ∧ (f r).userId = r.userId) :
    Inv (s.decideRequest id outcome f hkey) := by
  by_cases hfound : ∃ r ∈ s.rows, r.id = id
  · obtain ⟨r₀, hr₀, rfl⟩ := hfound
    constructor
    · intro r hr
      rw [decisions_decideRequest hr₀, List.find?_cons]
      rcases mem_rows_decideRequest.1 hr with ⟨hold, hne⟩ | ⟨old, hold, hid, rfl⟩
      -- The new decision is in front, and only the rows with its id find it.
      · rw [decide_eq_false (Ne.symm hne)]
        exact hs.settled r hold
      · have heq : r₀.id = (f old).id := hid.symm.trans (hkey old).symm
        rw [decide_eq_true heq]
        exact (hf old).1
    · intro d hd
      rw [decisions_decideRequest hr₀] at hd
      rcases List.mem_cons.1 hd with rfl | hold
      · exact ⟨f r₀, mem_rows_decideRequest.2 (Or.inr ⟨r₀, hr₀, rfl, rfl⟩), hkey r₀, (hf r₀).2⟩
      · obtain ⟨r, hr, hid, huser⟩ := hs.known d hold
        by_cases hsame : r.id = r₀.id
        · exact ⟨f r, mem_rows_decideRequest.2 (Or.inr ⟨r, hr, hsame, rfl⟩), (hkey r).trans hid,
            (hf r).2.trans huser⟩
        · exact ⟨r, mem_rows_decideRequest.2 (Or.inl ⟨hr, hsame⟩), hid, huser⟩
  · have hid : ∀ r ∈ s.rows, r.id ≠ id := fun r hr heq => hfound ⟨r, hr, heq⟩
    obtain ⟨hrows, hdecisions⟩ := decideRequest_of_not outcome f hkey hid
    exact ⟨by rw [hrows, hdecisions]; exact hs.settled, by rw [hrows, hdecisions]; exact hs.known⟩

/-- The decisions stay different exactly when the request was pending. -/
theorem Inv.nodup_decideRequest_iff (hs : Inv s) (honce : (s.decisions.map Decision.requestId).Nodup) :
    ((s.decideRequest id outcome f hkey).decisions.map Decision.requestId).Nodup ↔ Undecided s.rows id := by
  by_cases hfound : ∃ r ∈ s.rows, r.id = id
  · obtain ⟨r₀, hr₀, rfl⟩ := hfound
    rw [decisions_decideRequest hr₀, List.map_cons, List.nodup_cons, and_iff_left honce,
      ← hs.undecided_iff hr₀]
    constructor
    · intro hpending r hr hid
      obtain rfl := s.table.eq_of_key_eq hr hr₀ hid
      exact hpending
    · intro hundecided
      exact hundecided r₀ hr₀ rfl
  · have hid : ∀ r ∈ s.rows, r.id ≠ id := fun r hr heq => hfound ⟨r, hr, heq⟩
    rw [(decideRequest_of_not outcome f hkey hid).2]
    exact iff_of_true honce fun r hr heq => absurd heq (hid r hr)

/-- An `UPDATE` keeps the requests lawful exactly when it decides a pending request and the expiries are read
well after it. -/
theorem Inv.lawful_decideRequest_iff (hs : Inv s) (hlawful : Lawful session s)
    (hf : ∀ r, (f r).outcome = some outcome ∧ (f r).userId = r.userId) :
    Lawful session (s.decideRequest id outcome f hkey) ↔
      Undecided s.rows id ∧ ReadsExpiries session s.now (s.decideRequest id outcome f hkey).rows := by
  obtain ⟨hpending, honce, _⟩ := hs.lawful_iff_parts.1 hlawful
  have hkept : OnePending (s.decideRequest id outcome f hkey).rows := by
    -- What is still pending has not been decided now.
    have hold : ∀ r ∈ (s.decideRequest id outcome f hkey).rows, r.status = .pending → r ∈ s.rows := by
      intro r hr hstatus
      rcases mem_rows_decideRequest.1 hr with ⟨hr', _⟩ | ⟨old, _, _, rfl⟩
      · exact hr'
      · have hnone := outcome_eq_none_iff.2 hstatus
        rw [(hf old).1] at hnone
        exact absurd hnone (Option.some_ne_none _)
    intro r hr r' hr' huser hstatus hstatus'
    exact hpending r (hold r hr hstatus) r' (hold r' hr' hstatus') huser hstatus hstatus'
  rw [(hs.decideRequest hf).lawful_iff_parts, hs.nodup_decideRequest_iff honce]
  exact and_iff_right hkept

end update

/-! ## The two decisions -/

section decisions

variable {responderId : K} {expiresAt : Option ℤ} {reason : String}

omit [DecidableEq K] in
theorem approve_spec (r : AccessRequest K) :
    (r.approve session now responderId expiresAt).outcome = some (.approved expiresAt) ∧
      (r.approve session now responderId expiresAt).userId = r.userId := ⟨rfl, rfl⟩

omit [DecidableEq K] in
theorem reject_spec (r : AccessRequest K) :
    (r.reject session now responderId reason).outcome = some .rejected ∧
      (r.reject session now responderId reason).userId = r.userId := ⟨rfl, rfl⟩

theorem Inv.grant (hs : Inv s) : Inv (s.grant session id expiresAt responderId) :=
  hs.decideRequest approve_spec

theorem Inv.refuse (hs : Inv s) : Inv (s.refuse session id reason responderId) :=
  hs.decideRequest reject_spec

theorem Inv.lawful_grant_iff (hs : Inv s) (hlawful : Lawful session s) :
    Lawful session (s.grant session id expiresAt responderId) ↔
      Undecided s.rows id ∧ ReadsExpiries session s.now (s.grant session id expiresAt responderId).rows :=
  hs.lawful_decideRequest_iff hlawful approve_spec

/-- A rejection of a pending request takes no approval away. -/
theorem readsExpiries_refuse (hreads : ReadsExpiries session s.now s.rows) (hundecided : Undecided s.rows id) :
    ReadsExpiries session s.now (s.refuse session id reason responderId).rows := by
  refine (readsExpiries_congr fun r happroved => ?_).2 hreads
  refine mem_rows_decideRequest.trans ?_
  constructor
  · rintro (⟨hr, _⟩ | ⟨old, _, _, rfl⟩)
    · exact hr
    · cases happroved
  · intro hr
    refine Or.inl ⟨hr, fun hid => ?_⟩
    -- The request that is rejected was pending, so that no approval is lost with it.
    rw [hundecided r hr hid] at happroved
    cases happroved

theorem Inv.lawful_refuse_iff (hs : Inv s) (hlawful : Lawful session s) :
    Lawful session (s.refuse session id reason responderId) ↔ Undecided s.rows id := by
  have hreads : ReadsExpiries session s.now s.rows := (hs.lawful_iff_parts.1 hlawful).2.2
  refine (hs.lawful_decideRequest_iff hlawful reject_spec).trans (and_iff_left_of_imp fun hundecided => ?_)
  exact readsExpiries_refuse hreads hundecided

end decisions

/-! ## Steps -/

/-- What is kept does not depend on the calls under way. -/
theorem Inv.congr (hs : Inv s) (hrows : t.rows = s.rows) (hdecisions : t.decisions = s.decisions) : Inv t where
  settled := by
    rw [hrows, hdecisions]
    exact hs.settled
  known := by
    rw [hrows, hdecisions]
    exact hs.known

theorem Inv.lawful_congr (hs : Inv s) (hrows : t.rows = s.rows) (hdecisions : t.decisions = s.decisions)
    (hnow : t.now = s.now) : Lawful session t ↔ Lawful session s := by
  rw [(hs.congr hrows hdecisions).lawful_iff_parts, hs.lawful_iff_parts, hrows, hdecisions, hnow]

theorem Inv.lawful_setCall {i : ℕ} {call : Call K} (hs : Inv s) :
    Lawful session (s.setCall i call) ↔ Lawful session s := hs.lawful_congr rfl rfl rfl

variable {server : LocalClock} {i : ℕ} {newId : K}

theorem Inv.proceed {call : Call K} (hs : Inv s) (h : s.proceed server session i newId call = some t) : Inv t := by
  match call, h with
  | .creating userId userName reason, h =>
    simp only [FraudState.proceed] at h
    split_ifs at h with hfree
    obtain rfl := Option.some.inj h
    exact (hs.insert hfree).congr rfl rfl
  | .approving .., h =>
    obtain rfl := Option.some.inj h
    exact hs.congr rfl rfl
  | .granting .., h =>
    obtain rfl := Option.some.inj h
    exact hs.grant.congr rfl rfl
  | .rejecting .., h =>
    obtain rfl := Option.some.inj h
    exact hs.refuse.congr rfl rfl

/-- A call that goes on keeps the requests lawful exactly when its step is orderly. -/
theorem Inv.lawful_proceed_iff {call : Call K} (hs : Inv s) (hlawful : Lawful session s)
    (h : s.proceed server session i newId call = some t) : Lawful session t ↔ OrderlyCall session s call := by
  match call, h with
  | .creating userId userName reason, h =>
    simp only [FraudState.proceed] at h
    split_ifs at h with hfree
    obtain rfl := Option.some.inj h
    refine (hs.insert hfree).lawful_setCall.trans ?_
    exact hs.lawful_insert_iff hfree hlawful
  | .approving .., h =>
    obtain rfl := Option.some.inj h
    refine hs.lawful_setCall.trans ?_
    exact iff_of_true hlawful trivial
  | .granting .., h =>
    obtain rfl := Option.some.inj h
    refine hs.grant.lawful_setCall.trans ?_
    exact hs.lawful_grant_iff hlawful
  | .rejecting .., h =>
    obtain rfl := Option.some.inj h
    refine hs.refuse.lawful_setCall.trans ?_
    exact hs.lawful_refuse_iff hlawful

/-- What a step does: it leaves the requests and the time, or it waits, or a call goes on. -/
theorem step_cases {a : FraudAction K} (h : s.step server session a = some t) :
    (t.rows = s.rows ∧ t.decisions = s.decisions ∧ t.now = s.now ∧ Orderly session s a) ∨
    (∃ ms, a = .wait ms ∧ t = { s with now := s.now + ms }) ∨
    ∃ i newId call, a = .proceed i newId ∧ s.calls[i]? = some call ∧
      s.proceed server session i newId call = some t := by
  cases a with
  | createRequest | approveRequest | rejectRequest =>
    simp only [FraudState.step] at h
    split_ifs at h
    · obtain rfl := Option.some.inj h
      exact Or.inl ⟨rfl, rfl, rfl, trivial⟩
    · obtain rfl := Option.some.inj h
      exact Or.inl ⟨rfl, rfl, rfl, trivial⟩
  | proceed i newId =>
    obtain ⟨call, hcall, hproceed⟩ := Option.bind_eq_some_iff.1 h
    exact Or.inr (Or.inr ⟨i, newId, call, rfl, hcall, hproceed⟩)
  | wait ms => exact Or.inr (Or.inl ⟨ms, rfl, (Option.some.inj h).symm⟩)

theorem Inv.step {a : FraudAction K} (hs : Inv s) (h : s.step server session a = some t) : Inv t := by
  rcases step_cases h with ⟨hrows, hdecisions, _, _⟩ | ⟨ms, _, rfl⟩ | ⟨i, newId, call, _, _, hproceed⟩
  · exact hs.congr hrows hdecisions
  · exact hs.congr rfl rfl
  · exact hs.proceed hproceed

/-- A step keeps the requests lawful exactly when it is orderly. -/
theorem Inv.lawful_step_iff {a : FraudAction K} (hs : Inv s) (hlawful : Lawful session s)
    (h : s.step server session a = some t) : Lawful session t ↔ Orderly session s a := by
  rcases step_cases h with ⟨hrows, hdecisions, hnow, horderly⟩ | ⟨ms, rfl, rfl⟩ | ⟨i, newId, call, rfl, hcall, hproceed⟩
  · exact (hs.lawful_congr hrows hdecisions hnow).trans (iff_of_true hlawful horderly)
  · obtain ⟨hpending, honce, _⟩ := hs.lawful_iff_parts.1 hlawful
    have hwait : Inv { s with now := s.now + ms } := hs.congr rfl rfl
    refine hwait.lawful_iff_parts.trans ?_
    exact (and_iff_right hpending).trans (and_iff_right honce)
  · rw [hs.lawful_proceed_iff hlawful hproceed]
    show OrderlyCall session s call ↔ ∀ call' ∈ s.calls[i]?, OrderlyCall session s call'
    rw [hcall]
    simp only [Option.mem_def, Option.some.injEq, forall_eq']

/-! ## Runs -/

/-- No requests, and no calls under way. -/
def FraudState.init (now : ℤ) : FraudState K := ⟨⟨[], List.nodup_nil⟩, [], now, []⟩

end AlsaqiBackend.Fraud
