import AlsaqiBackend.Events.Delivery

/-!
# What the notification of a finding commits

`createFinding` notifies the managers before it sends its event, and `NotificationService.create` writes in
a transaction of its own. On the embedded database that is the connection of the finding, so its `COMMIT`
commits the finding as well, and its `ROLLBACK` discards it; every error is caught.

`notifyManagers_written` says when the finding is committed by then.
-/

namespace AlsaqiBackend.Events

open AlsaqiBackend.Lib TxM

/-- Nothing has been committed or delivered, and the buffer is the same. -/
structure Agrees {ε : Type} (s t : Session ε) : Prop where
  committed : t.committed = s.committed
  delivered : t.delivered = s.delivered
  buffer : t.buffer = s.buffer

section

variable {σ ε α : Type} {env : Environment σ} {st : σ} {s t u : Session ε} {m : TxM (List ε) α}

theorem Agrees.refl (s : Session ε) : Agrees s s := ⟨rfl, rfl, rfl⟩

theorem Agrees.trans (h : Agrees s t) (h' : Agrees t u) : Agrees s u :=
  ⟨h'.committed.trans h.committed, h'.delivered.trans h.delivered, h'.buffer.trans h.buffer⟩

/-- The transaction of the connection is what may change. -/
theorem Agrees.set_tx (tx : Option (Tx (List ε))) : Agrees s { s with tx } := ⟨rfl, rfl, rfl⟩

theorem keeps_ask : Keeps (ask env st : TxM (List ε) Bool) := by
  refine Keeps.query fun db db' found hok => ?_
  cases hanswer : env.answer st with
  | fails e =>
    rw [hanswer] at hok
    cases hok
  | rows other =>
    rw [hanswer] at hok
    exact (Prod.mk.inj (Except.ok.inj hok)).1.symm

theorem agrees_onConnection (hm : Keeps m) : Agrees s (after (onConnection m) s) := by
  unfold after onConnection
  cases htx : s.tx with
  | some tx =>
    dsimp only
    cases (m tx).1 with
    | ok a => exact .set_tx _
    | error e => exact .set_tx _
  | none =>
    dsimp only
    have hnothing : (TxM.transaction m []).2 = [] := hm.transaction []
    cases hresult : (TxM.transaction m []).1 with
    | ok a => exact ⟨by rw [hnothing, List.append_nil], rfl, rfl⟩
    | error e => exact ⟨by rw [hnothing, List.append_nil], rfl, rfl⟩

end

section

variable {world : World} {userIds : List String} {st : String → Statement} {s : Session String}

/-! ## The statements -/

theorem keeps_askEach : Keeps (askEach world st userIds) := by
  induction userIds with
  | nil => exact .pure
  | cons userId userIds ih => exact keeps_ask.bind fun _ => ih

theorem endsWell_askEach {changes : List String} {tx : Tx (List String)} :
    EndsWell (askEach world st userIds) ⟨changes, false⟩ () tx ↔
      (∀ userId ∈ userIds, world.succeeds (st userId) = true) ∧ tx = ⟨changes, false⟩ := by
  induction userIds with
  | nil =>
    unfold askEach
    rw [endsWell_pure]
    simp
  | cons userId userIds ih =>
    unfold askEach
    rw [endsWell_ask_any_bind, ih, List.forall_mem_cons, and_assoc]

theorem staysAborted_askEach : StaysAborted (askEach world st userIds) := by
  induction userIds with
  | nil => exact .pure
  | cons userId userIds ih => exact (StaysAborted.query _).bind fun _ => ih

theorem keeps_insertNotification : Keeps (insertNotification world userIds) := by
  refine keeps_ask.bind fun newId => ?_
  cases newId with
  | true => exact keeps_askEach.bind fun _ => keeps_askEach
  | false => exact .pure

/-- The statements of the notification succeed. -/
def Inserts (world : World) (targetUserIds : List String) : Prop :=
  world.succeeds .insertNotification = true ∧ (world.finds .insertNotification = true →
    (∀ userId ∈ targetUserIds, world.succeeds (.insertRecipient userId) = true) ∧
      ∀ userId ∈ targetUserIds.tail, world.succeeds (.insertForUser userId) = true)

theorem endsWell_insertNotification {changes : List String} {tx : Tx (List String)} :
    EndsWell (insertNotification world userIds) ⟨changes, false⟩ () tx ↔
      Inserts world userIds ∧ tx = ⟨changes, false⟩ := by
  have hrows : EndsWell (do
        askEach world .insertRecipient userIds
        askEach world .insertForUser userIds.tail) ⟨changes, false⟩ () tx ↔
      ((∀ userId ∈ userIds, world.succeeds (.insertRecipient userId) = true) ∧
        ∀ userId ∈ userIds.tail, world.succeeds (.insertForUser userId) = true) ∧
          tx = ⟨changes, false⟩ := by
    rw [endsWell_bind fun _ => staysAborted_askEach]
    constructor
    · rintro ⟨_, _, hrecipients, hrest⟩
      obtain ⟨hsucceed, rfl⟩ := endsWell_askEach.1 hrecipients
      obtain ⟨husers, rfl⟩ := endsWell_askEach.1 hrest
      exact ⟨⟨hsucceed, husers⟩, rfl⟩
    · rintro ⟨⟨hrecipients, husers⟩, rfl⟩
      exact ⟨(), _, endsWell_askEach.2 ⟨hrecipients, rfl⟩, endsWell_askEach.2 ⟨husers, rfl⟩⟩
  unfold insertNotification Inserts
  rw [endsWell_ask_bind, succeeds_iff, finds_iff]
  constructor
  · rintro ⟨newId, hanswer, hrest⟩
    cases newId with
    | true =>
      rw [if_pos rfl] at hrest
      exact ⟨⟨⟨true, hanswer⟩, fun _ => (hrows.1 hrest).1⟩, (hrows.1 hrest).2⟩
    | false =>
      rw [if_neg Bool.false_ne_true, endsWell_pure] at hrest
      refine ⟨⟨⟨false, hanswer⟩, fun hfinds => ?_⟩, hrest.2.2⟩
      rw [hanswer] at hfinds
      cases hfinds
  · rintro ⟨⟨⟨newId, hanswer⟩, hinserts⟩, htx⟩
    refine ⟨newId, hanswer, ?_⟩
    cases newId with
    | true =>
      rw [if_pos rfl]
      exact hrows.2 ⟨hinserts hanswer, htx⟩
    | false =>
      rw [if_neg Bool.false_ne_true, endsWell_pure]
      exact ⟨rfl, rfl, htx⟩

/-! ## The inner call -/

/-- The finding is written, and not committed. -/
def written : Session String := { inside with tx := some ⟨["finding.created"], false⟩ }

/-- The inner call reaches its end. -/
structure InnerCommits (world : World) : Prop where
  connect : world.command .inner .connect = none
  begins : world.command .inner .begin = none
  commits : world.command .inner .commit = none

variable {body : TxM (List String) Unit}

/-- What the inner transaction has seen of the finding. -/
def seen (world : World) : List String := if world.isExternal then [] else ["finding.created"]

theorem beginTx_written (hbegins : world.command .inner .begin = none) :
    beginTx world.toEnvironment .inner (written.enter world.isExternal) =
      .ok () { inside with tx := some ⟨seen world, false⟩ } := by
  unfold beginTx seen
  rw [hbegins]
  cases world.isExternal <;> rfl

/-- On the embedded database, an inner call that returns well commits the finding. -/
theorem inner_commits (hembedded : world.isExternal = false) (hcommands : InnerCommits world)
    (hbody : EndsWell body ⟨seen world, false⟩ () ⟨seen world, false⟩) :
    transaction world.toEnvironment world.isExternal .inner (onConnection body) written =
      .ok () ⟨["finding.created"], none, some [], []⟩ := by
  rw [transaction_of_begins hcommands.connect (beginTx_written hcommands.begins),
    onConnection_of_tx rfl, hbody.1, hcommands.commits]
  unfold seen
  rw [hembedded]
  rfl

/-- Any other inner call commits nothing. -/
theorem inner_agrees (hkeeps : Keeps body) (h : world.isExternal = false → InnerCommits world →
      ¬ EndsWell body ⟨seen world, false⟩ () ⟨seen world, false⟩) :
    Agrees written (after (transaction world.toEnvironment world.isExternal .inner (onConnection body))
      written) := by
  unfold after
  cases hconnect : world.command .inner .connect with
  | some e =>
    unfold transaction
    rw [hconnect]
    exact .refl written
  | none =>
    cases hbegins : world.command .inner .begin with
    | some e =>
      unfold transaction beginTx
      rw [hconnect]
      dsimp only [bind, EStateM.bind]
      rw [hbegins]
      exact ⟨rfl, rfl, rfl⟩
    | none =>
      rw [transaction_of_begins hconnect (beginTx_written hbegins), onConnection_of_tx rfl]
      have hdb : (body ⟨seen world, false⟩).2.db = seen world := hkeeps _
      match hresult : body ⟨seen world, false⟩ with
      | (.error e, tx) => exact ⟨rfl, rfl, rfl⟩
      | (.ok (), tx) =>
        rw [hresult] at hdb
        dsimp only at hdb ⊢
        cases hcommits : world.command .inner .commit with
        | some e => exact ⟨rfl, rfl, rfl⟩
        | none =>
          obtain ⟨db, aborted⟩ := tx
          obtain rfl : db = seen world := hdb
          cases aborted with
          | true => exact ⟨rfl, rfl, rfl⟩
          | false =>
            cases hexternal : world.isExternal with
            | false =>
              exact absurd ⟨hresult, rfl⟩ (h hexternal ⟨hconnect, hbegins, hcommits⟩)
            | true =>
              -- The transaction of another connection does not see the finding.
              have hseen : seen world = [] := if_pos hexternal
              rw [hseen]
              exact ⟨rfl, rfl, rfl⟩

/-! ## The notification -/

/-- What is caught leaves the session as it is then. -/
theorem tryCatch_pure_apply {m : SessionM String Unit} :
    (tryCatch m fun _ => pure ()) s = .ok () (after m s) := by
  unfold after
  dsimp only [tryCatch, tryCatchThe, MonadExceptOf.tryCatch, EStateM.tryCatch]
  cases m s <;> rfl

theorem after_discard {α : Type} {m : SessionM String α} : after (do let _ ← m) s = after m s := by
  unfold after
  dsimp only [bind, EStateM.bind]
  cases m s <;> rfl

theorem agrees_insertLegacyRows (s : Session String) : ∃ t, insertLegacyRows world userIds s = .ok () t ∧ Agrees s t := by
  induction userIds generalizing s with
  | nil => exact ⟨s, rfl, .refl s⟩
  | cons userId userIds ih =>
    have hfirst : Agrees s (after (onConnection (ask world.toEnvironment (.insertLegacy userId))) s) :=
      agrees_onConnection keeps_ask
    have hcaught : (tryCatch (do let _ ← onConnection (ask world.toEnvironment (.insertLegacy userId)))
        (fun _ => pure ()) : SessionM String Unit) s =
          .ok () (after (onConnection (ask world.toEnvironment (.insertLegacy userId))) s) := by
      rw [tryCatch_pure_apply, after_discard]
    obtain ⟨t, hrest, hagrees⟩ := ih (after (onConnection _) s)
    refine ⟨t, ?_, hfirst.trans hagrees⟩
    unfold insertLegacyRows
    dsimp only [bind, EStateM.bind] at hcaught ⊢
    rw [hcaught]
    exact hrest

/-- The notification commits the finding. -/
structure Notifies (world : World) (userId : String) : Prop extends InnerCommits world where
  embedded : world.isExternal = false
  selectAdmins : world.succeeds .selectAdmins = true
  selectManagers : world.succeeds .selectManagers = true
  targets : targetUserIds (allTargetIds world) userId ≠ []
  inserts : Inserts world (targetUserIds (allTargetIds world) userId)

/-- With the statements of the inner call succeeding, `create` commits the finding. -/
theorem createNotification_commits (hembedded : world.isExternal = false) (hcommands : InnerCommits world)
    (htargets : userIds ≠ []) (hinserts : Inserts world userIds) :
    createNotification world userIds written = .ok () ⟨["finding.created"], none, some [], []⟩ := by
  have hinner := inner_commits hembedded hcommands (endsWell_insertNotification.2 ⟨hinserts, rfl⟩)
  unfold createNotification
  rw [if_neg (by rwa [List.isEmpty_iff])]
  dsimp only [tryCatch, tryCatchThe, MonadExceptOf.tryCatch, EStateM.tryCatch]
  rw [hinner]

/-- Otherwise it commits nothing. -/
theorem createNotification_agrees (userIds : List String) (h : world.isExternal = false → InnerCommits world → userIds ≠ [] →
      ¬ Inserts world userIds) :
    ∃ t, createNotification world userIds written = .ok () t ∧ Agrees written t := by
  unfold createNotification
  by_cases htargets : userIds = []
  · rw [if_pos (List.isEmpty_iff.2 htargets)]
    exact ⟨written, rfl, .refl written⟩
  · rw [if_neg (by rwa [List.isEmpty_iff])]
    have hinner : Agrees written (after (transaction world.toEnvironment world.isExternal .inner
        (onConnection (insertNotification world userIds))) written) :=
      inner_agrees keeps_insertNotification fun hembedded hcommands hends =>
        h hembedded hcommands htargets (endsWell_insertNotification.1 hends).1
    unfold after at hinner
    dsimp only [tryCatch, tryCatchThe, MonadExceptOf.tryCatch, EStateM.tryCatch]
    match hresult : transaction world.toEnvironment world.isExternal .inner
        (onConnection (insertNotification world userIds)) written with
    | .ok () t =>
      rw [hresult] at hinner
      exact ⟨t, rfl, hinner⟩
    | .error e t =>
      rw [hresult] at hinner
      obtain ⟨u, hlegacy, hagrees⟩ := agrees_insertLegacyRows t
      exact ⟨u, hlegacy, hinner.trans hagrees⟩

theorem onConnection_ask_rows {st : Statement} {found : Bool} (h : world.answer st = .rows found) :
    onConnection (ask world.toEnvironment st) written = .ok found written := by
  rw [onConnection_of_tx rfl]
  unfold ask
  rw [query_apply, h]
  rfl

theorem onConnection_ask_fails {st : Statement} {e : String} (h : world.answer st = .fails e) :
    onConnection (ask world.toEnvironment st) written =
      .error e { inside with tx := some ⟨["finding.created"], true⟩ } := by
  rw [onConnection_of_tx rfl]
  unfold ask
  rw [query_apply, h]
  rfl

theorem not_succeeds {st : Statement} {e : String} (h : world.answer st = .fails e) :
    ¬ world.succeeds st = true := by
  rw [succeeds_iff]
  rintro ⟨found, hrows⟩
  rw [h] at hrows
  cases hrows

/-- A notification that is sent to nobody commits nothing. -/
theorem targetUserIds_nil {actorId : String} : targetUserIds [] actorId = [] := ite_self _

/-- The finding is committed before the event exactly when the notification commits it. -/
theorem notifyManagers_written (world : World) (userId : String) : ∃ t, notifyManagers world userId written = .ok () t ∧
    t.delivered = [] ∧ t.buffer = some [] ∧ ("finding.created" ∈ t.committed ↔ Notifies world userId) := by
  -- Whatever commits nothing leaves the finding uncommitted.
  have hagrees : ∀ t : Session String, Agrees written t → ¬ Notifies world userId →
      t.delivered = [] ∧ t.buffer = some [] ∧ ("finding.created" ∈ t.committed ↔ Notifies world userId) := by
    intro t ht hnot
    refine ⟨ht.delivered, ht.buffer, iff_of_false ?_ hnot⟩
    rw [ht.committed]
    exact List.not_mem_nil
  unfold notifyManagers
  rw [tryCatch_pure_apply]
  refine ⟨_, rfl, ?_⟩
  unfold after
  dsimp only [bind, EStateM.bind]
  cases hadmins : world.answer .selectAdmins with
  | fails e =>
    rw [onConnection_ask_fails hadmins]
    exact hagrees _ ⟨rfl, rfl, rfl⟩ fun h => not_succeeds hadmins h.selectAdmins
  | rows admins =>
    rw [onConnection_ask_rows hadmins]
    dsimp only
    cases hmanagers : world.answer .selectManagers with
    | fails e =>
      rw [onConnection_ask_fails hmanagers]
      exact hagrees _ ⟨rfl, rfl, rfl⟩ fun h => not_succeeds hmanagers h.selectManagers
    | rows managers =>
      rw [onConnection_ask_rows hmanagers]
      dsimp only
      by_cases hempty : (allTargetIds world).isEmpty
      · rw [if_pos hempty]
        refine hagrees _ (.refl written) fun h => h.targets ?_
        rw [List.isEmpty_iff.1 hempty]
        exact targetUserIds_nil
      · rw [if_neg hempty]
        by_cases hnotifies : Notifies world userId
        · rw [createNotification_commits hnotifies.embedded hnotifies.toInnerCommits hnotifies.targets
            hnotifies.inserts]
          exact ⟨rfl, rfl, iff_of_true (List.mem_singleton_self _) hnotifies⟩
        · obtain ⟨t, hresult, ht⟩ := createNotification_agrees (targetUserIds (allTargetIds world) userId)
            fun hembedded hcommands htargets hinserts => hnotifies
              ⟨hcommands, hembedded, succeeds_iff.2 ⟨admins, hadmins⟩, succeeds_iff.2 ⟨managers, hmanagers⟩,
                htargets, hinserts⟩
          rw [hresult]
          exact hagrees t ht hnotifies

end

end AlsaqiBackend.Events
