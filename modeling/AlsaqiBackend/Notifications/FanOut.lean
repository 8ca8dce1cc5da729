import AlsaqiBackend.Notifications.Service
import Mathlib.Data.List.MinMax
import Mathlib.Data.List.Nodup

/-!
# Who gets a notification

After `create`, every listed user who exists and is not the actor should have one new item in the feed, which
counts as unread, and the feeds of all others should be as before. A recipient that is listed twice has two
items, and one that does not exist fails the transaction for all: the fallback writes rows that no feed reads.
Inside of another transaction, the failure also ends or aborts that one.

`fansOut_iff` says for which requests, sessions and databases the feeds are right.
-/

namespace AlsaqiBackend.Notifications

open AlsaqiBackend.Lib TxM

variable {U : Type} [DecidableEq U]

/-! ## What `create` is for -/

/-- The user exists and is listed, under any text of the id, and is not the actor. -/
def Expected (ids : IdText U) (req : CreateRequest) (s : Session U) (listed : List String) (u : U) : Prop :=
  u ∈ s.sees.users.map UserRow.id ∧ (∃ id ∈ listed, ids.parse id = some u) ∧
    req.actor.bind ids.parse ≠ some u

/-- The feed of the user has one item more, that of a new notification with the message. -/
structure GainsOne (req : CreateRequest) (newId : ℕ) (before after : NotificationDb U) (u : U) : Prop where
  item : ∃ item : NotificationFeedItem U, item.notification.id = newId ∧
    item.notification.description = req.message ∧ item.isRead = false ∧
      (after.getNotifications u).Perm (item :: before.getNotifications u)
  total : after.total u = before.total u + 1
  unread : after.getUnreadCount u = before.getUnreadCount u + 1

/-- The feed of the user has not changed. -/
structure SameFeed (before after : NotificationDb U) (u : U) : Prop where
  items : (after.getNotifications u).Perm (before.getNotifications u)
  total : after.total u = before.total u
  unread : after.getUnreadCount u = before.getUnreadCount u

def FansOut (ids : IdText U) (isExternal : Bool) (req : CreateRequest) (s : Session U) : Prop :=
  ∀ listed after, recipientList ids req.recipientIds s = some listed → create ids isExternal req s = some after →
    ∀ u, (Expected ids req s listed u → GainsOne req s.newId s.sees after.sees u) ∧
      (¬Expected ids req s listed u → SameFeed s.sees after.sees u)

/-! ## When it does it -/

/-- The database on which the fan-out runs. -/
def Session.inner (s : Session U) (isExternal : Bool) : NotificationDb U :=
  match s.tx with
  | none => s.committed
  | some tx => if isExternal then s.committed else tx.db

/-- A notification for each of these users can be inserted. -/
structure Accepts (ids : IdText U) (held : U → Bool) (req : CreateRequest) (users : List (UserRow U))
    (targetUserIds : List String) : Prop where
  targets : ∀ uid ∈ targetUserIds, (reference ids held users uid).isSome = true
  actor : (actorColumn ids held users req).isSome = true
  storable : req.storable = true

/-- The fan-out succeeds. -/
structure Stores (ids : IdText U) (isExternal : Bool) (req : CreateRequest) (s : Session U)
    (targetUserIds : List String) : Prop where
  accepts : Accepts ids (s.held isExternal) req (s.inner isExternal).users targetUserIds
  open_ : isExternal = false → ∀ tx ∈ s.tx, tx.aborted = false

/-- It succeeds, no recipient is listed twice, and the actor is not listed under another text. -/
structure Deliverable (ids : IdText U) (isExternal : Bool) (req : CreateRequest) (s : Session U)
    (targetUserIds : List String) : Prop extends Stores ids isExternal req s targetUserIds where
  distinct : (targetUserIds.map ids.parse).Nodup
  apart : ∀ uid ∈ targetUserIds, ∀ u, ids.parse uid = some u → req.actor.bind ids.parse ≠ some u

/-- A failure leaves the work of the caller as it is: there is no transaction, or one that is already lost, or
one in which the rows of the fallback can be inserted. -/
def Session.Survives (ids : IdText U) (isExternal : Bool) (req : CreateRequest) (s : Session U)
    (targetUserIds : List String) : Prop :=
  ∀ tx ∈ s.tx, tx.aborted = true ∨
    isExternal = true ∧ Accepts ids (fun _ => false) req tx.db.users targetUserIds

variable {ids : IdText U} {held : U → Bool} {req : CreateRequest} {db before after : NotificationDb U}
  {newId : ℕ} {uid : String} {u : U} {users : List U} {targetUserIds listed : List String} {s : Session U}
  {isExternal : Bool}

/-! ## Feeds -/

theorem SameFeed.refl (db : NotificationDb U) (u : U) : SameFeed db db u := ⟨.refl _, rfl, rfl⟩

theorem SameFeed.symm (h : SameFeed before after u) : SameFeed after before u :=
  ⟨h.items.symm, h.total.symm, h.unread.symm⟩

theorem SameFeed.trans (h : SameFeed before db u) (h' : SameFeed db after u) : SameFeed before after u :=
  ⟨h'.items.trans h.items, h'.total.trans h.total, h'.unread.trans h.unread⟩

/-- The ids of a database are below this one. -/
structure Below (newId : ℕ) (db : NotificationDb U) : Prop where
  notifications : ∀ n ∈ db.notifications, n.id < newId
  recipients : ∀ r ∈ db.recipients, r.notificationId < newId

/-- The rows of a fan-out: a notification with its recipients, and others of the old form. -/
structure Delivered (req : CreateRequest) (newId : ℕ) (users : List U) (before after : NotificationDb U) :
    Prop where
  recipients : after.recipients = before.recipients ++ users.map (⟨newId, ·, false, false⟩)
  notifications : ∃ row rows, row.id = newId ∧ row.description = req.message ∧ (∀ r ∈ rows, newId < r.id) ∧
    after.notifications = before.notifications ++ row :: rows

/-- Notifications of the old form only. -/
structure LegacyOnly (newId : ℕ) (before after : NotificationDb U) : Prop where
  recipients : after.recipients = before.recipients
  notifications : ∃ rows, (∀ r ∈ rows, newId ≤ r.id) ∧ after.notifications = before.notifications ++ rows

theorem le_foldr_max {l : List ℕ} {n : ℕ} (h : n ∈ l) : n ≤ l.foldr max 0 := by
  induction l with
  | nil => cases h
  | cons m l ih =>
    rw [List.foldr_cons]
    rcases List.mem_cons.1 h with rfl | h
    · exact le_max_left _ _
    · exact (ih h).trans (le_max_right _ _)

omit [DecidableEq U] in
theorem below_of_bound_le (h : db.bound ≤ newId) : Below newId db := by
  unfold NotificationDb.bound at h
  constructor
  · intro n hn
    have hle := le_foldr_max (List.mem_append_left (db.recipients.map RecipientRow.notificationId)
      (List.mem_map_of_mem (f := NotificationRow.id) hn))
    omega
  · intro r hr
    have hle := le_foldr_max (List.mem_append_right (db.notifications.map NotificationRow.id)
      (List.mem_map_of_mem (f := RecipientRow.notificationId) hr))
    omega

omit [DecidableEq U] in
/-- The id of a session is new in what is committed and in its transaction. -/
theorem Session.below (s : Session U) : Below s.newId s.committed ∧ ∀ tx ∈ s.tx, Below s.newId tx.db := by
  unfold Session.newId
  cases htx : s.tx with
  | none => exact ⟨below_of_bound_le le_rfl, fun tx h => by cases h⟩
  | some tx =>
    refine ⟨below_of_bound_le (le_max_left _ _), fun tx' h => ?_⟩
    obtain rfl := Option.some.inj h
    exact below_of_bound_le (le_max_right _ _)

omit [DecidableEq U] in
theorem Session.below_sees (s : Session U) : Below s.newId s.sees := by
  unfold Session.sees
  cases htx : s.tx with
  | none => exact s.below.1
  | some tx =>
    dsimp only
    split_ifs
    · exact s.below.1
    · exact s.below.2 tx htx

omit [DecidableEq U] in
/-- New notifications do not show for a recipient of an old one. -/
theorem itemsOf_append {rows : List (NotificationRow U)} (hrows : ∀ n ∈ rows, newId ≤ n.id)
    (hnotifications : after.notifications = before.notifications ++ rows) {r : RecipientRow U}
    (hr : r.notificationId < newId) : after.itemsOf r = before.itemsOf r := by
  have hnone : rows.filter (·.id = r.notificationId) = [] := by
    rw [List.filter_eq_nil_iff]
    intro n hn
    have hle := hrows n hn
    rw [decide_eq_true_eq]
    omega
  unfold NotificationDb.itemsOf
  rw [hnotifications, List.filter_append, hnone, List.append_nil]

theorem LegacyOnly.sameFeed (h : LegacyOnly newId before after) (hbelow : Below newId before) (u : U) :
    SameFeed before after u := by
  obtain ⟨rows, hrows, hnotifications⟩ := h.notifications
  have hitems : after.getNotifications u = before.getNotifications u := by
    unfold NotificationDb.getNotifications
    rw [h.recipients]
    exact List.flatMap_congr fun r hr =>
      itemsOf_append hrows hnotifications (hbelow.recipients r (List.mem_of_mem_filter hr))
  refine ⟨.of_eq hitems, ?_, ?_⟩
  · unfold NotificationDb.total
    rw [h.recipients]
  · unfold NotificationDb.getUnreadCount
    rw [h.recipients]

/-- The items of the feed are of notifications that are there. -/
theorem id_lt_of_mem_getNotifications (hbelow : Below newId before) {item : NotificationFeedItem U}
    (h : item ∈ before.getNotifications u) : item.notification.id < newId := by
  unfold NotificationDb.getNotifications at h
  obtain ⟨r, -, hitem⟩ := List.mem_flatMap.1 h
  obtain ⟨n, hn, rfl⟩ := List.mem_map.1 hitem
  exact hbelow.notifications n (List.mem_of_mem_filter hn)

/-- The new recipients of a user. -/
theorem countP_recipients {p : RecipientRow U → Bool} (u : U)
    (hp : ∀ v, p ⟨newId, v, false, false⟩ = decide (v = u)) (users : List U) :
    (users.map (⟨newId, ·, false, false⟩)).countP p = users.count u := by
  rw [List.countP_map]
  unfold List.count
  refine List.countP_congr fun v _ => ?_
  rw [Function.comp_apply, hp, decide_eq_true_eq, beq_iff_eq]

/-- What they see of the notification. -/
theorem flatMap_recipients {item : NotificationFeedItem U}
    (hnew : ∀ v, after.itemsOf ⟨newId, v, false, false⟩ = [item]) (u : U) (users : List U) :
    ((users.map (⟨newId, ·, false, false⟩)).filter fun r => r.recipientId = u && !r.isDismissed).flatMap
      after.itemsOf = List.replicate (users.count u) item := by
  induction users with
  | nil => rfl
  | cons v users ih =>
    rw [List.map_cons, List.count_cons]
    by_cases hv : v = u
    · rw [List.filter_cons_of_pos (by simp [hv]), List.flatMap_cons, ih, if_pos (by simp [hv]), hnew,
        List.replicate_succ]
      rfl
    · rw [List.filter_cons_of_neg (by simp [hv]), ih, if_neg (by simp [hv]), Nat.add_zero]

/-- A fan-out adds an item for each time that the user is a recipient. -/
theorem Delivered.feed (h : Delivered req newId users before after) (hbelow : Below newId before) (u : U) :
    (∃ item : NotificationFeedItem U, item.notification.id = newId ∧ item.notification.description = req.message ∧
        item.isRead = false ∧
          after.getNotifications u = before.getNotifications u ++ List.replicate (users.count u) item) ∧
      after.total u = before.total u + users.count u ∧
        after.getUnreadCount u = before.getUnreadCount u + users.count u := by
  obtain ⟨row, rows, hid, hmessage, hrows, hnotifications⟩ := h.notifications
  refine ⟨⟨⟨row, false⟩, hid, hmessage, rfl, ?_⟩, ?_, ?_⟩
  · have hadded : ∀ n ∈ row :: rows, newId ≤ n.id := by
      intro n hn
      rcases List.mem_cons.1 hn with rfl | hn
      · exact hid.ge
      · exact (hrows n hn).le
    have hnew : ∀ v, after.itemsOf ⟨newId, v, false, false⟩ = [⟨row, false⟩] := by
      intro v
      have hbefore : before.notifications.filter (·.id = newId) = [] := by
        rw [List.filter_eq_nil_iff]
        intro n hn
        have hlt := hbelow.notifications n hn
        rw [decide_eq_true_eq]
        omega
      have hrest : rows.filter (·.id = newId) = [] := by
        rw [List.filter_eq_nil_iff]
        intro n hn
        have hlt := hrows n hn
        rw [decide_eq_true_eq]
        omega
      have hrow : (row :: rows).filter (·.id = newId) = [row] := by
        rw [List.filter_cons_of_pos (by exact decide_eq_true hid), hrest]
      unfold NotificationDb.itemsOf
      rw [hnotifications, List.filter_append, hbefore, List.nil_append, hrow]
      rfl
    unfold NotificationDb.getNotifications
    rw [h.recipients, List.filter_append, List.flatMap_append, flatMap_recipients hnew]
    congr 1
    exact List.flatMap_congr fun r hr =>
      itemsOf_append hadded hnotifications (hbelow.recipients r (List.mem_of_mem_filter hr))
  · unfold NotificationDb.total
    rw [h.recipients, List.countP_append, countP_recipients u fun v => by simp]
  · unfold NotificationDb.getUnreadCount
    rw [h.recipients, List.countP_append, countP_recipients u fun v => by simp]

/-! ## The fan-out -/

theorem insertNotification_ok (title : Option String) (newId : ℕ) {actorId : Option U}
    (huser : reference ids held db.users uid = some u) (hactor : actorColumn ids held db.users req = some actorId)
    (hstorable : req.storable = true) :
    insertNotification ids held req title newId uid ⟨db, false⟩ = (.ok (),
      ⟨{ db with notifications := db.notifications ++ [req.row title newId u actorId] }, false⟩) := by
  unfold insertNotification
  rw [query_apply, huser, hactor]
  dsimp only
  rw [if_pos hstorable]

/-- A row that is rejected aborts the transaction. -/
theorem insertNotification_error (title : Option String) (newId : ℕ) (h : ¬Accepts ids held req db.users [uid]) :
    ∃ e, insertNotification ids held req title newId uid ⟨db, false⟩ = (.error e, ⟨db, true⟩) := by
  unfold insertNotification
  rw [query_apply]
  cases huser : reference ids held db.users uid with
  | none => exact ⟨_, rfl⟩
  | some u =>
    cases hactor : actorColumn ids held db.users req with
    | none => exact ⟨_, rfl⟩
    | some actorId =>
      have hstorable : ¬req.storable = true := by
        intro hstorable
        refine h ⟨fun uid' huid' => ?_, by rw [hactor]; rfl, hstorable⟩
        rw [List.mem_singleton.1 huid', huser]
        rfl
      dsimp only
      rw [if_neg hstorable]
      exact ⟨_, rfl⟩

theorem insertRecipients_ok (hrefs : targetUserIds.map (reference ids held db.users) = users.map some) :
    insertRecipients ids held newId targetUserIds ⟨db, false⟩ = (.ok (),
      ⟨{ db with recipients := db.recipients ++ users.map (⟨newId, ·, false, false⟩) }, false⟩) := by
  induction targetUserIds generalizing users db with
  | nil =>
    obtain rfl := List.map_eq_nil_iff.1 hrefs.symm
    rw [List.map_nil, List.append_nil]
    rfl
  | cons uid targetUserIds ih =>
    obtain ⟨u, users, rfl, huser, hrest⟩ := List.map_eq_cons_iff.1 hrefs.symm
    have hinsert : insertRecipient ids held newId uid ⟨db, false⟩ =
        (.ok (), ⟨{ db with recipients := db.recipients ++ [⟨newId, u, false, false⟩] }, false⟩) := by
      unfold insertRecipient
      rw [query_apply, ← huser]
    rw [insertRecipients, bind_apply, hinsert]
    have hlater := @ih { db with recipients := db.recipients ++ [⟨newId, u, false, false⟩] } users hrest.symm
    dsimp only at hlater ⊢
    rw [hlater, List.append_assoc, List.map_cons, List.singleton_append]

theorem insertRecipients_error (h : ∃ uid ∈ targetUserIds, reference ids held db.users uid = none) :
    ∃ e tx, insertRecipients ids held newId targetUserIds ⟨db, false⟩ = (.error e, tx) := by
  induction targetUserIds generalizing db with
  | nil =>
    obtain ⟨uid, huid, -⟩ := h
    cases huid
  | cons uid targetUserIds ih =>
    rw [insertRecipients, bind_apply]
    unfold insertRecipient
    rw [query_apply]
    cases huser : reference ids held db.users uid with
    | none => exact ⟨_, _, rfl⟩
    | some u =>
      obtain ⟨uid', huid', hnone⟩ := h
      have hlater : ∃ uid ∈ targetUserIds, reference ids held db.users uid = none := by
        refine ⟨uid', (List.mem_cons.1 huid').resolve_left ?_, hnone⟩
        rintro rfl
        exact absurd (huser.symm.trans hnone) (Option.some_ne_none u)
      exact @ih { db with recipients := db.recipients ++ [⟨newId, u, false, false⟩] } hlater

theorem insertOthers_ok {actorId : Option U}
    (hrefs : targetUserIds.map (reference ids held db.users) = users.map some)
    (hactor : actorColumn ids held db.users req = some actorId) (hstorable : req.storable = true) :
    ∃ rows, (∀ r ∈ rows, newId ≤ r.id) ∧ insertOthers ids held req newId targetUserIds ⟨db, false⟩ =
      (.ok (), ⟨{ db with notifications := db.notifications ++ rows }, false⟩) := by
  induction targetUserIds generalizing users db newId with
  | nil => exact ⟨[], fun r hr => absurd hr List.not_mem_nil, by rw [List.append_nil]; rfl⟩
  | cons uid targetUserIds ih =>
    obtain ⟨u, users, rfl, huser, hrest⟩ := List.map_eq_cons_iff.1 hrefs.symm
    have hinsert := insertNotification_ok (req.title.filter (· ≠ "")) newId huser.symm hactor hstorable
    obtain ⟨row, hrow⟩ : ∃ row, req.row (req.title.filter (· ≠ "")) newId u actorId = row := ⟨_, rfl⟩
    have hid : row.id = newId := by rw [← hrow, CreateRequest.row]
    rw [hrow] at hinsert
    obtain ⟨rows, hrows, hothers⟩ :=
      @ih { db with notifications := db.notifications ++ [row] } (newId + 1) users hrest.symm hactor
    refine ⟨row :: rows, fun r hr => ?_, ?_⟩
    · rcases List.mem_cons.1 hr with rfl | hr
      · exact hid.ge
      · exact (Nat.le_succ newId).trans (hrows r hr)
    · rw [insertOthers, bind_apply, hinsert]
      dsimp only at hothers ⊢
      rw [hothers, List.append_assoc, List.singleton_append]

/-- The references of recipients that are all accepted. -/
theorem exists_users {us : List (UserRow U)} (h : ∀ uid ∈ targetUserIds, (reference ids held us uid).isSome = true) :
    ∃ users : List U, targetUserIds.map (reference ids held us) = users.map some := by
  induction targetUserIds with
  | nil => exact ⟨[], rfl⟩
  | cons uid targetUserIds ih =>
    obtain ⟨users, hrest⟩ := ih fun uid' huid' => h uid' (List.mem_cons_of_mem _ huid')
    obtain ⟨u, huser⟩ := Option.isSome_iff_exists.1 (h uid List.mem_cons_self)
    exact ⟨u :: users, by rw [List.map_cons, List.map_cons, huser, hrest]⟩

/-- When every row is accepted, the fan-out writes them all. -/
theorem fanOut_accepts (newId : ℕ) (h : Accepts ids held req db.users targetUserIds) (hne : targetUserIds ≠ []) :
    ∃ (users : List U) (after : NotificationDb U), targetUserIds.map (reference ids held db.users) = users.map some ∧
      fanOut ids held req newId targetUserIds ⟨db, false⟩ = (.ok (), ⟨after, false⟩) ∧ after.users = db.users ∧
        Delivered req newId users db after := by
  obtain ⟨users, hrefs⟩ := exists_users h.targets
  obtain ⟨actorId, hactor⟩ := Option.isSome_iff_exists.1 h.actor
  obtain ⟨first, others, rfl⟩ := List.exists_cons_of_ne_nil hne
  obtain ⟨u, rest, rfl, huser, hrest⟩ := List.map_eq_cons_iff.1 hrefs.symm
  have hinsert := insertNotification_ok (req.title.filter (· ≠ "")) newId huser.symm hactor h.storable
  obtain ⟨row, hrow⟩ : ∃ row, req.row (req.title.filter (· ≠ "")) newId u actorId = row := ⟨_, rfl⟩
  have hid : row.id = newId := by rw [← hrow, CreateRequest.row]
  have hmessage : row.description = req.message := by rw [← hrow, CreateRequest.row]
  rw [hrow] at hinsert
  have hrecipients := @insertRecipients_ok _ _ ids held { db with notifications := db.notifications ++ [row] } newId _ _
    hrefs
  obtain ⟨rows, hrows, hothers⟩ := @insertOthers_ok _ _ ids held req
    { db with
      notifications := db.notifications ++ [row]
      recipients := db.recipients ++ (u :: rest).map (⟨newId, ·, false, false⟩) }
    (newId + 1) _ _ actorId hrest.symm hactor h.storable
  refine ⟨u :: rest, { db with
    notifications := db.notifications ++ [row] ++ rows
    recipients := db.recipients ++ (u :: rest).map (⟨newId, ·, false, false⟩) }, hrefs, ?_, rfl, rfl, row, rows, hid,
    hmessage, hrows, ?_⟩
  · rw [fanOut, bind_apply, hinsert]
    dsimp only at hrecipients hothers ⊢
    rw [bind_apply, hrecipients]
    exact hothers
  · exact List.append_assoc _ _ _

/-- When one is not, it throws. -/
theorem fanOut_rejects (newId : ℕ) (h : ¬Accepts ids held req db.users targetUserIds) (hne : targetUserIds ≠ []) :
    ∃ e tx, fanOut ids held req newId targetUserIds ⟨db, false⟩ = (.error e, tx) := by
  obtain ⟨first, others, rfl⟩ := List.exists_cons_of_ne_nil hne
  rw [fanOut, bind_apply]
  by_cases hfirst : Accepts ids held req db.users [first]
  · obtain ⟨u, huser⟩ := Option.isSome_iff_exists.1 (hfirst.targets first (List.mem_singleton_self first))
    obtain ⟨actorId, hactor⟩ := Option.isSome_iff_exists.1 hfirst.actor
    have hnone : ∃ uid ∈ first :: others, reference ids held db.users uid = none := by
      by_contra hall
      refine h ⟨fun uid huid => ?_, hfirst.actor, hfirst.storable⟩
      rw [Option.isSome_iff_ne_none]
      exact fun hnone => hall ⟨uid, huid, hnone⟩
    have hinsert := insertNotification_ok (req.title.filter (· ≠ "")) newId huser hactor hfirst.storable
    obtain ⟨e, tx, hrecipients⟩ := @insertRecipients_error _ _ ids held
      { db with notifications := db.notifications ++ [req.row (req.title.filter (· ≠ "")) newId u actorId] } newId
      (first :: others) hnone
    rw [hinsert]
    dsimp only at hrecipients ⊢
    rw [bind_apply, hrecipients]
    exact ⟨e, tx, rfl⟩
  · obtain ⟨e, hinsert⟩ := insertNotification_error (req.title.filter (· ≠ "")) newId hfirst
    rw [hinsert]
    exact ⟨e, _, rfl⟩

/-! ## The fallback -/

omit [DecidableEq U] in
theorem LegacyOnly.refl (newId : ℕ) (db : NotificationDb U) : LegacyOnly newId db db :=
  ⟨rfl, [], fun _ hr => absurd hr List.not_mem_nil, (List.append_nil _).symm⟩

omit [DecidableEq U] in
theorem LegacyOnly.cons {row : NotificationRow U} (hid : newId ≤ row.id)
    (h : LegacyOnly (newId + 1) { db with notifications := db.notifications ++ [row] } after) :
    LegacyOnly newId db after := by
  obtain ⟨hrecipients, rows, hrows, hnotifications⟩ := h
  refine ⟨hrecipients, row :: rows, List.forall_mem_cons.2 ⟨hid, fun r hr => ?_⟩, ?_⟩
  · exact (Nat.le_succ newId).trans (hrows r hr)
  · rw [hnotifications, List.append_assoc, List.singleton_append]

omit [DecidableEq U] in
/-- The ids of later rows are larger as well. -/
theorem LegacyOnly.of_succ (h : LegacyOnly (newId + 1) db after) : LegacyOnly newId db after := by
  obtain ⟨hrecipients, rows, hrows, hnotifications⟩ := h
  exact ⟨hrecipients, rows, fun r hr => (Nat.le_succ newId).trans (hrows r hr), hnotifications⟩

/-- One row of the fallback that is accepted. -/
theorem insertLegacyRow_ok (newId : ℕ) (h : Accepts ids held req db.users [uid]) :
    ∃ row : NotificationRow U, row.id = newId ∧ insertNotification ids held req none newId uid ⟨db, false⟩ =
      (.ok (), ⟨{ db with notifications := db.notifications ++ [row] }, false⟩) := by
  obtain ⟨u, huser⟩ := Option.isSome_iff_exists.1 (h.targets uid (List.mem_singleton_self uid))
  obtain ⟨actorId, hactor⟩ := Option.isSome_iff_exists.1 h.actor
  exact ⟨_, by rw [CreateRequest.row], insertNotification_ok none newId huser hactor h.storable⟩

/-- Outside of a transaction the rows that are accepted are written. -/
theorem insertLegacyRows_none (ids : IdText U) (req : CreateRequest) (newId : ℕ) (targetUserIds : List String)
    (db : NotificationDb U) :
    ∃ after, insertLegacyRows ids req newId targetUserIds ⟨db, none⟩ = ⟨after, none⟩ ∧ LegacyOnly newId db after := by
  induction targetUserIds generalizing newId db with
  | nil => exact ⟨db, rfl, .refl newId db⟩
  | cons uid targetUserIds ih =>
    rw [insertLegacyRows]
    unfold Session.perform
    dsimp only
    unfold TxM.transaction
    by_cases haccepts : Accepts ids (fun _ => false) req db.users [uid]
    · obtain ⟨row, hid, hinsert⟩ := insertLegacyRow_ok newId haccepts
      obtain ⟨after, hrest, hlegacy⟩ := ih (newId + 1) { db with notifications := db.notifications ++ [row] }
      rw [hinsert]
      exact ⟨after, hrest, hlegacy.cons hid.ge⟩
    · obtain ⟨e, hinsert⟩ := insertNotification_error none newId haccepts
      obtain ⟨after, hrest, hlegacy⟩ := ih (newId + 1) db
      rw [hinsert]
      exact ⟨after, hrest, hlegacy.of_succ⟩

/-- In a transaction that is lost none is. -/
theorem insertLegacyRows_aborted (ids : IdText U) (req : CreateRequest) (newId : ℕ) (targetUserIds : List String)
    (committed db : NotificationDb U) :
    insertLegacyRows ids req newId targetUserIds ⟨committed, some ⟨db, true⟩⟩ = ⟨committed, some ⟨db, true⟩⟩ := by
  induction targetUserIds generalizing newId with
  | nil => rfl
  | cons uid targetUserIds ih => exact ih (newId + 1)

/-- In an open one all are, or the transaction is lost. -/
theorem insertLegacyRows_open (ids : IdText U) (req : CreateRequest) (newId : ℕ) (targetUserIds : List String)
    (committed db : NotificationDb U) (hne : targetUserIds ≠ []) :
    (Accepts ids (fun _ => false) req db.users targetUserIds ∧
        ∃ after, insertLegacyRows ids req newId targetUserIds ⟨committed, some ⟨db, false⟩⟩ =
          ⟨committed, some ⟨after, false⟩⟩ ∧ LegacyOnly newId db after) ∨
      ¬Accepts ids (fun _ => false) req db.users targetUserIds ∧
        ∃ after, insertLegacyRows ids req newId targetUserIds ⟨committed, some ⟨db, false⟩⟩ =
          ⟨committed, some ⟨after, true⟩⟩ := by
  induction targetUserIds generalizing newId db with
  | nil => exact absurd rfl hne
  | cons uid targetUserIds ih =>
    rw [insertLegacyRows]
    unfold Session.perform
    dsimp only
    by_cases haccepts : Accepts ids (fun _ => false) req db.users [uid]
    · obtain ⟨row, hid, hinsert⟩ := insertLegacyRow_ok newId haccepts
      rw [hinsert]
      dsimp only
      cases targetUserIds with
      | nil => exact .inl ⟨haccepts, _, rfl, (LegacyOnly.refl _ _).cons hid.ge⟩
      | cons uid' targetUserIds =>
        rcases ih (newId + 1) { db with notifications := db.notifications ++ [row] } (by simp) with hall | hlost
        · obtain ⟨hlater, after, hrest, hlegacy⟩ := hall
          refine .inl ⟨⟨List.forall_mem_cons.2 ⟨?_, hlater.targets⟩, hlater.actor, hlater.storable⟩, after, hrest,
            hlegacy.cons hid.ge⟩
          exact haccepts.targets uid (List.mem_singleton_self uid)
        · obtain ⟨hnot, hrest⟩ := hlost
          refine .inr ⟨fun hall => hnot ⟨fun id hid => ?_, hall.actor, hall.storable⟩, hrest⟩
          exact hall.targets id (List.mem_cons_of_mem _ hid)
    · obtain ⟨e, hinsert⟩ := insertNotification_error none newId haccepts
      rw [hinsert]
      dsimp only
      rw [insertLegacyRows_aborted]
      refine .inr ⟨fun hall => haccepts ⟨fun id hid => ?_, hall.actor, hall.storable⟩, _, rfl⟩
      exact hall.targets id (List.mem_cons.2 (.inl (List.mem_singleton.1 hid)))

/-! ## One call -/

omit [DecidableEq U] in
/-- What another connection has committed comes to be seen. -/
theorem Delivered.receive {old : NotificationDb U} (h : Delivered req newId users old db) (seen : NotificationDb U) :
    Delivered req newId users seen (seen.receive old db) := by
  obtain ⟨hrecipients, row, rows, hid, hmessage, hrows, hnotifications⟩ := h
  refine ⟨?_, row, rows, hid, hmessage, hrows, ?_⟩
  · unfold NotificationDb.receive
    rw [hrecipients, List.drop_left]
  · unfold NotificationDb.receive
    rw [hnotifications, List.drop_left]

/-- The fan-out that succeeds is delivered to what the caller sees. -/
theorem transaction_stores (h : Stores ids isExternal req s targetUserIds) (hne : targetUserIds ≠ []) :
    ∃ (users : List U) (after : Session U),
      targetUserIds.map (reference ids (s.held isExternal) (s.inner isExternal).users) = users.map some ∧
        s.transaction isExternal (fanOut ids (s.held isExternal) req s.newId targetUserIds) = (true, after) ∧
          Delivered req s.newId users s.sees after.sees := by
  obtain ⟨users, after, hrefs, hrun, -, hdelivered⟩ := fanOut_accepts s.newId h.accepts hne
  refine ⟨users, ?_⟩
  have hopen := h.open_
  generalize s.newId = newId at hrun hdelivered ⊢
  generalize s.held isExternal = held at hrun hrefs ⊢
  obtain ⟨committed, tx⟩ := s
  cases tx with
  | none =>
    refine ⟨⟨after, none⟩, hrefs, ?_, hdelivered⟩
    unfold Session.inner at hrun
    unfold Session.transaction TxM.transaction
    dsimp only at hrun ⊢
    rw [hrun]
    rfl
  | some tx =>
    unfold Session.inner at hrun hdelivered
    unfold Session.transaction TxM.transaction
    cases isExternal with
    | true =>
      refine ⟨⟨after, some { tx with db := tx.db.receive committed after }⟩, hrefs, ?_, ?_⟩
      · dsimp only at hrun ⊢
        rw [if_pos rfl] at hrun
        rw [if_pos rfl, hrun]
        rfl
      · dsimp only at hdelivered
        rw [if_pos rfl] at hdelivered
        unfold Session.sees
        dsimp only
        split_ifs
        · exact hdelivered
        · exact hdelivered.receive tx.db
    | false =>
      have haborted : tx.aborted = false := hopen rfl tx rfl
      obtain ⟨db, aborted⟩ := tx
      obtain rfl : aborted = false := haborted
      exact ⟨⟨after, none⟩, hrefs, by dsimp only at hrun ⊢; rw [if_neg Bool.false_ne_true] at hrun; simp [hrun],
        hdelivered⟩

/-- The fan-out that does not ends the transaction on its connection. -/
theorem transaction_fails (h : ¬Stores ids isExternal req s targetUserIds) (hne : targetUserIds ≠ []) :
    s.transaction isExternal (fanOut ids (s.held isExternal) req s.newId targetUserIds) =
      (false, ⟨s.committed, if isExternal then s.tx else none⟩) := by
  by_cases haccepts : Accepts ids (s.held isExternal) req (s.inner isExternal).users targetUserIds
  · -- The transaction of the caller has been aborted before, and the inner call shares its connection.
    have hlost : ¬(isExternal = false → ∀ tx ∈ s.tx, tx.aborted = false) := fun hopen => h ⟨haccepts, hopen⟩
    obtain ⟨hembedded, hlost⟩ := Classical.not_imp.1 hlost
    obtain ⟨tx, htx, haborted⟩ : ∃ tx, s.tx = some tx ∧ tx.aborted = true := by
      by_contra hall
      refine hlost fun tx htx => Bool.eq_false_iff.2 fun haborted => hall ⟨tx, htx, haborted⟩
    unfold Session.transaction
    rw [htx]
    dsimp only
    rw [hembedded, if_neg Bool.false_ne_true, if_pos haborted, if_neg Bool.false_ne_true]
  · obtain ⟨e, tx', hrun⟩ := fanOut_rejects s.newId haccepts hne
    generalize s.newId = newId at hrun ⊢
    generalize s.held isExternal = held at hrun ⊢
    obtain ⟨committed, tx⟩ := s
    unfold Session.inner at hrun
    unfold Session.transaction TxM.transaction
    cases tx with
    | none =>
      dsimp only at hrun ⊢
      rw [hrun, ite_self]
    | some tx =>
      obtain ⟨db, aborted⟩ := tx
      dsimp only at hrun ⊢
      cases isExternal with
      | true =>
        rw [if_pos rfl] at hrun
        rw [if_pos rfl, hrun]
        rfl
      | false =>
        rw [if_neg Bool.false_ne_true] at hrun
        rw [if_neg Bool.false_ne_true, if_neg Bool.false_ne_true]
        split_ifs with haborted
        · rfl
        · obtain rfl : aborted = false := Bool.eq_false_iff.2 haborted
          rw [hrun]

/-- A call whose fan-out fails leaves the feeds as the caller has seen them, or, when the transaction of the
caller is lost with it, as they are committed. -/
theorem create_fails (h : ¬Stores ids isExternal req s (req.targetUserIds listed))
    (hlisted : recipientList ids req.recipientIds s = some listed) (hne : req.targetUserIds listed ≠ []) :
    ∃ after base, create ids isExternal req s = some after ∧ LegacyOnly s.newId base after.sees ∧
      (s.Survives ids isExternal req (req.targetUserIds listed) ∧ base = s.sees ∨
        ¬s.Survives ids isExternal req (req.targetUserIds listed) ∧ base = s.committed) := by
  -- The fan-out has failed, so that the rows of the old table are written instead.
  have hcreate : create ids isExternal req s = some (insertLegacyRows ids req s.newId (req.targetUserIds listed)
      ⟨s.committed, if isExternal then s.tx else none⟩) := by
    unfold create
    rw [hlisted, Option.map_some]
    dsimp only
    rw [if_neg hne, transaction_fails h hne]
  rw [hcreate]
  generalize s.newId = newId
  generalize req.targetUserIds listed = targetUserIds at hne ⊢
  obtain ⟨committed, tx⟩ := s
  obtain ⟨db, hnone, hlegacy⟩ := insertLegacyRows_none ids req newId targetUserIds committed
  cases tx with
  | none =>
    dsimp only
    rw [ite_self, hnone]
    exact ⟨_, committed, rfl, hlegacy, .inl ⟨fun tx htx => absurd htx.symm (Option.some_ne_none tx), rfl⟩⟩
  | some tx =>
    obtain ⟨view, aborted⟩ := tx
    cases isExternal with
    | false =>
      dsimp only
      rw [if_neg Bool.false_ne_true, hnone]
      refine ⟨_, committed, rfl, hlegacy, ?_⟩
      cases aborted with
      | true => exact .inl ⟨fun tx htx => .inl (Option.some.inj htx ▸ rfl), rfl⟩
      | false =>
        refine .inr ⟨fun hsurvives => ?_, rfl⟩
        rcases hsurvives _ rfl with haborted | ⟨hexternal, -⟩
        · cases haborted
        · cases hexternal
    | true =>
      dsimp only
      rw [if_pos rfl]
      cases aborted with
      | true =>
        rw [insertLegacyRows_aborted]
        exact ⟨_, committed, rfl, .refl _ _, .inl ⟨fun tx htx => .inl (Option.some.inj htx ▸ rfl), rfl⟩⟩
      | false =>
        -- In the transaction of the caller, a row that is refused aborts it, and nothing survives.
        rcases insertLegacyRows_open ids req newId targetUserIds committed view hne with hall | hlost
        · obtain ⟨haccepts, after, hrun, hlegacy⟩ := hall
          rw [hrun]
          exact ⟨_, view, rfl, hlegacy, .inl ⟨fun tx htx => .inr ⟨rfl, Option.some.inj htx ▸ haccepts⟩, rfl⟩⟩
        · obtain ⟨hnot, after, hrun⟩ := hlost
          rw [hrun]
          refine ⟨_, committed, rfl, .refl _ _, .inr ⟨fun hsurvives => ?_, rfl⟩⟩
          rcases hsurvives _ rfl with haborted | ⟨-, haccepts⟩
          · cases haborted
          · exact hnot haccepts

/-- A call whose fan-out succeeds gives every recipient an item for each time that it is listed. -/
theorem create_stores (h : Stores ids isExternal req s (req.targetUserIds listed))
    (hlisted : recipientList ids req.recipientIds s = some listed) (hne : req.targetUserIds listed ≠ []) :
    ∃ (users : List U) (after : Session U),
      (req.targetUserIds listed).map (reference ids (s.held isExternal) (s.inner isExternal).users) = users.map some ∧
        create ids isExternal req s = some after ∧ Delivered req s.newId users s.sees after.sees := by
  obtain ⟨users, after, hrefs, hrun, hdelivered⟩ := transaction_stores h hne
  refine ⟨users, after, hrefs, ?_, hdelivered⟩
  unfold create
  rw [hlisted, Option.map_some]
  dsimp only
  rw [if_neg hne, hrun]

/-! ## Recipients -/

theorem reference_eq_some {us : List (UserRow U)} :
    reference ids held us uid = some u ↔ ids.parse uid = some u ∧ u ∈ us.map UserRow.id ∧ held u = false := by
  unfold reference
  rw [Option.filter_eq_some_iff, Bool.and_eq_true, decide_eq_true_eq, Bool.not_eq_true']

/-- Whoever is referred to is a user as the caller sees them. -/
theorem Stores.mem_sees (h : Stores ids isExternal req s targetUserIds)
    (href : reference ids (s.held isExternal) (s.inner isExternal).users uid = some u) :
    u ∈ s.sees.users.map UserRow.id := by
  obtain ⟨-, hmem, hheld⟩ := reference_eq_some.1 href
  have hopen := h.open_
  obtain ⟨committed, tx⟩ := s
  unfold Session.inner at hmem
  unfold Session.held at hheld
  unfold Session.sees
  cases tx with
  | none => exact hmem
  | some tx =>
    dsimp only at hmem hheld ⊢
    cases isExternal with
    | false =>
      rw [if_neg Bool.false_ne_true] at hmem
      rw [hopen rfl tx rfl, if_neg Bool.false_ne_true]
      exact hmem
    | true =>
      rw [if_pos rfl] at hmem
      cases haborted : tx.aborted with
      | true => exact hmem
      | false =>
        rw [haborted, Bool.not_false, Bool.true_and, Bool.true_and, decide_eq_false_iff_not, not_not] at hheld
        exact hheld

/-- The texts of the recipients are read as the users. -/
theorem map_parse {us : List (UserRow U)} (hrefs : targetUserIds.map (reference ids held us) = users.map some) :
    targetUserIds.map ids.parse = users.map some := by
  rw [← hrefs]
  refine List.map_congr_left fun uid huid => ?_
  obtain ⟨u, -, hu⟩ := List.mem_map.1 (hrefs ▸ List.mem_map_of_mem huid : reference ids held us uid ∈ users.map some)
  rw [← hu]
  exact (reference_eq_some.1 hu.symm).1

omit [DecidableEq U] in
/-- Who is left out of the recipients is the actor. -/
theorem mem_targetUserIds (huid : uid ∈ listed) (hactor : req.actor.bind ids.parse ≠ ids.parse uid) :
    uid ∈ req.targetUserIds listed := by
  unfold CreateRequest.targetUserIds
  cases hreq : req.actor with
  | none => exact huid
  | some actorId =>
    refine List.mem_filter.2 ⟨huid, decide_eq_true fun heq => hactor ?_⟩
    rw [hreq, heq]
    rfl

theorem listed_of_mem_targetUserIds (huid : uid ∈ req.targetUserIds listed) : uid ∈ listed := by
  unfold CreateRequest.targetUserIds at huid
  split at huid
  · exact huid
  · exact List.mem_of_mem_filter huid

omit [DecidableEq U] in
/-- Everyone expected is among the recipients. -/
theorem Expected.exists_target (h : Expected ids req s listed u) :
    ∃ uid ∈ req.targetUserIds listed, ids.parse uid = some u := by
  obtain ⟨-, ⟨uid, huid, hparse⟩, hactor⟩ := h
  exact ⟨uid, mem_targetUserIds huid (hparse ▸ hactor), hparse⟩

/-- When the fan-out succeeds, those expected are the recipients other than the actor. -/
theorem Stores.expected_iff (h : Stores ids isExternal req s (req.targetUserIds listed))
    (hrefs : (req.targetUserIds listed).map (reference ids (s.held isExternal) (s.inner isExternal).users) =
      users.map some) :
    Expected ids req s listed u ↔ u ∈ users ∧ req.actor.bind ids.parse ≠ some u := by
  constructor
  · intro hexpected
    obtain ⟨uid, huid, hparse⟩ := hexpected.exists_target
    have hmem : some u ∈ users.map some := by
      rw [← map_parse hrefs, ← hparse]
      exact List.mem_map_of_mem huid
    obtain ⟨v, hv, heq⟩ := List.mem_map.1 hmem
    exact ⟨Option.some.inj heq ▸ hv, hexpected.2.2⟩
  · rintro ⟨hu, hactor⟩
    have hmem : some u ∈ users.map some := List.mem_map_of_mem hu
    rw [← hrefs] at hmem
    obtain ⟨uid, huid, href⟩ := List.mem_map.1 hmem
    exact ⟨h.mem_sees href, ⟨uid, listed_of_mem_targetUserIds huid, (reference_eq_some.1 href).1⟩, hactor⟩

/-! ## The two directions -/

/-- There is no recipient besides the actor; or the fan-out succeeds, with every recipient once; or it fails, no
listed user exists besides the actor, and the feeds do not go back with the transaction of the caller. -/
def Reaches (ids : IdText U) (isExternal : Bool) (req : CreateRequest) (s : Session U) (listed : List String) :
    Prop :=
  req.targetUserIds listed = [] ∨ Deliverable ids isExternal req s (req.targetUserIds listed) ∨
    ¬Stores ids isExternal req s (req.targetUserIds listed) ∧ (∀ u, ¬Expected ids req s listed u) ∧
      (s.Survives ids isExternal req (req.targetUserIds listed) ∨ ∀ u, SameFeed s.sees s.committed u)

/-- What a fan-out that succeeds means for the feed of a user. -/
theorem Delivered.gains (h : Delivered req newId users before after) (hbelow : Below newId before) (u : U) :
    (users.count u = 1 → GainsOne req newId before after u) ∧ (users.count u = 0 → SameFeed before after u) := by
  obtain ⟨⟨item, hid, hmessage, hread, hitems⟩, htotal, hunread⟩ := h.feed hbelow u
  constructor
  · intro hone
    rw [hone] at hitems htotal hunread
    refine ⟨⟨item, hid, hmessage, hread, ?_⟩, htotal, hunread⟩
    rw [hitems]
    exact List.perm_append_comm
  · intro hzero
    rw [hzero] at hitems htotal hunread
    refine ⟨?_, htotal, hunread⟩
    rw [hitems, List.replicate_zero, List.append_nil]

/-- A recipient is referred to by one of the texts. -/
theorem mem_users_iff {us : List (UserRow U)}
    (hrefs : targetUserIds.map (reference ids held us) = users.map some) :
    u ∈ users ↔ ∃ uid ∈ targetUserIds, ids.parse uid = some u := by
  have hmem : u ∈ users ↔ some u ∈ users.map some := by
    rw [List.mem_map]
    exact ⟨fun hu => ⟨u, hu, rfl⟩, fun ⟨v, hv, heq⟩ => Option.some.inj heq ▸ hv⟩
  rw [hmem, ← map_parse hrefs, List.mem_map]

theorem Reaches.fansOut (h : ∀ listed, recipientList ids req.recipientIds s = some listed →
    Reaches ids isExternal req s listed) : FansOut ids isExternal req s := by
  intro listed after hlisted hcreate u
  by_cases hne : req.targetUserIds listed = []
  · have hsame : after = s := by
      unfold create at hcreate
      rw [hlisted, Option.map_some] at hcreate
      dsimp only at hcreate
      rw [if_pos hne] at hcreate
      exact (Option.some.inj hcreate).symm
    refine ⟨fun hexpected => ?_, fun _ => hsame ▸ .refl _ _⟩
    obtain ⟨uid, huid, -⟩ := hexpected.exists_target
    rw [hne] at huid
    cases huid
  rcases (h listed hlisted).resolve_left hne with hdeliverable | ⟨hfails, hnone, hkept⟩
  · obtain ⟨users, after', hrefs, hrun, hdelivered⟩ := create_stores hdeliverable.toStores hlisted hne
    obtain rfl := Option.some.inj (hcreate.symm.trans hrun)
    obtain ⟨hone, hzero⟩ := hdelivered.gains s.below_sees u
    have hnodup : users.Nodup := by
      have hdistinct := hdeliverable.distinct
      rw [map_parse hrefs] at hdistinct
      exact List.Nodup.of_map some hdistinct
    have hexpected : Expected ids req s listed u ↔ u ∈ users := by
      rw [hdeliverable.toStores.expected_iff hrefs, and_iff_left_of_imp]
      intro hu
      obtain ⟨uid, huid, hparse⟩ := (mem_users_iff hrefs).1 hu
      exact hdeliverable.apart uid huid u hparse
    rw [hexpected]
    exact ⟨fun hu => hone (List.count_eq_one_of_mem hnodup hu), fun hu => hzero (List.count_eq_zero.2 hu)⟩
  · refine ⟨fun hexpected => absurd hexpected (hnone u), fun _ => ?_⟩
    obtain ⟨after', base, hrun, hlegacy, hbase⟩ := create_fails hfails hlisted hne
    obtain rfl := Option.some.inj (hcreate.symm.trans hrun)
    rcases hbase with ⟨-, rfl⟩ | ⟨hlost, rfl⟩
    · exact hlegacy.sameFeed s.below_sees u
    · exact (hkept.resolve_left hlost u).trans (hlegacy.sameFeed s.below.1 u)

theorem FansOut.reaches (h : FansOut ids isExternal req s)
    (hlisted : recipientList ids req.recipientIds s = some listed) : Reaches ids isExternal req s listed := by
  by_cases hne : req.targetUserIds listed = []
  · exact .inl hne
  refine .inr ?_
  by_cases hstores : Stores ids isExternal req s (req.targetUserIds listed)
  · obtain ⟨users, after, hrefs, hrun, hdelivered⟩ := create_stores hstores hlisted hne
    have hcount : ∀ u, (Expected ids req s listed u → users.count u = 1) ∧
        (¬Expected ids req s listed u → users.count u = 0) := by
      intro u
      obtain ⟨hgains, hsame⟩ := h listed after hlisted hrun u
      obtain ⟨-, htotal, -⟩ := hdelivered.feed s.below_sees u
      constructor
      · intro hexpected
        have htotal' := (hgains hexpected).total
        omega
      · intro hexpected
        have htotal' := (hsame hexpected).total
        omega
    refine .inl ⟨hstores, ?_, fun uid huid u hparse hactor => ?_⟩
    · rw [map_parse hrefs]
      refine List.Nodup.map (Option.some_injective U) (List.nodup_iff_count_le_one.2 fun u => ?_)
      obtain ⟨hone, hzero⟩ := hcount u
      by_cases hexpected : Expected ids req s listed u
      · exact (hone hexpected).le
      · exact (hzero hexpected).le.trans (Nat.zero_le 1)
    · have hmem : u ∈ users := (mem_users_iff hrefs).2 ⟨uid, huid, hparse⟩
      exact List.count_eq_zero.1 ((hcount u).2 fun hexpected => hexpected.2.2 hactor) hmem
  · obtain ⟨after, base, hrun, hlegacy, hbase⟩ := create_fails hstores hlisted hne
    have hbelow : Below s.newId base := by
      rcases hbase with ⟨-, rfl⟩ | ⟨-, rfl⟩
      · exact s.below_sees
      · exact s.below.1
    have hnone : ∀ u, ¬Expected ids req s listed u := by
      intro u hexpected
      obtain ⟨item, hid, -, -, hitems⟩ := ((h listed after hlisted hrun u).1 hexpected).item
      have hitem := (hlegacy.sameFeed hbelow u).items.mem_iff.1 (hitems.mem_iff.2 List.mem_cons_self)
      have hlt := id_lt_of_mem_getNotifications hbelow hitem
      omega
    refine .inr ⟨hstores, hnone, ?_⟩
    rcases hbase with ⟨hsurvives, -⟩ | ⟨-, rfl⟩
    · exact .inl hsurvives
    · refine .inr fun u => ?_
      have hsame := (h listed after hlisted hrun u).2 (hnone u)
      exact hsame.trans (hlegacy.sameFeed hbelow u).symm

/-- The feeds are right after a call exactly when the call throws, or reaches those whom it should. -/
theorem fansOut_iff (ids : IdText U) (isExternal : Bool) (req : CreateRequest) (s : Session U) :
    FansOut ids isExternal req s ↔
      ∀ listed, recipientList ids req.recipientIds s = some listed → Reaches ids isExternal req s listed :=
  ⟨fun h _ hlisted => h.reaches hlisted, Reaches.fansOut⟩

/-- Ids that are their own texts. -/
def plainIds : IdText String := ⟨some, id, fun _ => rfl⟩

/-- Two users without notifications, and no transaction. -/
def twoUsers : Session String := ⟨⟨[⟨"admin", "Active"⟩, ⟨"auditor", "Active"⟩], [], []⟩, none⟩

/-- A notification for one of them and for a user who does not exist any more. -/
def forDeleted : CreateRequest :=
  ⟨.list ["auditor", "deleted"], "comment_added", "new comment", "Comments", "/comments", some "admin", none, none, "{}",
    none, true⟩

/-- The user who exists gets nothing. -/
theorem forDeleted_not_fansOut : ¬FansOut plainIds true forDeleted twoUsers := by
  intro h
  obtain ⟨after, hrun, hnone⟩ : ∃ after, create plainIds true forDeleted twoUsers = some after ∧
      after.sees.total "auditor" = 0 := ⟨_, rfl, by decide⟩
  have hexpected : Expected plainIds forDeleted twoUsers ["auditor", "deleted"] "auditor" :=
    ⟨by decide, ⟨"auditor", by decide, rfl⟩, by decide⟩
  have htotal := ((h _ after rfl hrun "auditor").1 hexpected).total
  rw [hnone] at htotal
  omega

end AlsaqiBackend.Notifications
