import AlsaqiBackend.Lib.PgTransaction

/-!
# Notifications

`NotificationService.create` of `src/services/NotificationService.ts` writes one notification and a row of
`notification_recipients` for each recipient in a call of `DBWrapper.transaction`. When this throws, it writes
notifications of the old form, without recipients, and skips those that fail. `getNotifications` and
`getUnreadCount` read the recipients.

The call can stand in another transaction. On the embedded database the inner one runs on the same connection:
its `COMMIT` ends the outer one, and its `ROLLBACK` too. On an external one it has a connection of its own,
which sees what is committed, and the fallback runs on the connection of the outer one.

`U` are the ids of users. The texts of ids are read and printed by PostgreSQL.
-/

namespace AlsaqiBackend.Notifications

open AlsaqiBackend.Lib TxM

/-- How PostgreSQL reads and prints ids: an id is read back from its text. -/
structure IdText (U : Type) where
  parse : String → Option U
  print : U → String
  parse_print : ∀ u, parse (print u) = some u

/-! ## Tables -/

structure UserRow (U : Type) where
  id : U
  status : String

structure NotificationRow (U : Type) where
  id : ℕ
  userId : U
  eventType : String
  title : Option String
  description : String
  relatedModule : String
  link : String
  entityId : Option String
  entityType : Option String
  actorId : Option U
  data : String
  status : String

structure RecipientRow (U : Type) where
  notificationId : ℕ
  recipientId : U
  isRead : Bool
  isDismissed : Bool

structure NotificationDb (U : Type) where
  users : List (UserRow U)
  notifications : List (NotificationRow U)
  recipients : List (RecipientRow U)

variable {U : Type}

/-! ## Reading -/

/-- What `getNotifications` returns for a recipient and its notification. -/
structure NotificationFeedItem (U : Type) where
  notification : NotificationRow U
  isRead : Bool

/-- `JOIN notifications n ON n.id = nr.notification_id`. -/
def NotificationDb.itemsOf (db : NotificationDb U) (r : RecipientRow U) : List (NotificationFeedItem U) :=
  (db.notifications.filter (·.id = r.notificationId)).map (⟨·, r.isRead⟩)

variable [DecidableEq U]

/-- The pages of `getNotifications`, without their order. -/
def NotificationDb.getNotifications (db : NotificationDb U) (userId : U) : List (NotificationFeedItem U) :=
  (db.recipients.filter fun r => r.recipientId = userId && !r.isDismissed).flatMap db.itemsOf

/-- The total of `getNotifications`. -/
def NotificationDb.total (db : NotificationDb U) (userId : U) : ℕ :=
  db.recipients.countP fun r => r.recipientId = userId && !r.isDismissed

def NotificationDb.getUnreadCount (db : NotificationDb U) (userId : U) : ℕ :=
  db.recipients.countP fun r => r.recipientId = userId && !r.isRead && !r.isDismissed

/-! ## Statements -/

inductive RecipientIds where
  | one (id : String)
  | list (ids : List String)
  | all

/-- The arguments of `create`, with the JSON text of the data. PostgreSQL stores their texts, or rejects them. -/
structure CreateRequest where
  recipientIds : RecipientIds
  type : String
  message : String
  module : String
  link : String
  actorId : Option String
  entityId : Option String
  entityType : Option String
  dataJson : String
  title : Option String
  storable : Bool

/-- `if (actorId)`. -/
def CreateRequest.actor (req : CreateRequest) : Option String := req.actorId.filter (· ≠ "")

/-- The foreign key of an id: the user is there, and not held by another transaction. -/
def reference (ids : IdText U) (held : U → Bool) (users : List (UserRow U)) (uid : String) : Option U :=
  (ids.parse uid).filter fun u => u ∈ users.map UserRow.id && !held u

/-- The column `actor_id`; `none` when its key fails. -/
def actorColumn (ids : IdText U) (held : U → Bool) (users : List (UserRow U)) (req : CreateRequest) :
    Option (Option U) :=
  match req.actor with
  | none => some none
  | some actorId => (reference ids held users actorId).map some

/-- The new row. -/
def CreateRequest.row (req : CreateRequest) (title : Option String) (newId : ℕ) (userId : U) (actorId : Option U) :
    NotificationRow U where
  id := newId
  userId := userId
  eventType := req.type
  title := title
  description := req.message
  relatedModule := req.module
  link := req.link
  entityId := req.entityId.filter (· ≠ "")
  entityType := req.entityType.filter (· ≠ "")
  actorId := actorId
  data := req.dataJson
  status := "Unread"

/-- `INSERT INTO notifications`. -/
def insertNotification (ids : IdText U) (held : U → Bool) (req : CreateRequest) (title : Option String)
    (newId : ℕ) (uid : String) : TxM (NotificationDb U) Unit := query fun db =>
  match reference ids held db.users uid, actorColumn ids held db.users req with
  | some userId, some actorId =>
    if req.storable then
      .ok ({ db with notifications := db.notifications ++ [req.row title newId userId actorId] }, ())
    else .error "invalid byte sequence for encoding \"UTF8\": 0x00"
  | _, _ => .error "insert or update on table \"notifications\" violates foreign key constraint"

/-- `INSERT INTO notification_recipients`. -/
def insertRecipient (ids : IdText U) (held : U → Bool) (newId : ℕ) (uid : String) :
    TxM (NotificationDb U) Unit := query fun db =>
  match reference ids held db.users uid with
  | some recipientId => .ok ({ db with recipients := db.recipients ++ [⟨newId, recipientId, false, false⟩] }, ())
  | none => .error "insert or update on table \"notification_recipients\" violates foreign key constraint"

/-! ## The fan-out -/

/-- The loop over all recipients. -/
def insertRecipients (ids : IdText U) (held : U → Bool) (newId : ℕ) : List String → TxM (NotificationDb U) Unit
  | [] => pure ()
  | uid :: targetUserIds => do
    insertRecipient ids held newId uid
    insertRecipients ids held newId targetUserIds

/-- The loop over the recipients but the first one, for the old form. -/
def insertOthers (ids : IdText U) (held : U → Bool) (req : CreateRequest) : ℕ → List String →
    TxM (NotificationDb U) Unit
  | _, [] => pure ()
  | newId, uid :: targetUserIds => do
    insertNotification ids held req (req.title.filter (· ≠ "")) newId uid
    insertOthers ids held req (newId + 1) targetUserIds

/-- The body of the transaction. -/
def fanOut (ids : IdText U) (held : U → Bool) (req : CreateRequest) (newId : ℕ) :
    List String → TxM (NotificationDb U) Unit
  | [] => pure ()
  | first :: others => do
    insertNotification ids held req (req.title.filter (· ≠ "")) newId first
    insertRecipients ids held newId (first :: others)
    insertOthers ids held req (newId + 1) others

/-! ## Sessions -/

/-- The connection of the caller: what is committed, and the transaction that it is in. -/
structure Session (U : Type) where
  committed : NotificationDb U
  tx : Option (Tx (NotificationDb U))

/-- What counts: the transaction of the caller when it is not lost, or what is committed. -/
def Session.sees (s : Session U) : NotificationDb U :=
  match s.tx with
  | none => s.committed
  | some tx => if tx.aborted then s.committed else tx.db

/-- A statement on the connection of the caller, which is committed at once outside of a transaction. -/
def Session.perform (m : TxM (NotificationDb U) Unit) (s : Session U) : Session U :=
  match s.tx with
  | none => { s with committed := (transaction m s.committed).2 }
  | some tx => { s with tx := some (m tx).2 }

/-- The users whom the transaction of the caller has deleted are held by it. -/
def Session.held (s : Session U) (isExternal : Bool) (u : U) : Bool :=
  match s.tx with
  | none => false
  | some tx => isExternal && !tx.aborted && u ∉ tx.db.users.map UserRow.id

/-- The rows of `db` that `old` does not have come to be seen by a transaction. -/
def NotificationDb.receive (seen old db : NotificationDb U) : NotificationDb U where
  users := seen.users
  notifications := seen.notifications ++ db.notifications.drop old.notifications.length
  recipients := seen.recipients ++ db.recipients.drop old.recipients.length

/-- `db.transaction`, and whether it commits. -/
def Session.transaction (isExternal : Bool) (body : TxM (NotificationDb U) Unit) (s : Session U) :
    Bool × Session U :=
  match s.tx with
  | none =>
    match TxM.transaction body s.committed with
    | (.ok _, db) => (true, { s with committed := db })
    | (.error _, db) => (false, { s with committed := db })
  | some tx =>
    if isExternal then
      match TxM.transaction body s.committed with
      | (.ok _, db) => (true, ⟨db, some { tx with db := tx.db.receive s.committed db }⟩)
      | (.error _, db) => (false, { s with committed := db })
    -- On the connection of the outer transaction, the inner `COMMIT` or `ROLLBACK` ends that.
    else if tx.aborted then (false, { s with tx := none })
    else
      match body tx with
      | (.ok _, tx') => (true, ⟨if tx'.aborted then s.committed else tx'.db, none⟩)
      | (.error _, _) => (false, { s with tx := none })

/-- The fallback. -/
def insertLegacyRows (ids : IdText U) (req : CreateRequest) : ℕ → List String → Session U → Session U
  | _, [], s => s
  | newId, uid :: targetUserIds, s =>
    insertLegacyRows ids req (newId + 1) targetUserIds
      (s.perform (insertNotification ids (fun _ => false) req none newId uid))

/-- No row has an id as large. -/
def NotificationDb.bound (db : NotificationDb U) : ℕ :=
  (db.notifications.map NotificationRow.id ++ db.recipients.map RecipientRow.notificationId).foldr max 0 + 1

/-- `gen_random_uuid()`: an id that no row has. -/
def Session.newId (s : Session U) : ℕ :=
  match s.tx with
  | none => s.committed.bound
  | some tx => max s.committed.bound tx.db.bound

/-- The recipients of the argument; `none` when the `SELECT` throws. -/
def recipientList (ids : IdText U) (recipientIds : RecipientIds) (s : Session U) : Option (List String) :=
  match recipientIds with
  | .one id => some [id]
  | .list recipientIds => some recipientIds
  | .all =>
    if s.tx.any Tx.aborted then none
    else some ((s.sees.users.filter (·.status = "Active")).map fun u => ids.print u.id)

/-- `targetUserIds`: the actor is left out. -/
def CreateRequest.targetUserIds (req : CreateRequest) (listed : List String) : List String :=
  match req.actor with
  | none => listed
  | some actorId => listed.filter (· ≠ actorId)

/-- `create`; `none` when it throws. -/
def create (ids : IdText U) (isExternal : Bool) (req : CreateRequest) (s : Session U) : Option (Session U) :=
  (recipientList ids req.recipientIds s).map fun listed =>
    let targetUserIds := req.targetUserIds listed
    if targetUserIds = [] then s
    else
      match s.transaction isExternal (fanOut ids (s.held isExternal) req s.newId targetUserIds) with
      | (true, after) => after
      | (false, after) => insertLegacyRows ids req s.newId targetUserIds after

end AlsaqiBackend.Notifications
