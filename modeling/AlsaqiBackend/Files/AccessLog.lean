import AlsaqiBackend.Files.SecureServing
import AlsaqiBackend.Files.SignedUrls
import AlsaqiBackend.Lib.JsString
import AlsaqiBackend.Lib.Run

/-!
# The log of file accesses

`createSecureFileMiddleware` decides on a request in steps, with reads of the database between them: the
signature of the URL, the standing of its signer, or else the answer of `authenticate`, and the
permission for the module of the file. A request that is let through is logged by the handler. A denial
is logged by a listener on the `finish` event of the response, from a record that the handler has
filled. The client can go away at any moment, and the event does not follow then.
-/

namespace AlsaqiBackend.Files

open Lib

/-! ## Rows -/

def ANONYMOUS_USER_ID : List Char := "anonymous".toList

inductive DenialCategory where
  | authenticationFailure
  | expiredSignedUrl
  | missingModulePermission
  | noValidOwningModule
  deriving DecidableEq, Repr

inductive AccessResult where
  | granted
  | denied
  deriving DecidableEq, Repr

/-- The columns of a row of `file_access_logs` that are inserted; `access_type` is `view` in all of
them. -/
structure FileAccessRow where
  userId : List Char
  filePath : List Char
  result : AccessResult
  ipAddress : String
  deriving DecidableEq, Repr

/-- `logFileAccess`: the reason is not inserted. -/
def logFileAccess (userId filePath : List Char) (result : AccessResult) (ipAddress : String)
    (_reason : Option DenialCategory) : FileAccessRow := ⟨userId, filePath, result, ipAddress⟩

/-! ## Requests -/

/-- What is read of a signer, and of a user who has been authenticated. -/
structure Principal where
  id : List Char
  role : String
  deriving DecidableEq, Repr

structure SignerStanding extends Principal where
  status : String

/-- What `authenticate` does with a request. -/
inductive AuthAnswer where
  /-- It answers with an error itself. It may have set `req.user`, as before the gate of the password
  change. -/
  | answers (status : { n : ℕ // 400 ≤ n }) (user : Option Principal)
  /-- It calls `next`, with an error or without. -/
  | next (authErr : Bool) (user : Option Principal)

structure SecureFileOptions where
  requireAuth : Bool
  checkPermission : Bool
  auditAccess : Bool

/-- The middleware: its options, and what signatures and modules are checked with. `getModule` is the
`fileScope` of a registered module. -/
structure FileGate (ν : Type) where
  numbers : JsNumbers ν
  hmac : String → List Char → List UInt8
  secret : Option String
  getModule : String → Option Bool
  options : SecureFileOptions

/-- A request, with what is read and called while it is handled; `error` stands for what is thrown. -/
structure FileVisit where
  request : SignedRequest
  ip : String
  now : ℤ
  selectSigner : List Char → Except Unit (Option SignerStanding)
  /-- `SELECT module FROM encrypted_files WHERE id = ?`. -/
  selectModule : List Char → Except Unit (Option (Option String))
  hasPermission : List Char → String → Except Unit Bool
  authenticate : AuthAnswer
  /-- The status that `serveFile` answers with. -/
  served : ℕ

/-- `path.basename` of a text. -/
def baseName (path : List Char) : List Char := ((path.splitOn '/').filter (· ≠ [])).getLast?.getD []

structure PermissionResult where
  allowed : Bool
  module : Option String
  reason : Option String
  deriving DecidableEq, Repr

variable {ν : Type} (gate : FileGate ν) (v : FileVisit)

/-- `checkFilePermission`. -/
def checkFilePermission (user : Principal) : PermissionResult :=
  -- Administrators need no module.
  if user.role = "Admin" then ⟨true, none, none⟩
  else
    match v.selectModule (fileIdOf (baseName v.request.path)) with
    | .error _ => ⟨false, none, some "Permission check failed"⟩
    | .ok record =>
      match record.join with
      | none => ⟨false, none, some "File has no owning module"⟩
      | some fileModule =>
        if trimJs fileModule.toList = [] then ⟨false, none, some "File has no owning module"⟩
        else
          match gate.getModule fileModule with
          | none => ⟨false, some fileModule, some ("Module '" ++ fileModule ++ "' is not registered")⟩
          | some false =>
            ⟨false, some fileModule, some ("Module '" ++ fileModule ++ "' does not support file scoping")⟩
          | some true =>
            match v.hasPermission user.id fileModule with
            | .ok allowed => ⟨allowed, some fileModule, none⟩
            | .error _ => ⟨false, none, some "Permission check failed"⟩

/-- The category that is recorded for a permission that is not there. -/
def PermissionResult.category (result : PermissionResult) : DenialCategory :=
  if result.module.isSome then .missingModulePermission else .noValidOwningModule

/-- `getSignerStanding`. -/
def getSignerStanding (signerId : List Char) : Option SignerStanding :=
  match v.selectSigner signerId with
  | .ok signer => signer
  | .error _ => none

/-- The `userId` of the query. -/
def FileVisit.sigUserId : List Char := (v.request.query.lookup "userId".toList).getD []

/-! ## The handler -/

/-- Where the handler is. -/
inductive Stage where
  | arrived
  | readingSigner
  | authenticating
  | checking (user : Principal)
  /-- The row of a granted request is being written. -/
  | logging (user : Principal)
  | serving
  | ended
  deriving DecidableEq, Repr

/-- The record that the listener reads. -/
structure Denial where
  userId : List Char
  reason : DenialCategory
  deriving DecidableEq, Repr

/-- A request that is being handled: the variables of the handler, the status that its response has
ended with, whether the client is there and the `finish` event has come, and the rows that have been
written for it. -/
structure Exchange where
  stage : Stage
  accessGranted : Bool
  denial : Denial
  status : Option ℕ
  connected : Bool
  finished : Bool
  rows : List FileAccessRow
  deriving DecidableEq, Repr

inductive ExchangeAction where
  /-- The handler goes on to its next `await`, or to its end. -/
  | proceed
  /-- The client goes away before the response has been handed over. -/
  | disconnect
  | finish
  deriving DecidableEq, Repr

namespace Exchange

def start : Exchange := ⟨.arrived, false, ⟨ANONYMOUS_USER_ID, .authenticationFailure⟩, none, true, false, []⟩

variable (e : Exchange)

/-- The response ends with a status, and the handler returns. -/
def answer (status : ℕ) : Exchange := { e with stage := .ended, status := some status }

/-- A denial is recorded and answered. -/
def deny (userId : List Char) (reason : DenialCategory) (status : ℕ) : Exchange :=
  { e with denial := ⟨userId, reason⟩ }.answer status

/-- The request is let through for a user. -/
def grant (options : SecureFileOptions) (user : Principal) : Exchange :=
  { e with accessGranted := true, stage := if options.auditAccess then .logging user else .serving }

/-- The user is known, and the permission is checked if it has to be. -/
def identified (options : SecureFileOptions) (user : Principal) : Exchange :=
  if options.checkPermission then { e with stage := .checking user } else e.grant options user

/-- Step 1 of the handler. -/
def authenticate (options : SecureFileOptions) : Exchange :=
  if options.requireAuth then { e with stage := .authenticating }
  else { e with accessGranted := true, stage := .serving }

/-- The handler up to its first `await`. What `verifySignedUrl` throws, Express answers with 500. -/
def arrive : Exchange :=
  match signedUrlResult gate.numbers gate.hmac gate.secret v.now v.request with
  | some (.error _) => e.answer 500
  | some (.ok result) =>
    if result.valid then { e with stage := .readingSigner }
    -- An expired URL is denied to the `userId` of its query; any other bad one is as none.
    else if result.expired = some true then e.deny v.sigUserId .expiredSignedUrl 401
    else e.authenticate gate.options
  | none => e.authenticate gate.options

/-- The signer has been read. -/
def signerRead : Exchange :=
  match getSignerStanding v v.sigUserId with
  | some signer =>
    if signer.status = "Active" then e.identified gate.options signer.toPrincipal
    else e.deny v.sigUserId .authenticationFailure 403
  | none => e.deny v.sigUserId .authenticationFailure 403

/-- `authenticate` has answered, or has called back. -/
def authenticated : Exchange :=
  match v.authenticate with
  -- Its own answer leaves the record as it was, also where the user is known.
  | .answers status _ => e.answer status.val
  | .next true _ | .next false none => e.deny ANONYMOUS_USER_ID .authenticationFailure 401
  | .next false (some user) => e.identified gate.options user

/-- The permission has been checked. -/
def permissionChecked (user : Principal) : Exchange :=
  let result := checkFilePermission gate v user
  if result.allowed then e.grant gate.options user else e.deny user.id result.category 403

def proceed : Option Exchange :=
  match e.stage with
  | .arrived => some (e.arrive gate v)
  | .readingSigner => some (e.signerRead gate v)
  | .authenticating => some (e.authenticated gate v)
  | .checking user => some (e.permissionChecked gate v user)
  | .logging user =>
    some { e with
      stage := .serving
      rows := e.rows ++ [logFileAccess user.id v.request.path .granted v.ip none] }
  | .serving => some (e.answer v.served)
  | .ended => none

/-- The listener. -/
def finish (status : ℕ) : Exchange :=
  -- Neither a request that was let through nor an answer below 400 is a denial.
  if gate.options.auditAccess ∧ e.accessGranted = false ∧ 400 ≤ status then
    { e with
      finished := true
      rows := e.rows ++ [logFileAccess e.denial.userId v.request.path .denied v.ip (some e.denial.reason)] }
  else { e with finished := true }

/-- One step; `none` for one that is not possible. -/
def step : ExchangeAction → Option Exchange
  | .proceed => e.proceed gate v
  | .disconnect => if e.connected ∧ e.finished = false then some { e with connected := false } else none
  | .finish =>
    match e.status with
    | some status => if e.connected ∧ e.finished = false then some (e.finish gate v status) else none
    | none => none

/-- The handler has returned, and nothing follows on the response. -/
def IsComplete : Prop := e.stage = .ended ∧ (e.finished = true ∨ e.connected = false)

end Exchange

end AlsaqiBackend.Files
