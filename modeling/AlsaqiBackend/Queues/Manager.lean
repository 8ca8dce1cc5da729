import AlsaqiBackend.Lib.JsString
import Mathlib

/-!
# The queue manager

Two work queues and the queue of dead letters. A manager is made with a limit on the failed jobs that a queue
keeps, which is checked when it is read; the options of a job are the defaults, with that limit, under
what the caller gives. A work queue publishes the permanent failure of a job to each manager that listens, and
`moveToDeadLetterIfExhausted` decides from the job, read once more, whether to write a dead letter.
-/

namespace AlsaqiBackend.Queues

open AlsaqiBackend.Lib

/-! ## Retention of failed jobs -/

def failedRetentionMin : ℕ := 1

def failedRetentionMax : ℕ := 100000

/-- A limit that has passed the check of `parseFailedJobRetention`. -/
structure RetentionLimit where
  count : ℕ
  min_le : failedRetentionMin ≤ count
  le_max : count ≤ failedRetentionMax

def failedRetentionDefault : RetentionLimit := ⟨1000, by decide, by decide⟩

/-- `/^[+-]?\d+$/`. -/
def isIntegerText (text : List Char) : Bool :=
  let digits := match text with
    | '+' :: rest => rest
    | '-' :: rest => rest
    | rest => rest
  digits ≠ [] && digits.all Char.isDigit

def retentionReason (raw : String) : String :=
  "QUEUE_FAILED_RETENTION must be an integer " ++ toString failedRetentionMin ++ ".."
    ++ toString failedRetentionMax ++ "; received \"" ++ raw ++ "\""

section Limits

variable {value : ℤ} (h : (failedRetentionMin : ℤ) ≤ value ∧ value ≤ failedRetentionMax)
include h

theorem min_le_toNat : failedRetentionMin ≤ value.toNat := by omega

theorem toNat_le_max : value.toNat ≤ failedRetentionMax := by omega

end Limits

def parseFailedJobRetention : Option String → Except String RetentionLimit
  | none => .ok failedRetentionDefault
  | some raw =>
    let trimmed := trimJs raw.toList
    if trimmed = [] then .ok failedRetentionDefault
    else if !isIntegerText trimmed then .error (retentionReason raw)
    else match parseInt10 trimmed with
      | none => .error (retentionReason raw)
      | some value =>
        if h : (failedRetentionMin : ℤ) ≤ value ∧ value ≤ failedRetentionMax then
          .ok ⟨value.toNat, min_le_toNat h, toNat_le_max h⟩
        else .error (retentionReason raw)

/-- A manager whose `initialize` has returned. -/
structure QueueManager where
  failedRetentionLimit : RetentionLimit

/-- An invalid value leaves the limit as it was. -/
def QueueManager.setFailedJobRetention (manager : QueueManager) (raw : Option String) : QueueManager :=
  match parseFailedJobRetention raw with
  | .ok limit => { manager with failedRetentionLimit := limit }
  | .error _ => manager

/-- The constructor: the option comes before the environment. -/
def QueueManager.new (failedJobRetention environment : Option String) : QueueManager :=
  QueueManager.setFailedJobRetention ⟨failedRetentionDefault⟩ (failedJobRetention <|> environment)

/-! ## Options of a job -/

/-- `removeOnFail`: keep every failed job, or the newest ones only. -/
inductive Retention where
  | keepAll
  | count (n : ℕ)
deriving DecidableEq

structure JobsOptions where
  attempts : Option ℕ
  removeOnFail : Option Retention
deriving DecidableEq

def defaultJobOptions : JobsOptions := ⟨some 3, some .keepAll⟩

/-- `{ ...options, ...overrides }`. -/
def JobsOptions.spread (options overrides : JobsOptions) : JobsOptions where
  attempts := overrides.attempts <|> options.attempts
  removeOnFail := overrides.removeOnFail <|> options.removeOnFail

def QueueManager.buildJobOptions (manager : QueueManager) (overrides : JobsOptions) : JobsOptions :=
  (defaultJobOptions.spread ⟨none, some (.count manager.failedRetentionLimit.count)⟩).spread overrides

/-! ## Jobs -/

/-- The two work queues of `QUEUE_NAMES`. -/
inductive QueueName where
  | pdfGeneration
  | notifications
deriving DecidableEq

/-- What names a job: its queue, and its number in that queue. -/
structure JobKey where
  queue : QueueName
  jobId : ℕ
deriving DecidableEq

/-- A job as a queue stores it. -/
structure Job (D : Type*) where
  key : JobKey
  data : D
  opts : JobsOptions
  attemptsMade : ℕ
  stalledCount : ℕ

variable {D : Type*}

/-- `addPdfJob` and `addNotificationJob`: the job as it is added, in the queue of its key. -/
def QueueManager.addJob (manager : QueueManager) (key : JobKey) (data : D) (options : JobsOptions) : Job D :=
  ⟨key, data, manager.buildJobOptions options, 0, 0⟩

/-- `maxStalledCount` of the two workers. -/
def maxStalledCount : ℕ := 1

/-- Whether the queue tries a job once more after an attempt that failed. -/
def Job.retries (job : Job D) : Bool := job.attemptsMade + 1 < job.opts.attempts.getD 0

/-- The test of `moveToDeadLetterIfExhausted`. -/
def Job.isExhausted (job : Job D) : Bool := job.opts.attempts.getD 3 ≤ job.attemptsMade

/-! ## Dead letters -/

/-- The data of a dead letter: `originalQueue` and `originalJobId` are the key. -/
structure DeadLetter (D : Type*) where
  key : JobKey
  originalData : D
  failedReason : String
  attemptsMade : ℕ
  failedAt : String

/-- `moveToDeadLetterIfExhausted`, from the answer of `getJob`: the dead letter that it adds. -/
def moveToDeadLetterIfExhausted (getJob : Option (Job D)) (key : JobKey) (failedReason failedAt : String) :
    Option (DeadLetter D) :=
  match getJob with
  | none => none
  | some job =>
    if job.isExhausted then some ⟨key, job.data, failedReason, job.attemptsMade, failedAt⟩ else none

end AlsaqiBackend.Queues
