import AlsaqiBackend.Queues.Manager
import AlsaqiBackend.Lib.Modify
import AlsaqiBackend.Lib.Run

/-!
# Dead letters of the queues

Managers in several instances share the queues. A job that fails for good leaves one event for each manager;
each of them reads the job again and writes a dead letter where the attempts are used up. Nothing keeps two
managers from writing the same one, a job that stalled or failed beyond recovery may have attempts left, and
the failed jobs beyond the retention may be gone when the event is delivered.

So each failed job has one dead letter exactly when, of the managers, the first one to read the job finds it
with its attempts used up, and each later one does not find it (`deadLettered_iff`).
-/

namespace AlsaqiBackend.Queues

open AlsaqiBackend.Lib

variable {D : Type*}

/-! ## The queues -/

/-- The event of a permanent failure on its way to one of the managers. -/
structure FailedEvent where
  listener : ℕ
  key : JobKey
  failedReason : String
deriving DecidableEq

/-- The work queues, the events and the dead letters. -/
structure QueueState (D : Type*) where
  /-- The keys that have been given to jobs. -/
  known : List JobKey
  /-- The jobs that wait or are being processed. -/
  live : List (Job D)
  /-- The failed jobs that are kept, the oldest first. -/
  failed : List (Job D)
  /-- Every job that has failed for good. -/
  failures : List (Job D)
  /-- The events that no listener has acted on. -/
  events : List FailedEvent
  /-- The dead letters that are being added. -/
  adds : List (DeadLetter D)
  deadLetters : List (DeadLetter D)

namespace QueueState

def init : QueueState D := ⟨[], [], [], [], [], [], []⟩

/-- `getJob`. -/
def getJob (s : QueueState D) (key : JobKey) : Option (Job D) :=
  (s.live ++ s.failed).find? (·.key = key)

end QueueState

/-- The failed jobs of a queue beyond the number that is kept are removed, the oldest first. -/
def Retention.retain (queue : QueueName) : Retention → List (Job D) → List (Job D)
  | .keepAll, failed => failed
  | .count n, failed =>
    let own := failed.filter (·.key.queue = queue)
    failed.filter (·.key.queue ≠ queue) ++ own.drop (own.length - n)

namespace QueueState

/-- A job fails for good: the queue keeps it within its retention and publishes the event. -/
def moveToFailed (listeners : ℕ) (s : QueueState D) (job : Job D) (failedReason : String) : QueueState D :=
  { s with
    live := s.live.filter (·.key ≠ job.key)
    failed := (job.opts.removeOnFail.getD .keepAll).retain job.key.queue (s.failed ++ [job])
    failures := s.failures ++ [job]
    events := s.events ++ (List.range listeners).map fun i => ⟨i, job.key, failedReason⟩ }

/-- A job goes back into its queue. -/
def requeue (s : QueueState D) (job : Job D) : QueueState D :=
  { s with live := s.live.map fun other => if other.key = job.key then job else other }

/-- An attempt fails; an unrecoverable error ends the attempts. -/
def attemptFails (listeners : ℕ) (s : QueueState D) (job : Job D) (unrecoverable : Bool)
    (failedReason : String) : QueueState D :=
  let failed := { job with attemptsMade := job.attemptsMade + 1 }
  if job.retries && !unrecoverable then s.requeue failed else s.moveToFailed listeners failed failedReason

/-- A job stalls: it fails when it has stalled too often. Whether the queue counts the failure as an attempt
is left open. -/
def stalls (listeners : ℕ) (s : QueueState D) (job : Job D) (counted : Bool) (failedReason : String) :
    QueueState D :=
  let stalled := { job with stalledCount := job.stalledCount + 1 }
  if stalled.stalledCount ≤ maxStalledCount then s.requeue stalled
  else s.moveToFailed listeners { stalled with attemptsMade := job.attemptsMade + counted.toNat } failedReason

/-- A listener gets its event and reads the job. -/
def delivers (s : QueueState D) (i : ℕ) (event : FailedEvent) (failedAt : String) : QueueState D :=
  { s with
    events := s.events.eraseIdx i
    adds := s.adds ++
      (moveToDeadLetterIfExhausted (s.getJob event.key) event.key event.failedReason failedAt).toList }

/-- A dead letter reaches its queue. -/
def writes (s : QueueState D) (i : ℕ) (entry : DeadLetter D) : QueueState D :=
  { s with adds := s.adds.eraseIdx i, deadLetters := s.deadLetters ++ [entry] }

end QueueState

inductive QueueAction (D : Type*) where
  /-- A manager adds a job, under a key that the queue has not used. -/
  | add (manager : ℕ) (key : JobKey) (data : D) (options : JobsOptions)
  | completes (key : JobKey)
  | attemptFails (key : JobKey) (unrecoverable : Bool) (failedReason : String)
  | stalls (key : JobKey) (counted : Bool) (failedReason : String)
  | delivers (i : ℕ) (failedAt : String)
  | writes (i : ℕ)

/-- The steps of the queues with the given managers. -/
def step (managers : List QueueManager) (s : QueueState D) : QueueAction D → Option (QueueState D)
  | .add i key data options =>
    managers[i]?.bind fun manager =>
      if key ∈ s.known then none
      else some
        { s with known := key :: s.known, live := s.live ++ [manager.addJob key data options] }
  | .completes key =>
    (s.live.find? (·.key = key)).map fun _ => { s with live := s.live.filter (·.key ≠ key) }
  | .attemptFails key unrecoverable failedReason =>
    (s.live.find? (·.key = key)).map fun job =>
      s.attemptFails managers.length job unrecoverable failedReason
  | .stalls key counted failedReason =>
    (s.live.find? (·.key = key)).map fun job => s.stalls managers.length job counted failedReason
  | .delivers i failedAt => s.events[i]?.map fun event => s.delivers i event failedAt
  | .writes i => s.adds[i]?.map fun entry => s.writes i entry

/-! ## What is asked -/

namespace QueueState

/-- No event is under way and no dead letter is being added. -/
def Settled (s : QueueState D) : Prop := s.events = [] ∧ s.adds = []

/-- No job that will still be tried has a dead letter. -/
def SparesRetried (s : QueueState D) : Prop :=
  ∀ entry ∈ s.deadLetters, ∀ job ∈ s.live, entry.key ≠ job.key

/-- Each failed job has exactly one dead letter, with its data. -/
def EachOnce (s : QueueState D) : Prop :=
  ∀ job ∈ s.failures, ∃ entry, s.deadLetters.filter (·.key = job.key) = [entry] ∧ entry.originalData = job.data

/-- The managers that have not read the failed job. -/
def unread (s : QueueState D) (key : JobKey) : ℕ := s.events.countP (·.key = key)

/-- A listener that reads the job now finds it, with its attempts used up. -/
def finds (s : QueueState D) (key : JobKey) : Bool := (s.getJob key).any Job.isExhausted

/-- The dead letters of a job, with those being added. -/
def written (s : QueueState D) (key : JobKey) : ℕ := (s.adds ++ s.deadLetters).countP (·.key = key)

end QueueState

/-- A listener that reads a failed job finds it with its attempts used up exactly when it is the first of the
listeners to read it. -/
def FirstFinds (managers : List QueueManager) (s : QueueState D) : QueueAction D → Prop
  | .delivers i _ =>
    ∀ event ∈ s.events[i]?, (s.finds event.key = true ↔ s.unread event.key = managers.length)
  | _ => True

instance (managers : List QueueManager) (s : QueueState D) : ∀ a, Decidable (FirstFinds managers s a)
  | .delivers i _ => inferInstanceAs
      (Decidable (∀ event ∈ s.events[i]?, (s.finds event.key = true ↔ s.unread event.key = managers.length)))
  | .add .. => inferInstanceAs (Decidable True)
  | .completes .. => inferInstanceAs (Decidable True)
  | .attemptFails .. => inferInstanceAs (Decidable True)
  | .stalls .. => inferInstanceAs (Decidable True)
  | .writes .. => inferInstanceAs (Decidable True)

/-! ## One step -/

namespace QueueState

variable {s t : QueueState D} {key : JobKey} {listeners : ℕ} {job : Job D}

/-- Only the live jobs change: each was live before, or has a new key. -/
structure Moves (s t : QueueState D) : Prop where
  eq : t = { s with known := t.known, live := t.live }
  known : s.known ⊆ t.known
  live : ∀ job ∈ t.live, (∃ other ∈ s.live, other.key = job.key) ∨ job.key ∉ s.known ∧ job.key ∈ t.known

theorem moves_filter (p : Job D → Bool) : s.Moves { s with live := s.live.filter p } := by
  refine ⟨rfl, fun _ h => h, fun job hjob => ?_⟩
  exact Or.inl ⟨job, List.mem_of_mem_filter hjob, rfl⟩

theorem moves_requeue (hjob : ∃ other ∈ s.live, other.key = job.key) : s.Moves (s.requeue job) := by
  refine ⟨rfl, fun _ h => h, fun moved hmoved => Or.inl ?_⟩
  obtain ⟨other, hother, rfl⟩ := List.mem_map.1 hmoved
  split
  · exact hjob
  · exact ⟨other, hother, rfl⟩

/-- A job is retried, or fails for good. -/
theorem attemptFails_cases (listeners : ℕ) (unrecoverable : Bool) (failedReason : String)
    (hjob : job ∈ s.live) :
    s.Moves (s.attemptFails listeners job unrecoverable failedReason) ∨
      ∃ failed : Job D, failed.key = job.key ∧
        s.attemptFails listeners job unrecoverable failedReason = s.moveToFailed listeners failed failedReason := by
  rw [attemptFails]
  split
  · exact Or.inl (moves_requeue ⟨job, hjob, rfl⟩)
  · exact Or.inr ⟨{ job with attemptsMade := job.attemptsMade + 1 }, rfl, rfl⟩

theorem stalls_cases (listeners : ℕ) (counted : Bool) (failedReason : String) (hjob : job ∈ s.live) :
    s.Moves (s.stalls listeners job counted failedReason) ∨
      ∃ failed : Job D, failed.key = job.key ∧
        s.stalls listeners job counted failedReason = s.moveToFailed listeners failed failedReason := by
  rw [stalls]
  dsimp only
  split
  · exact Or.inl (moves_requeue ⟨job, hjob, rfl⟩)
  · refine Or.inr ⟨{ job with
      attemptsMade := job.attemptsMade + counted.toNat, stalledCount := job.stalledCount + 1 }, rfl, rfl⟩

end QueueState

/-- What a step does: an event is delivered, live jobs move, a job fails for good, or a dead letter reaches
its queue. -/
theorem step_cases {managers : List QueueManager} {s t : QueueState D} {a : QueueAction D}
    (h : step managers s a = some t) :
    (∃ i failedAt event, a = .delivers i failedAt ∧ s.events[i]? = some event ∧
        t = s.delivers i event failedAt) ∨
      FirstFinds managers s a ∧
        (s.Moves t ∨
          (∃ job failedReason, (∃ other ∈ s.live, other.key = job.key) ∧
            t = s.moveToFailed managers.length job failedReason) ∨
          ∃ i entry, s.adds[i]? = some entry ∧ t = s.writes i entry) := by
  cases a with
  | add i key data options =>
    obtain ⟨manager, -, h⟩ := Option.bind_eq_some_iff.1 h
    split at h
    · cases h
    · next hkey =>
      obtain rfl := Option.some.inj h
      refine Or.inr ⟨trivial, Or.inl ⟨rfl, List.subset_cons_self _ _, fun job hjob => ?_⟩⟩
      obtain hjob | hjob := List.mem_append.1 hjob
      · exact Or.inl ⟨job, hjob, rfl⟩
      · obtain rfl := List.mem_singleton.1 hjob
        exact Or.inr ⟨hkey, List.mem_cons_self⟩
  | completes key =>
    obtain ⟨job, -, rfl⟩ := Option.map_eq_some_iff.1 h
    exact Or.inr ⟨trivial, Or.inl (QueueState.moves_filter _)⟩
  | attemptFails key unrecoverable failedReason =>
    obtain ⟨job, hjob, rfl⟩ := Option.map_eq_some_iff.1 h
    have hmem : job ∈ s.live := List.mem_of_find?_eq_some hjob
    refine Or.inr ⟨trivial, ?_⟩
    obtain hmoves | ⟨failed, hkey, heq⟩ :=
      QueueState.attemptFails_cases managers.length unrecoverable failedReason hmem
    · exact Or.inl hmoves
    · exact Or.inr (Or.inl ⟨failed, failedReason, ⟨job, hmem, hkey.symm⟩, heq⟩)
  | stalls key counted failedReason =>
    obtain ⟨job, hjob, rfl⟩ := Option.map_eq_some_iff.1 h
    have hmem : job ∈ s.live := List.mem_of_find?_eq_some hjob
    refine Or.inr ⟨trivial, ?_⟩
    obtain hmoves | ⟨failed, hkey, heq⟩ :=
      QueueState.stalls_cases managers.length counted failedReason hmem
    · exact Or.inl hmoves
    · exact Or.inr (Or.inl ⟨failed, failedReason, ⟨job, hmem, hkey.symm⟩, heq⟩)
  | delivers i failedAt =>
    obtain ⟨event, hevent, rfl⟩ := Option.map_eq_some_iff.1 h
    exact Or.inl ⟨i, failedAt, event, rfl, hevent, rfl⟩
  | writes i =>
    obtain ⟨entry, hentry, rfl⟩ := Option.map_eq_some_iff.1 h
    exact Or.inr ⟨trivial, Or.inr (Or.inr ⟨i, entry, hentry, rfl⟩)⟩

/-! ## The jobs that have failed -/

namespace QueueState

variable {s t : QueueState D} {key : JobKey} {listeners : ℕ} {job : Job D}

/-- A key belongs to at most one job, which is live or has failed; events and dead letters are of failed
jobs. -/
structure Inv (s : QueueState D) : Prop where
  live_known : ∀ job ∈ s.live, job.key ∈ s.known
  failures_known : ∀ job ∈ s.failures, job.key ∈ s.known
  live_ne : ∀ job ∈ s.live, ∀ failed ∈ s.failures, job.key ≠ failed.key
  nodup : (s.failures.map Job.key).Nodup
  stored : ∀ job ∈ s.failed, job ∈ s.failures
  event_of : ∀ event ∈ s.events, ∃ job ∈ s.failures, job.key = event.key
  entry_of : ∀ entry ∈ s.adds ++ s.deadLetters,
    ∃ job ∈ s.failures, job.key = entry.key ∧ job.data = entry.originalData

theorem inv_init : (init : QueueState D).Inv := by
  refine ⟨?_, ?_, ?_, List.nodup_nil, ?_, ?_, ?_⟩ <;> exact fun _ h => absurd h List.not_mem_nil

/-- A live job has a key of its own. -/
theorem Inv.key_ne_of_live (hs : s.Inv) (hlive : ∃ other ∈ s.live, other.key = key) {failed : Job D}
    (hfailed : failed ∈ s.failures) : failed.key ≠ key := by
  obtain ⟨other, hother, rfl⟩ := hlive
  exact (hs.live_ne other hother failed hfailed).symm

/-- Two failed jobs with one key are the same. -/
theorem Inv.failures_inj (hs : s.Inv) {first second : Job D} (hfirst : first ∈ s.failures)
    (hsecond : second ∈ s.failures) (hkey : first.key = second.key) : first = second :=
  List.inj_on_of_nodup_map hs.nodup hfirst hsecond hkey

theorem mem_of_mem_retain {queue : QueueName} {retention : Retention} {failed : List (Job D)}
    (h : job ∈ retention.retain queue failed) : job ∈ failed := by
  cases retention with
  | keepAll => exact h
  | count n =>
    obtain h | h := List.mem_append.1 h
    · exact List.mem_of_mem_filter h
    · exact List.mem_of_mem_filter (List.mem_of_mem_drop h)

/-- What a listener reads of a failed job is what is kept of it. -/
theorem Inv.getJob_of_failure (hs : s.Inv) (hjob : job ∈ s.failures) :
    s.getJob job.key = s.failed.find? (·.key = job.key) := by
  have hlive : s.live.find? (·.key = job.key) = none := by
    rw [List.find?_eq_none]
    intro other hother
    simpa using hs.live_ne other hother job hjob
  rw [getJob, List.find?_append, hlive, Option.none_or]

/-- A listener finds a failed job exactly when it is kept and its attempts are used up. -/
theorem Inv.finds_iff (hs : s.Inv) (hjob : job ∈ s.failures) :
    s.finds job.key = true ↔ job ∈ s.failed ∧ job.isExhausted = true := by
  rw [finds, hs.getJob_of_failure hjob, Option.any_eq_true]
  constructor
  · rintro ⟨found, hfound, hexhausted⟩
    obtain ⟨hmem, hkey⟩ := of_find?_key hfound
    obtain rfl := hs.failures_inj (hs.stored found hmem) hjob hkey
    exact ⟨hmem, hexhausted⟩
  · rintro ⟨hmem, hexhausted⟩
    obtain ⟨found, hfound⟩ : ∃ found, s.failed.find? (·.key = job.key) = some found := by
      rw [← Option.isSome_iff_exists, List.find?_isSome]
      exact ⟨job, hmem, by simp⟩
    obtain ⟨hstored, hkey⟩ := of_find?_key hfound
    obtain rfl := hs.failures_inj (hs.stored found hstored) hjob hkey
    exact ⟨found, hfound, hexhausted⟩

/-- What is added for an event is for a failed job with its data. -/
theorem Inv.entry_of_event (hs : s.Inv) {event : FailedEvent} (hevent : event ∈ s.events) {failedAt : String}
    {entry : DeadLetter D}
    (h : entry ∈ moveToDeadLetterIfExhausted (s.getJob event.key) event.key event.failedReason failedAt) :
    ∃ job ∈ s.failures, job.key = entry.key ∧ job.data = entry.originalData := by
  obtain ⟨job, hjob, hkey⟩ := hs.event_of event hevent
  rw [← hkey, hs.getJob_of_failure hjob] at h
  match hfound : s.failed.find? (·.key = job.key) with
  | none =>
    rw [hfound] at h
    exact absurd h (Option.not_mem_none entry)
  | some found =>
    rw [hfound, moveToDeadLetterIfExhausted] at h
    obtain ⟨hstored, hfkey⟩ := of_find?_key hfound
    obtain rfl := hs.failures_inj (hs.stored found hstored) hjob hfkey
    split at h
    · obtain rfl := Option.some.inj h
      exact ⟨found, hjob, rfl, rfl⟩
    · exact absurd h (Option.not_mem_none entry)

theorem Inv.moves (hs : s.Inv) (h : s.Moves t) : t.Inv := by
  have hfailures : t.failures = s.failures := by rw [h.eq]
  refine ⟨fun job hjob => ?_, fun job hjob => ?_, fun job hjob failed hfailed => ?_, ?_, ?_, ?_, ?_⟩
  · obtain ⟨other, hother, hkey⟩ | ⟨-, hkey⟩ := h.live job hjob
    · exact hkey ▸ h.known (hs.live_known other hother)
    · exact hkey
  · exact h.known (hs.failures_known job (hfailures ▸ hjob))
  · rw [hfailures] at hfailed
    obtain ⟨other, hother, hkey⟩ | ⟨hkey, -⟩ := h.live job hjob
    · exact hkey ▸ hs.live_ne other hother failed hfailed
    · exact fun heq => hkey (heq ▸ hs.failures_known failed hfailed)
  all_goals rw [h.eq]
  · exact hs.nodup
  · exact hs.stored
  · exact hs.event_of
  · exact hs.entry_of

theorem Inv.moveToFailed (hs : s.Inv) (hjob : ∃ other ∈ s.live, other.key = job.key) (failedReason : String) :
    (s.moveToFailed listeners job failedReason).Inv := by
  have hnew : ∀ failed ∈ s.failures, failed.key ≠ job.key := fun failed => hs.key_ne_of_live hjob
  obtain ⟨other, hother, hkey⟩ := hjob
  refine ⟨fun moved hmoved => ?_, fun failed hfailed => ?_, fun moved hmoved failed hfailed => ?_, ?_,
    fun kept hkept => ?_, fun event hevent => ?_, fun entry hentry => ?_⟩
  · exact hs.live_known moved (List.mem_of_mem_filter hmoved)
  · obtain hfailed | hfailed := List.mem_append.1 hfailed
    · exact hs.failures_known failed hfailed
    · obtain rfl := List.mem_singleton.1 hfailed
      exact hkey ▸ hs.live_known other hother
  · obtain ⟨hmoved, hne⟩ := List.mem_filter.1 hmoved
    obtain hfailed | hfailed := List.mem_append.1 hfailed
    · exact hs.live_ne moved hmoved failed hfailed
    · obtain rfl := List.mem_singleton.1 hfailed
      simpa using hne
  · show ((s.failures ++ [job]).map Job.key).Nodup
    rw [List.map_append, List.map_singleton, ← List.concat_eq_append, List.nodup_concat]
    refine ⟨fun hmem => ?_, hs.nodup⟩
    obtain ⟨failed, hfailed, heq⟩ := List.mem_map.1 hmem
    exact hnew failed hfailed heq
  · obtain hkept | hkept := List.mem_append.1 (mem_of_mem_retain hkept)
    · exact List.mem_append_left _ (hs.stored kept hkept)
    · exact List.mem_append_right _ hkept
  · obtain hevent | hevent := List.mem_append.1 hevent
    · obtain ⟨failed, hfailed, heq⟩ := hs.event_of event hevent
      exact ⟨failed, List.mem_append_left _ hfailed, heq⟩
    · obtain ⟨i, -, rfl⟩ := List.mem_map.1 hevent
      exact ⟨job, List.mem_append_right _ List.mem_cons_self, rfl⟩
  · obtain ⟨failed, hfailed, heq⟩ := hs.entry_of entry hentry
    exact ⟨failed, List.mem_append_left _ hfailed, heq⟩

theorem Inv.delivers (hs : s.Inv) {i : ℕ} {event : FailedEvent} (hevent : s.events[i]? = some event)
    (failedAt : String) : (s.delivers i event failedAt).Inv := by
  refine ⟨hs.live_known, hs.failures_known, hs.live_ne, hs.nodup, hs.stored, fun other hother => ?_,
    fun entry hentry => ?_⟩
  · exact hs.event_of other (List.mem_of_mem_eraseIdx hother)
  · rw [QueueState.delivers, List.mem_append, List.mem_append] at hentry
    obtain (hentry | hentry) | hentry := hentry
    · exact hs.entry_of entry (List.mem_append_left _ hentry)
    · exact hs.entry_of_event (List.mem_of_getElem? hevent) (Option.mem_toList.1 hentry)
    · exact hs.entry_of entry (List.mem_append_right _ hentry)

theorem Inv.writes (hs : s.Inv) {i : ℕ} {entry : DeadLetter D} (hentry : s.adds[i]? = some entry) :
    (s.writes i entry).Inv := by
  refine ⟨hs.live_known, hs.failures_known, hs.live_ne, hs.nodup, hs.stored, hs.event_of,
    fun other hother => ?_⟩
  rw [QueueState.writes, List.mem_append, List.mem_append, List.mem_singleton] at hother
  obtain hother | hother | rfl := hother
  · exact hs.entry_of other (List.mem_append_left _ (List.mem_of_mem_eraseIdx hother))
  · exact hs.entry_of other (List.mem_append_right _ hother)
  · exact hs.entry_of other (List.mem_append_left _ (List.mem_of_getElem? hentry))

theorem Inv.step {managers : List QueueManager} {a : QueueAction D} (hs : s.Inv)
    (h : step managers s a = some t) : t.Inv := by
  obtain ⟨i, failedAt, event, -, hevent, rfl⟩ | ⟨-, hmoves | ⟨job, failedReason, hjob, rfl⟩ |
    ⟨i, entry, hentry, rfl⟩⟩ := step_cases h
  · exact hs.delivers hevent failedAt
  · exact hs.moves hmoves
  · exact hs.moveToFailed hjob failedReason
  · exact hs.writes hentry

/-- A dead letter is never of a job that will still be tried. -/
theorem Inv.sparesRetried (hs : s.Inv) : s.SparesRetried := by
  intro entry hentry job hjob
  obtain ⟨failed, hfailed, hkey, -⟩ := hs.entry_of entry (List.mem_append_right _ hentry)
  exact fun heq => hs.live_ne job hjob failed hfailed (heq.symm.trans hkey.symm)

/-! ## Counts of one job -/

/-- An event is published for each listener. -/
theorem unread_moveToFailed (s : QueueState D) (job : Job D) (failedReason : String) (key : JobKey) :
    (s.moveToFailed listeners job failedReason).unread key
      = s.unread key + if job.key = key then listeners else 0 := by
  rw [unread, moveToFailed, List.countP_append, List.countP_map]
  split
  · next hkey =>
    have hall : (List.range listeners).countP
        ((fun event : FailedEvent => decide (event.key = key)) ∘ fun i => ⟨i, job.key, failedReason⟩)
          = (List.range listeners).length := by
      rw [List.countP_eq_length]
      exact fun _ _ => decide_eq_true hkey
    rw [hall, List.length_range, unread]
  · next hkey =>
    have hnone : (List.range listeners).countP
        ((fun event : FailedEvent => decide (event.key = key)) ∘ fun i => ⟨i, job.key, failedReason⟩) = 0 := by
      rw [List.countP_eq_zero]
      exact fun _ _ => by simpa using hkey
    rw [hnone, unread]

theorem unread_delivers {i : ℕ} {event : FailedEvent} (hevent : s.events[i]? = some event) (failedAt : String)
    (key : JobKey) :
    (s.delivers i event failedAt).unread key + (if event.key = key then 1 else 0) = s.unread key := by
  have h := countP_eraseIdx (fun other : FailedEvent => decide (other.key = key)) hevent
  simpa only [unread, delivers, decide_eq_true_eq] using h

theorem written_delivers (s : QueueState D) (i : ℕ) (event : FailedEvent) (failedAt : String) (key : JobKey) :
    (s.delivers i event failedAt).written key
      = s.written key + if event.key = key ∧ s.finds event.key = true then 1 else 0 := by
  rw [written, written, delivers, finds]
  match s.getJob event.key with
  | none => simp [moveToDeadLetterIfExhausted]
  | some job =>
    by_cases hexhausted : job.isExhausted = true
    · simp only [moveToDeadLetterIfExhausted, hexhausted, if_true, Option.toList_some, List.countP_append,
        List.countP_singleton, decide_eq_true_eq, Option.any_some, and_true]
      omega
    · simp [moveToDeadLetterIfExhausted, hexhausted]

theorem written_writes {i : ℕ} {entry : DeadLetter D} (hentry : s.adds[i]? = some entry) (key : JobKey) :
    (s.writes i entry).written key = s.written key := by
  have h := countP_eraseIdx (fun other : DeadLetter D => decide (other.key = key)) hentry
  simp only [written, writes, List.countP_append, List.countP_singleton]
  omega

/-- Before a job fails nothing is published or written for it. -/
theorem Inv.unread_eq_zero (hs : s.Inv) (hkey : ∀ job ∈ s.failures, job.key ≠ key) : s.unread key = 0 := by
  rw [unread, List.countP_eq_zero]
  intro event hevent
  obtain ⟨job, hjob, heq⟩ := hs.event_of event hevent
  simpa [← heq] using hkey job hjob

theorem Inv.written_eq_zero (hs : s.Inv) (hkey : ∀ job ∈ s.failures, job.key ≠ key) : s.written key = 0 := by
  rw [written, List.countP_eq_zero]
  intro entry hentry
  obtain ⟨job, hjob, heq, -⟩ := hs.entry_of entry hentry
  simpa [← heq] using hkey job hjob

/-! ## The first reading -/

/-- The dead letter of each failed job is written at the first reading. -/
def Good (listeners : ℕ) (s : QueueState D) : Prop :=
  ∀ job ∈ s.failures, s.unread job.key = listeners ∧ s.written job.key = 0 ∨
    s.unread job.key < listeners ∧ s.written job.key = 1

/-- Some failed job has two dead letters, or has been read and can have none any more. -/
def Spoiled (listeners : ℕ) (s : QueueState D) : Prop :=
  ∃ job ∈ s.failures, 2 ≤ s.written job.key ∨
    s.unread job.key < listeners ∧ s.written job.key = 0 ∧ s.finds job.key = false

/-- What a step does to the counts of a job that has failed, if it is not a reading of it. -/
structure Frame (s t : QueueState D) (key : JobKey) : Prop where
  unread : t.unread key = s.unread key
  written : t.written key = s.written key

theorem Moves.frame (h : s.Moves t) (key : JobKey) : Frame s t key := by
  constructor <;> rw [h.eq] <;> rfl

theorem Inv.frame_moveToFailed (hs : s.Inv) {moved : Job D} (hmoved : ∃ other ∈ s.live, other.key = moved.key)
    (failedReason : String) (hjob : job ∈ s.failures) :
    Frame s (s.moveToFailed listeners moved failedReason) job.key := by
  have hne : moved.key ≠ job.key := (hs.key_ne_of_live hmoved hjob).symm
  refine ⟨?_, rfl⟩
  rw [unread_moveToFailed, if_neg hne, Nat.add_zero]

/-- A job that no listener will find stays so. -/
theorem Inv.finds_mono {managers : List QueueManager} {a : QueueAction D} (hs : s.Inv)
    (h : Queues.step managers s a = some t) (hjob : job ∈ s.failures) (hfinds : t.finds job.key = true) :
    s.finds job.key = true := by
  have ht : t.Inv := hs.step h
  obtain ⟨i, failedAt, event, -, hevent, rfl⟩ | ⟨-, hmoves | ⟨moved, failedReason, hmoved, rfl⟩ |
    ⟨i, entry, hentry, rfl⟩⟩ := step_cases h
  · exact hfinds
  · have hfailures : job ∈ t.failures := by
      rw [hmoves.eq]
      exact hjob
    have hkept := (ht.finds_iff hfailures).1 hfinds
    rw [hmoves.eq] at hkept
    exact (hs.finds_iff hjob).2 hkept
  · obtain ⟨hkept, hexhausted⟩ := (ht.finds_iff (List.mem_append_left _ hjob)).1 hfinds
    obtain hkept | hkept := List.mem_append.1 (mem_of_mem_retain hkept)
    · exact (hs.finds_iff hjob).2 ⟨hkept, hexhausted⟩
    · -- the job that fails now is live, so it is another one
      obtain rfl := List.mem_singleton.1 hkept
      exact absurd rfl (hs.key_ne_of_live hmoved hjob)
  · exact hfinds

theorem Inv.good_step {managers : List QueueManager} {a : QueueAction D} (hs : s.Inv)
    (hgood : s.Good managers.length) (hfirst : FirstFinds managers s a)
    (h : Queues.step managers s a = some t) : t.Good managers.length := by
  obtain ⟨i, failedAt, event, rfl, hevent, rfl⟩ | ⟨-, hmoves | ⟨moved, failedReason, hmoved, rfl⟩ |
    ⟨i, entry, hentry, rfl⟩⟩ := step_cases h
  · intro job hjob
    have hunread := unread_delivers hevent failedAt job.key
    have hwritten := written_delivers s i event failedAt job.key
    have hiff := hfirst event hevent
    have hcount := hgood job hjob
    by_cases hkey : event.key = job.key
    · rw [hkey] at hiff hwritten
      rw [if_pos hkey] at hunread
      by_cases hfinds : s.finds job.key = true
      · have hall := hiff.1 hfinds
        rw [if_pos ⟨rfl, hfinds⟩] at hwritten
        omega
      · have hall : s.unread job.key ≠ managers.length := fun heq => hfinds (hiff.2 heq)
        rw [if_neg fun hfound => hfinds hfound.2] at hwritten
        omega
    · rw [if_neg hkey] at hunread
      rw [if_neg fun hfound => hkey hfound.1] at hwritten
      omega
  · intro job hjob
    have hframe := hmoves.frame job.key
    rw [hframe.unread, hframe.written]
    rw [hmoves.eq] at hjob
    exact hgood job hjob
  · intro job hjob
    obtain hjob | hjob := List.mem_append.1 hjob
    · have hframe : Frame s (s.moveToFailed managers.length moved failedReason) job.key :=
        hs.frame_moveToFailed hmoved failedReason hjob
      rw [hframe.unread, hframe.written]
      exact hgood job hjob
    · obtain rfl := List.mem_singleton.1 hjob
      have hnew : ∀ failed ∈ s.failures, failed.key ≠ job.key := fun failed => hs.key_ne_of_live hmoved
      refine Or.inl ⟨?_, hs.written_eq_zero hnew⟩
      rw [unread_moveToFailed, if_pos rfl, hs.unread_eq_zero hnew, Nat.zero_add]
  · intro job hjob
    rw [written_writes hentry]
    exact hgood job hjob

theorem Inv.spoiled_of_not_firstFinds {managers : List QueueManager} {a : QueueAction D} (hs : s.Inv)
    (hgood : s.Good managers.length) (hfirst : ¬FirstFinds managers s a)
    (h : Queues.step managers s a = some t) : t.Spoiled managers.length := by
  obtain ⟨i, failedAt, event, rfl, hevent, rfl⟩ | ⟨hfirst', -⟩ := step_cases h
  · obtain ⟨job, hjob, hkey⟩ := hs.event_of event (List.mem_of_getElem? hevent)
    have hne : ¬(s.finds job.key = true ↔ s.unread job.key = managers.length) := by
      refine fun hiff => hfirst fun other hother => ?_
      obtain rfl := Option.some.inj (hevent.symm.trans hother)
      exact hkey ▸ hiff
    have hunread := unread_delivers hevent failedAt job.key
    have hwritten := written_delivers s i event failedAt job.key
    rw [if_pos hkey.symm] at hunread
    rw [← hkey] at hwritten
    have hcount := hgood job hjob
    refine ⟨job, hjob, ?_⟩
    by_cases hfinds : s.finds job.key = true
    · -- a second listener finds it
      have hlate : s.unread job.key ≠ managers.length := fun heq => hne (iff_of_true hfinds heq)
      rw [if_pos ⟨rfl, hfinds⟩] at hwritten
      omega
    · -- the first one does not, and then no listener does
      have hall : s.unread job.key = managers.length := by
        by_contra hlate
        exact hne (iff_of_false hfinds hlate)
      rw [if_neg fun hfound => hfinds hfound.2] at hwritten
      exact Or.inr ⟨by omega, by omega, Bool.eq_false_iff.2 hfinds⟩
  · exact absurd hfirst' hfirst

theorem Inv.spoiled_step {managers : List QueueManager} {a : QueueAction D} (hs : s.Inv)
    (hspoiled : s.Spoiled managers.length) (h : Queues.step managers s a = some t) :
    t.Spoiled managers.length := by
  obtain ⟨job, hjob, hcount⟩ := hspoiled
  have hlost : s.finds job.key = false → t.finds job.key = false := by
    intro hfinds
    refine Bool.eq_false_iff.2 fun hfound => ?_
    exact absurd (hs.finds_mono h hjob hfound) (by simp [hfinds])
  obtain ⟨i, failedAt, event, rfl, hevent, rfl⟩ | ⟨-, hmoves | ⟨moved, failedReason, hmoved, rfl⟩ |
    ⟨i, entry, hentry, rfl⟩⟩ := step_cases h
  · have hunread := unread_delivers hevent failedAt job.key
    have hwritten := written_delivers s i event failedAt job.key
    refine ⟨job, hjob, ?_⟩
    obtain hcount | ⟨hlate, hnone, hfinds⟩ := hcount
    · omega
    · have hnot : ¬(event.key = job.key ∧ s.finds event.key = true) := by
        rintro ⟨hkey, hfound⟩
        rw [hkey, hfinds] at hfound
        exact Bool.false_ne_true hfound
      rw [if_neg hnot] at hwritten
      exact Or.inr ⟨by omega, by omega, hlost hfinds⟩
  · have hframe := hmoves.frame job.key
    refine ⟨job, by rw [hmoves.eq]; exact hjob, ?_⟩
    rw [hframe.unread, hframe.written]
    exact hcount.imp_right fun ⟨hlate, hnone, hfinds⟩ => ⟨hlate, hnone, hlost hfinds⟩
  · have hframe : Frame s (s.moveToFailed managers.length moved failedReason) job.key :=
      hs.frame_moveToFailed hmoved failedReason hjob
    refine ⟨job, List.mem_append_left _ hjob, ?_⟩
    rw [hframe.unread, hframe.written]
    exact hcount.imp_right fun ⟨hlate, hnone, hfinds⟩ => ⟨hlate, hnone, hlost hfinds⟩
  · refine ⟨job, hjob, ?_⟩
    rw [written_writes hentry]
    exact hcount

/-- In a settled state the dead letters of a failed job are those that have been written for it. -/
theorem Settled.written (h : s.Settled) (key : JobKey) :
    s.written key = (s.deadLetters.filter (·.key = key)).length := by
  rw [QueueState.written, h.2, List.nil_append, List.countP_eq_length_filter]

theorem Inv.eachOnce (hs : s.Inv) (hlisteners : 0 < listeners) (hsettled : s.Settled)
    (hgood : s.Good listeners) : s.EachOnce := by
  intro job hjob
  have hunread : s.unread job.key = 0 := by
    rw [unread, hsettled.1, List.countP_nil]
  have hcount := hgood job hjob
  rw [hsettled.written] at hcount
  have hone : (s.deadLetters.filter (·.key = job.key)).length = 1 := by omega
  obtain ⟨entry, heq⟩ := List.length_eq_one_iff.1 hone
  refine ⟨entry, heq, ?_⟩
  have hentry : entry ∈ s.deadLetters.filter (·.key = job.key) := heq ▸ List.mem_singleton_self entry
  obtain ⟨hmem, hkey⟩ := List.mem_filter.1 hentry
  obtain ⟨failed, hfailed, hfkey, hdata⟩ := hs.entry_of entry (List.mem_append_right _ hmem)
  obtain rfl := hs.failures_inj hfailed hjob (hfkey.trans (of_decide_eq_true hkey))
  exact hdata.symm

theorem not_eachOnce (hsettled : s.Settled) (hspoiled : s.Spoiled listeners) : ¬s.EachOnce := by
  obtain ⟨job, hjob, hcount⟩ := hspoiled
  intro heach
  obtain ⟨entry, heq, -⟩ := heach job hjob
  rw [hsettled.written, heq, List.length_singleton] at hcount
  omega

end QueueState

/-! ## The dead letters of a run -/

/-- After a run of the queues in which every event has been acted on, each job that has failed for good has
exactly one dead letter, with its data, and no job had one while it would still be tried, exactly when at each
reading of a failed job by a listener the job is found with its attempts used up if no listener has read it
before, and only then. -/
theorem deadLettered_iff (managers : List QueueManager) (hmanagers : 0 < managers.length)
    (as : List (QueueAction D)) (u : QueueState D) (h : run (step managers) QueueState.init as = some u)
    (hsettled : u.Settled) :
    Along (step managers) QueueState.SparesRetried QueueState.init as ∧ u.EachOnce ↔
      Guarded (step managers) (FirstFinds managers) QueueState.init as := by
  have hspares : Along (step managers) QueueState.SparesRetried QueueState.init as := by
    refine along_of_guarded (fun s hs => hs.sparesRetried) (fun s a t hs _ hst => hs.step hst)
      QueueState.inv_init (guarded_of_forall (fun _ _ => trivial) _ as)
  rw [and_iff_right hspares]
  have hgood : (QueueState.init : QueueState D).Good managers.length :=
    fun _ hjob => absurd hjob List.not_mem_nil
  exact run_iff_guarded (fun s a t hs hst => hs.step hst)
    (fun s a t hs hgood hfirst hst => hs.good_step hgood hfirst hst)
    (fun s a t hs hgood hfirst hst => hs.spoiled_of_not_firstFinds hgood hfirst hst)
    (fun s a t hs hspoiled hst => hs.spoiled_step hspoiled hst) QueueState.inv_init hgood h
    (fun hu hgood => hu.eachOnce hmanagers hsettled hgood)
    (fun _ hspoiled => QueueState.not_eachOnce hsettled hspoiled)

/-- One job with a single attempt, which fails. -/
def singleAttempt : List (QueueAction String) :=
  [.add 0 ⟨.pdfGeneration, 1⟩ "report" ⟨some 1, none⟩, .attemptFails ⟨.pdfGeneration, 1⟩ false "timeout"]

/-- With one manager its dead letter is written once. -/
theorem singleAttempt_eachOnce : ∃ u, run (step [QueueManager.new none none]) QueueState.init
    (singleAttempt ++ [.delivers 0 "2025-01-01T00:00:00.000Z", .writes 0]) = some u ∧ u.EachOnce := by
  refine ⟨_, rfl, ((deadLettered_iff [QueueManager.new none none] Nat.zero_lt_one
    (singleAttempt ++ [.delivers 0 "2025-01-01T00:00:00.000Z", .writes 0]) _ rfl ⟨rfl, rfl⟩).2 ?_).2⟩
  decide

/-- With two managers it is written twice. -/
theorem singleAttempt_not_eachOnce : ∃ u,
    run (step [QueueManager.new none none, QueueManager.new none none]) QueueState.init
      (singleAttempt ++ [.delivers 0 "2025-01-01T00:00:00.000Z", .delivers 0 "2025-01-01T00:00:00.000Z",
        .writes 0, .writes 0]) = some u ∧ u.Settled ∧ ¬u.EachOnce := by
  refine ⟨_, rfl, ⟨rfl, rfl⟩, fun heach => ?_⟩
  obtain ⟨entry, heq, -⟩ := heach _ List.mem_cons_self
  exact absurd ((congrArg List.length heq).trans List.length_singleton) (by decide)

end AlsaqiBackend.Queues
