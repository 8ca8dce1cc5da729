import AlsaqiBackend.Lib.Modify
import AlsaqiBackend.Lib.Run

/-!
# Backup codes

`setup` issues ten backup codes and stores their hashes; `useBackupCode` reads the list, looks for the
first hash that the code matches, and writes the list back without it. Any number of calls run at once,
and the read and the write of a call are steps of their own; so are the `DELETE` and the `INSERT` of
`setup`, the first of which is also what `disable` does.

`backup_codes_once_along` says that the stored list is the issued one without the codes that were
accepted, and none of them twice, as long as a call writes only while the list is the one that it has
read. `compare` stands for `bcrypt.compareSync`.
-/

namespace AlsaqiBackend.TwoFactor

open AlsaqiBackend.Lib

def BACKUP_CODE_COUNT : ℕ := 10

/-- The codes of one `setup`, with their hashes: a code matches its own hash, and none of the others. -/
structure IssuedCodes (compare : String → String → Bool) where
  pairs : List (String × String)
  count : pairs.length = BACKUP_CODE_COUNT
  own : ∀ p ∈ pairs, compare p.1 p.2 = true
  others : pairs.Pairwise fun p q => compare p.1 q.2 = false

variable (compare : String → String → Bool)

def IssuedCodes.hashes {compare : String → String → Bool} (codes : IssuedCodes compare) : List String :=
  codes.pairs.map Prod.snd

/-- The hashes of a `setup` are different. -/
theorem IssuedCodes.hashes_nodup {compare : String → String → Bool} (codes : IssuedCodes compare) :
    codes.hashes.Nodup := by
  unfold IssuedCodes.hashes
  rw [List.Nodup, List.pairwise_map]
  refine codes.others.imp_of_mem fun {p q} hp _ hother heq => ?_
  rw [← heq, codes.own p hp] at hother
  cases hother

/-! ## Calls -/

/-- Where a call of `useBackupCode` stands. -/
inductive BackupPhase
  | called
  /-- The list has been read, and the code matches the hash at the index. -/
  | matched (hashedCodes : List String) (matchIndex : ℕ)
  | returned (result : Bool)
  deriving DecidableEq, Repr

structure BackupCall where
  code : String
  phase : BackupPhase
  deriving DecidableEq, Repr

/-- The stored list, if there is a row; the hashes that the last `setup` issued, and those of the codes
that have been accepted since; and the calls. -/
structure BackupState where
  stored : Option (List String)
  issued : List String
  accepted : List String
  calls : List BackupCall
  deriving DecidableEq, Repr

def BackupState.init : BackupState := ⟨none, [], [], []⟩

inductive BackupAction
  | call (code : String)
  /-- A call reads the list, and looks for the code. -/
  | readCodes (i : ℕ)
  /-- A call writes the list back, and returns. -/
  | writeCodes (i : ℕ)
  /-- The `DELETE` of `setup` or of `disable`. -/
  | deleteRecord
  /-- The `INSERT` of `setup`. -/
  | insertRecord (codes : IssuedCodes compare)

def BackupState.setCall (s : BackupState) (i : ℕ) (phase : BackupPhase) : BackupState :=
  { s with calls := s.calls.modify i fun call => { call with phase := phase } }

/-- What a call does when it has read the row: it looks for the first hash that the code matches. -/
def matchPhase (stored : Option (List String)) (code : String) : BackupPhase :=
  match stored with
  | none => .returned false
  | some hashedCodes =>
    match hashedCodes.findIdx? (compare code) with
    | none => .returned false
    | some matchIndex => .matched hashedCodes matchIndex

variable {compare}

/-- One step; `none` when the action is not possible. -/
def backupStep (s : BackupState) : BackupAction compare → Option BackupState
  | .call code => some { s with calls := s.calls ++ [⟨code, .called⟩] }
  | .readCodes i =>
    match s.calls[i]? with
    | some ⟨code, .called⟩ => some (s.setCall i (matchPhase compare s.stored code))
    | _ => none
  | .writeCodes i =>
    match s.calls[i]? with
    | some ⟨_, .matched hashedCodes matchIndex⟩ =>
      some { s.setCall i (.returned true) with
        -- The `UPDATE` changes nothing when the row is gone, and the call returns `true` all the same.
        stored := s.stored.map fun _ => hashedCodes.eraseIdx matchIndex
        accepted := s.accepted ++ hashedCodes[matchIndex]?.toList }
    | _ => none
  | .deleteRecord => some { s with stored := none }
  | .insertRecord codes =>
    match s.stored with
    | some _ => none
    | none => some { s with stored := some codes.hashes, issued := codes.hashes, accepted := [] }

/-- No code has been accepted twice since the last `setup`, and the stored list is the issued one
without those that have been. -/
structure CodesOnce (s : BackupState) : Prop where
  once : s.accepted.Nodup
  rest : ∀ hashedCodes, s.stored = some hashedCodes →
    hashedCodes = s.issued.filter (· ∉ s.accepted)

/-- A call writes only while the list is the one that it has read. -/
def unchanged (s : BackupState) : BackupAction compare → Bool
  | .writeCodes i =>
    match s.calls[i]? with
    | some ⟨_, .matched hashedCodes _⟩ => s.stored = some hashedCodes
    | _ => true
  | _ => true

/-! ## Runs -/

/-- The invariant: the issued hashes are different, and a call that has found its code has it in the list
that it has read. -/
structure BackupInv (s : BackupState) : Prop where
  codes : CodesOnce s
  nodup : s.issued.Nodup
  found : ∀ code hashedCodes matchIndex, ⟨code, .matched hashedCodes matchIndex⟩ ∈ s.calls →
    matchIndex < hashedCodes.length

/-- A list without repetitions that loses the entry at a place loses just that one. -/
theorem eraseIdx_filter {issued accepted : List String} (hnodup : issued.Nodup) {i : ℕ}
    (hi : i < (issued.filter (· ∉ accepted)).length) :
    (issued.filter (· ∉ accepted)).eraseIdx i =
      issued.filter (· ∉ accepted ++ [(issued.filter (· ∉ accepted))[i]]) := by
  have hfilter : (issued.filter (· ∉ accepted)).Nodup := hnodup.filter _
  rw [← hfilter.erase_getElem i hi, hfilter.erase_eq_filter, List.filter_filter]
  refine List.filter_congr fun hash _ => ?_
  simp only [List.mem_append, List.mem_singleton, not_or]
  grind

variable {s t : BackupState}

/-- A call that has found its code after a call has moved on had found it before, unless it is that
one. -/
theorem mem_setCall_backup {i : ℕ} {phase : BackupPhase} {call : BackupCall}
    (h : call ∈ (s.setCall i phase).calls) : call ∈ s.calls ∨ call.phase = phase := by
  rcases mem_modify_cases h with hold | ⟨old, -, rfl⟩
  · exact Or.inl hold
  · exact Or.inr rfl

/-- The index of a code that is found is one of the list. -/
theorem matchPhase_matched {stored : Option (List String)} {code : String} {hashedCodes : List String}
    {matchIndex : ℕ} (h : matchPhase compare stored code = .matched hashedCodes matchIndex) :
    matchIndex < hashedCodes.length := by
  unfold matchPhase at h
  split at h
  · cases h
  · split at h
    · cases h
    · next hashedCodes' matchIndex' hfind =>
      rw [BackupPhase.matched.injEq] at h
      obtain ⟨rfl, rfl⟩ := h
      exact (List.findIdx?_eq_some_iff_getElem.1 hfind).1

/-- A call writes the list that it has read, without its code. -/
theorem BackupInv.write (h : BackupInv s) {i : ℕ} {code : String} {hashedCodes : List String}
    {matchIndex : ℕ} (hcall : ⟨code, .matched hashedCodes matchIndex⟩ ∈ s.calls)
    (hstored : s.stored = some hashedCodes) :
    BackupInv { s.setCall i (.returned true) with
      stored := s.stored.map fun _ => hashedCodes.eraseIdx matchIndex
      accepted := s.accepted ++ hashedCodes[matchIndex]?.toList } := by
  have hlt := h.found code hashedCodes matchIndex hcall
  have hrest := h.codes.rest hashedCodes hstored
  have hget : hashedCodes[matchIndex]?.toList = [hashedCodes[matchIndex]] := by
    rw [List.getElem?_eq_getElem hlt]
    rfl
  rw [hget]
  refine ⟨⟨?_, fun hashedCodes' hstored' => ?_⟩, h.nodup, fun code' hashedCodes' matchIndex' hmem => ?_⟩
  · -- The code was in the list, so it has not been accepted.
    have hmem : hashedCodes[matchIndex] ∈ s.issued.filter (· ∉ s.accepted) :=
      hrest ▸ List.getElem_mem hlt
    have hnew : hashedCodes[matchIndex] ∉ s.accepted := by simpa using (List.mem_filter.1 hmem).2
    refine h.codes.once.append (List.nodup_singleton _) fun hash hin hin' => ?_
    rw [List.mem_singleton.1 hin'] at hin
    exact hnew hin
  · dsimp only at hstored' ⊢
    rw [hstored, Option.map_some, Option.some.injEq] at hstored'
    subst hrest
    rw [← hstored']
    exact eraseIdx_filter h.nodup hlt
  · rcases mem_setCall_backup hmem with hold | hnew
    · exact h.found code' hashedCodes' matchIndex' hold
    · cases hnew

/-- A step that meets the condition keeps the invariant. -/
theorem backupStep_inv (s : BackupState) (a : BackupAction compare) (t : BackupState) (h : BackupInv s)
    (hunchanged : unchanged s a = true) (hstep : backupStep s a = some t) : BackupInv t := by
  unfold backupStep at hstep
  cases a with
  | call code =>
    obtain rfl := Option.some.inj hstep
    refine ⟨⟨h.codes.once, h.codes.rest⟩, h.nodup, fun code' hashedCodes matchIndex hmem => ?_⟩
    rcases List.mem_append.1 hmem with hold | hnew
    · exact h.found code' hashedCodes matchIndex hold
    · cases List.mem_singleton.1 hnew
  | readCodes i =>
    dsimp only at hstep
    split at hstep
    · obtain rfl := Option.some.inj hstep
      refine ⟨⟨h.codes.once, h.codes.rest⟩, h.nodup, fun code' hashedCodes matchIndex hmem => ?_⟩
      rcases mem_setCall_backup hmem with hold | hnew
      · exact h.found code' hashedCodes matchIndex hold
      · exact matchPhase_matched hnew.symm
    · cases hstep
  | writeCodes i =>
    dsimp only at hstep
    split at hstep
    · next code hashedCodes matchIndex hcall =>
      obtain rfl := Option.some.inj hstep
      simp only [unchanged, hcall, decide_eq_true_eq] at hunchanged
      exact h.write (List.mem_of_getElem? hcall) hunchanged
    · cases hstep
  | deleteRecord =>
    obtain rfl := Option.some.inj hstep
    exact ⟨⟨h.codes.once, fun _ hstored => by cases hstored⟩, h.nodup, h.found⟩
  | insertRecord codes =>
    dsimp only at hstep
    split at hstep
    · cases hstep
    · obtain rfl := Option.some.inj hstep
      refine ⟨⟨List.nodup_nil, fun hashedCodes hstored => ?_⟩, codes.hashes_nodup, h.found⟩
      rw [← Option.some.inj hstored]
      simp

theorem BackupState.init_inv : BackupInv .init where
  codes := ⟨List.nodup_nil, fun _ hstored => by cases hstored⟩
  nodup := List.nodup_nil
  found := fun _ _ _ hmem => absurd hmem List.not_mem_nil

/-- Along every run in which a call writes only while the stored list is the one that it has read, no
backup code is accepted twice, and the stored list is the issued one without the accepted codes. -/
theorem backup_codes_once_along {as : List (BackupAction compare)}
    (h : Guarded backupStep (fun s a => unchanged s a = true) .init as) :
    Along backupStep CodesOnce .init as :=
  along_of_guarded (fun _ => BackupInv.codes) backupStep_inv BackupState.init_inv h

/-- Texts that stand for hashes. -/
def matchesText (code hash : String) : Bool := hash = "hash of " ++ code

/-- Ten codes. -/
def tenCodes : IssuedCodes matchesText where
  pairs := ["A", "B", "C", "D", "E", "F", "G", "H", "I", "J"].map fun code => (code, "hash of " ++ code)
  count := rfl
  own := by decide
  others := by decide

/-- Two codes, one after the other, and the first one again. -/
def codesInTurn : List (BackupAction matchesText) :=
  [.deleteRecord, .insertRecord tenCodes, .call "A", .readCodes 0, .writeCodes 0, .call "B", .readCodes 1,
    .writeCodes 1, .call "A", .readCodes 2]

/-- The repetition is not accepted, and the other eight codes are left. -/
theorem backup_codes_once_in_turn :
    Along backupStep CodesOnce .init codesInTurn ∧
      (run backupStep .init codesInTurn).map BackupState.accepted = some ["hash of A", "hash of B"] :=
  ⟨backup_codes_once_along (by decide +kernel), by decide +kernel⟩

/-- Two calls that both read the list before either writes it, with one code, and with two. -/
def overlappingUses (first second : String) : List (BackupAction matchesText) :=
  [.deleteRecord, .insertRecord tenCodes, .call first, .call second, .readCodes 0, .readCodes 1,
    .writeCodes 0, .writeCodes 1]

/-- Calls that overlap accept one code twice; with two codes, the first one comes back into the list. -/
theorem backup_code_accepted_twice :
    (∃ s, run backupStep .init (overlappingUses "A" "A") = some s ∧
      s.accepted = ["hash of A", "hash of A"] ∧ ¬ CodesOnce s) ∧
    ∃ s, run backupStep .init (overlappingUses "A" "B") = some s ∧
      s.accepted = ["hash of A", "hash of B"] ∧ s.stored = some (tenCodes.hashes.eraseIdx 1) ∧
      ¬ CodesOnce s := by
  constructor
  · have hrun : run backupStep .init (overlappingUses "A" "A") =
        some ⟨some (tenCodes.hashes.eraseIdx 0), tenCodes.hashes, ["hash of A", "hash of A"],
          [⟨"A", .returned true⟩, ⟨"A", .returned true⟩]⟩ := by decide +kernel
    exact ⟨_, hrun, rfl, fun h => absurd h.once (by decide)⟩
  · have hrun : run backupStep .init (overlappingUses "A" "B") =
        some ⟨some (tenCodes.hashes.eraseIdx 1), tenCodes.hashes, ["hash of A", "hash of B"],
          [⟨"A", .returned true⟩, ⟨"B", .returned true⟩]⟩ := by decide +kernel
    exact ⟨_, hrun, rfl, rfl, fun h => absurd (h.rest _ rfl) (by decide)⟩

end AlsaqiBackend.TwoFactor
