import AlsaqiBackend.Lib.Run
import AlsaqiBackend.Lib.Separator
import AlsaqiBackend.Numbering.Service
import Mathlib.Data.List.Nodup

/-!
# The codes of a run

Plans get the codes of their years, tasks and findings those of their plans, recommendations and evidence
those of their findings. A code has two digits of the year, and the years that a plan may have go from 2000
to 2100.

`codes_distinct_iff` says when all codes of a run are different: exactly when it does not number plans of both
2000 and 2100. What a code is the code of can always be read off it, and a call succeeds exactly below its
maximum.
-/

namespace AlsaqiBackend.Numbering

open AlsaqiBackend.Lib

/-! ## Calls -/

inductive Kind
  | plan
  | task
  | finding
  | recommendation
  | evidence
  deriving DecidableEq, Repr

namespace Kind

/-- The `scope_type` of the counters. -/
def scopeType : Kind → String
  | plan => "plan_year"
  | task => "task"
  | finding => "finding"
  | recommendation => "rec"
  | evidence => "evidence"

def maxSeq : Kind → ℕ
  | plan => MAX_PLAN_SEQ
  | _ => MAX_CHILD_SEQ

/-- What stands before the number of a child. -/
def letter : Kind → String
  | plan => ""
  | task => "T"
  | finding => "F"
  | recommendation => "R"
  | evidence => "E"

/-- What has the code that a child's begins with. -/
def parentKind : Kind → Kind
  | recommendation | evidence => finding
  | _ => plan

/-- The code for a number. -/
def code (kind : Kind) (scopeId : String) (parent : Option String) (seq : ℕ) : String :=
  match parent with
  | none => planCode scopeId seq
  | some parent => childCode parent kind.letter seq

end Kind

/-- A code that was returned: for what, in which scope, and the code of the parent. -/
structure Issued where
  kind : Kind
  scopeId : String
  /-- The id of the plan or the finding that gets the code. -/
  id : Option String
  parent : Option String
  code : String
  deriving DecidableEq, Repr

structure NumberingState where
  counters : Counters
  issued : List Issued

namespace NumberingState

def init : NumberingState := ⟨.empty, []⟩

/-- The code of a plan or a finding. -/
def codeOf (s : NumberingState) (kind : Kind) (id : String) : Option String :=
  (s.issued.find? fun row => row.kind = kind && row.id = some id).map Issued.code

/-- What a call leaves. -/
def issue (s : NumberingState) (kind : Kind) (scopeId : String) (id parent : Option String)
    (result : Option String × Counters) : NumberingState where
  counters := result.2
  issued := s.issued ++ (result.1.map fun code => ⟨kind, scopeId, id, parent, code⟩).toList

end NumberingState

/-- A call; the id is that of the plan or the finding that gets the code. -/
inductive Call
  | nextPlanCode (year : ℕ) (planId : String)
  | nextTaskNumber (planId : String)
  | nextFindingNumber (planId findingId : String)
  | nextRecommendationNumber (findingId : String)
  | nextEvidenceNumber (findingId : String)
  deriving DecidableEq, Repr

namespace Call

def kind : Call → Kind
  | nextPlanCode _ _ => .plan
  | nextTaskNumber _ => .task
  | nextFindingNumber _ _ => .finding
  | nextRecommendationNumber _ => .recommendation
  | nextEvidenceNumber _ => .evidence

def scopeId : Call → String
  | nextPlanCode year _ => toString year
  | nextTaskNumber planId => planId
  | nextFindingNumber planId _ => planId
  | nextRecommendationNumber findingId => findingId
  | nextEvidenceNumber findingId => findingId

/-- The id that the code is given to. -/
def id : Call → Option String
  | nextPlanCode _ planId => some planId
  | nextFindingNumber _ findingId => some findingId
  | _ => none

end Call

open NumberingState

/-- One call: of a plan of a valid year with a new id, or under a plan or a finding that has its code. -/
def numberingStep (s : NumberingState) : Call → Option NumberingState
  | .nextPlanCode year planId =>
    if 2000 ≤ year ∧ year ≤ 2100 ∧ s.codeOf .plan planId = none then
      some (s.issue .plan (toString year) (some planId) none (nextPlanCode year s.counters))
    else none
  | .nextTaskNumber planId =>
    (s.codeOf .plan planId).map fun planCode =>
      s.issue .task planId none (some planCode) (nextTaskNumber planId planCode s.counters)
  | .nextFindingNumber planId findingId =>
    if s.codeOf .finding findingId = none then
      (s.codeOf .plan planId).map fun planCode =>
        s.issue .finding planId (some findingId) (some planCode) (nextFindingNumber planId planCode s.counters)
    else none
  | .nextRecommendationNumber findingId =>
    (s.codeOf .finding findingId).map fun findingNumber =>
      s.issue .recommendation findingId none (some findingNumber)
        (nextRecommendationNumber findingId findingNumber s.counters)
  | .nextEvidenceNumber findingId =>
    (s.codeOf .finding findingId).map fun findingNumber =>
      s.issue .evidence findingId none (some findingNumber)
        (nextEvidenceNumber findingId findingNumber s.counters)

/-- What can be read off a code: for what it is, and the code of the parent. -/
def readCode (code : String) : Kind × Option String :=
  let (front, last) := cutLast '-' code.toList
  match last.head? with
  | some 'T' => (.task, some (String.ofList front))
  | some 'F' => (.finding, some (String.ofList front))
  | some 'R' => (.recommendation, some (String.ofList front))
  | some 'E' => (.evidence, some (String.ofList front))
  | _ => (.plan, none)

/-- All codes are different. -/
def Distinct (s : NumberingState) : Prop := (s.issued.map Issued.code).Nodup

/-- Every code tells for what it is, and the code of its parent. -/
def Readable (s : NumberingState) : Prop :=
  ∀ row ∈ s.issued, readCode row.code = (row.kind, row.parent)

/-- The call returns a code exactly when its counter is below the maximum. -/
def SucceedsBelow (s : NumberingState) (call : Call) : Prop :=
  ∀ t, numberingStep s call = some t → ((∃ row, t.issued = s.issued ++ [row]) ↔
    s.counters call.kind.scopeType call.scopeId < call.kind.maxSeq)

/-- There is a call for a plan of this year. -/
def Numbers (year : ℕ) (calls : List Call) : Prop := ∃ planId, Call.nextPlanCode year planId ∈ calls

/-! ## Formats -/

theorem readCode_childCode {kind : Kind} (hkind : kind ≠ .plan) (parent : String) (seq : ℕ) :
    readCode (childCode parent kind.letter seq) = (kind, some parent) := by
  have hdash : '-' ∉ padded PADDING_CHILD seq := notMem_padded rfl
  unfold readCode childCode
  cases kind with
  | plan => exact absurd rfl hkind
  | task | finding | recommendation | evidence =>
    simp only [Kind.letter, String.toList_append, String.toList_ofList, List.append_assoc]
    rw [show ("-" : String).toList = ['-'] from rfl, List.singleton_append,
      cutLast_append (by simpa using hdash)]
    simp

theorem readCode_planCode (year : String) (seq : ℕ) : readCode (planCode year seq) = (.plan, none) := by
  have hdash : '-' ∉ padded PADDING_PLAN seq := notMem_padded rfl
  unfold readCode planCode
  simp only [String.toList_append, String.toList_ofList]
  rw [show ("-" : String).toList = ['-'] from rfl, List.append_assoc, List.singleton_append,
    cutLast_append hdash]
  -- The last part begins with a digit.
  cases hdigits : padded PADDING_PLAN seq with
  | nil => exact absurd hdigits padded_ne_nil
  | cons c digits =>
    have hc : c.isDigit = true := isDigit_of_mem_padded (w := PADDING_PLAN) (n := seq) (by simp [hdigits])
    simp only [List.head?_cons]
    split
    · rename_i heq
      cases heq
      cases hc
    · rename_i heq
      cases heq
      cases hc
    · rename_i heq
      cases heq
      cases hc
    · rename_i heq
      cases heq
      cases hc
    · rfl

/-- A child's code determines its number. -/
theorem childCode_inj {parent letter : String} {seq seq' : ℕ}
    (h : childCode parent letter seq = childCode parent letter seq') : seq = seq' := by
  unfold childCode at h
  rw [String.append_right_inj, String.ofList_inj] at h
  exact padded_inj h

/-- A plan's code determines its number and the digits of its year. -/
theorem planCode_inj {year year' : String} {seq seq' : ℕ} (h : planCode year seq = planCode year' seq') :
    shortYear year = shortYear year' ∧ seq = seq' := by
  have hlist := congrArg String.toList h
  unfold planCode at hlist
  simp only [String.toList_append, String.toList_ofList, List.append_assoc] at hlist
  have hrest := List.append_cancel_left hlist
  rw [show ("-" : String).toList = ['-'] from rfl, List.singleton_append, List.singleton_append,
    cut_at_last (notMem_padded rfl) (notMem_padded rfl)] at hrest
  exact ⟨String.toList_inj.1 hrest.1, padded_inj hrest.2⟩

/-- The digits of a year from 2000 to 2100. -/
theorem shortYear_eq {year : ℕ} (hge : 2000 ≤ year) (hle : year ≤ 2100) :
    shortYear (toString year) = String.ofList (padded 2 (year % 100)) := by
  have hall : ∀ k < 101, shortYear (toString (2000 + k)) = String.ofList (padded 2 ((2000 + k) % 100)) := by
    decide +kernel
  have hk := hall (year - 2000) (by omega)
  rwa [show 2000 + (year - 2000) = year by omega] at hk

/-- Two years with the same digits are the same, or the first and the last one. -/
theorem year_eq_of_shortYear {year year' : ℕ} (hge : 2000 ≤ year) (hle : year ≤ 2100) (hge' : 2000 ≤ year')
    (hle' : year' ≤ 2100) (h : shortYear (toString year) = shortYear (toString year')) :
    year = year' ∨ year = 2000 ∧ year' = 2100 ∨ year = 2100 ∧ year' = 2000 := by
  rw [shortYear_eq hge hle, shortYear_eq hge' hle', String.ofList_inj] at h
  have hmod : year % 100 = year' % 100 := padded_inj h
  omega

/-! ## States -/

/-- A row of a plan has a valid year, and any other one the code of a row that has its scope. -/
def Parented (issued : List Issued) (row : Issued) : Prop :=
  (row.kind = .plan ∧ row.parent = none ∧
      ∃ year, 2000 ≤ year ∧ year ≤ 2100 ∧ row.scopeId = toString year) ∨
    (row.kind ≠ .plan ∧ ∃ parent ∈ issued, parent.id = some row.scopeId ∧ row.parent = some parent.code)

/-- The codes have numbers up to their counters, and a year with a counter has its first code. -/
structure WellNumbered (s : NumberingState) : Prop where
  coded : ∀ row ∈ s.issued, ∃ seq ≤ s.counters row.kind.scopeType row.scopeId,
    row.code = row.kind.code row.scopeId row.parent seq
  parented : ∀ row ∈ s.issued, Parented s.issued row
  first : ∀ year : ℕ, 0 < s.counters "plan_year" (toString year) →
    ∃ row ∈ s.issued, row.scopeId = toString year ∧ row.code = planCode (toString year) 1

variable {s t : NumberingState} {call : Call}

theorem Parented.append {issued rows : List Issued} {row : Issued} (h : Parented issued row) :
    Parented (issued ++ rows) row := by
  rcases h with hplan | ⟨hkind, parent, hmem, hid, hcode⟩
  · exact Or.inl hplan
  · exact Or.inr ⟨hkind, parent, List.mem_append_left rows hmem, hid, hcode⟩

/-- A code that is found is that of a row. -/
theorem codeOf_eq_some {kind : Kind} {id code : String} (h : s.codeOf kind id = some code) :
    ∃ row ∈ s.issued, row.id = some id ∧ some code = some row.code := by
  obtain ⟨row, hfind, hcode⟩ := Option.map_eq_some_iff.1 h
  have hcond := List.find?_some hfind
  simp only [Bool.and_eq_true, decide_eq_true_eq] at hcond
  exact ⟨row, List.mem_of_find?_eq_some hfind, hcond.2, by rw [hcode]⟩

/-- Every call draws a number in its scope, and issues a code of its kind. -/
theorem numberingStep_eq (h : numberingStep s call = some t) :
    ∃ parent, (∀ code, Parented s.issued ⟨call.kind, call.scopeId, call.id, parent, code⟩) ∧
      t = s.issue call.kind call.scopeId call.id parent
        (numbered call.kind.scopeType call.scopeId call.kind.maxSeq
          (call.kind.code call.scopeId parent) s.counters) := by
  have hchild : ∀ {kind parentKind : Kind} {scopeId parent : String} {id : Option String},
      kind ≠ .plan → s.codeOf parentKind scopeId = some parent →
        ∀ code, Parented s.issued ⟨kind, scopeId, id, some parent, code⟩ :=
    fun hkind hcode code => Or.inr ⟨hkind, codeOf_eq_some hcode⟩
  cases call with
  | nextPlanCode year planId =>
    simp only [numberingStep] at h
    split_ifs at h with hyear
    obtain rfl := Option.some.inj h
    exact ⟨none, fun code => Or.inl ⟨rfl, rfl, year, hyear.1, hyear.2.1, rfl⟩, rfl⟩
  | nextTaskNumber planId =>
    obtain ⟨planCode, hcode, rfl⟩ := Option.map_eq_some_iff.1 h
    exact ⟨some planCode, hchild nofun hcode, rfl⟩
  | nextFindingNumber planId findingId =>
    simp only [numberingStep] at h
    split_ifs at h
    obtain ⟨planCode, hcode, rfl⟩ := Option.map_eq_some_iff.1 h
    exact ⟨some planCode, hchild nofun hcode, rfl⟩
  | nextRecommendationNumber findingId =>
    obtain ⟨findingNumber, hcode, rfl⟩ := Option.map_eq_some_iff.1 h
    exact ⟨some findingNumber, hchild nofun hcode, rfl⟩
  | nextEvidenceNumber findingId =>
    obtain ⟨findingNumber, hcode, rfl⟩ := Option.map_eq_some_iff.1 h
    exact ⟨some findingNumber, hchild nofun hcode, rfl⟩

theorem maxSeq_lt (kind : Kind) : kind.maxSeq < MAX_INTEGER := by
  cases kind <;> decide

/-- The row that a call issues, with the next number of its scope. -/
structure IsNext (s : NumberingState) (call : Call) (row : Issued) : Prop where
  kind : row.kind = call.kind
  scopeId : row.scopeId = call.scopeId
  parented : Parented s.issued row
  code : row.code =
    row.kind.code row.scopeId row.parent (s.counters call.kind.scopeType call.scopeId + 1)

/-- Below the maximum a call issues one row and raises its counter; above it, it issues none, and raises the
counter or not. -/
theorem numberingStep_cases (h : numberingStep s call = some t) :
    (s.counters call.kind.scopeType call.scopeId < call.kind.maxSeq ∧
      (∃ row, IsNext s call row ∧ t.issued = s.issued ++ [row]) ∧ t.counters =
        s.counters.set call.kind.scopeType call.scopeId
          (s.counters call.kind.scopeType call.scopeId + 1)) ∨
    (¬ s.counters call.kind.scopeType call.scopeId < call.kind.maxSeq ∧ t.issued = s.issued ∧
      (t.counters = s.counters.set call.kind.scopeType call.scopeId
          (s.counters call.kind.scopeType call.scopeId + 1) ∨ t.counters = s.counters)) := by
  obtain ⟨parent, hparented, rfl⟩ := numberingStep_eq h
  obtain ⟨htext, hcounters⟩ := numbered_spec call.kind.scopeType call.scopeId (maxSeq_lt call.kind)
    (call.kind.code call.scopeId parent) s.counters
  simp only [NumberingState.issue, htext]
  by_cases hlt : s.counters call.kind.scopeType call.scopeId < call.kind.maxSeq
  · have hnext : IsNext s call ⟨call.kind, call.scopeId, call.id, parent, call.kind.code call.scopeId parent
        (s.counters call.kind.scopeType call.scopeId + 1)⟩ := ⟨rfl, rfl, hparented _, rfl⟩
    refine Or.inl ⟨hlt, ⟨_, hnext, by rw [if_pos hlt]; rfl⟩, ?_⟩
    exact hcounters.resolve_right fun hfull => absurd hfull.2 (by omega)
  · refine Or.inr ⟨hlt, by rw [if_neg hlt]; simp, ?_⟩
    rcases hcounters with hset | ⟨hsame, -⟩
    · exact Or.inl hset
    · exact Or.inr hsame

/-- No call lowers a counter. -/
theorem counters_le (h : numberingStep s call = some t) (scopeType scopeId : String) :
    s.counters scopeType scopeId ≤ t.counters scopeType scopeId := by
  have hset : s.counters scopeType scopeId ≤ s.counters.set call.kind.scopeType call.scopeId
      (s.counters call.kind.scopeType call.scopeId + 1) scopeType scopeId := by
    by_cases hscope : scopeType = call.kind.scopeType ∧ scopeId = call.scopeId
    · rw [hscope.1, hscope.2, Counters.set_same]
      omega
    · rw [Counters.set_other _ _ (not_and_or.1 hscope)]
  rcases numberingStep_cases h with ⟨-, -, hcounters⟩ | ⟨-, -, hcounters | hcounters⟩
  · rwa [hcounters]
  · rwa [hcounters]
  · rw [hcounters]

/-- Every row of the state after a call was there before it, or is the next one. -/
theorem mem_issued (h : numberingStep s call = some t) {row : Issued} (hrow : row ∈ t.issued) :
    row ∈ s.issued ∨ IsNext s call row ∧
      t.counters call.kind.scopeType call.scopeId = s.counters call.kind.scopeType call.scopeId + 1 := by
  rcases numberingStep_cases h with ⟨-, ⟨new, hnew, hissued⟩, hcounters⟩ | ⟨-, hissued, -⟩
  · rw [hissued] at hrow
    rcases List.mem_append.1 hrow with hold | hlast
    · exact Or.inl hold
    · rw [List.mem_singleton.1 hlast, hcounters, Counters.set_same]
      exact Or.inr ⟨hnew, rfl⟩
  · rw [hissued] at hrow
    exact Or.inl hrow

theorem issued_prefix (h : numberingStep s call = some t) : ∃ rows, t.issued = s.issued ++ rows := by
  rcases numberingStep_cases h with ⟨-, ⟨row, -, hissued⟩, -⟩ | ⟨-, hissued, -⟩
  · exact ⟨[row], hissued⟩
  · exact ⟨[], by rw [hissued, List.append_nil]⟩

/-- The calls in the scope of a year are those for plans of this year. -/
theorem scope_year_iff {year : ℕ} : call.kind.scopeType = "plan_year" ∧ call.scopeId = toString year ↔
    ∃ planId, call = .nextPlanCode year planId := by
  constructor
  · rintro ⟨htype, hid⟩
    cases call with
    | nextPlanCode year' planId =>
      have hdigits := congrArg String.toList hid
      simp only [Call.scopeId, Nat.toString_eq_repr, Nat.toList_repr] at hdigits
      exact ⟨planId, by rw [toDigits_inj hdigits]⟩
    | nextTaskNumber planId => simp [Call.kind, Kind.scopeType] at htype
    | nextFindingNumber planId findingId => simp [Call.kind, Kind.scopeType] at htype
    | nextRecommendationNumber findingId => simp [Call.kind, Kind.scopeType] at htype
    | nextEvidenceNumber findingId => simp [Call.kind, Kind.scopeType] at htype
  · rintro ⟨planId, rfl⟩
    exact ⟨rfl, rfl⟩

/-- The counter of a year is raised by the calls for this year alone. -/
theorem year_counter_iff (year : ℕ) (s : NumberingState) (call : Call) (t : NumberingState)
    (h : numberingStep s call = some t) : 0 < t.counters "plan_year" (toString year) ↔
      0 < s.counters "plan_year" (toString year) ∨ ∃ planId, call = .nextPlanCode year planId := by
  by_cases hscope : call.kind.scopeType = "plan_year" ∧ call.scopeId = toString year
  · have hcall := scope_year_iff.1 hscope
    refine iff_of_true ?_ (Or.inr hcall)
    have hle := counters_le h "plan_year" (toString year)
    rcases numberingStep_cases h with ⟨-, -, hcounters⟩ | ⟨hfull, -, -⟩
    · rw [hcounters, ← hscope.1, ← hscope.2, Counters.set_same]
      omega
    · -- The scope is full, so its counter was raised before.
      rw [hscope.1, hscope.2] at hfull
      have hmax : 0 < call.kind.maxSeq := by
        cases call.kind <;> decide
      omega
  · have hother : ∀ value, s.counters.set call.kind.scopeType call.scopeId value "plan_year" (toString year) =
        s.counters "plan_year" (toString year) := by
      intro value
      apply Counters.set_other
      rcases not_and_or.1 hscope with htype | hid
      · exact Or.inl (Ne.symm htype)
      · exact Or.inr (Ne.symm hid)
    have hsame : t.counters "plan_year" (toString year) = s.counters "plan_year" (toString year) := by
      rcases numberingStep_cases h with ⟨-, -, hcounters⟩ | ⟨-, -, hcounters | hcounters⟩
      · rw [hcounters, hother]
      · rw [hcounters, hother]
      · rw [hcounters]
    rw [hsame, or_iff_left (mt scope_year_iff.2 hscope)]

/-- Every call keeps the state well numbered. -/
theorem wellNumbered_step (s : NumberingState) (call : Call) (t : NumberingState) (hs : WellNumbered s)
    (h : numberingStep s call = some t) : WellNumbered t where
  coded := by
    intro row hrow
    rcases mem_issued h hrow with hold | ⟨hnext, hcounter⟩
    · obtain ⟨seq, hle, hcode⟩ := hs.coded row hold
      exact ⟨seq, hle.trans (counters_le h _ _), hcode⟩
    · refine ⟨_, ?_, hnext.code⟩
      rw [hnext.kind, hnext.scopeId, hcounter]
  parented := by
    intro row hrow
    obtain ⟨rows, hissued⟩ := issued_prefix h
    rw [hissued]
    rcases mem_issued h hrow with hold | ⟨hnext, -⟩
    · exact (hs.parented row hold).append
    · exact hnext.parented.append
  first := by
    intro year hpos
    by_cases hbefore : 0 < s.counters "plan_year" (toString year)
    · obtain ⟨row, hrow, hfirst⟩ := hs.first year hbefore
      obtain ⟨rows, hissued⟩ := issued_prefix h
      exact ⟨row, hissued ▸ List.mem_append_left rows hrow, hfirst⟩
    · -- The first call for a year gets the number 1.
      obtain ⟨planId, rfl⟩ := ((year_counter_iff year s call t h).1 hpos).resolve_left hbefore
      have hzero : s.counters "plan_year" (toString year) = 0 := by omega
      rcases numberingStep_cases h with ⟨-, ⟨row, hnext, hissued⟩, -⟩ | ⟨hfull, -, -⟩
      · refine ⟨row, hissued ▸ List.mem_append_right _ (List.mem_singleton_self row), hnext.scopeId, ?_⟩
        have hcode := hnext.code
        rcases hnext.parented with ⟨-, hparent, -⟩ | ⟨hkind, -⟩
        · rw [hnext.scopeId, hparent] at hcode
          rw [hcode]
          show planCode (toString year) (s.counters "plan_year" (toString year) + 1) = _
          rw [hzero]
        · exact absurd hnext.kind hkind
      · refine absurd ?_ hfull
        show s.counters "plan_year" (toString year) < MAX_PLAN_SEQ
        rw [hzero]
        decide

/-! ## Runs -/

/-- Plans of both years with the digits `00` are numbered. -/
def BothCenturies (s : NumberingState) : Prop :=
  0 < s.counters "plan_year" (toString 2000) ∧ 0 < s.counters "plan_year" (toString 2100)

/-- What a code is the code of can be read off it. -/
theorem WellNumbered.readable (hs : WellNumbered s) : Readable s := by
  intro row hrow
  obtain ⟨seq, -, hcode⟩ := hs.coded row hrow
  rw [hcode]
  rcases hs.parented row hrow with ⟨hkind, hparent, -⟩ | ⟨hkind, parent, -, -, hparent⟩
  · rw [hkind, hparent]
    exact readCode_planCode row.scopeId seq
  · rw [hparent]
    exact readCode_childCode hkind parent.code seq

theorem readCode_isNext {row : Issued} (hnext : IsNext s call row) : readCode row.code = (row.kind, row.parent) := by
  rw [hnext.code]
  rcases hnext.parented with ⟨hkind, hparent, -⟩ | ⟨hkind, parent, -, -, hparent⟩
  · rw [hkind, hparent]
    exact readCode_planCode _ _
  · rw [hparent]
    exact readCode_childCode hkind parent.code _

/-- The next code is new, unless it is that of a plan of the other century. -/
theorem code_ne_of_isNext (hs : WellNumbered s) (hdistinct : Distinct s) (h : numberingStep s call = some t)
    (hboth : ¬ BothCenturies t) {row old : Issued} (hnext : IsNext s call row) (hold : old ∈ s.issued) :
    old.code ≠ row.code := by
  intro heq
  obtain ⟨seq, hle, hcode⟩ := hs.coded old hold
  have hread : (old.kind, old.parent) = (row.kind, row.parent) := by
    rw [← hs.readable old hold, ← readCode_isNext hnext, heq]
  obtain ⟨hkind, hparent⟩ := Prod.mk.inj hread
  -- In the scope of the call the numbers so far are up to the counter.
  have hscope : old.scopeId = row.scopeId → seq ≠ s.counters call.kind.scopeType call.scopeId + 1 := by
    intro hid hseq
    rw [hkind, hid, hnext.kind, hnext.scopeId] at hle
    omega
  rw [hcode, hnext.code, hkind, hparent] at heq
  rcases hnext.parented with ⟨hplan, hnone, year, hge, hyear, hid⟩ | ⟨hchild, parent, hmem, hid, hsome⟩
  · rw [hnone] at heq
    obtain ⟨hshort, hseq⟩ := planCode_inj heq
    rcases hs.parented old hold with ⟨-, -, year', hge', hyear', hid'⟩ | ⟨hne, -⟩
    · rw [hid, hid'] at hshort
      -- Both years are numbered after the call.
      have hpos : 0 < t.counters "plan_year" (toString year) :=
        (year_counter_iff year s call t h).2 (Or.inr (scope_year_iff.1
          ⟨by rw [← hnext.kind, hplan]; rfl, by rw [← hnext.scopeId, hid]⟩))
      have hpos' : 0 < t.counters "plan_year" (toString year') := by
        have hmono := counters_le h "plan_year" (toString year')
        rw [hkind, hplan, hid'] at hle
        have hpositive : seq ≤ s.counters "plan_year" (toString year') := hle
        omega
      rcases year_eq_of_shortYear hge' hyear' hge hyear hshort with rfl | ⟨rfl, rfl⟩ | ⟨rfl, rfl⟩
      · exact hscope (hid'.trans hid.symm) hseq
      · exact hboth ⟨hpos', hpos⟩
      · exact hboth ⟨hpos, hpos'⟩
    · exact hne (hkind.trans hplan)
  · rw [hsome] at heq hparent
    have hseq := childCode_inj heq
    rcases hs.parented old hold with ⟨hplan, -⟩ | ⟨-, parent', hmem', hid', hsome'⟩
    · exact hchild (hkind ▸ hplan)
    · -- The parents have the same code, so they are the same row.
      have hsame : parent' = parent :=
        List.inj_on_of_nodup_map hdistinct hmem' hmem (Option.some.inj (hsome'.symm.trans hparent))
      rw [hsame, hid] at hid'
      exact hscope (Option.some.inj hid').symm hseq

/-- The codes stay different while only one century is numbered. -/
theorem distinct_step (hs : WellNumbered s) (hdistinct : Distinct s) (h : numberingStep s call = some t)
    (hboth : ¬ BothCenturies t) : Distinct t := by
  rcases numberingStep_cases h with ⟨-, ⟨row, hnext, hissued⟩, -⟩ | ⟨-, hissued, -⟩
  · unfold Distinct
    rw [hissued, List.map_append, List.nodup_append]
    refine ⟨hdistinct, List.nodup_singleton _, ?_⟩
    intro code hcode code' hcode'
    obtain ⟨old, hold, rfl⟩ := List.mem_map.1 hcode
    rw [List.map_singleton, List.mem_singleton] at hcode'
    rw [hcode']
    exact code_ne_of_isNext hs hdistinct h hboth hnext hold
  · unfold Distinct
    rwa [hissued]

theorem planCode_2000 : planCode (toString 2000) 1 = planCode (toString 2100) 1 := by
  have hshort : shortYear (toString 2000) = shortYear (toString 2100) := by
    rw [shortYear_eq (by decide) (by decide), shortYear_eq (by decide) (by decide),
      show 2000 % 100 = 2100 % 100 from rfl]
  unfold planCode
  rw [hshort]

theorem toString_2000 : toString 2100 ≠ toString 2000 := by decide +kernel

/-- Two centuries have the same first code. -/
theorem not_distinct_of_both (hs : WellNumbered s) (hboth : BothCenturies s) : ¬ Distinct s := by
  intro hdistinct
  obtain ⟨row, hrow, hid, hcode⟩ := hs.first 2000 hboth.1
  obtain ⟨row', hrow', hid', hcode'⟩ := hs.first 2100 hboth.2
  have hcodes : row.code = row'.code := by
    rw [hcode, hcode', planCode_2000]
  have hsame : row = row' := List.inj_on_of_nodup_map hdistinct hrow hrow' hcodes
  rw [hsame] at hid
  exact toString_2000 (hid'.symm.trans hid)

/-- Among the states of a run, the codes are different exactly in those with one century. -/
theorem distinct_iff (s : NumberingState) (call : Call) (t : NumberingState)
    (hs : WellNumbered s ∧ (Distinct s ↔ ¬ BothCenturies s)) (h : numberingStep s call = some t) :
    WellNumbered t ∧ (Distinct t ↔ ¬ BothCenturies t) := by
  have ht := wellNumbered_step s call t hs.1 h
  refine ⟨ht, fun hdistinct hboth => not_distinct_of_both ht hboth hdistinct, fun hboth => ?_⟩
  have hbefore : ¬ BothCenturies s := by
    rintro ⟨hfirst, hlast⟩
    exact hboth ⟨hfirst.trans_le (counters_le h _ _), hlast.trans_le (counters_le h _ _)⟩
  exact distinct_step hs.1 (hs.2.2 hbefore) h hboth

/-- A year has a counter exactly when there is a call for it. -/
theorem counter_pos_iff {calls : List Call} (year : ℕ) (h : run numberingStep .init calls = some s) :
    0 < s.counters "plan_year" (toString year) ↔ Numbers year calls := by
  have hsometime := run_iff_sometime (I := fun _ => True)
    (P := fun s : NumberingState => 0 < s.counters "plan_year" (toString year))
    (C := fun _ call => ∃ planId, call = .nextPlanCode year planId)
    (fun _ _ _ _ _ => trivial) (fun s call t _ hstep => year_counter_iff year s call t hstep) trivial h
  rw [hsometime, sometime_iff_exists h]
  constructor
  · rintro (hzero | ⟨call, hcall, planId, rfl⟩)
    · exact absurd hzero (Nat.lt_irrefl 0)
    · exact ⟨planId, hcall⟩
  · rintro ⟨planId, hcall⟩
    exact Or.inr ⟨_, hcall, planId, rfl⟩

/-- A call returns a code exactly below its maximum. -/
theorem succeedsBelow (s : NumberingState) (call : Call) : SucceedsBelow s call := by
  intro t h
  rcases numberingStep_cases h with ⟨hlt, ⟨row, -, hissued⟩, -⟩ | ⟨hfull, hissued, -⟩
  · exact iff_of_true ⟨row, hissued⟩ hlt
  · refine iff_of_false ?_ hfull
    rintro ⟨row, hrow⟩
    have hlength := congrArg List.length (hissued.symm.trans hrow)
    rw [List.length_append, List.length_singleton] at hlength
    omega

/-- The codes of a run are different, tell what they are the codes of, and are returned exactly below the
maxima, if and only if the run does not number plans of 2000 and of 2100. -/
theorem codes_distinct_iff {calls : List Call} (h : run numberingStep .init calls = some s) :
    Distinct s ∧ Readable s ∧ Guarded numberingStep SucceedsBelow .init calls ↔
      ¬ (Numbers 2000 calls ∧ Numbers 2100 calls) := by
  have hinit : WellNumbered .init := ⟨nofun, nofun, fun year hpos => absurd hpos (Nat.lt_irrefl 0)⟩
  have hfirst : Distinct .init ↔ ¬ BothCenturies .init :=
    iff_of_true List.nodup_nil fun hboth => absurd hboth.1 (Nat.lt_irrefl 0)
  obtain ⟨hs, hiff⟩ := run_invariant distinct_iff ⟨hinit, hfirst⟩ h
  rw [← counter_pos_iff 2000 h, ← counter_pos_iff 2100 h]
  constructor
  · rintro ⟨hdistinct, -⟩
    exact hiff.1 hdistinct
  · intro hboth
    exact ⟨hiff.2 hboth, hs.readable, guarded_of_forall succeedsBelow _ _⟩

/-- Two plans with their tasks, a finding, a recommendation and an evidence. -/
def someCalls : List Call :=
  [.nextPlanCode 2025 "p", .nextPlanCode 2025 "q", .nextTaskNumber "p", .nextTaskNumber "q",
    .nextFindingNumber "q" "f", .nextRecommendationNumber "f", .nextEvidenceNumber "f"]

theorem codes_distinct_someCalls : ∃ s, run numberingStep .init someCalls = some s ∧
    (Distinct s ∧ Readable s ∧ Guarded numberingStep SucceedsBelow .init someCalls ↔
      ¬ (Numbers 2000 someCalls ∧ Numbers 2100 someCalls)) := by
  have hrun : (run numberingStep .init someCalls).isSome := by decide +kernel
  obtain ⟨s, hs⟩ := Option.isSome_iff_exists.1 hrun
  exact ⟨s, hs, codes_distinct_iff hs⟩

/-- The first plans of 2000 and of 2100 get the same code. -/
theorem same_code_after_century : ∃ s, run numberingStep .init
    [.nextPlanCode 2000 "p", .nextPlanCode 2100 "q"] = some s ∧ ¬ Distinct s := by
  have hrun : (run numberingStep .init [.nextPlanCode 2000 "p", .nextPlanCode 2100 "q"]).map
      (fun s => s.issued.map Issued.code) = some ["IA-PL-00-001", "IA-PL-00-001"] := by
    decide +kernel
  obtain ⟨s, hs, hcodes⟩ := Option.map_eq_some_iff.1 hrun
  refine ⟨s, hs, ?_⟩
  unfold Distinct
  rw [hcodes]
  decide

end AlsaqiBackend.Numbering
