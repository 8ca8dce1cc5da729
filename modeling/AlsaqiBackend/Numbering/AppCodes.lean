import AlsaqiBackend.Lib.Modify
import AlsaqiBackend.Lib.Numerals
import AlsaqiBackend.Lib.Run
import AlsaqiBackend.Lib.Separator
import AlsaqiBackend.Users.EmployeeId
import Mathlib.Data.List.Nodup
import Mathlib.Data.List.Perm.Basic
import Mathlib.Data.String.Basic

/-!
# The codes of `AppCodeGenerator`

A row that is created without a code gets the prefix of its department, table and year, or of its audit plan,
and the number after that of the greatest code in the column that is `LIKE` the prefix. Texts are compared
character by character, so that `999` comes after `1000`, and the characters `%`, `_` and `\` of a prefix are
part of the pattern.

`newCode_iff_orderly` says when every code of a run is new, and has the next number: exactly when there are fewer
than a thousand codes with the prefix, where the pattern finds these and no others, and elsewhere the number
after that of the greatest match is not taken.
-/

namespace AlsaqiBackend.Numbering

open AlsaqiBackend.Lib AlsaqiBackend.Users

/-! ## Prefixes -/

def DOC_TYPES : String → Option String
  | "audit_plans" => some "PL"
  | "audit_programs" => some "PR"
  | "audit_tasks" => some "TSK"
  | "audit_findings" => some "FD"
  | "audit_reports" => some "REP"
  | "recommendations" => some "REC"
  | "risk_register" => some "RSK"
  | "central_bank_instructions" => some "CBI"
  | "internal_policies" => some "POL"
  | "law_bank" => some "LAW"
  | "fraud_log" => some "FRD"
  | "compliance_items" => some "CMP"
  | _ => none

/-- The tables with a code column in `BaseService.create`. -/
def CODE_TABLES : List String :=
  ["audit_plans", "audit_programs", "audit_tasks", "audit_findings", "recommendations", "risk_register",
    "compliance_items"]

/-- The code of the entity with this name, or that of the internal audit. -/
def resolveDepartmentCode (orgEntities : List OrgEntity) (departmentName : Option String) : String :=
  ((orNull departmentName).bind fun name =>
    (orgEntities.find? fun entity => entity.nameAr = some name || entity.nameEn = some name).bind
      fun entity => orNull entity.entityCode).getD "IA"

/-- `${deptCode}-${docType}-${shortYear}-`. -/
def genericPrefix (tableName deptCode : String) (year : ℕ) : String :=
  deptCode ++ "-" ++ (DOC_TYPES tableName).getD "DOC" ++ "-" ++
    String.ofList ((toString year).toList.drop ((toString year).toList.length - 2)) ++ "-"

/-- The columns of the audit plan that `generateFindingCode` reads. -/
structure FindingPlan where
  planCode : Option String
  department : Option String
  deriving DecidableEq, Repr

/-- A body without a code: its department, and the row of its `audit_id` if it has one. -/
structure CodeBody where
  department : Option String
  auditPlan : Option (Option FindingPlan)
  deriving DecidableEq, Repr

/-- What `generateFindingCode` and `generateCode` write before the number. -/
def codePrefix (tableName : String) (orgEntities : List OrgEntity) (body : CodeBody) (year : ℕ) : String :=
  match if tableName = "audit_findings" then body.auditPlan else none with
  | none => genericPrefix tableName (resolveDepartmentCode orgEntities body.department) year
  | some plan =>
    match plan.bind fun plan => orNull plan.planCode with
    | some planCode => planCode ++ "-FD-"
    | none => genericPrefix tableName
        (resolveDepartmentCode orgEntities (plan.bind fun plan => plan.department)) year

/-! ## Numbers -/

/-- The order of texts in the database. Behind one text, numerals are compared digit by digit. -/
structure Collation where
  le : String → String → Bool
  total : ∀ a b, le a b = true ∨ le b a = true
  trans : ∀ a b c, le a b = true → le b c = true → le a c = true
  numerals : ∀ (text : String) (d d' : List Char), (∀ c ∈ d, c.isDigit = true) →
    (∀ c ∈ d', c.isDigit = true) → d < d' → le (text ++ String.ofList d') (text ++ String.ofList d) = false

/-- The order of the collation `C`. -/
def codePoints : Collation where
  le a b := decide (a.toList ≤ b.toList)
  total a b := by
    rw [decide_eq_true_eq, decide_eq_true_eq]
    exact le_total _ _
  trans a b c := by
    rw [decide_eq_true_eq, decide_eq_true_eq, decide_eq_true_eq]
    exact le_trans
  numerals text d d' _ _ h := by
    rw [decide_eq_false_iff_not, not_le, String.toList_append, String.toList_append, String.toList_ofList,
      String.toList_ofList]
    exact List.append_left_lt h

/-- The rows that are `LIKE '${prefix}%'`. -/
def matching (codePrefix : String) (codes : List String) : List String :=
  codes.filter fun code => like (codePrefix ++ "%").toList code.toList

/-- `ORDER BY code DESC LIMIT 1`. -/
def greatest (collation : Collation) : List String → Option String
  | [] => none
  | code :: codes =>
    match greatest collation codes with
    | none => some code
    | some other => some (if collation.le code other then other else code)

def nextNumber : Option String → ℕ
  | none => 1
  | some code =>
    if code = "" then 1
    else
      match parseInt10 (cutLast '-' code.toList).2 with
      | none => 1
      | some lastNumber => lastNumber.toNat + 1

/-- A prefix and a number. -/
def numberedCode (codePrefix : String) (number : ℕ) : String :=
  codePrefix ++ String.ofList (padded 3 number)

def generateCode (collation : Collation) (codePrefix : String) (codes : List String) : String :=
  numberedCode codePrefix (nextNumber (greatest collation (matching codePrefix codes)))

/-! ## Creations -/

structure CodeRow where
  code : String
  deleted : Bool
  deriving DecidableEq, Repr

inductive CodeAction
  /-- `BaseService.create` without a code, which may fail for a reason of its own. -/
  | create (orgEntities : List OrgEntity) (body : CodeBody) (year : ℕ) (fails : Bool)
  | softDelete (i : ℕ)
  deriving DecidableEq, Repr

/-- A table with a code column, its order of texts, and whether the column is UNIQUE. -/
structure CodeTable where
  tableName : String
  known : tableName ∈ CODE_TABLES
  collation : Collation
  unique : Bool

def codesOf (rows : List CodeRow) : List String := rows.map CodeRow.code

variable (table : CodeTable)

def codeStep (rows : List CodeRow) : CodeAction → Option (List CodeRow)
  | .create orgEntities body year fails =>
    let code := generateCode table.collation (codePrefix table.tableName orgEntities body year) (codesOf rows)
    if fails || (table.unique && code ∈ codesOf rows) then some rows else some (rows ++ [⟨code, false⟩])
  | .softDelete i => some (rows.modify i fun row => { row with deleted := true })

/-- The code is new, and where the matching rows are numbered from 1 on, its number is the next one. -/
structure IsNew (codePrefix code : String) (codes : List String) : Prop where
  fresh : code ∉ codes
  next : ∀ r, (matching codePrefix codes).Perm ((List.range r).map fun k => numberedCode codePrefix (k + 1)) →
    code = numberedCode codePrefix (r + 1)

/-- A create generates a new code. -/
def NewCode (rows : List CodeRow) : CodeAction → Prop
  | .create orgEntities body year _ =>
    let text := codePrefix table.tableName orgEntities body year
    IsNew text (generateCode table.collation text (codesOf rows)) (codesOf rows)
  | .softDelete _ => True

/-- The pattern finds exactly the codes of the prefix. -/
def Separate (codePrefix : String) (codes : List String) : Prop :=
  ∀ code ∈ codes, code ∈ matching codePrefix codes ↔ ∃ number, code = numberedCode codePrefix number

/-- No code of the prefix has the number after that of the greatest match. -/
def Unspoiled (collation : Collation) (codePrefix : String) (codes : List String) : Prop :=
  match greatest collation (matching codePrefix codes) with
  | none => numberedCode codePrefix 1 ∉ codes
  | some code => ∀ text number, code = numberedCode (text ++ "-") number →
      numberedCode codePrefix (number + 1) ∉ codes

/-- What makes a code new: where the pattern finds the codes of the prefix, there are fewer than a thousand, and
elsewhere the greatest match does not lead to one of them. -/
def OrderlyCode (rows : List CodeRow) : CodeAction → Prop
  | .create orgEntities body year _ =>
    let text := codePrefix table.tableName orgEntities body year
    (Separate text (codesOf rows) → (matching text (codesOf rows)).length < 1000) ∧
      (¬ Separate text (codesOf rows) → Unspoiled table.collation text (codesOf rows))
  | .softDelete _ => True

variable {table} {collation : Collation} {codes : List String} {text : String} {number : ℕ}

/-! ## Codes -/

/-- Every prefix ends with a dash. -/
theorem codePrefix_ends (tableName : String) (orgEntities : List OrgEntity) (body : CodeBody) (year : ℕ) :
    ∃ text, codePrefix tableName orgEntities body year = text ++ "-" := by
  unfold codePrefix
  split
  · exact ⟨_, rfl⟩
  · split
    · rename_i planCode _
      exact ⟨planCode ++ "-FD", by rw [String.append_assoc]; rfl⟩
    · exact ⟨_, rfl⟩

theorem numberedCode_inj {m : ℕ} (h : numberedCode text m = numberedCode text number) : m = number := by
  unfold numberedCode at h
  rw [String.append_right_inj, String.ofList_inj] at h
  exact padded_inj h

theorem toList_numberedCode (text : String) (number : ℕ) :
    (numberedCode (text ++ "-") number).toList = text.toList ++ '-' :: padded 3 number := by
  have hdash : ("-" : String).toList = ['-'] := rfl
  unfold numberedCode
  rw [String.toList_append, String.toList_append, hdash, String.toList_ofList, List.append_assoc,
    List.singleton_append]

/-- A code determines its prefix and its number. -/
theorem numberedCode_dash_inj {other : String} {m : ℕ}
    (h : numberedCode (other ++ "-") m = numberedCode (text ++ "-") number) : other = text ∧ m = number := by
  have hlist := congrArg String.toList h
  rw [toList_numberedCode, toList_numberedCode, cut_at_last (notMem_padded rfl) (notMem_padded rfl)] at hlist
  exact ⟨String.toList_inj.1 hlist.1, padded_inj hlist.2⟩

/-- After a code comes the number after its own. -/
theorem nextNumber_numberedCode : nextNumber (some (numberedCode (text ++ "-") number)) = number + 1 := by
  have hne : numberedCode (text ++ "-") number ≠ "" := by
    intro hempty
    have hlist := congrArg String.toList hempty
    rw [toList_numberedCode] at hlist
    exact absurd hlist (by simp)
  have hdash : '-' ∉ padded 3 number := notMem_padded rfl
  unfold nextNumber
  simp only [if_neg hne, toList_numberedCode, cutLast_append hdash, parseInt10_padded, Int.toNat_natCast]

/-! ## The greatest match -/

theorem greatest_eq_none : greatest collation codes = none ↔ codes = [] := by
  cases codes with
  | nil => exact iff_of_true rfl rfl
  | cons code codes =>
    refine iff_of_false ?_ (List.cons_ne_nil code codes)
    rw [greatest]
    split <;> exact Option.some_ne_none _

/-- It is one of the codes, and no code comes after it. -/
theorem greatest_spec {code : String} (h : greatest collation codes = some code) :
    code ∈ codes ∧ ∀ other ∈ codes, collation.le other code = true := by
  have hrefl : ∀ a, collation.le a a = true := fun a => (collation.total a a).elim (fun h => h) fun h => h
  induction codes generalizing code with
  | nil => cases h
  | cons first codes ih =>
    rw [greatest] at h
    split at h
    · rename_i hnone
      obtain rfl := Option.some.inj h
      rw [greatest_eq_none.1 hnone]
      exact ⟨List.mem_singleton_self first, fun other hother => by rw [List.mem_singleton.1 hother]; exact hrefl _⟩
    · rename_i last hlast
      obtain ⟨hmem, hle⟩ := ih hlast
      split_ifs at h with hfirst
      · obtain rfl := Option.some.inj h
        refine ⟨List.mem_cons_of_mem first hmem, fun other hother => ?_⟩
        rcases List.mem_cons.1 hother with rfl | hrest
        · exact hfirst
        · exact hle other hrest
      · obtain rfl := Option.some.inj h
        refine ⟨List.mem_cons_self, fun other hother => ?_⟩
        rcases List.mem_cons.1 hother with rfl | hrest
        · exact hrefl _
        · exact collation.trans other last first (hle other hrest) ((collation.total first last).resolve_left hfirst)

/-- Of two codes of a prefix, that with the smaller number comes first if both numbers have three digits. -/
theorem not_le_numberedCode {m : ℕ} (hn : number < 1000) (h : m < number) :
    collation.le (numberedCode text number) (numberedCode text m) = false := by
  refine collation.numerals text _ _ (fun c => isDigit_of_mem_padded) (fun c => isDigit_of_mem_padded) ?_
  exact padded_lt_padded (by decide) hn h

/-- And 1000 comes before 999. -/
theorem not_le_thousand : collation.le (numberedCode text 999) (numberedCode text 1000) = false :=
  collation.numerals text _ _ (fun c => isDigit_of_mem_padded) (fun c => isDigit_of_mem_padded) (by decide)

/-- The codes of the prefix are numbered from 1 to `k`. -/
def CountedTo (k : ℕ) (codePrefix : String) (codes : List String) : Prop :=
  ∀ number, numberedCode codePrefix number ∈ codes ↔ 1 ≤ number ∧ number ≤ k

section separate

variable {k : ℕ}

/-- The matches are then the codes with these numbers. -/
theorem mem_matching_iff (hseparate : Separate text codes) (hcounted : CountedTo k text codes) {code : String} :
    code ∈ matching text codes ↔ ∃ number, (1 ≤ number ∧ number ≤ k) ∧ code = numberedCode text number := by
  constructor
  · intro hmem
    have hcode := (List.mem_filter.1 hmem).1
    obtain ⟨number, rfl⟩ := (hseparate code hcode).1 hmem
    exact ⟨number, (hcounted number).1 hcode, rfl⟩
  · rintro ⟨number, hnumber, rfl⟩
    exact (hseparate _ ((hcounted number).2 hnumber)).2 ⟨number, rfl⟩

theorem length_matching (hnodup : codes.Nodup) (hseparate : Separate text codes)
    (hcounted : CountedTo k text codes) : (matching text codes).length = k := by
  have hperm : (matching text codes).Perm ((List.range k).map fun i => numberedCode text (i + 1)) := by
    have hinj : ∀ i ∈ List.range k, ∀ j ∈ List.range k,
        numberedCode text (i + 1) = numberedCode text (j + 1) → i = j := by
      intro i _ j _ heq
      have hsucc := numberedCode_inj heq
      omega
    have hmatching : (matching text codes).Nodup := hnodup.filter _
    rw [List.perm_ext_iff_of_nodup hmatching (List.nodup_range.map_on hinj)]
    intro code
    rw [mem_matching_iff hseparate hcounted, List.mem_map]
    constructor
    · rintro ⟨number, ⟨hpos, hle⟩, rfl⟩
      exact ⟨number - 1, List.mem_range.2 (by omega), by rw [show number - 1 + 1 = number by omega]⟩
    · rintro ⟨i, hi, rfl⟩
      have hlt := List.mem_range.1 hi
      exact ⟨i + 1, by omega, rfl⟩
  rw [hperm.length_eq, List.length_map, List.length_range]

/-- Up to 999 codes the next number is the one after them; behind 1000 codes it is 1000 again. -/
theorem nextNumber_of_counted (hk : k ≤ 1000) (hseparate : Separate (text ++ "-") codes)
    (hcounted : CountedTo k (text ++ "-") codes) :
    nextNumber (greatest collation (matching (text ++ "-") codes)) = if k = 1000 then 1000 else k + 1 := by
  have hmem : ∀ {code : String}, code ∈ matching (text ++ "-") codes ↔ ∃ number, (1 ≤ number ∧ number ≤ k) ∧
      code = numberedCode (text ++ "-") number := mem_matching_iff hseparate hcounted
  cases hgreatest : greatest collation (matching (text ++ "-") codes) with
  | none =>
    have hzero : k = 0 := by
      by_contra hne
      have hfirst := hmem.2 ⟨1, by omega, rfl⟩
      rw [greatest_eq_none.1 hgreatest] at hfirst
      exact absurd hfirst List.not_mem_nil
    subst hzero
    rfl
  | some code =>
    obtain ⟨hcode, hle⟩ := greatest_spec hgreatest
    obtain ⟨number, ⟨hpos, hnumber⟩, rfl⟩ := hmem.1 hcode
    rw [nextNumber_numberedCode]
    by_cases hfull : k = 1000
    · rw [if_pos hfull]
      have h999 := hle _ (hmem.2 ⟨999, by omega, rfl⟩)
      -- Neither a smaller number nor 1000 comes after 999.
      have hge : ¬ number < 999 := fun hlt => by
        rw [not_le_numberedCode (by decide) hlt] at h999
        cases h999
      have hne : number ≠ 1000 := fun heq => by
        rw [heq, not_le_thousand] at h999
        cases h999
      omega
    · rw [if_neg hfull]
      have hlast := hle _ (hmem.2 ⟨k, by omega, rfl⟩)
      have hge : ¬ number < k := fun hlt => by
        rw [not_le_numberedCode (by omega) hlt] at hlast
        cases hlast
      omega

end separate

/-! ## Runs -/

/-- The codes are different, have a prefix and a number, and those of a prefix that the pattern finds exactly
are numbered from 1 on, up to 1000 at most. -/
structure Generated (codes : List String) : Prop where
  nodup : codes.Nodup
  shape : ∀ code ∈ codes, ∃ text number, code = numberedCode (text ++ "-") number
  counted : ∀ text, Separate (text ++ "-") codes → ∃ k ≤ 1000, CountedTo k (text ++ "-") codes

/-- A code that is not in the column has the next number. -/
theorem isNew_iff : IsNew (text ++ "-") (generateCode collation (text ++ "-") codes) codes ↔
    generateCode collation (text ++ "-") codes ∉ codes := by
  constructor
  · intro hnew
    exact hnew.fresh
  · intro hfresh
    refine ⟨hfresh, fun r hperm => ?_⟩
    unfold generateCode at hfresh ⊢
    cases hgreatest : greatest collation (matching (text ++ "-") codes) with
    | none =>
      have hlength := hperm.length_eq
      rw [greatest_eq_none.1 hgreatest, List.length_nil, List.length_map, List.length_range] at hlength
      rw [← hlength]
      rfl
    | some code =>
      obtain ⟨hmem, -⟩ := greatest_spec hgreatest
      obtain ⟨k, hk, rfl⟩ := List.mem_map.1 (hperm.mem_iff.1 hmem)
      have hlt := List.mem_range.1 hk
      rw [hgreatest, nextNumber_numberedCode] at hfresh
      rw [nextNumber_numberedCode]
      -- The next number is not taken, so the greatest match is the last one.
      have hlast : ¬ k + 1 < r := by
        intro hless
        have hnext : numberedCode (text ++ "-") (k + 1 + 1) ∈ matching (text ++ "-") codes :=
          hperm.mem_iff.2 (List.mem_map.2 ⟨k + 1, List.mem_range.2 hless, rfl⟩)
        exact hfresh (List.mem_filter.1 hnext).1
      rw [show r = k + 1 by omega]

/-- Fewer codes are separate as well. -/
theorem Separate.of_append {rest : List String} (h : Separate text (codes ++ rest)) : Separate text codes := by
  intro code hcode
  rw [← h code (List.mem_append_left rest hcode)]
  unfold matching
  rw [List.mem_filter, List.mem_filter, List.mem_append, iff_true_intro hcode, true_or]

/-- A code is new exactly when the create is orderly. -/
theorem newCode_step_iff {rows : List CodeRow} (hrows : Generated (codesOf rows)) (a : CodeAction) :
    NewCode table rows a ↔ OrderlyCode table rows a := by
  cases a with
  | softDelete i => exact Iff.rfl
  | create orgEntities body year fails =>
    simp only [NewCode, OrderlyCode]
    obtain ⟨text, htext⟩ := codePrefix_ends table.tableName orgEntities body year
    rw [htext, isNew_iff]
    by_cases hseparate : Separate (text ++ "-") (codesOf rows)
    · obtain ⟨k, hk, hcounted⟩ := hrows.counted text hseparate
      have hlength := length_matching hrows.nodup hseparate hcounted
      rw [iff_true_intro hseparate, true_imp_iff, not_true, false_imp_iff, and_true, hlength]
      unfold generateCode
      rw [nextNumber_of_counted hk hseparate hcounted, hcounted]
      split_ifs
      · omega
      · omega
    · rw [iff_false_intro hseparate, false_imp_iff, true_and, not_false_iff, true_imp_iff]
      unfold generateCode Unspoiled
      cases hgreatest : greatest table.collation (matching (text ++ "-") (codesOf rows)) with
      | none => exact Iff.rfl
      | some code =>
        -- The greatest match has one prefix and one number.
        obtain ⟨hmem, -⟩ := greatest_spec hgreatest
        obtain ⟨other, number, rfl⟩ := hrows.shape code (List.mem_filter.1 hmem).1
        rw [nextNumber_numberedCode]
        constructor
        · intro hfresh text' number' heq
          rwa [← (numberedCode_dash_inj heq).2]
        · intro hfree
          exact hfree other number rfl

theorem codesOf_modify (rows : List CodeRow) (i : ℕ) :
    codesOf (rows.modify i fun row => { row with deleted := true }) = codesOf rows := by
  unfold codesOf
  refine map_modify_of_forall (fun row => ?_) rows i
  rfl

/-- A new code goes on with the numbers of its prefix, and leaves those of the others. -/
theorem Generated.concat (h : Generated codes)
    (hnew : IsNew (text ++ "-") (generateCode collation (text ++ "-") codes) codes) :
    Generated (codes ++ [generateCode collation (text ++ "-") codes]) where
  nodup := by
    rw [List.nodup_append]
    refine ⟨h.nodup, List.nodup_singleton _, fun code hcode other hother heq => ?_⟩
    rw [heq, List.mem_singleton.1 hother] at hcode
    exact hnew.fresh hcode
  shape := by
    intro code hcode
    rcases List.mem_append.1 hcode with hold | hlast
    · exact h.shape code hold
    · rw [List.mem_singleton.1 hlast]
      exact ⟨text, _, rfl⟩
  counted := by
    intro other hseparate
    obtain ⟨k, hk, hcounted⟩ := h.counted other hseparate.of_append
    by_cases hsame : other = text
    · subst hsame
      have hfresh := hnew.fresh
      unfold generateCode at hfresh ⊢
      rw [nextNumber_of_counted hk hseparate.of_append hcounted] at hfresh ⊢
      have hfull : k ≠ 1000 := by
        intro hfull
        rw [if_pos hfull, hcounted] at hfresh
        omega
      rw [if_neg hfull]
      refine ⟨k + 1, by omega, fun number => ?_⟩
      rw [List.mem_append, hcounted, List.mem_singleton]
      constructor
      · rintro (⟨hpos, hle⟩ | heq)
        · omega
        · have hnumber := numberedCode_inj heq
          omega
      · intro hnumber
        by_cases hlast : number = k + 1
        · exact Or.inr (by rw [hlast])
        · exact Or.inl (by omega)
    · refine ⟨k, hk, fun number => ?_⟩
      rw [List.mem_append, hcounted, List.mem_singleton, or_iff_left]
      intro heq
      exact hsame (numberedCode_dash_inj heq).1

theorem generated_step (rows : List CodeRow) (a : CodeAction) (rows' : List CodeRow)
    (h : Generated (codesOf rows)) (hnew : NewCode table rows a) (hstep : codeStep table rows a = some rows') :
    Generated (codesOf rows') := by
  cases a with
  | create orgEntities body year fails =>
    obtain ⟨text, htext⟩ := codePrefix_ends table.tableName orgEntities body year
    simp only [NewCode, htext] at hnew
    simp only [codeStep, htext] at hstep
    split_ifs at hstep
    · obtain rfl := Option.some.inj hstep
      exact h
    · obtain rfl := Option.some.inj hstep
      have hconcat := h.concat hnew
      unfold codesOf at hconcat ⊢
      rwa [List.map_append, List.map_singleton]
  | softDelete i =>
    obtain rfl := Option.some.inj hstep
    rwa [codesOf_modify]

variable (table)

/-- Every code of a run is new exactly when every create is orderly. -/
theorem newCode_iff_orderly (as : List CodeAction) :
    Guarded (codeStep table) (NewCode table) [] as ↔ Guarded (codeStep table) (OrderlyCode table) [] as := by
  have hinit : Generated (codesOf []) := by
    refine ⟨List.nodup_nil, nofun, fun text _ => ⟨0, Nat.zero_le _, fun number => ?_⟩⟩
    exact iff_of_false List.not_mem_nil (by omega)
  exact guarded_congr (I := fun rows => Generated (codesOf rows)) generated_step
    (fun rows a _ hrows _ => newCode_step_iff hrows a) as hinit

/-! ## A thousand risks -/

/-- A character without a meaning in a pattern. -/
def isPlain (c : Char) : Bool := c ≠ '%' && c ≠ '_' && c ≠ '\\'

/-- A text of plain characters and `%` finds the texts that begin with it. -/
theorem like_plain {pattern : List Char} (h : ∀ c ∈ pattern, isPlain c = true) (rest : List Char) :
    like (pattern ++ ['%']) (pattern ++ rest) = true := by
  induction pattern with
  | nil =>
    have hnil : like ([] ++ ['%']) ([] ++ rest) = rest.tails.any (like []) := by
      rw [List.nil_append, List.nil_append]
      simp [like]
    rw [hnil, List.any_eq_true]
    exact ⟨[], (List.mem_tails _ _).2 (List.nil_suffix), rfl⟩
  | cons c pattern ih =>
    have hc := h c List.mem_cons_self
    have hrest := ih fun d hd => h d (List.mem_cons_of_mem c hd)
    simp only [isPlain, Bool.and_eq_true, decide_eq_true_eq, ne_eq] at hc
    rw [List.cons_append, List.cons_append, like]
    · rw [hrest, decide_eq_true rfl]
      rfl
    · exact hc.1.1
    · exact hc.1.2
    · exact fun _ _ heq _ => hc.2 heq

/-- A risk of the internal audit. -/
def risk : CodeAction := .create [] ⟨none, none⟩ 2025 false

/-- The column `risk_id`, UNIQUE and in the collation `C`. -/
def riskRegister : CodeTable := ⟨"risk_register", by decide, codePoints, true⟩

/-- The rows after `k` risks. -/
def risks (k : ℕ) : List CodeRow := (List.range k).map fun i => ⟨numberedCode "IA-RSK-25-" (i + 1), false⟩

theorem codesOf_risks (k : ℕ) :
    codesOf (risks k) = (List.range k).map fun i => numberedCode "IA-RSK-25-" (i + 1) := by
  unfold codesOf risks
  rw [List.map_map]
  rfl

theorem counted_risks (k : ℕ) : CountedTo k "IA-RSK-25-" (codesOf (risks k)) := by
  intro number
  rw [codesOf_risks, List.mem_map]
  constructor
  · rintro ⟨i, hi, heq⟩
    have hlt := List.mem_range.1 hi
    have hnumber := numberedCode_inj heq
    omega
  · intro hnumber
    exact ⟨number - 1, List.mem_range.2 (by omega), by rw [show number - 1 + 1 = number by omega]⟩

theorem separate_risks (k : ℕ) : Separate "IA-RSK-25-" (codesOf (risks k)) := by
  intro code hcode
  rw [codesOf_risks, List.mem_map] at hcode
  obtain ⟨i, hi, rfl⟩ := hcode
  refine iff_of_true (List.mem_filter.2 ⟨?_, ?_⟩) ⟨i + 1, rfl⟩
  · rw [codesOf_risks]
    exact List.mem_map.2 ⟨i, hi, rfl⟩
  · unfold numberedCode
    rw [String.toList_append, String.toList_append]
    have hplain : "IA-RSK-25-".toList.all isPlain = true := by decide
    exact like_plain (List.all_eq_true.1 hplain) _

/-- After `k` risks, the next code is that of the number `k + 1`, or of 1000 where `k` is. -/
theorem generateCode_risks {k : ℕ} (hk : k ≤ 1000) :
    generateCode codePoints (codePrefix "risk_register" [] ⟨none, none⟩ 2025) (codesOf (risks k)) =
      numberedCode "IA-RSK-25-" (if k = 1000 then 1000 else k + 1) := by
  have hstem : codePrefix "risk_register" [] ⟨none, none⟩ 2025 = "IA-RSK-25-" := by decide +kernel
  have hdash : "IA-RSK-25-" = "IA-RSK-25" ++ "-" := by decide +kernel
  rw [hstem]
  unfold generateCode
  rw [hdash, nextNumber_of_counted hk (hdash ▸ separate_risks k) (hdash ▸ counted_risks k)]

theorem run_risks {k : ℕ} (hk : k ≤ 1000) :
    run (codeStep riskRegister) [] (List.replicate k risk) = some (risks k) := by
  induction k with
  | zero => rfl
  | succ k ih =>
    have hnew : numberedCode "IA-RSK-25-" (k + 1) ∉ codesOf (risks k) := by
      rw [counted_risks]
      omega
    have hstep : codeStep riskRegister (risks k) risk =
        some (risks k ++ [⟨numberedCode "IA-RSK-25-" (k + 1), false⟩]) := by
      have hcode := generateCode_risks (k := k) (by omega)
      rw [if_neg (show k ≠ 1000 by omega)] at hcode
      simp only [codeStep, risk, riskRegister, hcode, hnew, Bool.false_or, Bool.and_false, decide_false,
        Bool.false_eq_true, if_false]
    have hrows : risks (k + 1) = risks k ++ [⟨numberedCode "IA-RSK-25-" (k + 1), false⟩] := by
      unfold risks
      rw [List.range_succ, List.map_append, List.map_singleton]
    rw [List.replicate_succ', run_concat, ih (by omega), Option.bind_some, hstep, hrows]

/-- A risk of a department whose code ends with a backslash. -/
def backslashRisk : CodeAction := .create [⟨some "d", none, some "A\\"⟩] ⟨some "d", none⟩ 2025 false

/-- After a thousand risks in a year the code of the last one is generated again, and behind a backslash
already the first one. -/
theorem code_again : (∃ rows, run (codeStep riskRegister) [] (List.replicate 1000 risk) = some rows ∧
      ¬ NewCode riskRegister rows risk) ∧
    ∃ rows, run (codeStep riskRegister) [] [backslashRisk] = some rows ∧
      ¬ NewCode riskRegister rows backslashRisk := by
  constructor
  · refine ⟨risks 1000, run_risks (le_refl _), fun hnew => ?_⟩
    have hfresh := hnew.fresh
    rw [show riskRegister.tableName = "risk_register" from rfl,
      show riskRegister.collation = codePoints from rfl, generateCode_risks (le_refl _), if_pos rfl,
      counted_risks] at hfresh
    omega
  · refine ⟨[⟨"A\\-RSK-25-001", false⟩], by decide +kernel, fun hnew => hnew.fresh ?_⟩
    decide +kernel

end AlsaqiBackend.Numbering
