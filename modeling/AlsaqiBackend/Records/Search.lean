import AlsaqiBackend.Lib.JsString
import AlsaqiBackend.Lib.Like

/-!
# Searches in lists

The lists of records have a search on the columns of `TABLE_SEARCH_COLUMNS`, and the compliance items have one
of their own. Both look for rows with a column that is `LIKE` the term between two `%`. The compliance search
escapes the term: it finds exactly the rows that contain it (`compliance_selects_iff`). `buildSearchClause` does
not, and it finds exactly the rows that contain the term only for terms without `%`, `_` and backslash
(`search_exact_iff`).
-/

namespace AlsaqiBackend.Records

open Lib

/-- The columns of a row that are texts; `none` is `NULL`. -/
abbrev TextRow := String → Option (List Char)

/-- `value LIKE pattern` in a `WHERE`: a `NULL` is not selected. -/
def isLike (pattern : List Char) (value : Option (List Char)) : Bool :=
  value.any fun text => likeResult pattern text == some true

/-- A column of the row contains the term. -/
def Contains (term : List Char) (columns : List String) (row : TextRow) : Prop :=
  ∃ column ∈ columns, ∃ text, row column = some text ∧ term <:+: text

theorem any_isLike_iff {pattern term : List Char} {columns : List String} {row : TextRow}
    (h : ∀ text, likeResult pattern text = some true ↔ term <:+: text) :
    (columns.any fun column => isLike pattern (row column)) = true ↔ Contains term columns row := by
  unfold Contains isLike
  simp [List.any_eq_true, Option.any_eq_true, h]

/-! ## `buildSearchClause` -/

def TABLE_SEARCH_COLUMNS : String → Option (List String)
  | "audit_plans" => some ["title", "plan_code", "department", "lead_auditor"]
  | "audit_tasks" => some ["title", "task_number", "audit_type"]
  | "audit_programs" => some ["program_title", "program_code", "audit_area"]
  | "audit_findings" => some ["title", "description", "finding_number"]
  | "recommendations" => some ["rec_number", "department", "action_plan"]
  | "risk_register" => some ["risk_id", "description", "owner"]
  | "compliance_items" => some ["ref_number", "title", "notes"]
  | _ => none

def getSearchColumns (tableName : String) : List String := (TABLE_SEARCH_COLUMNS tableName).getD []

/-- The columns of the clause with the parameters of their `LIKE ?`. -/
structure SearchClause where
  columns : List String
  params : List (List Char)

/-- The text of the clause. -/
def SearchClause.clause (search : SearchClause) : String :=
  "(" ++ " OR ".intercalate (search.columns.map fun column => column ++ " LIKE ?") ++ ")"

def buildSearchClause (tableName : String) (term : Option (List Char)) : Option SearchClause :=
  match term with
  | none => none
  | some term =>
    let trimmed := trimJs term
    if trimmed = [] then none
    else
      let columns := getSearchColumns tableName
      if columns.length = 0 then none else some ⟨columns, columns.map fun _ => containsPattern trimmed⟩

/-- The rows that the clause selects: every `?` is bound to the parameter at its place. -/
def SearchClause.selects (search : SearchClause) (row : TextRow) : Bool :=
  (search.columns.zip search.params).any fun (column, pattern) => isLike pattern (row column)

/-- A search is dropped without columns to look in, and without a term. -/
theorem buildSearchClause_eq_none_iff {tableName : String} {term : Option (List Char)} :
    buildSearchClause tableName term = none ↔
      getSearchColumns tableName = [] ∨ ∀ t, term = some t → trimJs t = [] := by
  cases term with
  | none => simp [buildSearchClause]
  | some t =>
    simp only [buildSearchClause, Option.some.injEq, forall_eq']
    split
    · rename_i hempty
      simp [hempty]
    · rename_i hterm
      simp [hterm]

theorem any_zip_map (columns : List String) (pattern : List Char) (row : TextRow) :
    ((columns.zip (columns.map fun _ => pattern)).any fun (column, pattern) => isLike pattern (row column)) =
      columns.any fun column => isLike pattern (row column) := by
  induction columns with
  | nil => rfl
  | cons column columns ih => rw [List.map_cons, List.zip_cons_cons, List.any_cons, List.any_cons, ih]

theorem buildSearchClause_selects {tableName : String} {term : List Char} {search : SearchClause} (row : TextRow)
    (h : buildSearchClause tableName (some term) = some search) :
    search.columns = getSearchColumns tableName ∧
      search.selects row =
        (getSearchColumns tableName).any fun column => isLike (containsPattern (trimJs term)) (row column) := by
  simp only [buildSearchClause] at h
  split at h
  · cases h
  split at h
  · cases h
  · obtain rfl := Option.some.inj h
    exact ⟨rfl, any_zip_map (getSearchColumns tableName) (containsPattern (trimJs term)) row⟩

/-- A search selects exactly the rows that contain its term, when and only when the term has none of the characters
that `LIKE` reads in another way. -/
theorem search_exact_iff {tableName : String} {term : List Char} {search : SearchClause}
    (h : buildSearchClause tableName (some term) = some search) :
    (∀ row, search.selects row = true ↔ Contains (trimJs term) search.columns row) ↔
      ∀ c ∈ trimJs term, isLikeSpecial c = false := by
  have hcolumns : getSearchColumns tableName ≠ [] := by
    intro hnone
    rw [buildSearchClause_eq_none_iff.2 (Or.inl hnone)] at h
    cases h
  rw [← like_contains_iff (trimJs term)]
  constructor
  · intro hexact text
    obtain ⟨column, hcolumn⟩ := List.exists_mem_of_ne_nil _ hcolumns
    obtain ⟨heq, hselects⟩ := buildSearchClause_selects (fun _ => some text) h
    have hrow := hexact fun _ => some text
    rw [hselects, heq] at hrow
    have hlike :
        ((getSearchColumns tableName).any fun _ => isLike (containsPattern (trimJs term)) (some text)) = true ↔
        likeResult (containsPattern (trimJs term)) text = some true := by
      rw [List.any_eq_true]
      constructor
      · rintro ⟨-, -, hone⟩
        simpa [isLike] using hone
      · intro hone
        exact ⟨column, hcolumn, by simpa [isLike] using hone⟩
    rw [← hlike, hrow]
    constructor
    · rintro ⟨other, hother, text', htext, hpart⟩
      obtain rfl := Option.some.inj htext
      exact hpart
    · intro hpart
      exact ⟨column, hcolumn, text, rfl, hpart⟩
  · intro hlike row
    obtain ⟨heq, hselects⟩ := buildSearchClause_selects row h
    rw [hselects, heq]
    exact any_isLike_iff hlike

theorem percent_search_not_exact : ∃ search,
    buildSearchClause "audit_plans" (some "50%".toList) = some search ∧
      ¬ ∀ row, search.selects row = true ↔ Contains (trimJs "50%".toList) search.columns row := by
  have hsearch : buildSearchClause "audit_plans" (some "50%".toList) = some _ := rfl
  refine ⟨_, hsearch, fun hexact => ?_⟩
  have hplain := (search_exact_iff hsearch).1 hexact '%' (by decide +kernel)
  exact absurd hplain (by decide)

/-! ## `ComplianceService.getAll` -/

structure ComplianceItem where
  source_type : Option (List Char)
  compliance_status : Option (List Char)
  title : Option (List Char)
  ref_number : Option (List Char)
  description : Option (List Char)
  deleted : Bool

structure ComplianceFilters where
  source_type : Option (List Char)
  compliance_status : Option (List Char)
  search : Option (List Char)

/-- A text that JavaScript counts as true. -/
def given (text : Option (List Char)) : Option (List Char) := text.filter fun text => !text.isEmpty

/-- `text.replace(/c/g, '\\c')`. -/
def escapeChar (c : Char) (text : List Char) : List Char := text.flatMap fun d => if d = c then ['\\', c] else [d]

/-- The three replacements, the backslash first. -/
def escapeSearch (search : List Char) : List Char := escapeChar '_' (escapeChar '%' (escapeChar '\\' search))

/-- The conditions of the query. A filter that was not given has none. -/
def complianceSelects (filters : ComplianceFilters) (item : ComplianceItem) : Bool :=
  !item.deleted && (given filters.source_type).all (fun source => item.source_type == some source) &&
    (given filters.compliance_status).all (fun status => item.compliance_status == some status) &&
    (given filters.search).all fun search =>
      let term := containsPattern (escapeSearch search)
      isLike term item.title || isLike term item.ref_number || isLike term item.description

/-- The replacements one after the other escape every special character once. -/
theorem escapeSearch_eq (search : List Char) : escapeSearch search = escapeLike search := by
  unfold escapeSearch escapeChar escapeLike
  rw [List.flatMap_assoc, List.flatMap_assoc]
  refine List.flatMap_congr fun c _ => ?_
  by_cases hescape : c = '\\'
  · subst hescape
    rfl
  by_cases hany : c = '%'
  · subst hany
    rfl
  by_cases hone : c = '_'
  · subst hone
    rfl
  · simp [isLikeSpecial, hescape, hany, hone]

/-- The items of the list are those that are not deleted, have the source and the status that were asked for, and
contain the search text, whatever characters it has, in their title, their number or their description. -/
theorem compliance_selects_iff (filters : ComplianceFilters) (item : ComplianceItem) :
    complianceSelects filters item = true ↔
      item.deleted = false ∧
        (∀ source, filters.source_type = some source → source ≠ [] → item.source_type = some source) ∧
        (∀ status, filters.compliance_status = some status → status ≠ [] →
          item.compliance_status = some status) ∧
        ∀ search, filters.search = some search → search ≠ [] →
          ∃ text ∈ [item.title, item.ref_number, item.description].filterMap id, search <:+: text := by
  have hgiven : ∀ (text : Option (List Char)) (p : List Char → Bool),
      (given text).all p = true ↔ ∀ t, text = some t → t ≠ [] → p t = true := by
    intro text p
    cases text with
    | none => simp [given]
    | some t => cases t <;> simp [given]
  have hlike : ∀ (search : List Char) (value : Option (List Char)),
      isLike (containsPattern (escapeSearch search)) value = true ↔
        ∃ text, value = some text ∧ search <:+: text := by
    intro search value
    rw [escapeSearch_eq]
    unfold isLike
    simp [Option.any_eq_true, like_contains_escape]
  unfold complianceSelects
  simp only [Bool.and_eq_true, Bool.not_eq_true', hgiven, beq_iff_eq, Bool.or_eq_true, hlike, and_assoc]
  refine and_congr_right fun _ => and_congr_right fun _ => and_congr_right fun _ => ?_
  refine forall₃_congr fun search _ _ => ?_
  simp only [List.mem_filterMap, List.mem_cons, List.not_mem_nil, or_false, id_eq]
  constructor
  · rintro ((⟨text, hvalue, hpart⟩ | ⟨text, hvalue, hpart⟩) | ⟨text, hvalue, hpart⟩)
    · exact ⟨text, ⟨_, Or.inl rfl, hvalue⟩, hpart⟩
    · exact ⟨text, ⟨_, Or.inr (Or.inl rfl), hvalue⟩, hpart⟩
    · exact ⟨text, ⟨_, Or.inr (Or.inr rfl), hvalue⟩, hpart⟩
  · rintro ⟨text, ⟨_, rfl | rfl | rfl, hvalue⟩, hpart⟩
    · exact Or.inl (Or.inl ⟨text, hvalue, hpart⟩)
    · exact Or.inl (Or.inr ⟨text, hvalue, hpart⟩)
    · exact Or.inr ⟨text, hvalue, hpart⟩

end AlsaqiBackend.Records
