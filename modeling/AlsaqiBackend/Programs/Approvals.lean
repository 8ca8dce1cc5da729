import AlsaqiBackend.Programs.Service
import AlsaqiBackend.Records.Bulk
import Mathlib

/-!
# Only an approval approves an audit program

A program should become approved only by `approveProgram`, by a user who has the permission then and from a
status that can be approved; the columns `approved_by` and `approved_at` of an approved program should name that
approval; and a copy should be a draft without them. `approvals_lawful_iff` says which steps break this: the two
routes let a body write the status, a copy keeps the two columns, and the `UPDATE` of an approval looks again at
neither the permission nor the status.
-/

namespace AlsaqiBackend.Programs

open AlsaqiBackend.Lib AlsaqiBackend.Permissions AlsaqiBackend.Records

variable {Id : Type} [DecidableEq Id] {pg : ProgramPostgres Id} {s t : ProgramState Id}
  {a : ProgramAction Id} {row row' : Row Id}

/-! ## Lawful steps -/

def IsApproved (row : Row Id) : Prop := row.columns "status" = .text "Approved"

instance (row : Row Id) : Decidable (IsApproved row) := inferInstanceAs (Decidable (_ = _))

/-- An approval by a user who had the permission, of a program that could be approved. -/
def Approval.isProper (approval : Approval Id) : Bool := approval.held && isApprovable approval.statusBefore

/-- The latest proper approval of a program. -/
def lastApproval (approvals : List (Approval Id)) (id : Id) : Option (Approval Id) :=
  approvals.find? fun approval => approval.programId = id && approval.isProper

/-- The columns of the row name the approval. -/
def Names (row : Row Id) (approval : Approval Id) : Prop :=
  row.columns "approved_by" = .text approval.userId ∧ row.columns "approved_at" = .text approval.approvedAt

/-- Every approved program names the approval by which it is approved. -/
def AllNamed (s : ProgramState Id) : Prop :=
  ∀ row ∈ s.programs, IsApproved row → ∃ approval ∈ lastApproval s.approvals row.id, Names row approval

/-- The programs that are approved after a step were so before, or the step is a proper approval of them. -/
def ByApproval (s t : ProgramState Id) : Prop :=
  ∀ row' ∈ t.programs, IsApproved row' → (∃ row ∈ s.programs, row.id = row'.id ∧ IsApproved row) ∨
    ∃ approval, t.approvals = approval :: s.approvals ∧ approval.programId = row'.id ∧ approval.isProper = true

/-- A draft that has not been approved. -/
def IsNewDraft (row : Row Id) : Prop :=
  row.columns "status" = .text "Draft" ∧ row.columns "approved_by" = .null ∧ row.columns "approved_at" = .null

/-- The step inserts the copy of a `duplicate`. -/
def IsCopy (s : ProgramState Id) (a : ProgramAction Id) : Prop :=
  ∃ i found slot program username,
    a = .proceed i found slot ∧ s.calls[i]? = some (.duplicating program username)

/-- What a step may do. -/
def Lawful (pg : ProgramPostgres Id) (s : ProgramState Id) (a : ProgramAction Id) : Prop :=
  ∀ t, s.step pg a = some t → ByApproval s t ∧ AllNamed t ∧
    (IsCopy s a → ∀ row ∈ t.programs, row ∈ s.programs ∨ IsNewDraft row)

/-! ## Orderly steps -/

/-- An `INSERT` of a copy that succeeds copies no approval, and an `UPDATE` of an approval that succeeds finds its
user with the permission and the program with a status that can be approved, or finds that it would change
nothing. -/
def OrderlyCall (pg : ProgramPostgres Id) (s : ProgramState Id) (slot : Slot Id) : Call Id → Prop
  | .duplicating program _ => slot.fails = none → slot.id ∉ s.programs.map Row.id →
    program.columns "approved_by" = .null ∧ program.columns "approved_at" = .null
  | .updating programId userId => slot.fails = none → ∀ row ∈ s.programs,
    pg.parseId (.text programId) = some row.id →
      (holdsApprove s.permissions userId = true ∧ isApprovable (row.columns "status") = true) ∨
      (IsApproved row ∧ row.columns "approved_by" = .text userId ∧ row.columns "approved_at" = .text slot.now)
  | _ => True

/-- The condition on a step: a body that is written does not say that a program is approved which is not. -/
def Orderly (pg : ProgramPostgres Id) (s : ProgramState Id) : ProgramAction Id → Prop
  | .post body code slot => ∀ tables,
    BaseService.create pg.toPostgres s.tables TABLE_NAME (allowedBody ALLOWED_FIELDS body) code slot = .ok tables →
      body.get "status" ≠ some (.text "Approved")
  | .put id body now fails => ∀ tables, BaseService.update pg.toPostgres s.tables TABLE_NAME (.text id)
      (allowedBody ALLOWED_FIELDS body) now fails = .ok tables →
      body.get "status" = some (.text "Approved") →
        ∀ row ∈ s.programs, pg.parseId (.text id) = some row.id → IsApproved row
  | .proceed i _ slot => ∀ call ∈ s.calls[i]?, OrderlyCall pg s slot call
  | _ => True

/-! ## What a statement makes of the approvals -/

omit [DecidableEq Id] in
theorem eq_of_id_eq (hrow : row ∈ s.programs) (hrow' : row' ∈ s.programs) (h : row.id = row'.id) : row = row' :=
  List.inj_on_of_nodup_map (s.tables TABLE_NAME).nodup hrow hrow' h

/-- A statement without an approval is lawful when each program that is approved after it was so before, by the
same approval. -/
theorem lawful_of_kept (hs : AllNamed s) (happrovals : t.approvals = s.approvals)
    (h : ∀ row' ∈ t.programs, IsApproved row' → ∃ row ∈ s.programs, row.id = row'.id ∧ IsApproved row ∧
      row.columns "approved_by" = row'.columns "approved_by" ∧
      row.columns "approved_at" = row'.columns "approved_at") : ByApproval s t ∧ AllNamed t := by
  constructor
  · intro row' hrow' happroved
    obtain ⟨row, hrow, hid, hrowApproved, _⟩ := h row' hrow' happroved
    exact Or.inl ⟨row, hrow, hid, hrowApproved⟩
  · intro row' hrow' happroved
    obtain ⟨row, hrow, hid, hrowApproved, hby, hat⟩ := h row' hrow' happroved
    obtain ⟨approval, hlast, hnames⟩ := hs row hrow hrowApproved
    refine ⟨approval, ?_, hby ▸ hnames.1, hat ▸ hnames.2⟩
    rw [happrovals, ← hid]
    exact hlast

omit [DecidableEq Id] in
/-- Without an approval, a program that is approved after a lawful step was so before. -/
theorem ByApproval.was_approved (h : ByApproval s t) (happrovals : t.approvals = s.approvals)
    (hrow' : row' ∈ t.programs) (happroved : IsApproved row') :
    ∃ row ∈ s.programs, row.id = row'.id ∧ IsApproved row := by
  obtain hold | ⟨approval, heq, _⟩ := h row' hrow' happroved
  · exact hold
  · rw [happrovals] at heq
    exact absurd heq.symm (List.cons_ne_self approval s.approvals)

/-- A step that leaves the programs alone is lawful. -/
theorem lawful_of_same (hs : AllNamed s) (hstep : s.step pg a = some t) (hprograms : t.programs = s.programs)
    (happrovals : t.approvals = s.approvals) : Lawful pg s a := by
  rw [Lawful, forall_step_iff hstep]
  have hkept : ByApproval s t ∧ AllNamed t := by
    refine lawful_of_kept hs happrovals fun row hrow happroved => ?_
    rw [hprograms] at hrow
    exact ⟨row, hrow, rfl, happroved, rfl, rfl⟩
  refine ⟨hkept.1, hkept.2, fun _ row hrow => ?_⟩
  rw [hprograms] at hrow
  exact Or.inl hrow

/-- A step that inserts a row is lawful when this is not approved and, if it is a copy, a draft. -/
theorem lawful_insert_iff (hs : AllNamed s) (hstep : s.step pg a = some t)
    (hprograms : t.programs = s.programs ++ [row]) (hnew : row.id ∉ s.programs.map Row.id)
    (happrovals : t.approvals = s.approvals) :
    Lawful pg s a ↔ ¬IsApproved row ∧ (IsCopy s a → IsNewDraft row) := by
  have hmem : row ∈ t.programs := by
    rw [hprograms]
    exact List.mem_append_right _ (List.mem_singleton_self row)
  rw [Lawful, forall_step_iff hstep]
  constructor
  -- The id of the new row is not one of the programs before.
  · intro ⟨hby, _, hcopy⟩
    constructor
    · intro happroved
      obtain ⟨old, hold, hid, _⟩ := hby.was_approved happrovals hmem happroved
      exact hnew (hid ▸ List.mem_map_of_mem hold)
    · intro hc
      exact (hcopy hc row hmem).resolve_left fun hold => hnew (List.mem_map_of_mem hold)
  · intro ⟨hnot, hcopy⟩
    have hcases : ∀ row' ∈ t.programs, row' ∈ s.programs ∨ row' = row := by
      intro row' hrow'
      rw [hprograms, List.mem_append, List.mem_singleton] at hrow'
      exact hrow'
    have hkept : ByApproval s t ∧ AllNamed t := by
      refine lawful_of_kept hs happrovals fun row' hrow' happroved => ?_
      rcases hcases row' hrow' with hold | rfl
      · exact ⟨row', hold, rfl, happroved, rfl, rfl⟩
      · exact absurd happroved hnot
    refine ⟨hkept.1, hkept.2, fun hc row' hrow' => ?_⟩
    rcases hcases row' hrow' with hold | rfl
    · exact Or.inl hold
    · exact Or.inr (hcopy hc)

/-- A step that is no copy and inserts no row is lawful by what it makes of the approvals. -/
theorem lawful_iff_of_not_copy (hstep : s.step pg a = some t) (hcopy : ¬IsCopy s a) :
    Lawful pg s a ↔ ByApproval s t ∧ AllNamed t := by
  rw [Lawful, forall_step_iff hstep]
  exact and_congr_right fun _ => and_iff_left fun hc => absurd hc hcopy

omit [DecidableEq Id] in
theorem mem_updated {rowId : Id} {f : (String → Value) → String → Value} [DecidableEq Id] :
    row' ∈ ((s.tables TABLE_NAME).update (fun row => row.id = rowId) f).rows ↔
      (row' ∈ s.programs ∧ row'.id ≠ rowId) ∨
        ∃ row ∈ s.programs, row.id = rowId ∧ row' = { row with columns := f row.columns } := by
  refine mem_updateWhere.trans ?_
  constructor
  · intro ⟨row, hrow, heq⟩
    by_cases hid : row.id = rowId
    · rw [decide_eq_true hid, if_pos rfl] at heq
      exact Or.inr ⟨row, hrow, hid, heq.symm⟩
    · rw [decide_eq_false hid, if_neg Bool.false_ne_true] at heq
      exact Or.inl ⟨heq ▸ hrow, heq ▸ hid⟩
  · rintro (⟨hrow, hid⟩ | ⟨row, hrow, hid, rfl⟩)
    · exact ⟨row', hrow, by rw [decide_eq_false hid, if_neg Bool.false_ne_true]⟩
    · exact ⟨row, hrow, by rw [decide_eq_true hid, if_pos rfl]⟩

/-- An `UPDATE` that leaves the columns of the approval is lawful when it makes no other program approved. -/
theorem lawful_update_iff {rowId : Id} {f : (String → Value) → String → Value} (hs : AllNamed s)
    (hprograms : t.programs = ((s.tables TABLE_NAME).update (fun row => row.id = rowId) f).rows)
    (happrovals : t.approvals = s.approvals)
    (hf : ∀ columns, f columns "approved_by" = columns "approved_by" ∧
      f columns "approved_at" = columns "approved_at") :
    ByApproval s t ∧ AllNamed t ↔
      ∀ row ∈ s.programs, row.id = rowId → f row.columns "status" = .text "Approved" → IsApproved row := by
  constructor
  · intro ⟨hby, _⟩ row hrow hid hstatus
    have hmem : (⟨row.id, f row.columns⟩ : Row Id) ∈ t.programs := by
      rw [hprograms, mem_updated]
      exact Or.inr ⟨row, hrow, hid, rfl⟩
    obtain ⟨old, hold, hsame, happroved⟩ := hby.was_approved happrovals hmem hstatus
    exact eq_of_id_eq hold hrow hsame ▸ happroved
  · intro h
    refine lawful_of_kept hs happrovals fun row' hrow' happroved => ?_
    rw [hprograms, mem_updated] at hrow'
    rcases hrow' with ⟨hold, _⟩ | ⟨row, hrow, hid, rfl⟩
    · exact ⟨row', hold, rfl, happroved, rfl, rfl⟩
    · obtain ⟨hby, hat⟩ := hf row.columns
      exact ⟨row, hrow, rfl, h row hrow hid happroved, hby.symm, hat.symm⟩

/-! ## The statements -/

/-- The status of a body is that of its request. -/
theorem get_status (body : Body) :
    (sanitizeBody (allowedBody ALLOWED_FIELDS body)).get "status" = body.get "status" := by
  have hkey : isIdKey "status" = false := by decide +kernel
  have hallowed : decide ("status" ∈ ALLOWED_FIELDS) = true := by decide +kernel
  have hget : (allowedBody ALLOWED_FIELDS body).get "status" = body.get "status" :=
    OrderedMap.get_filterKeys hallowed
  rw [sanitizeBody, OrderedMap.get_mapValues, hget]
  cases body.get "status" with
  | none => rfl
  | some value => simp [hkey]

/-- A column that no body may write is in no body that is permitted. -/
theorem get_eq_none_of_checkKeys {data : Body} {column : String}
    (h : BaseService.checkKeys TABLE_NAME data = .ok ()) (hcolumn : column ∉ getColumnWhitelist TABLE_NAME) :
    (sanitizeBody data).get column = none := by
  rw [OrderedMap.get_eq_none, sanitizeBody, OrderedMap.keys_mapValues]
  exact fun hmem => hcolumn (checkKeys_eq_ok.1 h column hmem)

/-- What `POST` inserts. -/
theorem create_ok {body : Body} {code : Option String} {slot : Slot Id} {tables : Tables Id}
    (h : BaseService.create pg.toPostgres s.tables TABLE_NAME (allowedBody ALLOWED_FIELDS body) code slot =
      .ok tables) : ∃ row table, (s.tables TABLE_NAME).insert row = some table ∧
        tables = Function.update s.tables TABLE_NAME table ∧
        (IsApproved row ↔ body.get "status" = some (.text "Approved")) := by
  unfold BaseService.create at h
  simp only [bind, Except.bind] at h
  split at h
  · cases h
  · split at h
    · cases h
    · obtain ⟨_, table, hinsert, htables⟩ := insertRow_eq_ok.1 h
      refine ⟨_, table, hinsert, htables, ?_⟩
      -- The generated code is set in the column `program_code` only.
      have hcode : (BaseService.withCode TABLE_NAME code
          (sanitizeBody (allowedBody ALLOWED_FIELDS body))).get "status" = body.get "status" := by
        rw [← get_status body]
        unfold BaseService.withCode
        split
        · next codeCol _ hlookup _ =>
          split_ifs
          · rfl
          · have hname : codeCol = "program_code" := by
              have hval : Events.codeColumns.lookup TABLE_NAME = some "program_code" := by decide +kernel
              exact Option.some.inj (hlookup.symm.trans hval)
            rw [OrderedMap.get_set, hname, if_neg (by decide)]
        · rfl
      show newColumns _ _ _ _ "status" = _ ↔ _
      unfold newColumns
      rw [hcode]
      cases body.get "status" with
      -- A body without a status leaves the default of the column.
      | none => exact iff_of_false pg.status_default (Option.some_ne_none _).symm
      | some value => exact (Option.some_inj).symm

/-- What `PUT` updates. -/
theorem update_ok {id : String} {body : Body} {now : String} {fails : Option String} {tables : Tables Id}
    (h : BaseService.update pg.toPostgres s.tables TABLE_NAME (.text id) (allowedBody ALLOWED_FIELDS body) now fails =
      .ok tables) : ∃ rowId f, pg.parseId (.text id) = some rowId ∧
        tables = Function.update s.tables TABLE_NAME
          ((s.tables TABLE_NAME).update (fun row => row.id = rowId) f) ∧
        ∀ columns, f columns "approved_by" = columns "approved_by" ∧
          f columns "approved_at" = columns "approved_at" ∧
          f columns "status" = (body.get "status").getD (columns "status") := by
  unfold BaseService.update BaseService.checkUpdate at h
  simp only [bind, Except.bind] at h
  split at h
  · cases h
  · next body' hcheck =>
    split at hcheck
    · cases hcheck
    · next hkeys =>
      split at hcheck
      · cases hcheck
      · obtain rfl := Except.ok.inj hcheck
        obtain ⟨_, rowId, hid, _, rfl⟩ := updateRow_eq_ok.1 h
        refine ⟨rowId, setColumns (sanitizeBody (allowedBody ALLOWED_FIELDS body)) now, hid, ?_, fun columns => ?_⟩
        -- `update` has no condition on the row besides its id.
        · have hselects : selects rowId (fun _ : Row Id => true) = fun row => decide (row.id = rowId) :=
            funext fun row => Bool.and_true _
          rw [hselects]
        -- The whitelist of the table has neither column of the approval.
        · have hby : (sanitizeBody (allowedBody ALLOWED_FIELDS body)).get "approved_by" = none :=
            get_eq_none_of_checkKeys hkeys (by decide +kernel)
          have hat : (sanitizeBody (allowedBody ALLOWED_FIELDS body)).get "approved_at" = none :=
            get_eq_none_of_checkKeys hkeys (by decide +kernel)
          unfold setColumns
          rw [hby, hat, get_status]
          exact ⟨if_neg (by decide), if_neg (by decide), if_neg (by decide)⟩

/-! ## Approvals -/

theorem lastApproval_cons (approval : Approval Id) (approvals : List (Approval Id)) (id : Id) :
    lastApproval (approval :: approvals) id =
      if approval.programId = id ∧ approval.isProper = true then some approval
      else lastApproval approvals id := by
  unfold lastApproval
  rw [List.find?_cons]
  by_cases h : approval.programId = id ∧ approval.isProper = true
  · rw [if_pos h, decide_eq_true h.1, h.2]
    rfl
  · rw [if_neg h]
    have hfalse : (decide (approval.programId = id) && approval.isProper) = false := by
      rw [Bool.and_eq_false_iff, decide_eq_false_iff_not, ← Bool.not_eq_true, ← not_and_or]
      exact h
    rw [hfalse]

variable {userId now : String}

omit [DecidableEq Id] in
/-- The row after the `UPDATE` of an approval. -/
theorem approvedColumns_spec (userId now : String) (columns : String → Value) :
    approvedColumns userId now columns "status" = .text "Approved" ∧
      approvedColumns userId now columns "approved_by" = .text userId ∧
      approvedColumns userId now columns "approved_at" = .text now := by
  refine ⟨rfl, ?_, ?_⟩
  · unfold approvedColumns
    rw [if_neg (by decide), if_pos rfl]
  · unfold approvedColumns
    rw [if_neg (by decide), if_neg (by decide), if_pos (Or.inl rfl)]

/-- The `UPDATE` of an approval is lawful when it is proper, or changes nothing. -/
theorem lawful_approve_iff {approval : Approval Id} (hs : AllNamed s) (hrow : row ∈ s.programs)
    (hprograms : t.programs =
      ((s.tables TABLE_NAME).update (fun row' => row'.id = row.id) (approvedColumns userId now)).rows)
    (happrovals : t.approvals = approval :: s.approvals) (hid : approval.programId = row.id)
    (huser : approval.userId = userId) (hnow : approval.approvedAt = now) :
    ByApproval s t ∧ AllNamed t ↔ approval.isProper = true ∨
      (IsApproved row ∧ row.columns "approved_by" = .text userId ∧ row.columns "approved_at" = .text now) := by
  obtain ⟨hstatus', hby', hat'⟩ := approvedColumns_spec userId now row.columns
  have hmem : ∀ row' ∈ t.programs, (row' ∈ s.programs ∧ row'.id ≠ row.id) ∨
      row' = { row with columns := approvedColumns userId now row.columns } := by
    intro row' hrow'
    rw [hprograms, mem_updated] at hrow'
    rcases hrow' with hold | ⟨old, hold, hsame, rfl⟩
    · exact Or.inl hold
    · obtain rfl := eq_of_id_eq hold hrow hsame
      exact Or.inr rfl
  constructor
  · intro ⟨hby, hnamed⟩
    refine or_iff_not_imp_left.2 fun hnot => ?_
    -- The row is approved after the step, so that it was so before, or by this approval.
    have hrow' : { row with columns := approvedColumns userId now row.columns } ∈ t.programs := by
      rw [hprograms, mem_updated]
      exact Or.inr ⟨row, hrow, rfl, rfl⟩
    have happroved : IsApproved row := by
      obtain ⟨old, hold, hsame, hold'⟩ | ⟨other, heq, _, hproper⟩ := hby _ hrow' hstatus'
      · exact eq_of_id_eq hold hrow hsame ▸ hold'
      · rw [happrovals] at heq
        exact absurd ((List.cons.inj heq).1 ▸ hproper) hnot
    -- The approval that the row names is still the latest one.
    obtain ⟨last, hlast, hnames⟩ := hnamed _ hrow' hstatus'
    rw [happrovals, lastApproval_cons, if_neg fun h => hnot h.2] at hlast
    obtain ⟨last', hlast', hnames'⟩ := hs row hrow happroved
    obtain rfl := Option.some.inj (hlast.symm.trans hlast')
    exact ⟨happroved, hnames'.1.trans (hnames.1.symm.trans hby'), hnames'.2.trans (hnames.2.symm.trans hat')⟩
  · intro h
    constructor
    · intro row' hrow' happroved
      rcases hmem row' hrow' with ⟨hold, _⟩ | rfl
      · exact Or.inl ⟨row', hold, rfl, happroved⟩
      · rcases h with hproper | ⟨hwas, _⟩
        · exact Or.inr ⟨approval, happrovals, hid, hproper⟩
        · exact Or.inl ⟨row, hrow, rfl, hwas⟩
    · intro row' hrow' happroved
      rw [happrovals, lastApproval_cons]
      rcases hmem row' hrow' with ⟨hold, hne⟩ | rfl
      · rw [if_neg fun h => hne (h.1.symm.trans hid)]
        exact hs row' hold happroved
      · by_cases hproper : approval.isProper = true
        · rw [if_pos ⟨hid, hproper⟩]
          exact ⟨approval, rfl, by rw [huser]; exact hby', by rw [hnow]; exact hat'⟩
        · obtain ⟨hwas, hby, hat⟩ := h.resolve_left hproper
          rw [if_neg fun h => hproper h.2]
          obtain ⟨last, hlast, hnames⟩ := hs row hrow hwas
          exact ⟨last, hlast, hby'.trans (hby.symm.trans hnames.1), hat'.trans (hat.symm.trans hnames.2)⟩

/-! ## Steps -/

theorem insert_spec {table table' : Table Id} (h : table.insert row = some table') :
    table'.rows = table.rows ++ [row] ∧ row.id ∉ table.rows.map Row.id := by
  unfold Table.insert at h
  split_ifs at h with hid
  obtain rfl := Option.some.inj h
  exact ⟨rfl, hid⟩

/-- The programs after an `INSERT` that succeeds. -/
theorem programs_insert {table : Table Id} (h : (s.tables TABLE_NAME).insert row = some table)
    (htables : t.tables = Function.update s.tables TABLE_NAME table) :
    t.programs = s.programs ++ [row] ∧ row.id ∉ s.programs.map Row.id := by
  obtain ⟨hrows, hnew⟩ := insert_spec h
  refine ⟨?_, hnew⟩
  show (t.tables TABLE_NAME).rows = _
  rw [htables, Function.update_self]
  exact hrows

theorem lawful_post_iff {body : Body} {code : Option String} {slot : Slot Id} (hs : AllNamed s) :
    Lawful pg s (.post body code slot) ↔ Orderly pg s (.post body code slot) := by
  have hcopy : ¬IsCopy s (.post body code slot) := fun ⟨_, _, _, _, _, heq, _⟩ => nomatch heq
  cases hcreate : BaseService.create pg.toPostgres s.tables TABLE_NAME (allowedBody ALLOWED_FIELDS body) code slot with
  | error e =>
    have hstep : s.step pg (.post body code slot) = some s := by
      show some (s.setTables _) = some s
      rw [hcreate]
      rfl
    -- A request that fails writes nothing, and the condition asks nothing of it.
    refine iff_of_true (lawful_of_same hs hstep rfl rfl) fun tables hok => ?_
    rw [hcreate] at hok
    cases hok
  | ok tables =>
    have hstep : s.step pg (.post body code slot) = some { s with tables := tables } := by
      show some (s.setTables _) = some _
      rw [hcreate]
      rfl
    obtain ⟨row, table, hinsert, htables, hstatus⟩ := create_ok hcreate
    obtain ⟨hprograms, hnew⟩ := programs_insert (t := { s with tables := tables }) hinsert htables
    rw [lawful_insert_iff hs hstep hprograms hnew rfl, and_iff_left fun hc => absurd hc hcopy, hstatus]
    -- What is left of both sides is that the body does not say `'Approved'`.
    simp only [Orderly, hcreate, Except.ok.injEq, forall_eq', ne_eq]

theorem lawful_put_iff {id : String} {body : Body} {now : String} {fails : Option String} (hs : AllNamed s) :
    Lawful pg s (.put id body now fails) ↔ Orderly pg s (.put id body now fails) := by
  have hcopy : ¬IsCopy s (.put id body now fails) := fun ⟨_, _, _, _, _, heq, _⟩ => nomatch heq
  cases hupdate : BaseService.update pg.toPostgres s.tables TABLE_NAME (.text id)
      (allowedBody ALLOWED_FIELDS body) now fails with
  | error e =>
    have hstep : s.step pg (.put id body now fails) = some s := by
      show some (s.setTables _) = some s
      rw [hupdate]
      rfl
    refine iff_of_true (lawful_of_same hs hstep rfl rfl) fun tables hok => ?_
    rw [hupdate] at hok
    cases hok
  | ok tables =>
    have hstep : s.step pg (.put id body now fails) = some { s with tables := tables } := by
      show some (s.setTables _) = some _
      rw [hupdate]
      rfl
    obtain ⟨rowId, f, hid, htables, hf⟩ := update_ok hupdate
    have hprograms : ({ s with tables := tables } : ProgramState Id).programs =
        ((s.tables TABLE_NAME).update (fun row => row.id = rowId) f).rows := by
      show (tables TABLE_NAME).rows = _
      rw [htables, Function.update_self]
    have hlawful := lawful_update_iff hs hprograms rfl fun columns => ⟨(hf columns).1, (hf columns).2.1⟩
    rw [lawful_iff_of_not_copy hstep hcopy, hlawful]
    simp only [Orderly, hupdate, hid, Except.ok.injEq, forall_eq']
    constructor
    · intro h hstatus row hrow hrowId
      refine h row hrow (Option.some.inj hrowId).symm ?_
      rw [(hf row.columns).2.2, hstatus]
      rfl
    · intro h row hrow hrowId hstatus
      rw [(hf row.columns).2.2] at hstatus
      cases hbody : body.get "status" with
      | none =>
        rw [hbody] at hstatus
        exact hstatus
      | some value =>
        rw [hbody, Option.getD_some] at hstatus
        exact h (by rw [hbody, hstatus]) row hrow (by rw [hrowId])

/-! ## Calls -/

variable {i : ℕ} {found : FoundLinks} {slot : Slot Id}

/-- The condition on the step of a call is that on the call. -/
theorem orderly_proceed_iff {call : Call Id} (hcall : s.calls[i]? = some call) :
    Orderly pg s (.proceed i found slot) ↔ OrderlyCall pg s slot call := by
  simp only [Orderly, hcall, Option.mem_def, Option.some.injEq, forall_eq']

theorem step_proceed {call : Call Id} (hcall : s.calls[i]? = some call) :
    s.step pg (.proceed i found slot) = s.proceed pg i found slot call := by
  show (s.calls[i]?).bind _ = _
  rw [hcall]
  rfl

omit [DecidableEq Id] in
/-- Only the call of a `duplicate` copies. -/
theorem isCopy_proceed_iff {call : Call Id} (hcall : s.calls[i]? = some call) :
    IsCopy s (.proceed i found slot) ↔ ∃ program username, call = .duplicating program username := by
  constructor
  · rintro ⟨j, found', slot', program, username, heq, hj⟩
    obtain ⟨rfl, rfl, rfl⟩ := ProgramAction.proceed.inj heq
    exact ⟨program, username, Option.some.inj (hcall.symm.trans hj)⟩
  · rintro ⟨program, username, rfl⟩
    exact ⟨i, found, slot, program, username, rfl, hcall⟩

omit [DecidableEq Id] in
/-- The program that `createProgram` inserts is a draft. -/
theorem status_fields {data : CreateProgramInput} {userId now : String} :
    newColumns pg.toPostgres TABLE_NAME (data.fields userId) now "status" = .text "Draft" := by
  have hget : (data.fields userId).get "status" = some (.text "Draft") := by
    unfold CreateProgramInput.fields
    simp only [List.foldl_cons, List.foldl_nil, OrderedMap.get_set]
    rw [if_neg (by decide), if_neg (by decide)]
    exact if_pos trivial
  unfold newColumns
  rw [hget]

theorem lawful_creating {data : CreateProgramInput} {userId : String} (hs : AllNamed s)
    (hcall : s.calls[i]? = some (.creating data userId)) (hstep : s.step pg (.proceed i found slot) = some t) :
    Lawful pg s (.proceed i found slot) := by
  have hcopy : ¬IsCopy s (.proceed i found slot) := by
    rw [isCopy_proceed_iff hcall]
    exact fun ⟨_, _, heq⟩ => nomatch heq
  have hproceed := hstep
  rw [step_proceed hcall] at hproceed
  simp only [ProgramState.proceed] at hproceed
  split at hproceed
  · cases hinsert : insertRow pg.toPostgres s.tables TABLE_NAME (data.fields userId) slot with
    | error e =>
      rw [ProgramState.insertProgram, hinsert] at hproceed
      obtain rfl := Option.some.inj hproceed
      exact lawful_of_same hs hstep rfl rfl
    | ok tables =>
      rw [ProgramState.insertProgram, hinsert] at hproceed
      obtain rfl := Option.some.inj hproceed
      obtain ⟨_, table, htable, htables⟩ := insertRow_eq_ok.1 hinsert
      obtain ⟨hprograms, hnew⟩ := programs_insert (t := { s with tables := tables }) htable htables
      refine (lawful_insert_iff hs hstep hprograms hnew rfl).2 ⟨fun happroved => ?_, fun hc => absurd hc hcopy⟩
      simp only [IsApproved, status_fields] at happroved
      exact absurd happroved (by decide)
  · obtain rfl := Option.some.inj hproceed
    exact lawful_of_same hs hstep rfl rfl

theorem lawful_duplicating_iff {program : Row Id} {username : String} (hs : AllNamed s)
    (hcall : s.calls[i]? = some (.duplicating program username))
    (hstep : s.step pg (.proceed i found slot) = some t) : Lawful pg s (.proceed i found slot) ↔
      (slot.fails = none → slot.id ∉ s.programs.map Row.id →
        program.columns "approved_by" = .null ∧ program.columns "approved_at" = .null) := by
  have hproceed := hstep
  rw [step_proceed hcall] at hproceed
  simp only [ProgramState.proceed, ProgramState.insertCopy] at hproceed
  split at hproceed
  · next table hfails htable =>
    obtain rfl := Option.some.inj hproceed
    obtain ⟨hprograms, hnew⟩ :=
      programs_insert (t := { s with tables := Function.update s.tables TABLE_NAME table }) htable rfl
    rw [lawful_insert_iff hs hstep hprograms hnew rfl, isCopy_proceed_iff hcall]
    have hstatus : copyColumns program.columns username slot.now "status" = .text "Draft" := by
      unfold copyColumns
      rw [if_neg (by decide), if_neg (by decide), if_neg (by decide), if_pos rfl]
    -- `copyColumns` resets the status, and neither column of the approval.
    have hkeeps : ∀ column ∈ ["approved_by", "approved_at"],
        copyColumns program.columns username slot.now column = program.columns column := by
      intro column hcolumn
      unfold copyColumns
      rcases List.mem_pair.1 hcolumn with rfl | rfl
      · simp
      · simp
    constructor
    · intro ⟨_, hdraft⟩ _ _
      obtain ⟨_, hby, hat⟩ := hdraft ⟨program, username, rfl⟩
      exact ⟨(hkeeps _ List.mem_cons_self).symm.trans hby,
        (hkeeps _ (List.mem_cons_of_mem _ List.mem_cons_self)).symm.trans hat⟩
    · intro hclean
      obtain ⟨hby, hat⟩ := hclean hfails hnew
      refine ⟨fun happroved => ?_, fun _ => ⟨hstatus, (hkeeps _ List.mem_cons_self).trans hby,
        (hkeeps _ (List.mem_cons_of_mem _ List.mem_cons_self)).trans hat⟩⟩
      have hdraft := hstatus.symm.trans happroved
      exact absurd hdraft (by decide)
  · next hnot =>
    obtain rfl := Option.some.inj hproceed
    refine iff_of_true (lawful_of_same hs hstep rfl rfl) fun hfails hfree => ?_
    have hinsert : ∃ table, (s.tables TABLE_NAME).insert
        ⟨slot.id, copyColumns program.columns username slot.now⟩ = some table := by
      unfold Table.insert
      exact ⟨_, dif_neg hfree⟩
    obtain ⟨table, htable⟩ := hinsert
    exact absurd htable (hnot table hfails)

/-- What `approve` does, where its statement does not fail and its program is there. -/
theorem approve_of_row {programId : String} (userId : String) (hfails : slot.fails = none) (hrow : row ∈ s.programs)
    (hid : pg.parseId (.text programId) = some row.id) :
    (s.approve pg programId userId slot).programs =
        ((s.tables TABLE_NAME).update (fun row' => row'.id = row.id) (approvedColumns userId slot.now)).rows ∧
      (s.approve pg programId userId slot).approvals =
        ⟨row.id, userId, slot.now, row.columns "status", holdsApprove s.permissions userId⟩ :: s.approvals := by
  have hfilter : s.programs.filter (fun row' => row'.id = row.id) = [row] :=
    Keyed.filter_key_eq (show row ∈ (⟨_, (s.tables TABLE_NAME).nodup⟩ : Keyed Row.id).rows from hrow)
  unfold ProgramState.approve
  rw [hfails, hid]
  simp only
  constructor
  · exact congrArg Table.rows (Function.update_self TABLE_NAME _ s.tables)
  · rw [hfilter]
    rfl

/-- And what it does otherwise. -/
theorem approve_of_not {programId : String} (userId : String)
    (h : slot.fails = none → ∀ row ∈ s.programs, pg.parseId (.text programId) ≠ some row.id) :
    (s.approve pg programId userId slot).programs = s.programs ∧
      (s.approve pg programId userId slot).approvals = s.approvals := by
  unfold ProgramState.approve
  split
  · next rowId hfails hid =>
    have hnone : ∀ row ∈ s.programs, row.id ≠ rowId := fun row hrow heq => h hfails row hrow (by rw [hid, heq])
    have hfilter : s.programs.filter (fun row => row.id = rowId) = [] :=
      List.filter_eq_nil_iff.2 fun row hrow heq => hnone row hrow (of_decide_eq_true heq)
    constructor
    · show (Function.update s.tables TABLE_NAME _ TABLE_NAME).rows = _
      rw [Function.update_self]
      exact updateWhere_eq_self fun row hrow => decide_eq_false (hnone row hrow)
    · rw [hfilter]
      rfl
  · exact ⟨rfl, rfl⟩

theorem lawful_updating_iff {programId userId : String} (hs : AllNamed s)
    (hcall : s.calls[i]? = some (.updating programId userId))
    (hstep : s.step pg (.proceed i found slot) = some t) : Lawful pg s (.proceed i found slot) ↔
      OrderlyCall pg s slot (.updating programId userId) := by
  have hcopy : ¬IsCopy s (.proceed i found slot) := by
    rw [isCopy_proceed_iff hcall]
    exact fun ⟨_, _, heq⟩ => nomatch heq
  have hproceed := hstep
  rw [step_proceed hcall] at hproceed
  obtain rfl := Option.some.inj hproceed
  -- The `UPDATE` fails, or finds no row any more, or finds the one with the id.
  by_cases hrow : slot.fails = none ∧ ∃ row ∈ s.programs, pg.parseId (.text programId) = some row.id
  · obtain ⟨hfails, row, hrow, hid⟩ := hrow
    obtain ⟨hprograms, happrovals⟩ := approve_of_row userId hfails hrow hid
    rw [lawful_iff_of_not_copy hstep hcopy]
    refine (lawful_approve_iff hs hrow hprograms happrovals rfl rfl rfl).trans ?_
    show (holdsApprove s.permissions userId && isApprovable (row.columns "status")) = true ∨ _ ↔ _
    rw [Bool.and_eq_true]
    constructor
    · intro h _ row' hrow' hid'
      obtain rfl := eq_of_id_eq hrow' hrow (Option.some.inj (hid'.symm.trans hid))
      exact h
    · intro h
      exact h hfails row hrow hid
  · have hnot : slot.fails = none → ∀ row ∈ s.programs, pg.parseId (.text programId) ≠ some row.id :=
      fun hfails row hmem hid => hrow ⟨hfails, row, hmem, hid⟩
    obtain ⟨hprograms, happrovals⟩ := approve_of_not userId hnot
    exact iff_of_true (lawful_of_same hs hstep hprograms happrovals)
      fun hfails row hmem hid => absurd hid (hnot hfails row hmem)

/-- A step is lawful exactly when it is orderly. -/
theorem lawful_step_iff (s : ProgramState Id) (a : ProgramAction Id) (t : ProgramState Id) (hs : AllNamed s)
    (hstep : s.step pg a = some t) : Lawful pg s a ↔ Orderly pg s a := by
  cases a with
  -- These calls begin with a `SELECT` or a check, which changes no program.
  | createProgram | duplicate | approveProgram =>
    have hsame : t.programs = s.programs ∧ t.approvals = s.approvals := by
      simp only [ProgramState.step] at hstep
      split at hstep <;> obtain rfl := Option.some.inj hstep <;> exact ⟨rfl, rfl⟩
    exact iff_of_true (lawful_of_same hs hstep hsame.1 hsame.2) trivial
  | setPermissions permissions =>
    obtain rfl := Option.some.inj hstep
    exact iff_of_true (lawful_of_same hs hstep rfl rfl) trivial
  | post body code slot => exact lawful_post_iff hs
  | put id body now fails => exact lawful_put_iff hs
  | proceed i found slot =>
    obtain ⟨call, hcall, hproceed⟩ := Option.bind_eq_some_iff.1 hstep
    rw [orderly_proceed_iff hcall]
    cases call with
    | creating => exact iff_of_true (lawful_creating hs hcall hstep) trivial
    | duplicating program username => exact lawful_duplicating_iff hs hcall hstep
    | updating programId userId => exact lawful_updating_iff hs hcall hstep
    | readingRole =>
      obtain rfl := Option.some.inj hproceed
      exact iff_of_true (lawful_of_same hs hstep rfl rfl) trivial
    -- Neither do the queries of an approval that is under way.
    | readingOverrides | selecting =>
      have hsame : t.programs = s.programs ∧ t.approvals = s.approvals := by
        simp only [ProgramState.proceed] at hproceed
        split at hproceed <;> obtain rfl := Option.some.inj hproceed <;> exact ⟨rfl, rfl⟩
      exact iff_of_true (lawful_of_same hs hstep hsame.1 hsame.2) trivial
    | finished => cases hproceed

omit [DecidableEq Id] in
theorem calls_begin (call : Call Id) : (s.begin call).calls[s.calls.length]? = some call :=
  List.getElem?_concat_length

omit [DecidableEq Id] in
theorem calls_setCall {old : Call Id} (h : s.calls[i]? = some old) (call : Call Id) :
    (s.setCall i call).calls[i]? = some call := by
  have hlt : i < s.calls.length := (List.getElem?_eq_some_iff.1 h).1
  exact List.getElem?_set_self hlt

/-- The program that `approveProgram` has checked can be approved. -/
theorem isApprovable_of_checkProgram {programId : String}
    (h : checkProgram (s.selectProgram pg programId) = .ok ()) (hrow : row ∈ s.programs)
    (hid : pg.parseId (.text programId) = some row.id) : isApprovable (row.columns "status") = true := by
  have hselect : s.selectProgram pg programId = some row := by
    unfold ProgramState.selectProgram
    rw [hid]
    exact find?_key_of_mem (s.tables TABLE_NAME).nodup hrow rfl
  rw [hselect] at h
  simp only [checkProgram] at h
  split_ifs at h with happrovable
  exact happrovable

/-- An approval that nothing comes between is orderly. -/
theorem orderly_of_alone {programId userId : String} {f₁ f₂ f₃ : FoundLinks} {s₁ s₂ s₃ : Slot Id}
    (h : run (ProgramState.step pg) s [.approveProgram programId userId, .proceed s.calls.length f₁ s₁,
      .proceed s.calls.length f₂ s₂, .proceed s.calls.length f₃ s₃] = some t) :
    Orderly pg t (.proceed s.calls.length found slot) := by
  obtain ⟨t₁, h₁, h⟩ := run_cons.1 h
  obtain ⟨t₂, h₂, h⟩ := run_cons.1 h
  obtain ⟨t₃, h₃, h⟩ := run_cons.1 h
  obtain ⟨t₄, h₄, h⟩ := run_cons.1 h
  obtain rfl := Option.some.inj h
  -- The three queries of the call, one after the other, see the same permissions and programs.
  simp only [ProgramState.step] at h₁
  split at h₁
  · next user huser =>
    obtain rfl := Option.some.inj h₁
    have hcall := calls_begin (s := s) (.readingRole programId userId user)
    rw [step_proceed hcall] at h₂
    have hread : some ((s.begin (.readingRole programId userId user)).setCall s.calls.length
        (.readingOverrides programId userId (s.permissions.roleRows user.roleId))) = some t₂ := h₂
    obtain rfl := Option.some.inj hread
    have hcall₂ := calls_setCall hcall (.readingOverrides programId userId (s.permissions.roleRows user.roleId))
    rw [step_proceed hcall₂] at h₃
    simp only [ProgramState.proceed] at h₃
    split at h₃
    · next hallowed =>
      obtain rfl := Option.some.inj h₃
      have hcall₃ := calls_setCall hcall₂ (.selecting programId userId)
      rw [step_proceed hcall₃] at h₄
      simp only [ProgramState.proceed] at h₄
      split at h₄
      · next hprogram =>
        obtain rfl := Option.some.inj h₄
        rw [orderly_proceed_iff (calls_setCall hcall₃ _)]
        intro _ row hrow hid
        refine Or.inl ⟨?_, isApprovable_of_checkProgram hprogram hrow hid⟩
        show holdsApprove s.permissions userId = true
        rw [holdsApprove_eq huser]
        unfold checkApprover at hallowed
        split_ifs at hallowed with hmay
        exact hmay
      · obtain rfl := Option.some.inj h₄
        rw [orderly_proceed_iff (calls_setCall hcall₃ _)]
        trivial
    · obtain rfl := Option.some.inj h₃
      have hcall₃ := calls_setCall hcall₂ .finished
      rw [step_proceed hcall₃] at h₄
      cases h₄
  · obtain rfl := Option.some.inj h₁
    have hnone : s.calls[s.calls.length]? = none := List.getElem?_eq_none (le_refl _)
    simp only [ProgramState.step, hnone, Option.bind_none] at h₂
    cases h₂

/-! ## Runs -/

/-- No programs, and nothing under way. -/
def ProgramState.init (permissions : PermissionStore) : ProgramState Id :=
  ⟨fun _ => ⟨[], List.nodup_nil⟩, permissions, [], []⟩

/-- Every step of a run is lawful exactly when every one is orderly. -/
theorem approvals_lawful_iff (pg : ProgramPostgres Id) (permissions : PermissionStore) (as : List (ProgramAction Id)) :
    Guarded (ProgramState.step pg) (Lawful pg) (.init permissions) as ↔
      Guarded (ProgramState.step pg) (Orderly pg) (.init permissions) as := by
  have hinit : AllNamed (.init permissions : ProgramState Id) := fun row hrow => absurd hrow List.not_mem_nil
  exact guarded_congr (I := AllNamed) (fun _ _ t _ hlawful hstep => (hlawful t hstep).2.1)
    lawful_step_iff as hinit

/-- Ids that are texts. -/
def textPostgres : ProgramPostgres String where
  parseId := fun value => match value with
    | .text id => some id
    | _ => none
  default := fun _ _ => .null
  status_default := by simp
  approvedBy_default := rfl
  approvedAt_default := rfl

theorem noOverrides_unique :
    (([] : List UserPermission).map fun row => (row.userId, row.permissionId)).Nodup := List.nodup_nil

theorem noOverrides_flags : ∀ row ∈ ([] : List UserPermission), row.isAllowed = 0 ∨ row.isAllowed = 1 :=
  List.forall_mem_nil _

/-- A manager, whose role may approve audit programs. -/
def managerStore : PermissionStore where
  users := [{ Users.employee "manager" "EMP-1001-A1B2C3" with roleId := some "role-1" }]
  roles := [⟨"role-1", "Manager", false⟩]
  permissions := [⟨"permission-1", AUDIT_PROGRAM_LIBRARY, "Approve"⟩]
  rolePermissions := [⟨"role-1", "permission-1"⟩]
  userPermissions := []
  uniqueId := by decide
  uniquePermission := by decide
  uniqueOverride := noOverrides_unique
  flags := noOverrides_flags
  names := by decide

/-- A body with a status. -/
def statusBody (status : String) : Body := (OrderedMap.empty.set "program_code" (.text "PR-1")).set "status" (.text status)

/-- The slots of the run: the ids of new rows. -/
def slotOf (id : String) : Slot String := ⟨id, "2026-01-01", none⟩

/-- A draft is written, and approved by the manager. -/
def draftApproved : List (ProgramAction String) :=
  [.post (statusBody "Draft") none (slotOf "a"), .approveProgram "a" "manager", .proceed 0 ⟨[], []⟩ (slotOf ""),
    .proceed 0 ⟨[], []⟩ (slotOf ""), .proceed 0 ⟨[], []⟩ (slotOf ""), .proceed 0 ⟨[], []⟩ (slotOf ""),
    .duplicate "a" "auditor"]

/-- A step that makes a program approved without an approval. -/
theorem not_lawful_of_new (hstep : s.step pg a = some t) (happrovals : t.approvals.length = s.approvals.length)
    (hnone : ∀ row ∈ s.programs, ¬IsApproved row) (hnew : ∃ row ∈ t.programs, IsApproved row) :
    ¬Lawful pg s a := by
  intro h
  obtain ⟨row, hrow, happroved⟩ := hnew
  obtain ⟨old, hold, _, hold'⟩ | ⟨approval, heq, _⟩ := (h t hstep).1 row hrow happroved
  · exact hnone old hold hold'
  · rw [heq, List.length_cons] at happrovals
    omega

/-- A copy that names an approval. -/
theorem not_lawful_of_copy {program : Row Id} {username : String}
    (hstep : s.step pg (.proceed i found slot) = some t) (hcall : s.calls[i]? = some (.duplicating program username))
    (hnew : ∃ row ∈ t.programs, row.id ∉ s.programs.map Row.id ∧ row.columns "approved_by" ≠ .null) :
    ¬Lawful pg s (.proceed i found slot) := by
  intro h
  obtain ⟨row, hrow, hid, hby⟩ := hnew
  rcases (h t hstep).2.2 ((isCopy_proceed_iff hcall).2 ⟨program, username, rfl⟩) row hrow with hold | hdraft
  · exact hid (List.mem_map_of_mem hold)
  · exact hby hdraft.2.1

/-- A body can create an approved program and make a draft one, and the copy of an approved program names its
approval. -/
theorem programs_not_lawful :
    ¬Guarded (ProgramState.step textPostgres) (Lawful textPostgres) (.init managerStore)
      [.post (statusBody "Approved") none (slotOf "a")] ∧
    ¬Guarded (ProgramState.step textPostgres) (Lawful textPostgres) (.init managerStore)
      [.post (statusBody "Draft") none (slotOf "a"), .put "a" (statusBody "Approved") "2026-01-02" none] ∧
    ¬Guarded (ProgramState.step textPostgres) (Lawful textPostgres) (.init managerStore)
      (draftApproved ++ [.proceed 1 ⟨[], []⟩ (slotOf "b")]) := by
  refine ⟨fun h => ?_, fun h => ?_, fun h => ?_⟩
  · refine not_lawful_of_new rfl ?_ ?_ ?_ (h _ rfl).1
    · rfl
    · decide +kernel
    · decide +kernel
  · refine not_lawful_of_new rfl ?_ ?_ ?_ ((h _ rfl).2 _ rfl).1
    · rfl
    · decide +kernel
    · decide +kernel
  · refine not_lawful_of_copy rfl rfl ?_ (h.of_run rfl rfl)
    decide +kernel

end AlsaqiBackend.Programs
