import AlsaqiBackend.Archive.Service

/-!
# What archiving a plan leaves out

`archiveTransaction_eq_ok_iff` says when the transaction is committed, and with which database: the
statements of `archivePlan` select the rows of the plan (`ArchiveDb.planRows`), copy them and delete
them. The rows of the link tables that refer to a deleted task or finding go with it, and no table of
the archive has a place for them.
-/

namespace AlsaqiBackend.Archive

open AlsaqiBackend.Lib

variable {Id : Type} [DecidableEq Id]

/-- The rows of a plan. -/
def ArchiveDb.planRows (db : ArchiveDb Id) (planId : Id) (d : Detail) : List (Row Id) :=
  (db.tables d).rows.filter (belongs planId (db.tables .findings).rows d)

/-! ## Statements that are run one after the other -/

section Statements

variable {pg : Postgres} {fails : Point → Option String} {db : ArchiveDb Id} {tx tx' : ArchiveTx Id}
  {d : Detail}

theorem reach_eq_ok_iff {point : Point} : reach fails point = .ok () ↔ fails point = none := by
  rw [reach]
  cases fails point with
  | none => exact iff_of_true rfl rfl
  | some message => exact iff_of_false (by simp) (by simp)

theorem runStatements_nil_eq_ok_iff : runStatements pg fails db [] tx = .ok tx' ↔ tx' = tx := by
  rw [runStatements, Except.ok.injEq]
  exact eq_comm

/-- A statement that does not fail, and the ones after it. -/
theorem runStatements_cons_eq_ok_iff {st : Statement} {sts : List Statement} :
    runStatements pg fails db (st :: sts) tx = .ok tx' ↔
      fails (.statement st) = none ∧ ∃ tx₁, st.exec pg db tx = .ok tx₁ ∧
        runStatements pg fails db sts tx₁ = .ok tx' := by
  rw [runStatements, bind_eq_ok, ← reach_eq_ok_iff]
  constructor
  · rintro ⟨_, hreach, hrest⟩
    exact ⟨hreach, bind_eq_ok.1 hrest⟩
  · rintro ⟨hreach, hrest⟩
    exact ⟨(), hreach, bind_eq_ok.2 hrest⟩

theorem runStatements_append_eq_ok_iff {sts sts' : List Statement} :
    runStatements pg fails db (sts ++ sts') tx = .ok tx' ↔
      ∃ tx₁, runStatements pg fails db sts tx = .ok tx₁ ∧ runStatements pg fails db sts' tx₁ = .ok tx' := by
  induction sts generalizing tx with
  | nil =>
    constructor
    · intro h
      exact ⟨tx, rfl, h⟩
    · rintro ⟨tx₁, h, hrest⟩
      obtain rfl := Except.ok.inj h
      exact hrest
  | cons st sts ih =>
    rw [List.cons_append, runStatements_cons_eq_ok_iff]
    simp only [ih, runStatements_cons_eq_ok_iff]
    constructor
    · rintro ⟨hreach, tx₁, hst, tx₂, hsts, hrest⟩
      exact ⟨tx₂, ⟨hreach, tx₁, hst, hsts⟩, hrest⟩
    · rintro ⟨tx₂, ⟨hreach, tx₁, hst, hsts⟩, hrest⟩
      exact ⟨hreach, tx₁, hst, tx₂, hsts, hrest⟩

theorem exec_checkOpen_eq_ok_iff :
    Statement.exec pg db tx (.checkOpen d) = .ok tx' ↔
      (∀ row ∈ tx.selected db d, isOpen d row = false) ∧ tx' = tx := by
  have hnil : (tx.selected db d).filter (isOpen d) = [] ↔
      ∀ row ∈ tx.selected db d, isOpen d row = false := by
    rw [List.filter_eq_nil_iff]
    exact forall₂_congr fun row _ => Iff.of_eq (Bool.not_eq_true _)
  rw [Statement.exec, ← hnil]
  split_ifs with hopen
  · exact ⟨fun h => ⟨hopen, (Except.ok.inj h).symm⟩, fun h => h.2 ▸ rfl⟩
  · exact iff_of_false (by simp) fun h => hopen h.1

theorem exec_copyPlan_eq_ok_iff :
    Statement.exec pg db tx .copyPlan = .ok tx' ↔
      ∃ year, tx.plan.columns "year" = .int year ∧
        tx' = { tx with planCopies := [⟨tx.planId, pg.stringify tx.plan, year, tx.userId⟩] } := by
  rw [Statement.exec]
  split
  · rename_i year hyear
    rw [hyear]
    constructor
    · intro h
      exact ⟨year, rfl, (Except.ok.inj h).symm⟩
    · rintro ⟨year', hyear', rfl⟩
      obtain rfl := Value.int.inj hyear'
      rfl
  · rename_i hyear
    refine iff_of_false (by simp) ?_
    rintro ⟨year, hyear', -⟩
    exact hyear year hyear'

/-- The completeness check compares the copies of the plan with the rows that were read, so that only
copies from before can break it. -/
theorem exec_verify_eq_ok_iff :
    Statement.exec pg db tx (.verify d) = .ok tx' ↔
      (∀ copy ∈ db.archived d, copy.planId ≠ tx.planId) ∧ tx' = tx := by
  have hown : (((tx.read d).map (pg.copy tx.planId)).filter fun copy => copy.planId = tx.planId).length =
      (tx.read d).length := by
    have hall : ∀ copy ∈ (tx.read d).map (pg.copy tx.planId), decide (copy.planId = tx.planId) = true := by
      intro copy hcopy
      obtain ⟨row, -, rfl⟩ := List.mem_map.1 hcopy
      exact decide_eq_true rfl
    rw [List.filter_eq_self.2 hall, List.length_map]
  have hcount : ((db.archived d ++ (tx.read d).map (pg.copy tx.planId)).filter
        fun copy => copy.planId = tx.planId).length = (tx.read d).length ↔
      ∀ copy ∈ db.archived d, copy.planId ≠ tx.planId := by
    rw [List.filter_append, List.length_append, hown, Nat.add_eq_right, List.length_eq_zero_iff,
      List.filter_eq_nil_iff]
    simp only [decide_eq_true_eq, ne_eq]
  rw [Statement.exec, ← hcount]
  split_ifs with heq
  · exact ⟨fun h => ⟨heq, (Except.ok.inj h).symm⟩, fun h => h.2 ▸ rfl⟩
  · exact iff_of_false (by simp) fun h => heq h.1

theorem exec_markArchived_eq_ok_iff :
    Statement.exec pg db tx .markArchived = .ok tx' ↔
      pg.schema.allowsStatus "Archived" = true ∧ tx' = { tx with marked := true } := by
  rw [Statement.exec]
  split_ifs with hallows
  · exact ⟨fun h => ⟨hallows, (Except.ok.inj h).symm⟩, fun h => h.2 ▸ rfl⟩
  · exact iff_of_false (by simp) fun h => hallows h.1

/-- Rows of a table from which the transaction has deleted nothing. -/
theorem ArchiveTx.rows_of_deleted_eq_nil (h : tx.deleted d = []) : tx.rows db d = (db.tables d).rows := by
  rw [ArchiveTx.rows, h]
  exact List.filter_eq_self.2 fun row _ => by simp

/-- In a table from which nothing is deleted, the rows of the plan are selected, recommendations before
the findings are deleted. -/
theorem ArchiveTx.selected_eq_planRows (h : tx.deleted d = [])
    (hfindings : d = .recommendations → tx.deleted .findings = []) :
    tx.selected db d = db.planRows tx.planId d := by
  rw [ArchiveTx.selected, tx.rows_of_deleted_eq_nil h, ArchiveDb.planRows]
  cases d with
  | tasks => rfl
  | findings => rfl
  | recommendations => rw [tx.rows_of_deleted_eq_nil (hfindings rfl)]
  | evidence => rfl

/-- A row that a statement finds in its table also matches when it is looked at again, as long as it is
the same. -/
theorem stillMatches_self {planId : Id} {findings : List (Row Id)} {row : Row Id}
    (h : belongs planId findings d row = true) : stillMatches planId d row row = true := by
  cases d with
  | tasks => exact h
  | findings => exact h
  | recommendations => exact decide_eq_true rfl
  | evidence => exact h

/-- A `DELETE` with nothing between its two halves deletes the rows that it finds. -/
theorem ArchiveTx.targets_eq_selected (hscanned : tx.scanned d = tx.selected db d) :
    tx.targets db d = tx.selected db d := by
  rw [ArchiveTx.targets, hscanned, ArchiveTx.selected]
  refine List.filter_congr fun row hrow => ?_
  have hlive : row ∈ (db.tables d).rows := (List.mem_filter.1 hrow).1
  rw [Bool.eq_iff_iff, List.any_eq_true]
  constructor
  · rintro ⟨found, hfound, hsame⟩
    rw [Bool.and_eq_true, decide_eq_true_eq] at hsame
    have hfound' := List.mem_filter.1 hfound
    have hfoundLive : found ∈ (db.tables d).rows := (List.mem_filter.1 hfound'.1).1
    obtain rfl := Keyed.eq_of_key_eq hfoundLive hlive hsame.1
    exact hfound'.2
  · intro hbelongs
    refine ⟨row, List.mem_filter.2 ⟨hrow, hbelongs⟩, ?_⟩
    rw [Bool.and_eq_true, decide_eq_true_eq]
    exact ⟨rfl, stillMatches_self hbelongs⟩

/-! ## The statements of archivePlan -/

/-- Statements that check the tables one by one. -/
theorem runStatements_map_eq_ok_iff {check : Detail → Statement} {C : Detail → Prop} {ds : List Detail}
    (h : ∀ d tx', (check d).exec pg db tx = .ok tx' ↔ C d ∧ tx' = tx) :
    runStatements pg fails db (ds.map check) tx = .ok tx' ↔
      (∀ d ∈ ds, fails (.statement (check d)) = none ∧ C d) ∧ tx' = tx := by
  induction ds with
  | nil =>
    rw [List.map_nil, runStatements_nil_eq_ok_iff]
    exact (and_iff_right (by simp)).symm
  | cons d ds ih =>
    rw [List.map_cons, runStatements_cons_eq_ok_iff, List.forall_mem_cons]
    constructor
    · rintro ⟨hreach, tx₁, hst, hrest⟩
      obtain ⟨hC, rfl⟩ := (h d tx₁).1 hst
      obtain ⟨hall, heq⟩ := ih.1 hrest
      exact ⟨⟨⟨hreach, hC⟩, hall⟩, heq⟩
    · rintro ⟨⟨⟨hreach, hC⟩, hall⟩, heq⟩
      exact ⟨hreach, tx, (h d tx).2 ⟨hC, rfl⟩, ih.2 ⟨hall, heq⟩⟩

/-- A copy before anything is deleted reads the rows of the plan. -/
theorem runStatements_copy_cons_eq_ok_iff {sts : List Statement} (hdeleted : tx.deleted = fun _ => []) :
    runStatements pg fails db (.copy d :: sts) tx = .ok tx' ↔
      fails (.statement (.copy d)) = none ∧ runStatements pg fails db sts
        { tx with read := Function.update tx.read d (db.planRows tx.planId d) } = .ok tx' := by
  have hselected : tx.selected db d = db.planRows tx.planId d :=
    ArchiveTx.selected_eq_planRows (congrFun hdeleted d) fun _ => congrFun hdeleted .findings
  rw [runStatements_cons_eq_ok_iff]
  simp only [Statement.exec, Except.ok.injEq, exists_eq_left', hselected]

/-- The four copies. -/
theorem runStatements_copy_eq_ok_iff (hdeleted : tx.deleted = fun _ => []) :
    runStatements pg fails db (Detail.all.map .copy) tx = .ok tx' ↔
      (∀ d ∈ Detail.all, fails (.statement (.copy d)) = none) ∧
        tx' = { tx with read := db.planRows tx.planId } := by
  have hread : Function.update (Function.update (Function.update (Function.update tx.read .tasks
      (db.planRows tx.planId .tasks)) .findings (db.planRows tx.planId .findings)) .recommendations
      (db.planRows tx.planId .recommendations)) .evidence (db.planRows tx.planId .evidence) =
      db.planRows tx.planId := by
    funext d
    cases d <;> rfl
  rw [show Detail.all.map Statement.copy =
    [.copy .tasks, .copy .findings, .copy .recommendations, .copy .evidence] from rfl]
  rw [runStatements_copy_cons_eq_ok_iff (by exact hdeleted),
    runStatements_copy_cons_eq_ok_iff (by exact hdeleted),
    runStatements_copy_cons_eq_ok_iff (by exact hdeleted),
    runStatements_copy_cons_eq_ok_iff (by exact hdeleted), runStatements_nil_eq_ok_iff, hread]
  simp only [Detail.all, List.forall_mem_cons, List.not_mem_nil, false_imp_iff, implies_true,
    and_true, and_assoc]

/-- The transaction after a `DELETE` of the rows of the plan. -/
def ArchiveTx.afterDelete (tx : ArchiveTx Id) (db : ArchiveDb Id) (d : Detail) : ArchiveTx Id :=
  { tx with
    scanned := Function.update tx.scanned d (db.planRows tx.planId d)
    deleted := Function.update tx.deleted d ((db.planRows tx.planId d).map Row.id) }

/-- A `DELETE` that runs in one go, and the statements after it. -/
theorem runStatements_delete_cons_eq_ok_iff {sts : List Statement} (h : tx.deleted d = [])
    (hfindings : d = .recommendations → tx.deleted .findings = []) :
    runStatements pg fails db (.scan d :: .delete d :: sts) tx = .ok tx' ↔
      fails (.statement (.scan d)) = none ∧ fails (.statement (.delete d)) = none ∧
        (tx.afterDelete db d).restricted db pg.schema d ((db.planRows tx.planId d).map Row.id) = false ∧
        runStatements pg fails db sts (tx.afterDelete db d) = .ok tx' := by
  have hselected : tx.selected db d = db.planRows tx.planId d := ArchiveTx.selected_eq_planRows h hfindings
  have hscan : Statement.exec pg db tx (.scan d) =
      .ok { tx with scanned := Function.update tx.scanned d (db.planRows tx.planId d) } := by
    rw [Statement.exec, hselected]
  have htargets : ArchiveTx.targets
      { tx with scanned := Function.update tx.scanned d (db.planRows tx.planId d) } db d =
      db.planRows tx.planId d := by
    rw [← hselected]
    exact ArchiveTx.targets_eq_selected (Function.update_self d _ tx.scanned)
  rw [runStatements_cons_eq_ok_iff, hscan]
  simp only [Except.ok.injEq, exists_eq_left', runStatements_cons_eq_ok_iff]
  refine and_congr_right fun _ => and_congr_right fun _ => ?_
  rw [Statement.exec, htargets, h, List.nil_append]
  show (∃ tx₁, (if (tx.afterDelete db d).restricted db pg.schema d
    ((db.planRows tx.planId d).map Row.id) = true then _ else Except.ok (tx.afterDelete db d)) =
      Except.ok tx₁ ∧ _) ↔ _
  split_ifs with hrestricted
  · simp [hrestricted]
  · simp [hrestricted]

/-- A row of a table is one of the plan exactly when its id is. -/
theorem id_mem_planRows_iff {planId : Id} {row : Row Id} (hrow : row ∈ (db.tables d).rows) :
    row.id ∈ (db.planRows planId d).map Row.id ↔
      belongs planId (db.tables .findings).rows d row = true := by
  rw [List.mem_map]
  constructor
  · rintro ⟨row', hrow', hid⟩
    have hmem := List.mem_filter.1 hrow'
    obtain rfl := Keyed.eq_of_key_eq hmem.1 hrow hid
    exact hmem.2
  · intro hbelongs
    exact ⟨row, List.mem_filter.2 ⟨hrow, hbelongs⟩, rfl⟩

theorem ArchiveTx.restricted_eq_false_iff {schema : Schema} {ids : List Id} :
    tx.restricted db schema d ids = false ↔
      (d = .findings → ∀ d' ∈ ([.recommendations, .evidence] : List Detail), ∀ row ∈ tx.rows db d',
        ∀ id ∈ ids, row.columns "finding_id" ≠ .uuid id) ∧
      ∀ link : LinkTable, link.owner = d → schema.onDelete link = .noAction →
        ∀ row ∈ db.links link, row.owner ∉ ids := by
  rw [ArchiveTx.restricted, Bool.or_eq_false_iff]
  refine and_congr ?_ ?_
  · simp only [Bool.and_eq_false_imp, decide_eq_true_eq, List.any_eq_false, Bool.not_eq_true, ne_eq]
  · simp only [List.any_eq_false, Bool.and_eq_true, decide_eq_true_eq, not_and, Bool.not_eq_true, and_imp]
    constructor
    · intro h link howner haction
      exact h link (LinkTable.mem_all link) howner haction
    · intro h link _ howner haction
      exact h link howner haction

/-- No foreign key keeps the rows of the plan: an evidence of another plan refers to none of its
findings, and no row of a link table that does not go with them does. -/
def Deletable (schema : Schema) (db : ArchiveDb Id) (planId : Id) : Prop :=
  (∀ row ∈ (db.tables .evidence).rows, belongs planId (db.tables .findings).rows .evidence row = false →
    ∀ finding ∈ db.planRows planId .findings, row.columns "finding_id" ≠ .uuid finding.id) ∧
  ∀ link, schema.onDelete link = .noAction → ∀ row ∈ db.links link,
    ∀ owner ∈ db.planRows planId link.owner, owner.id ≠ row.owner

/-- Only findings are kept by a foreign key. -/
theorem owner_eq_findings_of_noAction {schema : Schema} {link : LinkTable}
    (h : schema.onDelete link = .noAction) : link.owner = .findings := by
  cases link with
  | taskAssignments => cases schema <;> cases h
  | findingRisks => rfl
  | findingCompliance => rfl

/-- Rows that are not findings are deleted. -/
theorem ArchiveTx.restricted_of_ne_findings {schema : Schema} {ids : List Id} (hd : d ≠ .findings) :
    tx.restricted db schema d ids = false := by
  refine ArchiveTx.restricted_eq_false_iff.2 ⟨fun h => absurd h hd, ?_⟩
  intro link howner haction
  exact absurd (howner.symm.trans (owner_eq_findings_of_noAction haction)) hd

/-- The findings of the plan are deleted, when its evidence and its recommendations are, exactly when
the plan is deletable. -/
theorem ArchiveTx.restricted_findings_eq_false_iff
    (hrecommendations : tx.deleted .recommendations = (db.planRows tx.planId .recommendations).map Row.id)
    (hevidence : tx.deleted .evidence = (db.planRows tx.planId .evidence).map Row.id) :
    tx.restricted db pg.schema .findings ((db.planRows tx.planId .findings).map Row.id) = false ↔
      Deletable pg.schema db tx.planId := by
  have hrows : ∀ d', tx.deleted d' = (db.planRows tx.planId d').map Row.id → ∀ row, row ∈ tx.rows db d' ↔
      row ∈ (db.tables d').rows ∧ belongs tx.planId (db.tables .findings).rows d' row = false := by
    intro d' hd' row
    rw [ArchiveTx.rows, List.mem_filter, decide_eq_true_eq, hd']
    refine and_congr_right fun hrow => ?_
    rw [id_mem_planRows_iff hrow, Bool.not_eq_true]
  -- what is left of the recommendations refers to no finding of the plan
  have hnone : ∀ row ∈ tx.rows db .recommendations, ∀ id ∈ (db.planRows tx.planId .findings).map Row.id,
      row.columns "finding_id" ≠ .uuid id := by
    intro row hrow id hid hrefers
    obtain ⟨finding, hfinding, rfl⟩ := List.mem_map.1 hid
    have hnot := ((hrows _ hrecommendations row).1 hrow).2
    have hbelongs : belongs tx.planId (db.tables .findings).rows .recommendations row = true := by
      have hmem := List.mem_filter.1 hfinding
      refine List.any_eq_true.2 ⟨finding, hmem.1, ?_⟩
      rw [Bool.and_eq_true]
      exact ⟨hmem.2, decide_eq_true hrefers⟩
    rw [hbelongs] at hnot
    cases hnot
  rw [ArchiveTx.restricted_eq_false_iff, Deletable]
  refine and_congr ?_ ?_
  · constructor
    · intro h row hrow hnot finding hfinding
      have hleft : row ∈ tx.rows db .evidence := (hrows _ hevidence row).2 ⟨hrow, hnot⟩
      exact h rfl .evidence (by decide) row hleft finding.id (List.mem_map_of_mem hfinding)
    · intro h _ d' hd' row hrow
      rcases List.mem_cons.1 hd' with rfl | hd'
      · exact hnone row hrow
      · obtain rfl := List.mem_singleton.1 hd'
        intro id hid
        obtain ⟨finding, hfinding, rfl⟩ := List.mem_map.1 hid
        have hleft := (hrows _ hevidence row).1 hrow
        exact h row hleft.1 hleft.2 finding hfinding
  · constructor
    · intro h link haction row hrow owner howner heq
      have hfindings := owner_eq_findings_of_noAction haction
      rw [hfindings] at howner
      exact h link hfindings haction row hrow (heq ▸ List.mem_map_of_mem howner)
    · intro h link howner haction row hrow hmem
      obtain ⟨owner, hmem, heq⟩ := List.mem_map.1 hmem
      exact h link haction row hrow owner (howner ▸ hmem) heq

/-- The deletions and the update of the plan. -/
theorem runStatements_delete_eq_ok_iff (hdeleted : tx.deleted = fun _ => []) :
    runStatements pg fails db (deleteStatements ++ [.markArchived]) tx = .ok tx' ↔
      (∀ st ∈ deleteStatements ++ [.markArchived], fails (.statement st) = none) ∧
        Deletable pg.schema db tx.planId ∧ pg.schema.allowsStatus "Archived" = true ∧
        tx' = { tx with
          scanned := db.planRows tx.planId
          deleted := fun d => (db.planRows tx.planId d).map Row.id
          marked := true } := by
  -- The four scans, and the four deletions, have come to all details of the plan.
  have hscanned : Function.update (Function.update (Function.update (Function.update tx.scanned .evidence
      (db.planRows tx.planId .evidence)) .recommendations (db.planRows tx.planId .recommendations)) .findings
      (db.planRows tx.planId .findings)) .tasks (db.planRows tx.planId .tasks) = db.planRows tx.planId := by
    funext d
    cases d <;> rfl
  have hids : Function.update (Function.update (Function.update (Function.update tx.deleted .evidence
      ((db.planRows tx.planId .evidence).map Row.id)) .recommendations
      ((db.planRows tx.planId .recommendations).map Row.id)) .findings
      ((db.planRows tx.planId .findings).map Row.id)) .tasks ((db.planRows tx.planId .tasks).map Row.id) =
      fun d => (db.planRows tx.planId d).map Row.id := by
    funext d
    cases d <;> rfl
  have hnil : ∀ d, tx.deleted d = [] := fun d => congrFun hdeleted d
  -- Only the deletion of the findings can be restricted by rows that are left.
  have hdeletable : (((tx.afterDelete db .evidence).afterDelete db .recommendations).afterDelete db
        .findings).restricted db pg.schema .findings ((db.planRows tx.planId .findings).map Row.id) = false ↔
      Deletable pg.schema db tx.planId := ArchiveTx.restricted_findings_eq_false_iff rfl rfl
  have hmarked : ({ (((tx.afterDelete db .evidence).afterDelete db .recommendations).afterDelete db
        .findings).afterDelete db .tasks with marked := true } : ArchiveTx Id) =
      { tx with
        scanned := db.planRows tx.planId
        deleted := fun d => (db.planRows tx.planId d).map Row.id
        marked := true } := by
    simp only [ArchiveTx.afterDelete, hscanned, hids]
  rw [show deleteStatements ++ [.markArchived] = [.scan .evidence, .delete .evidence,
    .scan .recommendations, .delete .recommendations, .scan .findings, .delete .findings, .scan .tasks,
    .delete .tasks, .markArchived] from rfl]
  rw [runStatements_delete_cons_eq_ok_iff (hnil .evidence) (by simp),
    runStatements_delete_cons_eq_ok_iff (by exact hnil .recommendations) (by exact fun _ => hnil .findings),
    runStatements_delete_cons_eq_ok_iff (by exact hnil .findings) (by simp),
    runStatements_delete_cons_eq_ok_iff (by exact hnil .tasks) (by simp), runStatements_cons_eq_ok_iff]
  simp only [List.forall_mem_cons, List.not_mem_nil, false_imp_iff, implies_true, and_true, and_assoc]
  constructor
  · rintro ⟨h₁, h₂, -, h₃, h₄, -, h₅, h₆, hrestricted, h₇, h₈, -, h₉, tx₁, hmark, hend⟩
    obtain ⟨hallows, rfl⟩ := exec_markArchived_eq_ok_iff.1 hmark
    obtain rfl := runStatements_nil_eq_ok_iff.1 hend
    exact ⟨h₁, h₂, h₃, h₄, h₅, h₆, h₇, h₈, h₉, hdeletable.1 hrestricted, hallows, hmarked⟩
  · rintro ⟨h₁, h₂, h₃, h₄, h₅, h₆, h₇, h₈, h₉, hdel, hallows, rfl⟩
    have hothers : ∀ (tx : ArchiveTx Id) (d : Detail) (ids : List Id), d ≠ .findings →
        tx.restricted db pg.schema d ids = false := fun _ _ _ hd => ArchiveTx.restricted_of_ne_findings hd
    exact ⟨h₁, h₂, hothers _ _ _ (by decide), h₃, h₄, hothers _ _ _ (by decide), h₅, h₆,
      hdeletable.2 hdel, h₇, h₈, hothers _ _ _ (by decide), h₉, _,
      exec_markArchived_eq_ok_iff.2 ⟨hallows, rfl⟩, runStatements_nil_eq_ok_iff.2 hmarked.symm⟩

/-- The plan is found by its id, when it is not archived. -/
theorem beginArchive_eq_ok_iff {planId userId : Id} :
    beginArchive db planId userId = .ok tx ↔
      ∃ plan ∈ db.plans.rows, plan.id = planId ∧ plan.columns "is_archived" = .bool false ∧
        tx = ArchiveTx.start planId userId plan := by
  rw [beginArchive]
  split
  · rename_i plan hfind
    have hmem := List.mem_of_find?_eq_some hfind
    have hplan := List.find?_some hfind
    rw [Bool.and_eq_true, decide_eq_true_eq, decide_eq_true_eq] at hplan
    constructor
    · intro h
      exact ⟨plan, hmem, hplan.1, hplan.2, (Except.ok.inj h).symm⟩
    · rintro ⟨plan', hmem', hid, -, rfl⟩
      obtain rfl := Keyed.eq_of_key_eq hmem hmem' (hplan.1.trans hid.symm)
      rfl
  · rename_i hfind
    refine iff_of_false (by split_ifs <;> simp) ?_
    rintro ⟨plan, hmem, hid, harchived, -⟩
    have hnot := List.find?_eq_none.1 hfind plan hmem
    rw [Bool.and_eq_true, decide_eq_true_eq, decide_eq_true_eq] at hnot
    exact hnot ⟨hid, harchived⟩

/-- What has to hold for the transaction to be committed. -/
structure Archivable (pg : Postgres) (fails : Point → Option String) (planId : Id)
    (db : ArchiveDb Id) : Prop where
  readPlan : fails .readPlan = none
  statements : ∀ st ∈ archiveStatements, fails (.statement st) = none
  commit : fails .commit = none
  plan : ∃ plan ∈ db.plans.rows, plan.id = planId ∧ plan.columns "is_archived" = .bool false ∧
    ∃ year, plan.columns "year" = .int year
  closed : ∀ d ∈ checkedDetails, ∀ row ∈ db.planRows planId d, isOpen d row = false
  /-- The archive has no copies of the plan's rows from before. -/
  fresh : ∀ d, ∀ copy ∈ db.archived d, copy.planId ≠ planId
  deletable : Deletable pg.schema db planId
  status : pg.schema.allowsStatus "Archived" = true

/-- The transaction at its end. -/
def ArchiveTx.complete (pg : Postgres) (db : ArchiveDb Id) (planId userId : Id) (plan : Row Id) (year : ℤ) :
    ArchiveTx Id where
  planId := planId
  userId := userId
  plan := plan
  planCopies := [⟨planId, pg.stringify plan, year, userId⟩]
  read := db.planRows planId
  scanned := db.planRows planId
  deleted d := (db.planRows planId d).map Row.id
  marked := true

/-- The statements of `archivePlan` for a plan that it has read. -/
theorem runStatements_archive_eq_ok_iff {planId userId : Id} {plan : Row Id} :
    runStatements pg fails db archiveStatements (ArchiveTx.start planId userId plan) = .ok tx' ↔
      (∀ st ∈ archiveStatements, fails (.statement st) = none) ∧
      (∀ d ∈ checkedDetails, ∀ row ∈ db.planRows planId d, isOpen d row = false) ∧
      (∀ d, ∀ copy ∈ db.archived d, copy.planId ≠ planId) ∧ Deletable pg.schema db planId ∧
      pg.schema.allowsStatus "Archived" = true ∧
      ∃ year, plan.columns "year" = .int year ∧ tx' = ArchiveTx.complete pg db planId userId plan year := by
  have hselected : ∀ d, (ArchiveTx.start planId userId plan).selected db d = db.planRows planId d :=
    fun d => ArchiveTx.selected_eq_planRows rfl fun _ => rfl
  have hall : (∀ d ∈ Detail.all, ∀ copy ∈ db.archived d, copy.planId ≠ planId) ↔
      ∀ d, ∀ copy ∈ db.archived d, copy.planId ≠ planId :=
    ⟨fun h d => h d (Detail.mem_all d), fun h d _ => h d⟩
  rw [archiveStatements, List.forall_mem_append, List.forall_mem_cons, List.forall_mem_append,
    List.forall_mem_append, runStatements_append_eq_ok_iff]
  simp only [List.forall_mem_map]
  constructor
  · rintro ⟨tx₁, hcheck, hrest⟩
    obtain ⟨hclosed, rfl⟩ := (runStatements_map_eq_ok_iff fun d tx' => exec_checkOpen_eq_ok_iff).1 hcheck
    obtain ⟨hreach, tx₂, hplan, hrest⟩ := runStatements_cons_eq_ok_iff.1 hrest
    obtain ⟨year, hyear, rfl⟩ := exec_copyPlan_eq_ok_iff.1 hplan
    obtain ⟨tx₃, hcopy, hrest⟩ := runStatements_append_eq_ok_iff.1 hrest
    obtain ⟨hcopies, rfl⟩ := (runStatements_copy_eq_ok_iff rfl).1 hcopy
    obtain ⟨tx₄, hverify, hrest⟩ := runStatements_append_eq_ok_iff.1 hrest
    obtain ⟨hverified, rfl⟩ := (runStatements_map_eq_ok_iff fun d tx' => exec_verify_eq_ok_iff).1 hverify
    obtain ⟨hdelete, hdeletable, hstatus, rfl⟩ := (runStatements_delete_eq_ok_iff rfl).1 hrest
    refine ⟨⟨fun d hd => (hclosed d hd).1, hreach, hcopies, fun d hd => (hverified d hd).1, hdelete⟩,
      ?_, ?_, hdeletable, hstatus, year, hyear, rfl⟩
    · intro d hd row hrow
      exact (hclosed d hd).2 row ((hselected d).symm ▸ hrow)
    · exact hall.1 fun d hd => (hverified d hd).2
  · rintro ⟨⟨hcheck, hreach, hcopies, hverify, hdelete⟩, hclosed, hfresh, hdeletable, hstatus, year,
      hyear, rfl⟩
    refine ⟨_, (runStatements_map_eq_ok_iff fun d tx' => exec_checkOpen_eq_ok_iff).2
      ⟨fun d hd => ⟨hcheck d hd, ?_⟩, rfl⟩, ?_⟩
    · rw [hselected d]
      exact hclosed d hd
    refine runStatements_cons_eq_ok_iff.2 ⟨hreach, _, exec_copyPlan_eq_ok_iff.2 ⟨year, hyear, rfl⟩, ?_⟩
    refine runStatements_append_eq_ok_iff.2 ⟨_, (runStatements_copy_eq_ok_iff rfl).2 ⟨hcopies, rfl⟩, ?_⟩
    refine runStatements_append_eq_ok_iff.2
      ⟨_, (runStatements_map_eq_ok_iff fun d tx' => exec_verify_eq_ok_iff).2
        ⟨fun d hd => ⟨hverify d hd, hfresh d⟩, rfl⟩, ?_⟩
    exact (runStatements_delete_eq_ok_iff rfl).2
      ⟨hdelete, hdeletable, hstatus, rfl⟩

/-- The transaction is committed exactly for a plan that can be archived, and then with the rows of the
plan copied and deleted. -/
theorem archiveTransaction_eq_ok_iff {planId userId : Id} {db' : ArchiveDb Id} :
    archiveTransaction pg fails planId userId db = .ok db' ↔
      Archivable pg fails planId db ∧ ∃ plan ∈ db.plans.rows, plan.id = planId ∧
        plan.columns "is_archived" = .bool false ∧ ∃ year, plan.columns "year" = .int year ∧
        db' = (ArchiveTx.complete pg db planId userId plan year).commit pg db := by
  constructor
  · intro h
    obtain ⟨_, hread, h⟩ := bind_eq_ok.1 h
    obtain ⟨tx, hbegin, h⟩ := bind_eq_ok.1 h
    obtain ⟨tx', hrun, h⟩ := bind_eq_ok.1 h
    obtain ⟨_, hcommit, h⟩ := bind_eq_ok.1 h
    obtain ⟨plan, hmem, hid, harchived, rfl⟩ := beginArchive_eq_ok_iff.1 hbegin
    obtain ⟨hstatements, hclosed, hfresh, hdeletable, hstatus, year, hyear, rfl⟩ :=
      runStatements_archive_eq_ok_iff.1 hrun
    have hplan : ∃ plan ∈ db.plans.rows, plan.id = planId ∧ plan.columns "is_archived" = .bool false ∧
        ∃ year, plan.columns "year" = .int year := ⟨plan, hmem, hid, harchived, year, hyear⟩
    exact ⟨⟨reach_eq_ok_iff.1 hread, hstatements, reach_eq_ok_iff.1 hcommit, hplan, hclosed, hfresh,
      hdeletable, hstatus⟩, plan, hmem, hid, harchived, year, hyear, (pure_eq_ok.1 h).symm⟩
  · rintro ⟨hable, plan, hmem, hid, harchived, year, hyear, rfl⟩
    refine bind_eq_ok.2 ⟨(), reach_eq_ok_iff.2 hable.readPlan, ?_⟩
    refine bind_eq_ok.2 ⟨_, beginArchive_eq_ok_iff.2 ⟨plan, hmem, hid, harchived, rfl⟩, ?_⟩
    refine bind_eq_ok.2 ⟨_, runStatements_archive_eq_ok_iff.2
      ⟨hable.statements, hable.closed, hable.fresh, hable.deletable, hable.status, year, hyear, rfl⟩, ?_⟩
    exact bind_eq_ok.2 ⟨(), reach_eq_ok_iff.2 hable.commit, pure_eq_ok.2 rfl⟩

end Statements

/-! ## Nothing is lost -/

/-- The rows of a link table in the archive: it has no table for them. -/
def ArchiveDb.archivedLinks (_ : ArchiveDb Id) (_ : LinkTable) : List (Link Id) := []

/-- The plan is archived, and nothing is lost: each row that is gone has one copy that equals it, and
what is not of the plan is as before. -/
structure ArchivedWhole (pg : Postgres) (planId : Id) (db db' : ArchiveDb Id) : Prop where
  details : ∀ d, ∀ row ∈ (db.tables d).rows, row ∉ (db'.tables d).rows →
    ∃ copy, (db'.archived d).filter (fun copy => copy.originalId = row.id) = [copy] ∧ copy.planId = planId ∧
      pg.Equals copy.data row
  links : ∀ link, ∀ row ∈ db.links link, row ∉ db'.links link → row ∈ db'.archivedLinks link
  otherDetails : ∀ d row, belongs planId (db.tables .findings).rows d row = false →
    (row ∈ (db'.tables d).rows ↔ row ∈ (db.tables d).rows)
  otherLinks : ∀ link row, (∀ owner ∈ db.planRows planId link.owner, owner.id ≠ row.owner) →
    (row ∈ db'.links link ↔ row ∈ db.links link)
  otherPlans : ∀ plan, plan.id ≠ planId → (plan ∈ db'.plans.rows ↔ plan ∈ db.plans.rows)
  otherCopies : ∀ d copy, copy.planId ≠ planId → (copy ∈ db'.archived d ↔ copy ∈ db.archived d)
  marked : ∃ plan ∈ db'.plans.rows, plan.id = planId ∧ plan.columns "is_archived" = .bool true

/-- Either the plan is archived and nothing is lost, or the call fails and changes nothing. -/
def Lossless (pg : Postgres) (fails : Point → Option String) (planId userId : Id) (userRole : String)
    (db : ArchiveDb Id) : Prop :=
  match archivePlan pg fails planId userId userRole db with
  | (.ok _, db') => ArchivedWhole pg planId db db'
  | (.error _, db') => db' = db

/-- The archive can take all that goes with the plan: its rows lose nothing as JSON and have no copy
yet, and no row of a link table refers to them. -/
structure ArchiveTakesAll (pg : Postgres) (planId : Id) (db : ArchiveDb Id) : Prop where
  kept : ∀ d, ∀ row ∈ db.planRows planId d, ∀ column, pg.Keeps (row.columns column)
  uncopied : ∀ d, ∀ row ∈ db.planRows planId d, ∀ copy ∈ db.archived d, copy.originalId ≠ row.id
  unlinked : ∀ link, ∀ row ∈ db.links link, ∀ owner ∈ db.planRows planId link.owner, owner.id ≠ row.owner

section Result

variable {pg : Postgres} {fails : Point → Option String} {db : ArchiveDb Id} {planId userId : Id}
  {plan : Row Id} {year : ℤ} {d : Detail} {row : Row Id}

/-- The database after the transaction. -/
def ArchiveDb.afterArchive (pg : Postgres) (db : ArchiveDb Id) (planId userId : Id) (plan : Row Id)
    (year : ℤ) : ArchiveDb Id := (ArchiveTx.complete pg db planId userId plan year).commit pg db

theorem mem_tables_afterArchive :
    row ∈ ((db.afterArchive pg planId userId plan year).tables d).rows ↔
      row ∈ (db.tables d).rows ∧ belongs planId (db.tables .findings).rows d row = false := by
  have hmem : row ∈ ((db.afterArchive pg planId userId plan year).tables d).rows ↔
      row ∈ (db.tables d).rows ∧ decide (row.id ∈ (db.planRows planId d).map Row.id) = false :=
    Keyed.mem_delete
  rw [hmem]
  refine and_congr_right fun hrow => ?_
  rw [decide_eq_false_iff_not, id_mem_planRows_iff hrow, Bool.not_eq_true]

theorem mem_links_afterArchive {link : LinkTable} {row : Link Id} :
    row ∈ (db.afterArchive pg planId userId plan year).links link ↔
      row ∈ db.links link ∧ ∀ owner ∈ db.planRows planId link.owner, owner.id ≠ row.owner := by
  have hmem : row ∈ (db.afterArchive pg planId userId plan year).links link ↔ row ∈ db.links link ∧
      decide (row.owner ∉ (db.planRows planId link.owner).map Row.id) = true := List.mem_filter
  rw [hmem, decide_eq_true_eq, List.mem_map]
  simp only [not_exists, not_and, ne_eq]

/-- A row of the plan is in its table no more. -/
theorem not_mem_tables_afterArchive_iff (hrow : row ∈ (db.tables d).rows) :
    row ∉ ((db.afterArchive pg planId userId plan year).tables d).rows ↔ row ∈ db.planRows planId d := by
  rw [mem_tables_afterArchive, and_iff_right hrow, Bool.not_eq_false, ArchiveDb.planRows, List.mem_filter,
    and_iff_right hrow]

/-- The copies of a row of the plan: those from before, and the new one. -/
theorem copies_afterArchive (hrow : row ∈ db.planRows planId d) :
    ((db.afterArchive pg planId userId plan year).archived d).filter
        (fun copy => copy.originalId = row.id) =
      (db.archived d).filter (fun copy => copy.originalId = row.id) ++ [pg.copy planId row] := by
  obtain ⟨hlive, hbelongs⟩ := List.mem_filter.1 hrow
  have hone : (db.planRows planId d).filter (fun other => other.id = row.id) = [row] := by
    rw [ArchiveDb.planRows, List.filter_comm, Keyed.filter_key_eq hlive]
    exact List.filter_eq_self.2 (by simpa using hbelongs)
  have hnew : ((db.planRows planId d).map (pg.copy planId)).filter (fun copy => copy.originalId = row.id) =
      [pg.copy planId row] := by
    rw [List.filter_map]
    exact congrArg (List.map (pg.copy planId)) hone
  show (db.archived d ++ (db.planRows planId d).map (pg.copy planId)).filter _ = _
  rw [List.filter_append, hnew]

/-- The plan is marked. -/
theorem marked_afterArchive (hplan : plan ∈ db.plans.rows) (hid : plan.id = planId) :
    { plan with columns := markColumns pg userId plan.columns } ∈
      (db.afterArchive pg planId userId plan year).plans.rows := by
  have hselected : (true && decide (plan.id = planId)) = true := by simpa using hid
  exact mem_updateWhere_of (p := fun plan => true && decide (plan.id = planId))
    (f := fun plan => { plan with columns := markColumns pg userId plan.columns }) hplan hselected

/-- The transaction changes the plan. -/
theorem afterArchive_ne (hplan : plan ∈ db.plans.rows) (hid : plan.id = planId)
    (harchived : plan.columns "is_archived" = .bool false) :
    db.afterArchive pg planId userId plan year ≠ db := by
  intro heq
  have hmarked : { plan with columns := markColumns pg userId plan.columns } ∈
      (db.afterArchive pg planId userId plan year).plans.rows := marked_afterArchive hplan hid
  rw [heq] at hmarked
  have hsame := Keyed.eq_of_key_eq hmarked hplan rfl
  have hcolumn : markColumns pg userId plan.columns "is_archived" = plan.columns "is_archived" :=
    congrArg (fun row : Row Id => row.columns "is_archived") hsame
  rw [markColumns_isArchived, harchived] at hcolumn
  cases hcolumn

/-- Where a plan has been archived, nothing is lost exactly when the archive can take all that goes with
it. -/
theorem archivedWhole_afterArchive_iff (hplan : plan ∈ db.plans.rows) (hid : plan.id = planId) :
    ArchivedWhole pg planId db (db.afterArchive pg planId userId plan year) ↔
      ArchiveTakesAll pg planId db := by
  constructor
  · intro h
    have hcopy : ∀ d, ∀ row ∈ db.planRows planId d,
        (db.archived d).filter (fun copy => copy.originalId = row.id) = [] ∧
          pg.Equals (pg.stringify row) row := by
      intro d row hrow
      have hlive : row ∈ (db.tables d).rows := (List.mem_filter.1 hrow).1
      have hgone : row ∉ ((db.afterArchive pg planId userId plan year).tables d).rows :=
        (not_mem_tables_afterArchive_iff hlive).2 hrow
      obtain ⟨copy, hone, -, hequals⟩ := h.details d row hlive hgone
      rw [copies_afterArchive hrow, ← List.nil_append [copy]] at hone
      obtain ⟨hnone, hcopy⟩ := List.append_inj' hone rfl
      obtain rfl := (List.cons.inj hcopy).1
      exact ⟨hnone, hequals⟩
    constructor
    · intro d row hrow
      exact (pg.equals_stringify_iff row).1 (hcopy d row hrow).2
    · intro d row hrow copy hmem
      have hnot := List.filter_eq_nil_iff.1 (hcopy d row hrow).1 copy hmem
      exact fun heq => hnot (decide_eq_true heq)
    · intro link row hrow
      -- the archive has no place for a row that is gone
      have hstays : row ∈ (db.afterArchive pg planId userId plan year).links link := by
        by_contra hgone
        exact absurd (h.links link row hrow hgone) List.not_mem_nil
      exact (mem_links_afterArchive.1 hstays).2
  · intro h
    constructor
    · intro d row hlive hgone
      have hrow := (not_mem_tables_afterArchive_iff hlive).1 hgone
      have hnone : (db.archived d).filter (fun copy => copy.originalId = row.id) = [] :=
        List.filter_eq_nil_iff.2 fun copy hmem heq =>
          h.uncopied d row hrow copy hmem (of_decide_eq_true heq)
      refine ⟨pg.copy planId row, ?_, rfl, (pg.equals_stringify_iff row).2 (h.kept d row hrow)⟩
      rw [copies_afterArchive hrow, hnone, List.nil_append]
    · intro link row hrow hgone
      exact absurd (mem_links_afterArchive.2 ⟨hrow, h.unlinked link row hrow⟩) hgone
    · intro d row hother
      rw [mem_tables_afterArchive, and_iff_left hother]
    · intro link row hother
      rw [mem_links_afterArchive, and_iff_left hother]
    · intro other hother
      have hp : (true && decide (other.id = planId)) = false := by simpa using hother
      exact mem_updateWhere_iff_of_not (p := fun plan : Row Id => true && decide (plan.id = planId))
        (f := fun plan : Row Id => { plan with columns := markColumns pg userId plan.columns })
        (fun _ => rfl) hp
    · intro d copy hother
      show copy ∈ db.archived d ++ (db.planRows planId d).map (pg.copy planId) ↔ _
      rw [List.mem_append, or_iff_left]
      intro hnew
      obtain ⟨row, -, rfl⟩ := List.mem_map.1 hnew
      exact hother rfl
    · exact ⟨_, marked_afterArchive hplan hid, hid, markColumns_isArchived pg userId plan.columns⟩

/-- What a call leaves, by what becomes of its transaction. -/
theorem lossless_iff_of_eq_ok {userRole : String} {db' : ArchiveDb Id} (hrole : userRole ∈ allowedRoles)
    (h : archiveTransaction pg fails planId userId db = .ok db') (hne : db' ≠ db) :
    Lossless pg fails planId userId userRole db ↔
      fails .readYear = none ∧ ArchivedWhole pg planId db db' := by
  rw [Lossless, archivePlan, if_neg (not_not.2 hrole), h]
  cases hyear : fails .readYear with
  | none =>
    rw [reach, hyear]
    exact (and_iff_right rfl).symm
  | some message =>
    rw [reach, hyear]
    exact iff_of_false hne (by simp)

theorem lossless_of_not_mem_allowedRoles {userRole : String} (hrole : userRole ∉ allowedRoles) :
    Lossless pg fails planId userId userRole db := by
  rw [Lossless, archivePlan, if_pos hrole]

/-- A call that succeeds has archived the plan. -/
theorem Lossless.archivedWhole {userRole : String} (h : Lossless pg fails planId userId userRole db)
    (hok : (archivePlan pg fails planId userId userRole db).1 = .ok ()) :
    ArchivedWhole pg planId db (archivePlan pg fails planId userId userRole db).2 := by
  rw [Lossless] at h
  split at h
  · rename_i hresult
    rw [hresult]
    exact h
  · rename_i hresult
    rw [hresult] at hok
    cases hok

theorem lossless_of_eq_error {userRole : String} {e : ArchiveError}
    (h : archiveTransaction pg fails planId userId db = .error e) :
    Lossless pg fails planId userId userRole db := by
  by_cases hrole : userRole ∈ allowedRoles
  · rw [Lossless, archivePlan, if_neg (not_not.2 hrole), h]
  · exact lossless_of_not_mem_allowedRoles hrole

end Result

/-- Archiving loses nothing exactly when a plan that is archived takes no row of a link table with it,
none of its rows has a fraction of a millisecond or a copy from before, and the year can be read after
the transaction. -/
theorem lossless_iff (pg : Postgres) (fails : Point → Option String) (planId userId : Id)
    (userRole : String) (db : ArchiveDb Id) :
    Lossless pg fails planId userId userRole db ↔
      (userRole ∈ allowedRoles → Archivable pg fails planId db →
        fails .readYear = none ∧ ArchiveTakesAll pg planId db) := by
  by_cases hrole : userRole ∈ allowedRoles
  · rw [forall_prop_of_true hrole]
    by_cases hable : Archivable pg fails planId db
    · obtain ⟨plan, hplan, hid, harchived, year, hyear⟩ := hable.plan
      have hok : archiveTransaction pg fails planId userId db =
          .ok (db.afterArchive pg planId userId plan year) :=
        archiveTransaction_eq_ok_iff.2 ⟨hable, plan, hplan, hid, harchived, year, hyear, rfl⟩
      rw [forall_prop_of_true hable, lossless_iff_of_eq_ok hrole hok (afterArchive_ne hplan hid harchived),
        archivedWhole_afterArchive_iff hplan hid]
    · refine iff_of_true ?_ fun h => absurd h hable
      cases hresult : archiveTransaction pg fails planId userId db with
      | error e => exact lossless_of_eq_error hresult
      | ok db' => exact absurd (archiveTransaction_eq_ok_iff.1 hresult).1 hable
  · exact iff_of_true (lossless_of_not_mem_allowedRoles hrole) fun h => absurd h hrole

/-- A plan that is not archived. -/
def openPlan : Row ℕ :=
  ⟨1, fun column =>
    if column = "is_archived" then .bool false else if column = "year" then .int 2024 else .null⟩

/-- Its task. -/
def completedTask : Row ℕ :=
  ⟨2, fun column =>
    if column = "plan_id" then .uuid 1 else if column = "status" then .text "completed" else .null⟩

/-- The user that the task is assigned to. -/
def assignment : Link ℕ := ⟨2, fun column => if column = "user_id" then .uuid 7 else .null⟩

def assignedDb : ArchiveDb ℕ where
  plans := ⟨[openPlan], by decide⟩
  tables d := if d = .tasks then ⟨[completedTask], by decide⟩ else ⟨[], by decide⟩
  links link := if link = .taskAssignments then [assignment] else []
  archivedPlans := []
  archived _ := []

/-- A database that the migrations have created. -/
def migrated : Postgres := ⟨.migrations, 0, fun day => day * 86400000, fun micros => micros / 1000⟩

/-- The assignment of a task goes with its plan, and the archive does not have it. -/
theorem assignment_lost : ¬ Lossless migrated (fun _ => none) 1 7 "Admin" assignedDb := by
  have hok : (archivePlan migrated (fun _ => none) 1 7 "Admin" assignedDb).1 = .ok () := by decide +kernel
  have hgone : (archivePlan migrated (fun _ => none) 1 7 "Admin" assignedDb).2.links .taskAssignments = [] := by
    decide +kernel
  intro h
  have hwhole := h.archivedWhole hok
  have hmem : assignment ∈ assignedDb.links .taskAssignments := List.mem_singleton.2 rfl
  have hcopied := hwhole.links .taskAssignments assignment hmem (by rw [hgone]; exact List.not_mem_nil)
  exact absurd hcopied List.not_mem_nil

end AlsaqiBackend.Archive
