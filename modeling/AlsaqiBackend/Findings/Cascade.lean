import AlsaqiBackend.Findings.Sync

/-!
# A recommendation and its finding

`RecommendationService.update` closes a finding with its last recommendation, and the route `resolve` gives a
recommendation a status of its own, `closed`.

`inSync_iff_kept` says when the two tables stay in step along a run: exactly when `updateFinding` changes no risk
level without its recommendations, `update` closes the finding just when all its recommendations are Implemented,
and neither `update` nor `resolve` takes a recommendation of a Closed finding back.
-/

namespace AlsaqiBackend.Findings

open AlsaqiBackend.Lib AlsaqiBackend.Users

variable {database : Database} {db db' : FindingTables}

/-! ## Updates of a recommendation -/

/-- What holds of the recommendations after an update of one. -/
theorem forall_updateRecommendations {id : String} {f : Recommendation → Recommendation}
    {p : Recommendation → Prop} :
    (∀ rec ∈ (db.updateRecommendations id f).recommendations, p rec) ↔
      (∀ rec ∈ db.recommendations, rec.id ≠ some id → p rec) ∧
        ∀ rec ∈ db.recommendations, rec.id = some id → p (f rec) := by
  unfold FindingTables.updateRecommendations
  simp only [List.forall_mem_map]
  constructor
  · intro h
    refine ⟨fun rec hrec hid => ?_, fun rec hrec hid => ?_⟩
    · have hp := h rec hrec
      rwa [if_neg hid] at hp
    · have hp := h rec hrec
      rwa [if_pos hid] at hp
  · rintro ⟨hothers, hone⟩ rec hrec
    split_ifs with hid
    · exact hone rec hrec hid
    · exact hothers rec hrec hid

/-- The same, where the recommendation is the only one with its key. -/
theorem forall_updateRecommendations_of_mem {id : String} {f : Recommendation → Recommendation}
    {p : Recommendation → Prop} (hkeys : (db.recommendations.map Recommendation.id).Nodup)
    {row : Recommendation} (hrow : row ∈ db.recommendations) (hid : row.id = some id) :
    (∀ rec ∈ (db.updateRecommendations id f).recommendations, p rec) ↔
      (∀ rec ∈ db.recommendations, rec.id ≠ some id → p rec) ∧ p (f row) := by
  rw [forall_updateRecommendations]
  refine and_congr_right' ⟨fun h => h row hrow hid, fun h rec hrec hrecId => ?_⟩
  rw [List.inj_on_of_nodup_map hkeys hrec hrow (hrecId.trans hid.symm)]
  exact h

/-- The recommendations of a finding that stays in step, but for one of them. -/
theorem implemented_update_iff {id : String} {f : Recommendation → Recommendation}
    (hkeys : (db.recommendations.map Recommendation.id).Nodup) {row : Recommendation}
    (hrow : row ∈ db.recommendations) (hid : row.id = some id) (finding : Finding) :
    (∀ rec ∈ (db.updateRecommendations id f).recommendations, rec.findingId = finding.id →
        rec.deletedAt = none → rec.status = some "Implemented") ↔
      OthersImplemented db id finding ∧ ((f row).findingId = finding.id → (f row).deletedAt = none →
        (f row).status = some "Implemented") :=
  forall_updateRecommendations_of_mem hkeys hrow hid

/-- The others are those of a finding that has not had the recommendation. -/
theorem othersImplemented_iff_of_ne {id : String}
    (hkeys : (db.recommendations.map Recommendation.id).Nodup) {row : Recommendation}
    (hrow : row ∈ db.recommendations) (hid : row.id = some id) {finding : Finding}
    (hsynced : Synced db.recommendations finding) (hne : row.findingId ≠ finding.id) :
    OthersImplemented db id finding ↔ finding.status = some "Closed" := by
  rw [hsynced.closed]
  constructor
  · intro h rec hrec hof hdeleted
    refine h rec hrec (fun hrecId => ?_) hof hdeleted
    rw [List.inj_on_of_nodup_map hkeys hrec hrow (hrecId.trans hid.symm)] at hof
    exact hne hof
  · intro h rec hrec _ hof hdeleted
    exact h rec hrec hof hdeleted

/-- The risk levels of the recommendations of a finding in step, after an update of one. -/
theorem riskLevel_update_iff {id : String} {f : Recommendation → Recommendation}
    (hkeys : (db.recommendations.map Recommendation.id).Nodup) {row : Recommendation}
    (hrow : row ∈ db.recommendations) (hid : row.id = some id) {finding : Finding}
    (hsynced : Synced db.recommendations finding) :
    (∀ rec ∈ (db.updateRecommendations id f).recommendations, rec.findingId = finding.id →
        rec.riskLevel = finding.riskLevel) ↔
      ((f row).findingId = finding.id → (f row).riskLevel = finding.riskLevel) := by
  rw [forall_updateRecommendations_of_mem hkeys hrow hid]
  exact and_iff_right fun rec hrec _ hof => hsynced.riskLevel rec hrec hof

theorem updateRecommendations_of_forall_ne {id : String} {f : Recommendation → Recommendation}
    (h : ∀ row ∈ db.recommendations, row.id ≠ some id) : db.updateRecommendations id f = db := by
  unfold FindingTables.updateRecommendations
  have hmap : (db.recommendations.map fun row => if row.id = some id then f row else row) =
      db.recommendations.map fun row => row :=
    List.map_congr_left fun row hrow => if_neg (h row hrow)
  rw [hmap, List.map_id']

/-- Resolving a recommendation keeps the tables in step exactly when it is deleted, or its finding is not
Closed. -/
theorem resolve_inSync_iff {id closureEvidencePath : String} (hdb : db.Valid database.checks)
    (hsync : InSync db) (h : resolve database id closureEvidencePath db = some db') :
    InSync db' ↔ (SyncOp.resolve id closureEvidencePath).Keeps database db := by
  unfold resolve at h
  split_ifs at h
  obtain rfl := checked_eq_some h
  have hkeys := hdb.recommendationKeys
  have hresolved : some "closed" ≠ some "Implemented" := by decide
  by_cases hexists : ∃ row ∈ db.recommendations, row.id = some id
  · obtain ⟨row, hrow, hid⟩ := hexists
    -- The id is that of one recommendation.
    have hkeeps : (SyncOp.resolve id closureEvidencePath).Keeps database db ↔
        (row.deletedAt = none → ∀ finding ∈ db.findings, row.findingId = finding.id →
          finding.status ≠ some "Closed") := by
      constructor
      · intro hall
        exact hall row hrow hid
      · intro hone other hother hotherId
        rw [List.inj_on_of_nodup_map hkeys hother hrow (hotherId.trans hid.symm)]
        exact hone
    rw [hkeeps]
    constructor
    · intro hafter hdeleted finding hfinding hof hclosed
      have hall := (hafter finding hfinding).closed.1 hclosed
      exact hresolved (((implemented_update_iff hkeys hrow hid finding).1 hall).2 hof hdeleted)
    · intro hnot finding hfinding
      have hsynced := hsync finding hfinding
      constructor
      · rw [implemented_update_iff hkeys hrow hid]
        by_cases hof : row.findingId = finding.id
        · by_cases hdeleted : row.deletedAt = none
          · -- The recommendation is neither Implemented now, nor is the finding Closed.
            refine iff_of_false (hnot hdeleted finding hfinding hof) fun hall => ?_
            exact hresolved (hall.2 hof hdeleted)
          · rw [hsynced.closed]
            constructor
            · intro hall
              refine ⟨fun rec hrec _ => hall rec hrec, fun _ hnone => absurd hnone hdeleted⟩
            · rintro ⟨hothers, -⟩ rec hrec hofRec hnone
              refine hothers rec hrec (fun hrecId => ?_) hofRec hnone
              rw [List.inj_on_of_nodup_map hkeys hrec hrow (hrecId.trans hid.symm)] at hnone
              exact hdeleted hnone
        · rw [othersImplemented_iff_of_ne hkeys hrow hid hsynced hof]
          exact ⟨fun hclosed => ⟨hclosed, fun heq => absurd heq hof⟩, And.left⟩
      · rw [riskLevel_update_iff hkeys hrow hid hsynced]
        exact fun hof => hsynced.riskLevel row hrow hof
  · -- There is nothing to update.
    have hnone : ∀ row ∈ db.recommendations, row.id ≠ some id := fun row hrow hid =>
      hexists ⟨row, hrow, hid⟩
    rw [updateRecommendations_of_forall_ne hnone]
    exact iff_of_true hsync fun row hrow hid => absurd hid (hnone row hrow)

/-! ## The cascade -/

/-- What the cascade leaves: the finding that it looks at is Closed. -/
theorem closeWithRecommendation_eq {id : String} {data : Body}
    (hkeys : (db.findings.map Finding.id).Nodup)
    (h : closeWithRecommendation database id data db = some db') :
    db' = { db with findings := db.findings.map fun finding =>
      if finding.id ≠ none ∧ findingToClose database.countAsText id data db = finding.id then
        { finding with status := some "Closed" } else finding } := by
  have hsame : (db.findings.map fun finding => finding) = db.findings := List.map_id' _
  unfold closeWithRecommendation at h
  split at h
  · rename_i hnone
    rw [← Option.some.inj h, hnone]
    have hmap : (db.findings.map fun finding =>
        if finding.id ≠ none ∧ none = finding.id then { finding with status := some "Closed" }
          else finding) = db.findings.map fun finding => finding :=
      List.map_congr_left fun finding _ => if_neg fun heq => heq.1 heq.2.symm
    rw [hmap, hsame]
  · rename_i findingId hfindingId
    have hcondition : ∀ finding : Finding,
        (finding.id ≠ none ∧ some findingId = finding.id) ↔ finding.id = some findingId := by
      intro finding
      constructor
      · exact fun heq => heq.2.symm
      · exact fun heq => ⟨fun hnone => (nomatch heq.symm.trans hnone), heq.symm⟩
    simp only [hfindingId, hcondition]
    split_ifs at h with hclose
    · rw [checked_eq_some h]
      rfl
    · -- The finding is Closed already.
      rw [← Option.some.inj h]
      have hmap : (db.findings.map fun finding =>
          if finding.id = some findingId then { finding with status := some "Closed" } else finding) =
            db.findings.map fun finding => finding := by
        refine List.map_congr_left fun finding hfinding => ?_
        split_ifs with hid
        · have hclosed : finding.status = some "Closed" := by
            by_contra hopen
            refine hclose ?_
            unfold canClose
            have hfound : db.finding findingId = some finding := find?_key_of_mem hkeys hfinding hid
            rw [hfound]
            exact decide_eq_true hopen
          rw [← hclosed]
        · rfl
      rw [hmap, hsame]

theorem recommendation_eq_some {id : String} {row : Recommendation} (h : db.recommendation id = some row) :
    row ∈ db.recommendations ∧ row.id = some id := of_find?_key h

theorem recommendation_of_mem {id : String} {row : Recommendation}
    (hkeys : (db.recommendations.map Recommendation.id).Nodup) (hrow : row ∈ db.recommendations)
    (hid : row.id = some id) : db.recommendation id = some row := find?_key_of_mem hkeys hrow hid

section
variable {id : String} {data : Body} {row : Recommendation}
  (hkeys : (db.recommendations.map Recommendation.id).Nodup) (hrow : row ∈ db.recommendations)
  (hid : row.id = some id)

include hkeys hrow hid

/-- The recommendation that has been updated is found when it keeps its key. -/
theorem recommendation_update_iff
    (hkeys' : ((db.updateRecommendations id (Recommendation.setColumns data)).recommendations.map
      Recommendation.id).Nodup) (rec : Recommendation) :
    (db.updateRecommendations id (Recommendation.setColumns data)).recommendation id = some rec ↔
      (row.setColumns data).id = some id ∧ rec = row.setColumns data := by
  constructor
  · intro h
    obtain ⟨hmem, hrecId⟩ := recommendation_eq_some h
    obtain ⟨old, hold, rfl⟩ := List.mem_map.1 hmem
    by_cases holdId : old.id = some id
    · have hsame : old = row := List.inj_on_of_nodup_map hkeys hold hrow (holdId.trans hid.symm)
      rw [if_pos holdId, hsame] at hrecId ⊢
      exact ⟨hrecId, rfl⟩
    · rw [if_neg holdId] at hrecId
      exact absurd hrecId holdId
  · rintro ⟨hkeep, rfl⟩
    exact recommendation_of_mem hkeys' (List.mem_map.2 ⟨row, hrow, if_pos hid⟩) hkeep

/-- The count is zero, as the driver gives it. -/
theorem count_isZero_iff (database : Database) (findingId : String) (hof : (row.setColumns data).findingId = some findingId)
    {finding : Finding} (hfinding : finding.id = some findingId) :
    (countValue database.countAsText
        ((db.updateRecommendations id (Recommendation.setColumns data)).recommendations.countP
          fun row => row.findingId = some findingId && row.isOpen)).isZero = true ↔
      database.countAsText = false ∧ (row.setColumns data).isOpen = false ∧ NoOtherOpen db id finding := by
  have hcount : ∀ n, (countValue database.countAsText n).isZero = true ↔
      database.countAsText = false ∧ n = 0 := by
    intro n
    unfold countValue
    split_ifs with htext
    · simp [CountValue.isZero, htext]
    · simp [CountValue.isZero, htext]
  rw [hcount, List.countP_eq_zero, forall_updateRecommendations_of_mem hkeys hrow hid]
  simp only [hof, decide_true, Bool.true_and, Bool.not_eq_true, NoOtherOpen, hfinding, Bool.and_eq_false_iff,
    decide_eq_false_iff_not, ← imp_iff_not_or]
  rw [and_comm (b := (row.setColumns data).isOpen = false)]

/-- The cascade looks at a finding exactly when the update closes it. -/
theorem findingToClose_eq_iff
    (hkeys' : ((db.updateRecommendations id (Recommendation.setColumns data)).recommendations.map
      Recommendation.id).Nodup) {finding : Finding} {findingId : String}
    (hfinding : finding.id = some findingId) :
    findingToClose database.countAsText id data
      (db.updateRecommendations id (Recommendation.setColumns data)) = some findingId ↔
        Closes database db id data row finding := by
  have hrecommendation := recommendation_update_iff hkeys hrow hid hkeys'
  unfold findingToClose
  constructor
  · intro heq
    split_ifs at heq with himplemented
    split at heq
    · rename_i rec hrec
      obtain ⟨hkeep, rfl⟩ := (hrecommendation rec).1 hrec
      split at heq
      · rename_i other hof
        dsimp only at heq
        split_ifs at heq with hzero
        obtain rfl := Option.some.inj heq
        have hcount := (count_isZero_iff hkeys hrow hid database _ hof hfinding).1 hzero.2
        exact ⟨himplemented, hkeep, hof.trans hfinding.symm, fun hempty => hzero.1
          (Option.some.inj (hfinding.symm.trans hempty)), hcount.2.1, hcount.1, hcount.2.2⟩
      · cases heq
    · cases heq
  · intro h
    have hof : (row.setColumns data).findingId = some findingId := h.ofFinding.trans hfinding
    have hzero := (count_isZero_iff hkeys hrow hid database findingId hof hfinding).2
      ⟨h.number, h.notOpen, h.others⟩
    have hne : findingId ≠ "" := fun hempty => h.hasId (hempty ▸ hfinding)
    rw [if_pos h.implemented, (hrecommendation _).2 ⟨h.keepsId, rfl⟩]
    simp only [hof]
    rw [if_pos ⟨hne, hzero⟩]

/-- After an update that goes through, a finding is in step exactly when it is closed just with all its
recommendations, and the recommendation has its risk level. -/
theorem synced_update_iff {finding : Finding} (hsynced : Synced db.recommendations finding)
    (newStatus : Option String) :
    Synced (db.updateRecommendations id (Recommendation.setColumns data)).recommendations
        { finding with status := newStatus } ↔
      (newStatus = some "Closed" ↔ (OthersImplemented db id finding ∧
        ((row.setColumns data).findingId = finding.id → (row.setColumns data).deletedAt = none →
          (row.setColumns data).status = some "Implemented"))) ∧
      ((row.setColumns data).findingId = finding.id →
        (row.setColumns data).riskLevel = finding.riskLevel) := by
  rw [← implemented_update_iff hkeys hrow hid finding, ← riskLevel_update_iff hkeys hrow hid hsynced]
  exact ⟨fun h => ⟨h.closed, h.riskLevel⟩, fun h => ⟨h.1, h.2⟩⟩

/-- The same with the status that a finding has after the update and its cascade. -/
theorem synced_updated_iff (database : Database)
    (hkeys' : ((db.updateRecommendations id (Recommendation.setColumns data)).recommendations.map
      Recommendation.id).Nodup) {finding : Finding} (hsynced : Synced db.recommendations finding)
    (hsome : finding.id ≠ none) :
    Synced (db.updateRecommendations id (Recommendation.setColumns data)).recommendations
        (if finding.id ≠ none ∧ findingToClose database.countAsText id data
            (db.updateRecommendations id (Recommendation.setColumns data)) = finding.id then
          { finding with status := some "Closed" } else finding) ↔
      ((row.setColumns data).findingId = finding.id →
        (row.setColumns data).riskLevel = finding.riskLevel) ∧
      ((finding.status = some "Closed" ∨ Closes database db id data row finding) ↔
        (OthersImplemented db id finding ∧
          ((row.setColumns data).findingId = finding.id → (row.setColumns data).deletedAt = none →
            (row.setColumns data).status = some "Implemented"))) := by
  obtain ⟨findingId, hfindingId⟩ := Option.ne_none_iff_exists'.1 hsome
  have hcloses : (finding.id ≠ none ∧ findingToClose database.countAsText id data
      (db.updateRecommendations id (Recommendation.setColumns data)) = finding.id) ↔
        Closes database db id data row finding := by
    rw [and_iff_right hsome, hfindingId]
    exact findingToClose_eq_iff hkeys hrow hid hkeys' hfindingId
  split_ifs with hcase
  · rw [synced_update_iff hkeys hrow hid hsynced, and_comm]
    simp only [hcloses.1 hcase, or_true]
  · have hnot : ¬ Closes database db id data row finding := fun hc => hcase (hcloses.2 hc)
    rw [or_iff_left hnot]
    rw [and_comm]
    exact synced_update_iff hkeys hrow hid hsynced finding.status

end

/-- No finding is closed with a recommendation that is not there. -/
theorem findingToClose_eq_none {asText : Bool} {id : String} {data : Body}
    (hnone : ∀ row ∈ db.recommendations, row.id ≠ some id) : findingToClose asText id data db = none := by
  have hmissing : db.recommendation id = none := by
    cases hfind : db.recommendation id with
    | none => rfl
    | some row =>
      obtain ⟨hrow, hid⟩ := recommendation_eq_some hfind
      exact absurd hid (hnone row hrow)
  unfold findingToClose
  rw [hmissing]
  split_ifs <;> rfl

/-- An update of a recommendation keeps the tables in step exactly when it closes the findings concerned just
with all their recommendations. -/
theorem updateRecommendation_inSync_iff {id : String} {body : Body} (hdb : db.Valid database.checks)
    (hsync : InSync db) (h : updateRecommendation database id body db = some db') :
    InSync db' ↔ (SyncOp.updateRecommendation id body).Keeps database db := by
  unfold updateRecommendation at h
  split_ifs at h
  obtain ⟨db₁, h₁, hclose⟩ := Option.bind_eq_some_iff.1 h
  have hvalid₁ := valid_of_checked h₁
  obtain rfl := checked_eq_some h₁
  have hkeys := hdb.recommendationKeys
  rw [closeWithRecommendation_eq hvalid₁.findingKeys hclose]
  show (∀ finding ∈ db.findings.map _, Synced _ finding) ↔ _
  rw [List.forall_mem_map]
  set data := recommendationData body
  by_cases hexists : ∃ row ∈ db.recommendations, row.id = some id
  · obtain ⟨row, hrow, hid⟩ := hexists
    -- Each finding for itself: its status after the update, and what it has to be.
    have hone := fun finding hfinding => synced_updated_iff hkeys hrow hid database
      hvalid₁.recommendationKeys (hsync finding hfinding) (hdb.findings finding hfinding).1
    constructor
    · intro hall other hother hotherId finding hfinding
      rw [List.inj_on_of_nodup_map hkeys hother hrow (hotherId.trans hid.symm)]
      obtain ⟨hrisk, hiff⟩ := (hone finding hfinding).1 (hall finding hfinding)
      exact ⟨hrisk, fun _ => hiff⟩
    · intro hkeeps finding hfinding
      obtain ⟨hrisk, hiff⟩ := hkeeps row hrow hid finding hfinding
      refine (hone finding hfinding).2 ⟨hrisk, ?_⟩
      by_cases hconcerned : row.findingId = finding.id ∨ (row.setColumns data).findingId = finding.id
      · exact hiff hconcerned
      · -- The recommendation neither was nor is one of this finding.
        have hbefore : row.findingId ≠ finding.id := fun hof => hconcerned (Or.inl hof)
        have hafter : (row.setColumns data).findingId ≠ finding.id := fun hof => hconcerned (Or.inr hof)
        have hnot : ¬ Closes database db id data row finding := fun hc => hafter hc.ofFinding
        rw [or_iff_left hnot, othersImplemented_iff_of_ne hkeys hrow hid (hsync finding hfinding) hbefore]
        exact ⟨fun hclosed => ⟨hclosed, fun hof => absurd hof hafter⟩, And.left⟩
  · -- There is nothing to update, and nothing to close.
    have hnone : ∀ row ∈ db.recommendations, row.id ≠ some id := fun row hrow hid =>
      hexists ⟨row, hrow, hid⟩
    rw [updateRecommendations_of_forall_ne hnone]
    refine iff_of_true (fun finding hfinding => ?_) fun row hrow hid => absurd hid (hnone row hrow)
    rw [findingToClose_eq_none hnone, if_neg fun heq => heq.1 heq.2.symm]
    exact hsync finding hfinding

/-! ## Runs -/

/-- An operation keeps the tables in step exactly when it is refused, or meets the condition. -/
theorem syncStep_inSync_iff (db : FindingTables) (op : SyncOp) (db' : FindingTables)
    (hdb : db.Valid database.checks) (hsync : InSync db) (h : syncStep database db op = some db') :
    InSync db' ↔ Kept database db op := by
  unfold syncStep at h
  split_ifs at h with hscope
  obtain rfl := Option.some.inj h
  unfold Kept
  cases hperform : op.perform database db with
  | none => exact iff_of_true hsync nofun
  | some db' =>
    simp only [Option.getD_some, Option.isSome_some, true_imp_iff]
    cases op with
    | createFinding findingId recommendationId auditId userId riskLevel =>
      exact iff_of_true (createFinding_inSync hdb hsync hperform) trivial
    | changeFindingStatus id newStatus mayApprove =>
      exact iff_of_true (changeFindingStatus_inSync hdb hsync hperform) trivial
    | updateFinding id body userId => exact updateFinding_inSync_iff hdb hsync hscope hperform
    | updateRecommendation id body => exact updateRecommendation_inSync_iff hdb hsync hperform
    | resolve id closureEvidencePath => exact resolve_inSync_iff hdb hsync hperform

/-- The tables without rows. -/
def noFindings : FindingTables := ⟨[], []⟩

/-- Along a run the tables are in step exactly when every operation that is accepted keeps them so. -/
theorem inSync_iff_kept (database : Database) (ops : List SyncOp) :
    Along (syncStep database) InSync noFindings ops ↔
      Guarded (syncStep database) (Kept database) noFindings ops := by
  have hvalid : noFindings.Valid database.checks := ⟨List.nodup_nil, List.nodup_nil, nofun, nofun, nofun⟩
  have hsync : InSync noFindings := nofun
  exact along_iff_guarded syncStep_valid syncStep_inSync_iff ops hvalid hsync

/-- A finding that is closed, with its recommendation, which is resolved then. -/
def resolvedAfterClose : List SyncOp :=
  [.createFinding "f" "r" "p" "owner" "High", .changeFindingStatus "f" "In Progress" false,
    .changeFindingStatus "f" "Closed" false, .resolve "r" "evidence.pdf"]

/-- A finding whose only recommendation is Implemented. -/
def implementedOnly : List SyncOp :=
  [.createFinding "f" "r" "p" "owner" "High", .updateRecommendation "r" [("status", .text "Implemented")]]

/-- After the first run a Closed finding has a recommendation that is `closed`; after the second one, with a
driver that counts in texts, the finding is still Open. -/
theorem out_of_step :
    (∃ db, run (syncStep ⟨migrationChecks, false⟩) noFindings resolvedAfterClose = some db ∧
      db.findings.map Finding.status = [some "Closed"] ∧
      db.recommendations.map Recommendation.status = [some "closed"] ∧ ¬ InSync db) ∧
    ∃ db, run (syncStep ⟨migrationChecks, true⟩) noFindings implementedOnly = some db ∧
      db.findings.map Finding.status = [some "Open"] ∧
      db.recommendations.map Recommendation.status = [some "Implemented"] ∧ ¬ InSync db := by
  have hresolved : run (syncStep ⟨migrationChecks, false⟩) noFindings resolvedAfterClose =
      some ⟨[⟨some "f", some "p", some "owner", some "Closed", some "High", none⟩],
        [⟨some "r", some "f", some "closed", some "High", none, some "", none⟩]⟩ := by
    decide +kernel
  have hcounted : run (syncStep ⟨migrationChecks, true⟩) noFindings implementedOnly =
      some ⟨[⟨some "f", some "p", some "owner", some "Open", some "High", none⟩],
        [⟨some "r", some "f", some "Implemented", some "High", none, some "", none⟩]⟩ := by
    decide +kernel
  refine ⟨⟨_, hresolved, rfl, rfl, fun hsync => ?_⟩, _, hcounted, rfl, rfl, fun hsync => ?_⟩
  · have hstatus := (hsync _ List.mem_cons_self).closed.1 rfl _ List.mem_cons_self rfl rfl
    exact absurd hstatus (by decide)
  · have hclosed := (hsync _ List.mem_cons_self).closed.2 fun row hrow _ _ => by
      rw [List.mem_singleton.1 hrow]
    exact absurd hclosed (by decide)

end AlsaqiBackend.Findings
