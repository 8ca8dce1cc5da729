import AlsaqiBackend.Correspondence.Service

/-!
# The status history of correspondence

`Replays v rows cur`: the rows of a history form a chain that begins with `v` and ends with `cur`. The
history is complete when the rows of each letter, under its type, lead from the status that it was
created with to the one that it has (`Complete`).

`updateStatus` writes the row of its change; `refer` and `archive` change the status without one, and a
type that is neither of the two sends a row of an incoming letter to the outgoing ones.
`complete_along_iff` says which calls a run may contain.
-/

namespace AlsaqiBackend.Correspondence

open AlsaqiBackend.Lib CorrespondenceDb

/-! ## Chains -/

/-- The rows lead from `v` to `cur`, each from the status that the one before has set. -/
def Replays (v : Value) : List HistoryRow → Value → Prop
  | [], cur => v = cur
  | row :: rows, cur => row.oldStatus = v ∧ Replays row.newStatus rows cur

instance : ∀ (v : Value) (rows : List HistoryRow) (cur : Value), Decidable (Replays v rows cur)
  | v, [], cur => inferInstanceAs (Decidable (v = cur))
  | v, row :: rows, cur =>
    have := instDecidableReplays row.newStatus rows cur
    inferInstanceAs (Decidable (row.oldStatus = v ∧ Replays row.newStatus rows cur))

/-- The rows of a letter under a type, in their order. -/
def rowsOf (history : List HistoryRow) (type id : String) : List HistoryRow :=
  history.filter fun row => row.correspondenceType = type && row.correspondenceId = id

/-- Each letter of a table has the status to which its history leads. -/
def CompleteTable (initial : Value) (type : String) (history : List HistoryRow)
    (letters : List Letter) : Prop :=
  ∀ letter ∈ letters, Replays initial (rowsOf history type letter.id) letter.status

/-- The histories of both kinds of letters are complete. -/
def Complete (db : CorrespondenceDb) : Prop :=
  CompleteTable (.text "Received") "Incoming" db.history db.incoming ∧
    CompleteTable (.text "Draft") "Outgoing" db.history db.outgoing

/-- What makes a call keep the history complete: a change of a status is recorded, or is none. -/
def Recorded (db : CorrespondenceDb) (call : Bool × CorrespondenceOp) : Prop :=
  call.1 = false →
    match call.2 with
    | .updateStatus type id newStatus _ _ _ =>
      type = "incoming" ∨ type = "outgoing" ∨
        ∀ letter ∈ db.incoming, letter.is id = true → letter.status = newStatus
    | .refer incomingId _ _ _ _ _ =>
      ∀ letter ∈ db.incoming, letter.id = incomingId → letter.status = .text "Referred"
    | .archive type id _ =>
      ∀ letter ∈ if type = "incoming" then db.incoming else db.outgoing,
        letter.is id = true → letter.status = .text "Archived"
    | _ => True

variable {v cur cur' : Value} {rows history : List HistoryRow} {row : HistoryRow}
  {letters : List Letter} {type id : String}

/-- A chain ends in one status. -/
theorem Replays.unique (h : Replays v rows cur) (h' : Replays v rows cur') : cur = cur' := by
  induction rows generalizing v with
  | nil => exact h.symm.trans h'
  | cons row rows ih => exact ih h.2 h'.2

/-- One more row goes on from where the chain was. -/
theorem replays_concat :
    Replays v (rows ++ [row]) cur ↔ Replays v rows row.oldStatus ∧ row.newStatus = cur := by
  induction rows generalizing v with
  | nil =>
    show row.oldStatus = v ∧ row.newStatus = cur ↔ v = row.oldStatus ∧ row.newStatus = cur
    rw [eq_comm]
  | cons first rows ih =>
    show first.oldStatus = v ∧ Replays first.newStatus (rows ++ [row]) cur ↔ _
    rw [ih, ← and_assoc]
    rfl

theorem rowsOf_concat (history : List HistoryRow) (row : HistoryRow) (type id : String) :
    rowsOf (history ++ [row]) type id =
      if row.correspondenceType = type ∧ row.correspondenceId = id then
        rowsOf history type id ++ [row]
      else rowsOf history type id := by
  rw [rowsOf, List.filter_append, ← rowsOf]
  split_ifs with h
  · simp [h]
  · have hnil : [row].filter (fun row => row.correspondenceType = type && row.correspondenceId = id) =
        [] := by
      rw [List.filter_eq_nil_iff]
      rintro other hother hmatch
      obtain rfl := List.mem_singleton.1 hother
      rw [Bool.and_eq_true, decide_eq_true_eq, decide_eq_true_eq] at hmatch
      exact h hmatch
    rw [hnil, List.append_nil]

/-! ## Tables -/

/-- A row of another type, or of no letter of the table, is no matter for it. -/
theorem completeTable_concat {initial : Value}
    (h : row.correspondenceType ≠ type ∨ ∀ letter ∈ letters, letter.id ≠ row.correspondenceId) :
    CompleteTable initial type (history ++ [row]) letters ↔
      CompleteTable initial type history letters := by
  refine forall₂_congr fun letter hletter => ?_
  rw [rowsOf_concat, if_neg]
  rintro ⟨htype, hid⟩
  rcases h with hne | hno
  · exact hne htype
  · exact hno letter hletter hid.symm

/-- An update without a row in the history keeps it complete exactly when it changes no status. -/
theorem completeTable_updateWhere_iff {initial : Value} {p : Letter → Bool} {f : Letter → Letter}
    (hf : ∀ letter, (f letter).id = letter.id) (h : CompleteTable initial type history letters) :
    CompleteTable initial type history (updateWhere p f letters) ↔
      ∀ letter ∈ letters, p letter = true → letter.status = (f letter).status := by
  constructor
  · intro hupdated letter hletter hp
    have hnew := hupdated (f letter) (mem_updateWhere_of hletter hp)
    rw [hf] at hnew
    exact (h letter hletter).unique hnew
  · intro hsame letter hletter
    obtain ⟨old, hold, rfl⟩ := mem_updateWhere.1 hletter
    split_ifs with hp
    · rw [hf, ← hsame old hold hp]
      exact h old hold
    · exact h old hold

/-- A change of a status with its row keeps the history complete. -/
theorem completeTable_record {initial : Value} {old : Letter} {newStatus : Value} {now : String}
    (hnodup : (letters.map Letter.id).Nodup) (h : CompleteTable initial type history letters)
    (hfind : letters.find? (Letter.is id) = some old) (hrow : row.correspondenceType = type)
    (hid : row.correspondenceId = id) (hold : row.oldStatus = old.status)
    (hnew : row.newStatus = newStatus) :
    CompleteTable initial type (history ++ [row])
      (updateWhere (Letter.is id) (setStatus newStatus now) letters) := by
  have hmem := List.mem_of_find?_eq_some hfind
  have his := List.find?_some hfind
  intro letter hletter
  obtain ⟨before, hbefore, rfl⟩ := mem_updateWhere.1 hletter
  by_cases hsame : before.id = id
  · -- The row of the id is the one that has been read.
    have holdid : old.id = id := by
      rw [Letter.is, Bool.and_eq_true] at his
      exact of_decide_eq_true his.1
    obtain rfl := List.inj_on_of_nodup_map hnodup hbefore hmem (hsame.trans holdid.symm)
    rw [if_pos his]
    show Replays initial (rowsOf (history ++ [row]) type before.id) newStatus
    rw [rowsOf_concat, if_pos ⟨hrow, hid.trans hsame.symm⟩, replays_concat, hold]
    exact ⟨h before hbefore, hnew⟩
  · have hnot : before.is id = false := by simp [Letter.is, hsame]
    rw [hnot]
    show Replays initial (rowsOf (history ++ [row]) type before.id) before.status
    rw [rowsOf_concat, if_neg fun heq => hsame (heq.2.symm.trans hid)]
    exact h before hbefore

/-- A new letter without history has its initial status. -/
theorem completeTable_append {initial : Value} {letter : Letter}
    (h : CompleteTable initial type history letters) (hstatus : letter.status = initial)
    (hnew : ∀ row ∈ history, row.correspondenceId ≠ letter.id) :
    CompleteTable initial type history (letters ++ [letter]) := by
  intro other hother
  rcases List.mem_append.1 hother with hold | hlast
  · exact h other hold
  · obtain rfl := List.mem_singleton.1 hlast
    have hrows : rowsOf history type other.id = [] := by
      rw [rowsOf, List.filter_eq_nil_iff]
      intro row hrow
      simp [hnew row hrow]
    rw [hrows]
    exact hstatus.symm

/-! ## Steps -/

/-- No two letters have one id. -/
structure Distinct (db : CorrespondenceDb) : Prop where
  incoming : (db.incoming.map Letter.id).Nodup
  outgoing : (db.outgoing.map Letter.id).Nodup
  apart : ∀ letter ∈ db.incoming, ∀ other ∈ db.outgoing, letter.id ≠ other.id

variable {db t : CorrespondenceDb} {call : Bool × CorrespondenceOp}

/-- The ids of the letters, and those of a call that succeeds in making one. -/
theorem distinct_of_map_eq (h : Distinct db)
    (hincoming : t.incoming.map Letter.id = db.incoming.map Letter.id)
    (houtgoing : t.outgoing.map Letter.id = db.outgoing.map Letter.id) : Distinct t := by
  refine ⟨hincoming ▸ h.incoming, houtgoing ▸ h.outgoing, fun letter hletter other hother heq => ?_⟩
  have hmem : letter.id ∈ db.incoming.map Letter.id := hincoming ▸ List.mem_map_of_mem hletter
  have hmem' : other.id ∈ db.outgoing.map Letter.id := houtgoing ▸ List.mem_map_of_mem hother
  obtain ⟨l, hl, hlid⟩ := List.mem_map.1 hmem
  obtain ⟨l', hl', hlid'⟩ := List.mem_map.1 hmem'
  exact h.apart l hl l' hl' (hlid.trans (heq.trans hlid'.symm))

theorem fresh_iff : db.fresh id = true ↔ (∀ letter ∈ db.incoming, letter.id ≠ id) ∧
    (∀ letter ∈ db.outgoing, letter.id ≠ id) ∧ ∀ row ∈ db.history, row.correspondenceId ≠ id := by
  simp [fresh, and_assoc]

/-- An operation other than a create keeps the ids of the letters. -/
theorem map_id_perform (db : CorrespondenceDb) (fails : Bool) {op : CorrespondenceOp}
    (hincoming : ∀ id n d u now, op ≠ .createIncoming id n d u now)
    (houtgoing : ∀ id n d u now, op ≠ .createOutgoing id n d u now) :
    (db.perform fails op).2.incoming.map Letter.id = db.incoming.map Letter.id ∧
      (db.perform fails op).2.outgoing.map Letter.id = db.outgoing.map Letter.id := by
  cases fails with
  | true => exact ⟨rfl, rfl⟩
  | false =>
    -- Every operation but the two that create a letter is an update, which keeps the ids.
    have hkeep : ∀ (p : Letter → Bool) (f : Letter → Letter) (letters : List Letter),
        (∀ letter, (f letter).id = letter.id) →
          (updateWhere p f letters).map Letter.id = letters.map Letter.id :=
      fun p f letters hf => map_key_updateWhere hf
    cases op with
    | createIncoming id n d u now => exact absurd rfl (hincoming id n d u now)
    | createOutgoing id n d u now => exact absurd rfl (houtgoing id n d u now)
    | updateStatus type id newStatus notes userId now =>
      simp only [perform, updateStatus, Bool.false_eq_true, if_false]
      split
      · exact ⟨rfl, rfl⟩
      · split_ifs
        · exact ⟨rfl, hkeep _ _ _ fun _ => rfl⟩
        · exact ⟨hkeep _ _ _ fun _ => rfl, rfl⟩
    | refer incomingId toDeptId toUserId notes userId now =>
      simp only [perform, refer, Bool.false_eq_true, if_false]
      split_ifs
      · exact ⟨hkeep _ _ _ fun _ => rfl, rfl⟩
      · exact ⟨rfl, rfl⟩
    | link incomingId outgoingId linkType userId => exact ⟨rfl, rfl⟩
    | archive type id now =>
      simp only [perform, archive, Bool.false_eq_true, if_false]
      split_ifs
      · exact ⟨hkeep _ _ _ fun _ => rfl, rfl⟩
      · exact ⟨rfl, rfl⟩
      · exact ⟨rfl, hkeep _ _ _ fun _ => rfl⟩
      · exact ⟨rfl, rfl⟩
    | addAttachment correspondenceId correspondenceType columns => exact ⟨rfl, rfl⟩
    | updateOutgoing id data now =>
      simp only [perform, updateOutgoing, Bool.false_eq_true, if_false]
      split_ifs
      · exact ⟨rfl, rfl⟩
      · exact ⟨rfl, hkeep _ _ _ fun _ => rfl⟩
      · exact ⟨rfl, rfl⟩
    | updateIncoming id data now =>
      simp only [perform, updateIncoming, Bool.false_eq_true, if_false]
      split_ifs
      · exact ⟨rfl, rfl⟩
      · exact ⟨hkeep _ _ _ fun _ => rfl, rfl⟩
      · exact ⟨rfl, rfl⟩
    | deleteOutgoing id now =>
      simp only [perform, deleteOutgoing, Bool.false_eq_true, if_false]
      split_ifs
      · exact ⟨rfl, hkeep _ _ _ fun _ => rfl⟩
      · exact ⟨rfl, rfl⟩
    | deleteIncoming id now =>
      simp only [perform, deleteIncoming, Bool.false_eq_true, if_false]
      split_ifs
      · exact ⟨hkeep _ _ _ fun _ => rfl, rfl⟩
      · exact ⟨hkeep _ _ _ fun _ => rfl, rfl⟩

/-- One more letter with an id of its own. -/
theorem Distinct.step (h : Distinct db) (hstep : correspondenceStep db call = some t) :
    Distinct t := by
  obtain ⟨fails, op⟩ := call
  by_cases hcreate : (∀ id n d u now, op ≠ .createIncoming id n d u now) ∧
      ∀ id n d u now, op ≠ .createOutgoing id n d u now
  · have ht : t = (db.perform fails op).2 := eq_perform_of_step hstep
    obtain ⟨hincoming, houtgoing⟩ := map_id_perform db fails hcreate.1 hcreate.2
    exact ht ▸ distinct_of_map_eq h hincoming houtgoing
  · have hnodup : ∀ {letters : List Letter} {letter : Letter}, (letters.map Letter.id).Nodup →
        (∀ l ∈ letters, l.id ≠ letter.id) → ((letters ++ [letter]).map Letter.id).Nodup := by
      intro letters letter hletters hnew
      rw [List.map_append, List.map_singleton, ← List.concat_eq_append]
      refine hletters.concat fun hmem => ?_
      obtain ⟨l, hl, hid⟩ := List.mem_map.1 hmem
      exact hnew l hl hid
    cases op with
    | createIncoming id n d u now =>
      simp only [correspondenceStep] at hstep
      split_ifs at hstep with hfresh
      obtain ⟨hin, hout, -⟩ := fresh_iff.1 hfresh
      obtain rfl := Option.some.inj hstep
      cases fails with
      | true => exact h
      | false =>
        refine ⟨hnodup h.incoming hin, h.outgoing, fun letter hletter other hother => ?_⟩
        rcases List.mem_append.1 hletter with hold | hlast
        · exact h.apart letter hold other hother
        · obtain rfl := List.mem_singleton.1 hlast
          exact (hout other hother).symm
    | createOutgoing id n d u now =>
      simp only [correspondenceStep] at hstep
      split_ifs at hstep with hfresh
      obtain ⟨hin, hout, -⟩ := fresh_iff.1 hfresh
      obtain rfl := Option.some.inj hstep
      cases fails with
      | true => exact h
      | false =>
        refine ⟨h.incoming, hnodup h.outgoing hout, fun letter hletter other hother => ?_⟩
        rcases List.mem_append.1 hother with hold | hlast
        · exact h.apart letter hletter other hold
        · obtain rfl := List.mem_singleton.1 hlast
          exact hin letter hletter
    | _ => exact absurd ⟨by simp, by simp⟩ hcreate

/-- `updateStatus` keeps the history complete under one of the two types, or where it changes
nothing. -/
theorem complete_updateStatus_iff (hdb : Distinct db) (h : Complete db) (type id : String)
    (newStatus notes : Value) (userId now : String) :
    Complete (db.updateStatus type id newStatus notes userId now).2 ↔
      (type = "incoming" ∨ type = "outgoing" ∨
        ∀ letter ∈ db.incoming, letter.is id = true → letter.status = newStatus) := by
  simp only [updateStatus]
  by_cases hout : type = "outgoing"
  · subst hout
    rw [if_pos rfl]
    cases hfind : db.outgoing.find? (Letter.is id) with
    | none => exact iff_of_true h (Or.inr (Or.inl rfl))
    | some old =>
      refine iff_of_true ⟨?_, ?_⟩ (Or.inr (Or.inl rfl))
      · have hrow : dbType "outgoing" ≠ "Incoming" := by decide
        exact (completeTable_concat (Or.inl hrow)).2 h.1
      · exact completeTable_record hdb.outgoing h.2 hfind rfl rfl rfl rfl
  · rw [if_neg hout]
    -- Any type but `"outgoing"` is looked up among the incoming letters.
    have hselected : ∀ old, db.incoming.find? (Letter.is id) = some old → old.id = id := by
      intro old hfind
      have his := List.find?_some hfind
      rw [Letter.is, Bool.and_eq_true] at his
      exact of_decide_eq_true his.1
    cases hfind : db.incoming.find? (Letter.is id) with
    | none =>
      refine iff_of_true h (Or.inr (Or.inr fun letter hletter his => ?_))
      exact absurd his (List.find?_eq_none.1 hfind letter hletter)
    | some old =>
      have hno : ∀ letter ∈ db.outgoing, letter.id ≠ id := fun letter hletter heq =>
        hdb.apart old (List.mem_of_find?_eq_some hfind) letter hletter
          ((hselected old hfind).trans heq.symm)
      have houtgoing : CompleteTable (.text "Draft") "Outgoing"
          (db.history ++ [⟨id, dbType type, old.status, newStatus, userId, notes⟩]) db.outgoing :=
        (completeTable_concat (Or.inr hno)).2 h.2
      simp only [if_neg hout]
      by_cases hin : type = "incoming"
      · subst hin
        refine iff_of_true ⟨?_, houtgoing⟩ (Or.inl rfl)
        exact completeTable_record hdb.incoming h.1 hfind rfl rfl rfl rfl
      · -- The row goes to the outgoing letters, of which none has the id.
        have hrow : dbType type ≠ "Incoming" := by
          rw [dbType, if_neg hin]
          decide
        have hincoming : CompleteTable (.text "Received") "Incoming"
            (db.history ++ [⟨id, dbType type, old.status, newStatus, userId, notes⟩])
              (updateWhere (Letter.is id) (setStatus newStatus now) db.incoming) ↔
            CompleteTable (.text "Received") "Incoming" db.history
              (updateWhere (Letter.is id) (setStatus newStatus now) db.incoming) :=
          completeTable_concat (Or.inl hrow)
        have hiff := completeTable_updateWhere_iff (p := Letter.is id)
          (f := setStatus newStatus now) (fun _ => rfl) h.1
        simp only [hin, hout, false_or]
        exact ⟨fun hc => hiff.1 (hincoming.1 hc.1), fun hs => ⟨hincoming.2 (hiff.2 hs), houtgoing⟩⟩

/-- A call keeps the history complete exactly when the change that it makes is recorded. -/
theorem complete_step_iff (db : CorrespondenceDb) (call : Bool × CorrespondenceOp)
    (t : CorrespondenceDb) (hdb : Distinct db) (h : Complete db)
    (hstep : correspondenceStep db call = some t) : Complete t ↔ Recorded db call := by
  obtain ⟨fails, op⟩ := call
  cases fails with
  | true =>
    have ht : t = db := eq_perform_of_step hstep
    rw [ht]
    exact iff_of_true h fun hfails => absurd hfails (by simp)
  | false =>
    -- What writes neither ids nor statuses needs no entry.
    have hkeep : ∀ {initial : Value} {type : String} {p : Letter → Bool} {f : Letter → Letter}
        {letters : List Letter}, CompleteTable initial type db.history letters →
        (∀ letter, (f letter).id = letter.id) → (∀ letter, (f letter).status = letter.status) →
          CompleteTable initial type db.history (updateWhere p f letters) :=
      fun hletters hid hstatus =>
        (completeTable_updateWhere_iff hid hletters).2 fun letter _ _ => (hstatus letter).symm
    cases op with
    | createIncoming id n d u now =>
      simp only [correspondenceStep] at hstep
      split_ifs at hstep with hfresh
      obtain rfl := Option.some.inj hstep
      obtain ⟨-, -, hrows⟩ := fresh_iff.1 hfresh
      exact iff_of_true ⟨completeTable_append h.1 rfl hrows, h.2⟩ fun _ => trivial
    | createOutgoing id n d u now =>
      simp only [correspondenceStep] at hstep
      split_ifs at hstep with hfresh
      obtain rfl := Option.some.inj hstep
      obtain ⟨-, -, hrows⟩ := fresh_iff.1 hfresh
      exact iff_of_true ⟨h.1, completeTable_append h.2 rfl hrows⟩ fun _ => trivial
    | updateStatus type id newStatus notes userId now =>
      obtain rfl := Option.some.inj hstep
      have hiff := complete_updateStatus_iff hdb h type id newStatus notes userId now
      exact hiff.trans ⟨fun hr _ => hr, fun hr => hr rfl⟩
    | refer incomingId toDeptId toUserId notes userId now =>
      obtain rfl := Option.some.inj hstep
      have hrecorded : Recorded db (false, .refer incomingId toDeptId toUserId notes userId now) ↔
          ∀ letter ∈ db.incoming, letter.id = incomingId → letter.status = .text "Referred" :=
        ⟨fun hr => hr rfl, fun hr _ => hr⟩
      rw [hrecorded]
      simp only [perform, refer, Bool.false_eq_true, if_false]
      -- A referral sets a status that the history does not get.
      split_ifs with hany
      · have hiff := completeTable_updateWhere_iff (p := fun letter => letter.id = incomingId)
          (f := referLetter toDeptId toUserId now) (fun _ => rfl) h.1
        simp only [decide_eq_true_eq] at hiff
        exact ⟨fun hc => hiff.1 hc.1, fun hs => ⟨hiff.2 hs, h.2⟩⟩
      · refine iff_of_true h fun letter hletter hid => ?_
        exact absurd (List.any_eq_true.2 ⟨letter, hletter, decide_eq_true hid⟩) hany
    | link incomingId outgoingId linkType userId =>
      obtain rfl := Option.some.inj hstep
      exact iff_of_true h fun _ => trivial
    | archive type id now =>
      obtain rfl := Option.some.inj hstep
      -- So does an archive, in one of the two tables, unless it finds no letter.
      have hnone : ∀ {letters : List Letter}, ¬found letters id = true →
          ∀ letter ∈ letters, letter.is id = true → letter.status = .text "Archived" :=
        fun hfound letter hletter his => absurd (List.any_eq_true.2 ⟨letter, hletter, his⟩) hfound
      have hrecorded : Recorded db (false, .archive type id now) ↔
          ∀ letter ∈ if type = "incoming" then db.incoming else db.outgoing,
            letter.is id = true → letter.status = .text "Archived" :=
        ⟨fun hr => hr rfl, fun hr _ => hr⟩
      rw [hrecorded]
      simp only [perform, archive, Bool.false_eq_true, if_false]
      split_ifs with hin hfound hfound
      · have hiff := completeTable_updateWhere_iff (p := Letter.is id) (f := archiveLetter now)
          (fun _ => rfl) h.1
        exact ⟨fun hc => hiff.1 hc.1, fun hs => ⟨hiff.2 hs, h.2⟩⟩
      · exact iff_of_true h (hnone hfound)
      · have hiff := completeTable_updateWhere_iff (p := Letter.is id) (f := archiveLetter now)
          (fun _ => rfl) h.2
        exact ⟨fun hc => hiff.1 hc.2, fun hs => ⟨h.1, hiff.2 hs⟩⟩
      · exact iff_of_true h (hnone hfound)
    | addAttachment correspondenceId correspondenceType columns =>
      obtain rfl := Option.some.inj hstep
      exact iff_of_true h fun _ => trivial
    | updateOutgoing id data now =>
      obtain rfl := Option.some.inj hstep
      refine iff_of_true ?_ fun _ => trivial
      simp only [perform, updateOutgoing, Bool.false_eq_true, if_false]
      split_ifs
      · exact h
      · exact ⟨h.1, hkeep h.2 (fun _ => rfl) fun _ => rfl⟩
      · exact h
    | updateIncoming id data now =>
      obtain rfl := Option.some.inj hstep
      refine iff_of_true ?_ fun _ => trivial
      simp only [perform, updateIncoming, Bool.false_eq_true, if_false]
      split_ifs
      · exact h
      · exact ⟨hkeep h.1 (fun _ => rfl) fun _ => rfl, h.2⟩
      · exact h
    | deleteOutgoing id now =>
      obtain rfl := Option.some.inj hstep
      refine iff_of_true ?_ fun _ => trivial
      simp only [perform, deleteOutgoing, Bool.false_eq_true, if_false]
      split_ifs
      · exact ⟨h.1, hkeep h.2 (fun _ => rfl) fun _ => rfl⟩
      · exact h
    | deleteIncoming id now =>
      obtain rfl := Option.some.inj hstep
      refine iff_of_true ?_ fun _ => trivial
      simp only [perform, deleteIncoming, Bool.false_eq_true, if_false]
      split_ifs
      · exact ⟨hkeep h.1 (fun _ => rfl) fun _ => rfl, h.2⟩
      · exact ⟨hkeep h.1 (fun _ => rfl) fun _ => rfl, h.2⟩

/-- A database without letters. -/
def CorrespondenceDb.empty : CorrespondenceDb := ⟨[], [], [], [], [], []⟩

/-- Along a run the history is complete exactly when every call records the status that it changes. -/
theorem complete_along_iff (calls : List (Bool × CorrespondenceOp)) :
    Along correspondenceStep Complete .empty calls ↔
      Guarded correspondenceStep Recorded .empty calls :=
  along_iff_guarded (fun _ _ _ hdb hstep => hdb.step hstep) complete_step_iff calls
    ⟨List.nodup_nil, List.nodup_nil, fun _ h => absurd h List.not_mem_nil⟩
    ⟨fun _ h => absurd h List.not_mem_nil, fun _ h => absurd h List.not_mem_nil⟩

/-- The body of a letter. -/
def letterBody (column : String) : Option Value :=
  if column ∈ ["letter_number", "sender_entity", "subject", "letter_date", "receipt_date"] then
    some (.text "2025-01-01")
  else none

/-- A letter is received and referred. -/
def receivedAndReferred : List (Bool × CorrespondenceOp) :=
  [(false, .createIncoming "i1" "INC-2025-0001" letterBody "u1" "t1"),
    (false, .refer "i1" (.text "d1") .null .null "u1" "t2")]

/-- A referral leaves no trace in the history: the letter is `Referred`, and its history, which is
empty, leads to `Received`. -/
theorem receivedAndReferred_incomplete :
    ¬∀ calls : List (Bool × CorrespondenceOp),
      Along correspondenceStep Complete .empty calls := by
  intro hall
  have hlast := ((hall receivedAndReferred).2 _ rfl).2 _ rfl
  have hreplays := hlast.1 _ (List.mem_singleton_self _)
  exact absurd hreplays (by decide)

end AlsaqiBackend.Correspondence
