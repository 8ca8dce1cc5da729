import AlsaqiBackend.Correspondence.History

/-!
# Letters that have been deleted

A letter with `deleted_at` should not change any more, and a call that throws `NotFoundError` should
leave every table as it was (`Lawful`). Two operations break the rule: `refer` writes its letter without
a look at `deleted_at`, and `deleteIncoming` deletes the attachments in the transaction that it commits
before it finds out that there is no letter. `frozen_iff_orderly` says which calls a run may contain.
-/

namespace AlsaqiBackend.Correspondence

open AlsaqiBackend.Lib CorrespondenceDb

/-- What a call keeps: the deleted letters, and everything when it throws `NotFoundError`. -/
structure Keeps (db : CorrespondenceDb) (call : Bool × CorrespondenceOp) (t : CorrespondenceDb) :
    Prop where
  incoming : ∀ letter ∈ db.incoming, letter.deletedAt ≠ none → letter ∈ t.incoming
  outgoing : ∀ letter ∈ db.outgoing, letter.deletedAt ≠ none → letter ∈ t.outgoing
  notFound : ∀ message, (db.perform call.1 call.2).1 = .error (.notFound message) → t = db

def Lawful (db : CorrespondenceDb) (call : Bool × CorrespondenceOp) : Prop :=
  ∀ t, correspondenceStep db call = some t → Keeps db call t

/-- The letter has what a referral would give it. -/
def Letter.ReferredTo (toDeptId toUserId : Value) (now : String) (letter : Letter) : Prop :=
  letter.status = .text "Referred" ∧ letter.updatedAt = now ∧
    letter.columns "assigned_dept_id" = toDeptId ∧ letter.columns "assigned_user_id" = toUserId

/-- What makes a call lawful: a referral is of a letter that is not deleted, or changes nothing of it, and
`deleteIncoming` finds its letter, or has no attachments to delete. -/
def Orderly (db : CorrespondenceDb) (call : Bool × CorrespondenceOp) : Prop :=
  call.1 = false →
    match call.2 with
    | .refer incomingId toDeptId toUserId _ _ now =>
      ∀ letter ∈ db.incoming, letter.id = incomingId →
        letter.deletedAt = none ∨ letter.ReferredTo toDeptId toUserId now
    | .deleteIncoming id _ =>
      found db.incoming id = true ∨ ∀ attachment ∈ db.attachments, ofIncoming id attachment = false
    | _ => True

variable {db t : CorrespondenceDb} {letters : List Letter} {id : String}

/-- A referral leaves a letter exactly when the letter has all that it would get. -/
theorem referLetter_eq_self_iff {toDeptId toUserId : Value} {now : String} {letter : Letter} :
    referLetter toDeptId toUserId now letter = letter ↔ letter.ReferredTo toDeptId toUserId now := by
  constructor
  · intro h
    have hcolumns := congrArg Letter.columns h
    refine ⟨(congrArg Letter.status h).symm, (congrArg Letter.updatedAt h).symm, ?_, ?_⟩
    · have hdept := congrFun hcolumns "assigned_dept_id"
      simpa [referLetter] using hdept.symm
    · have huser := congrFun hcolumns "assigned_user_id"
      simpa [referLetter] using huser.symm
  · rintro ⟨hstatus, hnow, hdept, huser⟩
    rw [referLetter, ← hstatus, ← hnow, ← hdept, ← huser, Function.update_eq_self,
      Function.update_eq_self]

/-- An update of letters that are not deleted leaves the ones that are. -/
theorem deleted_mem_updateWhere {f : Letter → Letter} {letter : Letter} (hletter : letter ∈ letters)
    (hdeleted : letter.deletedAt ≠ none) : letter ∈ updateWhere (Letter.is id) f letters := by
  refine mem_updateWhere_of_not hletter ?_
  obtain ⟨at', hat⟩ := Option.ne_none_iff_exists'.1 hdeleted
  rw [Letter.is, hat]
  exact Bool.and_false _

/-- A call that changes nothing keeps everything. -/
theorem keeps_self (db : CorrespondenceDb) (call : Bool × CorrespondenceOp) : Keeps db call db :=
  ⟨fun _ h _ => h, fun _ h _ => h, fun _ _ => rfl⟩

/-- A call that succeeds keeps everything when it keeps the deleted letters. -/
theorem keeps_of_ok {call : Bool × CorrespondenceOp}
    (hincoming : ∀ letter ∈ db.incoming, letter.deletedAt ≠ none → letter ∈ t.incoming)
    (houtgoing : ∀ letter ∈ db.outgoing, letter.deletedAt ≠ none → letter ∈ t.outgoing)
    (hok : (db.perform call.1 call.2).1 = .ok ()) : Keeps db call t := by
  refine ⟨hincoming, houtgoing, fun message herror => ?_⟩
  have hne := hok.symm.trans herror
  exact absurd hne (by simp)

/-- A referral keeps everything exactly when it changes no deleted letter. -/
theorem keeps_refer_iff (hdb : Distinct db) (id : String) (toDeptId toUserId notes : Value)
    (userId now : String) :
    Keeps db (false, .refer id toDeptId toUserId notes userId now)
        (db.refer id toDeptId toUserId notes userId now).2 ↔
      ∀ letter ∈ db.incoming, letter.id = id →
        letter.deletedAt = none ∨ letter.ReferredTo toDeptId toUserId now := by
  by_cases hany : (db.incoming.any fun letter => letter.id = id) = true
  · have hrefer : db.refer id toDeptId toUserId notes userId now = (.ok (), { db with
        referrals := db.referrals ++ [⟨id, userId, toDeptId, toUserId, notes⟩]
        incoming := updateWhere (·.id = id) (referLetter toDeptId toUserId now) db.incoming }) :=
      if_pos hany
    have hmem : ∀ letter ∈ db.incoming,
        letter ∈ updateWhere (fun l => l.id = id) (referLetter toDeptId toUserId now) db.incoming ↔
          (letter.id = id → letter.ReferredTo toDeptId toUserId now) := by
      intro letter hletter
      have hleft := mem_updateWhere_iff (p := fun l => l.id = id)
        (f := referLetter toDeptId toUserId now) hdb.incoming (fun _ => rfl) hletter
      rw [hleft, referLetter_eq_self_iff, decide_eq_true_eq]
    rw [hrefer]
    constructor
    · intro hkeeps letter hletter hid
      by_cases hdeleted : letter.deletedAt = none
      · exact Or.inl hdeleted
      · exact Or.inr ((hmem letter hletter).1 (hkeeps.incoming letter hletter hdeleted) hid)
    · intro hall
      refine ⟨fun letter hletter hdeleted => (hmem letter hletter).2 fun hid => ?_,
        fun letter hletter _ => hletter, fun message herror => ?_⟩
      · exact (hall letter hletter hid).resolve_left hdeleted
      · have hok : (db.perform false (.refer id toDeptId toUserId notes userId now)).1 = .ok () :=
          congrArg Prod.fst hrefer
        exact absurd (hok.symm.trans herror) (by simp)
  · have hrefer : db.refer id toDeptId toUserId notes userId now = (.error .database, db) :=
      if_neg hany
    rw [hrefer]
    refine iff_of_true (keeps_self db _) fun letter hletter hid => ?_
    exact absurd (List.any_eq_true.2 ⟨letter, hletter, decide_eq_true hid⟩) hany

/-- A deletion keeps everything exactly when it finds its letter, or no attachment. -/
theorem keeps_deleteIncoming_iff {now : String} :
    Keeps db (false, .deleteIncoming id now) (db.deleteIncoming id now).2 ↔
      (found db.incoming id = true ∨
        ∀ attachment ∈ db.attachments, ofIncoming id attachment = false) := by
  by_cases hfound : found db.incoming id = true
  · refine iff_of_true ⟨?_, ?_, ?_⟩ (Or.inl hfound)
    · intro letter hletter hdeleted
      rw [deleteIncoming, if_pos hfound]
      exact deleted_mem_updateWhere hletter hdeleted
    · intro letter hletter _
      rw [deleteIncoming, if_pos hfound]
      exact hletter
    · intro message herror
      have hok : (db.perform false (.deleteIncoming id now)).1 = .ok () :=
        congrArg Prod.fst (if_pos hfound)
      exact absurd (hok.symm.trans herror) (by simp)
  · rw [or_iff_right hfound]
    have hdelete : db.deleteIncoming id now =
        (.error (.notFound "Incoming correspondence record not found"), { db with
          attachments := updateWhere (ofIncoming id) (deleteAttachment now) db.attachments
          incoming := updateWhere (Letter.is id) (deleteLetter now) db.incoming }) := if_neg hfound
    have hincoming : updateWhere (Letter.is id) (deleteLetter now) db.incoming = db.incoming :=
      updateWhere_eq_self fun letter hletter => Bool.eq_false_iff.2 fun his =>
        hfound (List.any_eq_true.2 ⟨letter, hletter, his⟩)
    rw [hincoming] at hdelete
    rw [hdelete]
    constructor
    · intro hkeeps attachment hattachment
      have hsame := congrArg CorrespondenceDb.attachments
        (hkeeps.notFound _ (congrArg Prod.fst hdelete))
      refine Bool.eq_false_iff.2 fun hof => ?_
      -- The attachment was not deleted, and is now.
      have heq := updateWhere_eq_self_iff.1 hsame attachment hattachment hof
      have hdeleted : attachment.deletedAt = some now := congrArg Attachment.deletedAt heq.symm
      rw [ofIncoming, hdeleted] at hof
      simp at hof
    · intro hnone
      rw [updateWhere_eq_self hnone]
      exact keeps_self db _

/-- The letters of a table after a statement that selects the one with an id that is not deleted. -/
def Selects (id : String) (letters after : List Letter) : Prop :=
  after = letters ∨ ∃ f, after = updateWhere (Letter.is id) f letters

theorem Selects.deleted_mem {after : List Letter} (h : Selects id letters after) :
    ∀ letter ∈ letters, letter.deletedAt ≠ none → letter ∈ after := by
  intro letter hletter hdeleted
  rcases h with hsame | ⟨f, hf⟩
  · rwa [hsame]
  · rw [hf]
    exact deleted_mem_updateWhere hletter hdeleted

/-- An operation keeps everything when its statements select letters that are not deleted, and it changes
nothing where it throws. -/
theorem keeps_of_selects {call : Bool × CorrespondenceOp}
    (h : (db.perform call.1 call.2).2 = db ∨ (db.perform call.1 call.2).1 = .ok () ∧
      Selects id db.incoming (db.perform call.1 call.2).2.incoming ∧
      Selects id db.outgoing (db.perform call.1 call.2).2.outgoing) :
    Keeps db call (db.perform call.1 call.2).2 := by
  rcases h with hsame | ⟨hok, hincoming, houtgoing⟩
  · rw [hsame]
    exact keeps_self db call
  · exact keeps_of_ok hincoming.deleted_mem houtgoing.deleted_mem hok

/-- The operations that look at `deleted_at` in each of their statements keep everything. -/
theorem keeps_perform {op : CorrespondenceOp} (hrefer : ∀ i d u n f now, op ≠ .refer i d u n f now)
    (hdelete : ∀ i now, op ≠ .deleteIncoming i now)
    (hin : ∀ i n d u now, op ≠ .createIncoming i n d u now)
    (hout : ∀ i n d u now, op ≠ .createOutgoing i n d u now) :
    Keeps db (false, op) (db.perform false op).2 := by
  -- It is enough that one letter at most is written, by its id.
  suffices hselects : ∃ id, (db.perform false op).2 = db ∨ (db.perform false op).1 = .ok () ∧
      Selects id db.incoming (db.perform false op).2.incoming ∧
      Selects id db.outgoing (db.perform false op).2.outgoing by
    obtain ⟨id, h⟩ := hselects
    exact keeps_of_selects h
  cases op with
  | createIncoming id n d u now => exact absurd rfl (hin id n d u now)
  | createOutgoing id n d u now => exact absurd rfl (hout id n d u now)
  | refer i d u n f now => exact absurd rfl (hrefer i d u n f now)
  | deleteIncoming id now => exact absurd rfl (hdelete id now)
  | link incomingId outgoingId linkType userId => exact ⟨"", Or.inr ⟨rfl, Or.inl rfl, Or.inl rfl⟩⟩
  | addAttachment correspondenceId correspondenceType columns =>
    exact ⟨"", Or.inr ⟨rfl, Or.inl rfl, Or.inl rfl⟩⟩
  | updateStatus type id newStatus notes userId now =>
    refine ⟨id, ?_⟩
    simp only [perform, updateStatus, Bool.false_eq_true, if_false]
    split
    · exact Or.inl rfl
    · split_ifs
      · exact Or.inr ⟨rfl, Or.inl rfl, Or.inr ⟨_, rfl⟩⟩
      · exact Or.inr ⟨rfl, Or.inr ⟨_, rfl⟩, Or.inl rfl⟩
  | archive type id now =>
    refine ⟨id, ?_⟩
    simp only [perform, archive, Bool.false_eq_true, if_false]
    split_ifs
    · exact Or.inr ⟨rfl, Or.inr ⟨_, rfl⟩, Or.inl rfl⟩
    · exact Or.inl rfl
    · exact Or.inr ⟨rfl, Or.inl rfl, Or.inr ⟨_, rfl⟩⟩
    · exact Or.inl rfl
  | updateOutgoing id data now =>
    refine ⟨id, ?_⟩
    simp only [perform, updateOutgoing, Bool.false_eq_true, if_false]
    split_ifs
    · exact Or.inl rfl
    · exact Or.inr ⟨rfl, Or.inl rfl, Or.inr ⟨_, rfl⟩⟩
    · exact Or.inl rfl
  | updateIncoming id data now =>
    refine ⟨id, ?_⟩
    simp only [perform, updateIncoming, Bool.false_eq_true, if_false]
    split_ifs
    · exact Or.inl rfl
    · exact Or.inr ⟨rfl, Or.inr ⟨_, rfl⟩, Or.inl rfl⟩
    · exact Or.inl rfl
  | deleteOutgoing id now =>
    refine ⟨id, ?_⟩
    simp only [perform, deleteOutgoing, Bool.false_eq_true, if_false]
    split_ifs
    · exact Or.inr ⟨rfl, Or.inl rfl, Or.inr ⟨_, rfl⟩⟩
    · exact Or.inl rfl

/-- A call is lawful exactly when it is orderly. -/
theorem lawful_step_iff (db : CorrespondenceDb) (call : Bool × CorrespondenceOp)
    (t : CorrespondenceDb) (hdb : Distinct db) (hstep : correspondenceStep db call = some t) :
    Lawful db call ↔ Orderly db call := by
  have hlawful : Lawful db call ↔ Keeps db call t := forall_step_iff hstep
  rw [hlawful]
  obtain ⟨fails, op⟩ := call
  cases fails with
  | true =>
    have ht : t = db := eq_perform_of_step hstep
    rw [ht]
    exact iff_of_true (keeps_self db _) fun h => absurd h (by simp)
  | false =>
    cases op with
    | createIncoming id n d u now =>
      obtain rfl := eq_perform_of_step hstep
      refine iff_of_true ?_ fun _ => trivial
      exact keeps_of_ok (fun letter h _ => List.mem_append_left _ h) (fun letter h _ => h) rfl
    | createOutgoing id n d u now =>
      obtain rfl := eq_perform_of_step hstep
      refine iff_of_true ?_ fun _ => trivial
      exact keeps_of_ok (fun letter h _ => h) (fun letter h _ => List.mem_append_left _ h) rfl
    | refer incomingId toDeptId toUserId notes userId now =>
      obtain rfl := Option.some.inj hstep
      have hiff := keeps_refer_iff hdb incomingId toDeptId toUserId notes userId now
      exact hiff.trans ⟨fun ho _ => ho, fun ho => ho rfl⟩
    | deleteIncoming id now =>
      obtain rfl := Option.some.inj hstep
      exact keeps_deleteIncoming_iff.trans ⟨fun ho _ => ho, fun ho => ho rfl⟩
    | _ =>
      obtain rfl := Option.some.inj hstep
      exact iff_of_true (keeps_perform (by simp) (by simp) (by simp) (by simp)) fun _ => trivial

/-- In every run, every call keeps the deleted letters, and the tables where it throws `NotFoundError`,
exactly when every call is orderly. -/
theorem frozen_iff_orderly (calls : List (Bool × CorrespondenceOp)) :
    Guarded correspondenceStep Lawful .empty calls ↔
      Guarded correspondenceStep Orderly .empty calls := by
  have hdistinct : ∀ s a u, Distinct s → Lawful s a → correspondenceStep s a = some u → Distinct u :=
    fun s a u hs _ hstep => hs.step hstep
  refine guarded_congr hdistinct lawful_step_iff calls ?_
  exact ⟨List.nodup_nil, List.nodup_nil, fun _ h => absurd h List.not_mem_nil⟩

/-- A letter is received, deleted and referred. -/
def referredAfterDeletion : List (Bool × CorrespondenceOp) :=
  [(false, .createIncoming "i1" "INC-2025-0001" letterBody "u1" "t1"),
    (false, .deleteIncoming "i1" "t2"),
    (false, .refer "i1" (.text "d1") .null .null "u1" "t3")]

/-- The referral changes the letter that is deleted. -/
theorem referredAfterDeletion_not_frozen :
    ¬∀ calls : List (Bool × CorrespondenceOp), Guarded correspondenceStep Lawful .empty calls := by
  intro hall
  obtain ⟨-, hdelete⟩ := hall referredAfterDeletion _ rfl
  obtain ⟨-, hrefer⟩ := hdelete _ rfl
  obtain ⟨hlawful, -⟩ := hrefer _ rfl
  have hkept := (hlawful _ rfl).incoming _ (List.mem_singleton_self _) (by decide)
  have hstatus := congrArg Letter.status (List.mem_singleton.1 hkept)
  exact absurd hstatus (by decide)

end AlsaqiBackend.Correspondence
