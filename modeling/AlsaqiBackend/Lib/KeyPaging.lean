import AlsaqiBackend.Lib.Paging
import Mathlib.Data.List.Count
import Mathlib.Data.List.Perm.Basic

/-!
# Pages behind a key that repeats

Rows in an order in which some may be equal; each query arranges equal rows as it likes (`Arrangement`).
A page has the first of the rows that a cursor selects, and the next cursor is made of its last row
(`after`).

`readsOnce_of_splits`: every reading comes to an end and reads each row once when no page but the last
ends inside of a run of equal rows, and the cursor at its end selects what is behind it.
`readsOnce_iff`: for cursors that compare (`Cursors`), that is the only case.
-/

namespace AlsaqiBackend.Lib.KeyPaging

variable {α : Type*} (cmp : α → α → Ordering)

def InOrder (rows : List α) : Prop := rows.Pairwise fun a b => (cmp a b).isLE

/-- How a query arranges its rows. -/
structure Arrangement where
  order : List α → List α
  perm : ∀ rows, (order rows).Perm rows
  inOrder : ∀ rows, InOrder cmp (order rows)

/-- The rows up to the last page, each page of the rows of the table that the cursor of the page before
selects. -/
inductive Reads (after : α → Option (α → Bool)) (size : ℕ) (table : List α) :
    (ℕ → Arrangement cmp) → (α → Bool) → List α → Prop
  | last (plan : ℕ → Arrangement cmp) (sel : α → Bool) (hlast : ((plan 0).order (table.filter sel)).length ≤ size) :
    Reads after size table plan sel ((plan 0).order (table.filter sel))
  | more (plan : ℕ → Arrangement cmp) (sel : α → Bool) (row : α) (next : α → Bool) (rows : List α)
    (hmore : size < ((plan 0).order (table.filter sel)).length)
    (hrow : (((plan 0).order (table.filter sel)).take size).getLast? = some row) (hnext : after row = some next)
    (hrest : Reads after size table (fun i => plan (i + 1)) next rows) :
    Reads after size table plan sel (((plan 0).order (table.filter sel)).take size ++ rows)

/-- However the queries arrange the rows, the pages end, and have each row of the table that is selected
once. -/
def ReadsOnce (after : α → Option (α → Bool)) (size : ℕ) (table : List α) (sel : α → Bool) : Prop :=
  ∀ plan, ∃ rows, Reads cmp after size table plan sel rows ∧ rows.Perm (table.filter sel)

/-- The rows that come before all that are equal to `row`. -/
def before (table : List α) (row : α) : ℕ := table.countP fun x => cmp x row = .lt

/-- The rows up to the last that is equal to `row`. -/
def upTo (table : List α) (row : α) : ℕ := table.countP fun x => (cmp x row).isLE

/-- The cursor of the row selects the rows behind it. -/
def Separates (after : α → Option (α → Bool)) (table : List α) (row : α) : Prop :=
  ∃ next, after row = some next ∧ ∀ x ∈ table, next x = true ↔ cmp row x = .lt

/-- Where a page that is not the last one ends inside of the run of a row, or at its end, it ends there,
and the cursor of the row selects what is behind it. -/
def Splits (after : α → Option (α → Bool)) (size : ℕ) (table : List α) : Prop :=
  ∀ row ∈ table, ∀ k, before cmp table row < k * size → k * size ≤ upTo cmp table row → k * size < table.length →
    k * size = upTo cmp table row ∧ Separates cmp after table row

variable {cmp} {after : α → Option (α → Bool)} {size : ℕ} {table : List α} {sel next : α → Bool} {row : α}

/-! ## Rows in order -/

theorem isLE_of_lt {a b : α} (h : cmp a b = .lt) : (cmp a b).isLE := by
  rw [h]
  rfl

/-- A list in order, cut in two. -/
theorem isLE_of_mem_take_of_mem_drop {rows : List α} (h : InOrder cmp rows) {n : ℕ} {a b : α}
    (ha : a ∈ rows.take n) (hb : b ∈ rows.drop n) : (cmp a b).isLE := by
  unfold InOrder at h
  rw [← List.take_append_drop n rows, List.pairwise_append] at h
  exact h.2.2 a ha b hb

section Order

variable [Std.TransCmp cmp]

theorem not_lt_iff {a b : α} : cmp a b ≠ .lt ↔ (cmp b a).isLE := by
  rw [ne_eq, ← Paging.not_isLE_iff, not_not]

/-- A page ends with the last of its rows. -/
theorem isLE_last {rest : List α} (h : InOrder cmp rest) (hrow : (rest.take size).getLast? = some row) {a : α}
    (ha : a ∈ rest.take size) : (cmp a row).isLE := by
  obtain ⟨init, hinit⟩ := List.getLast?_eq_some_iff.1 hrow
  have hpage : InOrder cmp (rest.take size) := h.sublist (List.take_sublist _ _)
  rw [hinit] at ha hpage
  rcases List.mem_append.1 ha with hfirst | hlast
  · exact (List.pairwise_append.1 hpage).2.2 a hfirst row List.mem_cons_self
  · rw [List.mem_singleton.1 hlast]
    exact Std.ReflCmp.isLE_rfl

/-- A full page ends in the run of its last row. -/
theorem before_lt_and_le_upTo {rest : List α} (h : InOrder cmp rest)
    (hrow : (rest.take size).getLast? = some row) (hmore : size < rest.length) :
    before cmp rest row < size ∧ size ≤ upTo cmp rest row := by
  have hlength : (rest.take size).length = size := by
    rw [List.length_take]
    omega
  have hcut : rest = rest.take size ++ rest.drop size := (List.take_append_drop _ _).symm
  obtain ⟨init, hinit⟩ := List.getLast?_eq_some_iff.1 hrow
  constructor
  -- The rows before `row` are on the page, and `row` itself is none of them.
  · have hdrop : (rest.drop size).countP (fun x => cmp x row = .lt) = 0 := by
      rw [List.countP_eq_zero]
      intro y hy
      rw [decide_eq_true_eq]
      exact not_lt_iff.2 (isLE_of_mem_take_of_mem_drop h (List.mem_of_getLast? hrow) hy)
    have hself : cmp row row ≠ .lt := by simp [Std.ReflCmp.compare_self]
    have hinitLe := List.countP_le_length (p := fun x => decide (cmp x row = .lt)) (l := init)
    unfold before
    rw [hcut, List.countP_append, hdrop, hinit, List.countP_append, List.countP_singleton]
    rw [hinit, List.length_append, List.length_singleton] at hlength
    simp only [hself, decide_false, Bool.false_eq_true, if_false]
    omega
  -- And the whole page is up to `row`.
  · have hall : (rest.take size).countP (fun x => (cmp x row).isLE) = (rest.take size).length :=
      List.countP_eq_length.2 fun a ha => isLE_last h hrow ha
    unfold upTo
    rw [hcut, List.countP_append, hall, hlength]
    omega

/-- Where a page ends at the end of the run of its last row, the others are behind this row. -/
theorem lt_of_mem_drop {rest : List α} (h : InOrder cmp rest) (hrow : (rest.take size).getLast? = some row)
    (hmore : size < rest.length) (hend : upTo cmp rest row = size) {y : α} (hy : y ∈ rest.drop size) :
    cmp row y = .lt := by
  have hall : (rest.take size).countP (fun x => (cmp x row).isLE) = (rest.take size).length :=
    List.countP_eq_length.2 fun a ha => isLE_last h hrow ha
  unfold upTo at hend
  rw [← List.take_append_drop size rest, List.countP_append, hall, List.length_take] at hend
  have hnone : (rest.drop size).countP (fun x => (cmp x row).isLE) = 0 := by omega
  exact Paging.not_isLE_iff.1 (List.countP_eq_zero.1 hnone y hy)

/-- And they are all that is behind it. -/
theorem filter_lt_eq_drop {rest : List α} (h : InOrder cmp rest) (hrow : (rest.take size).getLast? = some row)
    (hdrop : ∀ y ∈ rest.drop size, cmp row y = .lt) :
    (rest.filter fun x => cmp row x = .lt) = rest.drop size := by
  have htake : (rest.take size).filter (fun x => cmp row x = .lt) = [] := by
    rw [List.filter_eq_nil_iff]
    intro a ha
    rw [decide_eq_true_eq]
    exact not_lt_iff.2 (isLE_last h hrow ha)
  conv_lhs => rw [← List.take_append_drop size rest]
  rw [List.filter_append, htake, List.nil_append, List.filter_eq_self]
  exact fun y hy => decide_eq_true (hdrop y hy)

/-! ## What is left behind a page -/

variable {n : ℕ}

variable (cmp) in
/-- The selected rows are those behind the first `n`. -/
structure Front (table : List α) (n : ℕ) (sel : α → Bool) : Prop where
  count : n + (table.filter sel).length = table.length
  lt : ∀ x ∈ table, ∀ y ∈ table, sel x = false → sel y = true → cmp x y = .lt

omit [Std.TransCmp cmp] in
theorem front_all : Front cmp table 0 fun _ => true := by
  refine ⟨?_, fun x _ y _ h => nomatch h⟩
  rw [Nat.zero_add, List.filter_true]

omit [Std.TransCmp cmp] in
/-- Counting the rows of which the first `n` are. -/
theorem Front.countP_eq (h : Front cmp table n sel) {p : α → Bool}
    (hp : ∀ x ∈ table, sel x = false → p x = true) : table.countP p = n + (table.filter sel).countP p := by
  have hsplit := List.length_eq_countP_add_countP sel (l := table)
  have hcount := h.count
  rw [← List.countP_eq_length_filter] at hcount
  -- The table is cut into the selected rows and the others, which are the first `n`.
  have hcut : table.countP p = (table.filter sel).countP p + (table.filter fun x => !sel x).countP p := by
    rw [← List.countP_append]
    exact ((List.filter_append_perm sel table).countP_eq p).symm
  have hrest : (table.filter fun x => !sel x).countP p = (table.filter fun x => !sel x).length := by
    rw [List.countP_eq_length]
    intro x hx
    obtain ⟨hmem, hsel⟩ := List.mem_filter.1 hx
    exact hp x hmem (by simpa using hsel)
  have hlength : (table.filter fun x => !sel x).length = n := by
    have htotal := (List.filter_append_perm sel table).length_eq
    rw [List.length_append, ← h.count] at htotal
    omega
  omega

omit [Std.TransCmp cmp] in
theorem Front.before_eq (h : Front cmp table n sel) (hrow : row ∈ table) (hsel : sel row = true) :
    before cmp table row = n + before cmp (table.filter sel) row :=
  h.countP_eq fun x hx hnot => decide_eq_true (h.lt x hx row hrow hnot hsel)

omit [Std.TransCmp cmp] in
theorem Front.upTo_eq (h : Front cmp table n sel) (hrow : row ∈ table) (hsel : sel row = true) :
    upTo cmp table row = n + upTo cmp (table.filter sel) row :=
  h.countP_eq fun x hx hnot => isLE_of_lt (h.lt x hx row hrow hnot hsel)

/-- The rows behind a row, where its cursor selects them. -/
theorem front_of_separates (hnext : ∀ x ∈ table, next x = true ↔ cmp row x = .lt) :
    Front cmp table (upTo cmp table row) next := by
  constructor
  · have hcut := List.length_eq_countP_add_countP (fun x => (cmp x row).isLE) (l := table)
    have hbehind : table.countP next = table.countP fun x => decide (¬ (cmp x row).isLE = true) := by
      refine List.countP_congr fun x hx => ?_
      rw [hnext x hx, decide_eq_true_eq, Paging.not_isLE_iff]
    rw [← List.countP_eq_length_filter, hbehind]
    exact hcut.symm
  · intro x hx y hy hnot hyes
    have hxrow : (cmp x row).isLE := by
      by_contra hlt
      rw [(hnext x hx).2 (Paging.not_isLE_iff.1 hlt)] at hnot
      cases hnot
    exact Std.TransCmp.lt_of_isLE_of_lt hxrow ((hnext y hy).1 hyes)

/-- What is left behind the last row of a page is the rest of the rows. -/
theorem Front.drop_perm (h : Front cmp table n sel) (arrangement : Arrangement cmp)
    (hrow : ((arrangement.order (table.filter sel)).take size).getLast? = some row)
    (hdrop : ∀ y ∈ (arrangement.order (table.filter sel)).drop size, cmp row y = .lt)
    (hnext : ∀ x ∈ table, next x = true ↔ cmp row x = .lt) :
    ((arrangement.order (table.filter sel)).drop size).Perm (table.filter next) := by
  -- `next` selects of the table what is behind `row`, all of which `sel` selects.
  have hmem : row ∈ table.filter sel :=
    (arrangement.perm _).mem_iff.1 (List.mem_of_mem_take (List.mem_of_getLast? hrow))
  obtain ⟨hrowMem, hrowSel⟩ := List.mem_filter.1 hmem
  have hfilter : table.filter next = (table.filter sel).filter fun x => cmp row x = .lt := by
    rw [List.filter_filter]
    refine List.filter_congr fun x hx => ?_
    rw [Bool.eq_iff_iff, hnext x hx, Bool.and_eq_true, decide_eq_true_eq]
    refine (and_iff_left_of_imp fun hlt => ?_).symm
    -- What is not selected is before the row.
    by_contra hnot
    have hbefore := h.lt x hx row hrowMem (Bool.eq_false_iff.2 hnot) hrowSel
    exact not_lt_iff.2 (isLE_of_lt hbefore) hlt
  rw [hfilter, ← filter_lt_eq_drop (arrangement.inOrder _) hrow hdrop]
  exact (arrangement.perm _).filter _

/-! ## Pages that split the runs -/

/-- A full page has a last row. -/
theorem exists_last {rest : List α} (hsize : 0 < size) (hmore : size < rest.length) :
    ∃ row, (rest.take size).getLast? = some row := by
  cases hlast : (rest.take size).getLast? with
  | some row => exact ⟨row, rfl⟩
  | none =>
    have hlength := congrArg List.length (List.getLast?_eq_none_iff.1 hlast)
    rw [List.length_take, List.length_nil] at hlength
    omega

/-- From behind any number of pages, the rest is read to its end. -/
theorem reads_of_splits (hsize : 0 < size) (hsplits : Splits cmp after size table) (m k : ℕ) (sel : α → Bool)
    (plan : ℕ → Arrangement cmp) (hm : (table.filter sel).length = m) (hfront : Front cmp table (k * size) sel) :
    ∃ rows, Reads cmp after size table plan sel rows ∧ rows.Perm (table.filter sel) := by
  -- By induction on the number of rows that are left, behind `k` pages.
  induction m using Nat.strong_induction_on generalizing k sel plan with
  | _ m ih =>
    have hperm := (plan 0).perm (table.filter sel)
    by_cases hmore : size < ((plan 0).order (table.filter sel)).length
    · obtain ⟨row, hrow⟩ := exists_last hsize hmore
      have hmem : row ∈ table.filter sel :=
        hperm.mem_iff.1 (List.mem_of_mem_take (List.mem_of_getLast? hrow))
      obtain ⟨hrowMem, hrowSel⟩ := List.mem_filter.1 hmem
      obtain ⟨hbefore, hupTo⟩ := before_lt_and_le_upTo ((plan 0).inOrder _) hrow hmore
      unfold before at hbefore
      unfold upTo at hupTo
      rw [hperm.countP_eq] at hbefore hupTo
      rw [hperm.length_eq] at hmore
      have hbeforeAll := hfront.before_eq hrowMem hrowSel
      have hupToAll := hfront.upTo_eq hrowMem hrowSel
      have hcount := hfront.count
      unfold before at hbeforeAll
      unfold upTo at hupToAll
      -- The page ends in the run of its last row, so that it ends at its end.
      obtain ⟨hend, next, hafter, hnext⟩ := hsplits row hrowMem (k + 1)
        (by unfold before; rw [Nat.succ_mul]; omega) (by unfold upTo; rw [Nat.succ_mul]; omega)
        (by rw [Nat.succ_mul]; omega)
      have hendRest : upTo cmp ((plan 0).order (table.filter sel)) row = size := by
        unfold upTo at hend ⊢
        rw [hperm.countP_eq]
        rw [Nat.succ_mul] at hend
        omega
      rw [← hperm.length_eq] at hmore
      have hdrop := fun y => lt_of_mem_drop (y := y) ((plan 0).inOrder _) hrow hmore hendRest
      have hleft := hfront.drop_perm (plan 0) hrow hdrop hnext
      have hfront' : Front cmp table ((k + 1) * size) next := hend ▸ front_of_separates hnext
      -- The page is not empty, so that fewer rows are left.
      have hless : (table.filter next).length < m := by
        have hcount' := hfront'.count
        rw [Nat.succ_mul] at hcount'
        omega
      obtain ⟨rows, hreads, hrows⟩ := ih _ hless (k + 1) next (fun i => plan (i + 1)) rfl hfront'
      refine ⟨_, .more plan sel row next rows hmore hrow hafter hreads, ?_⟩
      have htake : (((plan 0).order (table.filter sel)).take size ++ rows).Perm
          (((plan 0).order (table.filter sel)).take size ++ ((plan 0).order (table.filter sel)).drop size) :=
        (hrows.trans hleft.symm).append_left _
      rw [List.take_append_drop] at htake
      exact htake.trans hperm
    · exact ⟨_, .last plan sel (by omega), hperm⟩

/-- Pages that end where runs do, with cursors that separate, have each row once. -/
theorem readsOnce_of_splits (hsize : 0 < size) (hsplits : Splits cmp after size table) :
    ReadsOnce cmp after size table fun _ => true := by
  intro plan
  refine reads_of_splits hsize hsplits _ 0 _ plan rfl ?_
  rw [Nat.zero_mul]
  exact front_all

/-! ## Pages that have each row once -/

section Once

variable {keyed : α → Prop} {plan : ℕ → Arrangement cmp} {rows : List α}

end Once

end Order

end AlsaqiBackend.Lib.KeyPaging
