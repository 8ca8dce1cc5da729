import Mathlib.Data.List.Sort
import Mathlib.Order.Defs.Unbundled

/-!
# Reading a table page by page

Rows with an order `cmp`. A page after a cursor has the first rows behind it, and the next cursor is its
last row where more are left (`nextPage`); `follow` reads page after page, each from the table as it is
then. Where no two rows of a table are equal in the order, the pages are in order and without repetition
(`follow_pairwise`), what stays in the table is met before the end (`mem_of_follow_end`), and a table that
does not change has an end (`follow_replicate`).

Pages by number cut the rows into pieces of one size, which together are the rows
(`flatMap_numberedPage_pageCount`).
-/

namespace AlsaqiBackend.Lib.Paging

variable {α : Type*} (cmp : α → α → Ordering)

/-- The row is behind the cursor; without one every row is. -/
def isAfter (cursor : Option α) (x : α) : Bool :=
  match cursor with
  | none => true
  | some c => cmp c x = .lt

/-- The rows in their order. -/
def sorted (rows : List α) : List α := rows.insertionSort fun a b => (cmp a b).isLE

/-- The rows behind the cursor. -/
def remaining (rows : List α) (cursor : Option α) : List α :=
  sorted cmp (rows.filter (isAfter cmp cursor))

/-- A page, and the cursor behind it where more rows are left. -/
def nextPage (size : ℕ) (rows : List α) (cursor : Option α) : List α × Option α :=
  let rest := remaining cmp rows cursor
  (rest.take size, if size < rest.length then (rest.take size).getLast? else none)

/-- Page after page, each of the table at its time; `none` says that the last one has been read. -/
def follow (size : ℕ) : List (List α) → Option α → List (List α) × Option α
  | [], cursor => ([], cursor)
  | rows :: tables, cursor =>
    match nextPage cmp size rows cursor with
    | (page, none) => ([page], none)
    | (page, some c) =>
      let (pages, next) := follow size tables (some c)
      (page :: pages, next)

/-- No two rows are equal in the order. -/
def Distinct (rows : List α) : Prop := rows.Pairwise fun a b => cmp a b ≠ .eq

variable {cmp} {size : ℕ} {rows : List α} {cursor : Option α} {x c : α}

theorem mem_remaining : x ∈ remaining cmp rows cursor ↔ x ∈ rows ∧ isAfter cmp cursor x = true := by
  unfold remaining sorted
  rw [List.mem_insertionSort, List.mem_filter]

/-- The next cursor is the last row of the page. -/
theorem nextPage_snd_eq_some (h : (nextPage cmp size rows cursor).2 = some c) :
    size < (remaining cmp rows cursor).length ∧
      ((remaining cmp rows cursor).take size).getLast? = some c := by
  unfold nextPage at h
  simp only at h
  split_ifs at h with hmore
  exact ⟨hmore, h⟩

/-- The row of the next cursor is on the page, and the page ends with it. -/
theorem exists_page (h : (nextPage cmp size rows cursor).2 = some c) :
    ∃ init, (nextPage cmp size rows cursor).1 = init ++ [c] :=
  List.getLast?_eq_some_iff.1 (nextPage_snd_eq_some h).2

theorem follow_cons_none {tables : List (List α)} (h : (nextPage cmp size rows cursor).2 = none) :
    follow cmp size (rows :: tables) cursor = ([(nextPage cmp size rows cursor).1], none) := by
  rw [follow]
  generalize nextPage cmp size rows cursor = page at h
  obtain ⟨data, next⟩ := page
  obtain rfl : next = none := h
  rfl

theorem follow_cons_some {tables : List (List α)} (h : (nextPage cmp size rows cursor).2 = some c) :
    follow cmp size (rows :: tables) cursor =
      ((nextPage cmp size rows cursor).1 :: (follow cmp size tables (some c)).1,
        (follow cmp size tables (some c)).2) := by
  rw [follow]
  generalize nextPage cmp size rows cursor = page at h
  obtain ⟨data, next⟩ := page
  obtain rfl : next = some c := h
  rfl

variable [Std.TransCmp cmp]

/-- What is not at most another row is behind it. -/
theorem not_isLE_iff {a b : α} : ¬ (cmp a b).isLE ↔ cmp b a = .lt := by
  have hswap : cmp b a = (cmp a b).swap := Std.OrientedCmp.eq_swap
  rw [hswap]
  cases cmp a b <;> simp

theorem pairwise_isLE_sorted (rows : List α) : (sorted cmp rows).Pairwise fun a b => (cmp a b).isLE := by
  have htotal : Std.Total fun a b : α => ((cmp a b).isLE : Prop) := by
    constructor
    intro a b
    refine or_iff_not_imp_left.2 fun hnot => ?_
    rw [not_isLE_iff.1 hnot]
    rfl
  have htrans : IsTrans α fun a b : α => ((cmp a b).isLE : Prop) :=
    ⟨fun a b c hab hbc => Std.TransCmp.isLE_trans hab hbc⟩
  exact List.pairwise_insertionSort (fun a b : α => ((cmp a b).isLE : Prop)) rows

/-- Distinct rows are sorted strictly. -/
theorem pairwise_sorted (h : Distinct cmp rows) : (sorted cmp rows).Pairwise fun a b => cmp a b = .lt := by
  have hne : (sorted cmp rows).Pairwise fun a b => cmp a b ≠ .eq := by
    refine (List.perm_insertionSort _ rows).symm.pairwise h ?_
    intro a b hab heq
    exact hab (Std.OrientedCmp.eq_symm heq)
  refine ((pairwise_isLE_sorted rows).and hne).imp ?_
  rintro a b ⟨hab, hneq⟩
  cases hcmp : cmp a b with
  | lt => rfl
  | eq => exact absurd hcmp hneq
  | gt =>
    rw [hcmp] at hab
    cases hab

theorem pairwise_remaining (h : Distinct cmp rows) :
    (remaining cmp rows cursor).Pairwise fun a b => cmp a b = .lt :=
  pairwise_sorted (h.sublist List.filter_sublist)

/-- What is behind the next cursor is behind the whole page. -/
theorem lt_of_isAfter_next (h : Distinct cmp rows) (hnext : (nextPage cmp size rows cursor).2 = some c)
    {a b : α} (ha : a ∈ (nextPage cmp size rows cursor).1) (hb : isAfter cmp (some c) b = true) :
    cmp a b = .lt := by
  have hcb : cmp c b = .lt := of_decide_eq_true hb
  obtain ⟨init, hinit⟩ := exists_page hnext
  have hpage : (nextPage cmp size rows cursor).1.Pairwise fun a b => cmp a b = .lt :=
    (pairwise_remaining h).sublist (List.take_sublist _ _)
  rw [hinit] at ha hpage
  rcases List.mem_append.1 ha with hinner | hlast
  · have hac := (List.pairwise_append.1 hpage).2.2 a hinner c List.mem_cons_self
    exact Std.TransCmp.lt_trans hac hcb
  · rw [List.mem_singleton.1 hlast]
    exact hcb

/-- A row behind the cursor is on the page, or behind the next cursor. -/
theorem mem_page_or_isAfter (hsize : 0 < size) (h : Distinct cmp rows) (hx : x ∈ rows)
    (hafter : isAfter cmp cursor x = true) :
    x ∈ (nextPage cmp size rows cursor).1 ∨
      ∃ c, (nextPage cmp size rows cursor).2 = some c ∧ isAfter cmp (some c) x = true := by
  have hrest : x ∈ remaining cmp rows cursor := mem_remaining.2 ⟨hx, hafter⟩
  rw [← List.take_append_drop size (remaining cmp rows cursor), List.mem_append] at hrest
  refine hrest.imp_right fun hdrop => ?_
  have hlt : size < (remaining cmp rows cursor).length := by
    by_contra hge
    rw [List.drop_eq_nil_of_le (by omega)] at hdrop
    cases hdrop
  cases hlast : ((remaining cmp rows cursor).take size).getLast? with
  | none =>
    have hlength := congrArg List.length (List.getLast?_eq_none_iff.1 hlast)
    rw [List.length_take, List.length_nil] at hlength
    omega
  | some c =>
    refine ⟨c, ?_, ?_⟩
    · unfold nextPage
      simp only
      rw [if_pos hlt, hlast]
    · have hpair : (remaining cmp rows cursor).Pairwise fun a b => cmp a b = .lt := pairwise_remaining h
      rw [← List.take_append_drop size (remaining cmp rows cursor)] at hpair
      have hc : c ∈ (remaining cmp rows cursor).take size := List.mem_of_getLast? hlast
      exact decide_eq_true ((List.pairwise_append.1 hpair).2.2 c hc x hdrop)

/-! ## Page after page -/

/-- What is read comes from one of the tables, from behind the cursor. -/
theorem of_mem_follow {tables : List (List α)} (hx : x ∈ (follow cmp size tables cursor).1.flatten)
    (h : ∀ rows ∈ tables, Distinct cmp rows) :
    (∃ rows ∈ tables, x ∈ rows) ∧ isAfter cmp cursor x = true := by
  induction tables generalizing cursor with
  | nil => cases hx
  | cons rows tables ih =>
    have hpage : ∀ y ∈ (nextPage cmp size rows cursor).1, y ∈ rows ∧ isAfter cmp cursor y = true :=
      fun y hy => mem_remaining.1 (List.mem_of_mem_take hy)
    cases hnext : (nextPage cmp size rows cursor).2 with
    | none =>
      rw [follow_cons_none hnext, List.flatten_singleton] at hx
      exact ⟨⟨rows, List.mem_cons_self, (hpage x hx).1⟩, (hpage x hx).2⟩
    | some c =>
      rw [follow_cons_some hnext, List.flatten_cons, List.mem_append] at hx
      rcases hx with hfirst | hrest
      · exact ⟨⟨rows, List.mem_cons_self, (hpage x hfirst).1⟩, (hpage x hfirst).2⟩
      · obtain ⟨⟨rows', hrows', hx'⟩, hafter⟩ := ih hrest fun r hr => h r (List.mem_cons_of_mem _ hr)
        refine ⟨⟨rows', List.mem_cons_of_mem _ hrows', hx'⟩, ?_⟩
        -- The next cursor is behind the cursor itself.
        obtain ⟨init, hinit⟩ := exists_page hnext
        have hc := (hpage c (hinit ▸ List.mem_append_right _ List.mem_cons_self)).2
        cases cursor with
        | none => rfl
        | some b =>
          have hbc : cmp b c = .lt := of_decide_eq_true hc
          exact decide_eq_true (Std.TransCmp.lt_trans hbc (of_decide_eq_true hafter))

/-- The pages are in order, and no row is read twice. -/
theorem follow_pairwise {tables : List (List α)} (h : ∀ rows ∈ tables, Distinct cmp rows) :
    (follow cmp size tables cursor).1.flatten.Pairwise fun a b => cmp a b = .lt := by
  induction tables generalizing cursor with
  | nil => exact List.Pairwise.nil
  | cons rows tables ih =>
    have hrows := h rows List.mem_cons_self
    have htables : ∀ r ∈ tables, Distinct cmp r := fun r hr => h r (List.mem_cons_of_mem _ hr)
    have hpage : (nextPage cmp size rows cursor).1.Pairwise fun a b => cmp a b = .lt :=
      (pairwise_remaining hrows).sublist (List.take_sublist _ _)
    cases hnext : (nextPage cmp size rows cursor).2 with
    | none =>
      rw [follow_cons_none hnext, List.flatten_singleton]
      exact hpage
    | some c =>
      rw [follow_cons_some hnext, List.flatten_cons, List.pairwise_append]
      refine ⟨hpage, ih htables, ?_⟩
      intro a ha b hb
      exact lt_of_isAfter_next hrows hnext ha (of_mem_follow hb htables).2

/-- A row that is in every table that was read has been met when the end is reached. -/
theorem mem_of_follow_end (hsize : 0 < size) {tables : List (List α)}
    (h : ∀ rows ∈ tables, Distinct cmp rows) (hne : tables ≠ [])
    (hend : (follow cmp size tables cursor).2 = none)
    (hx : ∀ rows ∈ tables.take (follow cmp size tables cursor).1.length, x ∈ rows)
    (hafter : isAfter cmp cursor x = true) : x ∈ (follow cmp size tables cursor).1.flatten := by
  induction tables generalizing cursor with
  | nil => exact absurd rfl hne
  | cons rows tables ih =>
    have hrows := h rows List.mem_cons_self
    cases hnext : (nextPage cmp size rows cursor).2 with
    | none =>
      rw [follow_cons_none hnext] at hx ⊢
      rcases mem_page_or_isAfter hsize hrows (hx rows (by simp)) hafter with hpage | ⟨c, hc, -⟩
      · rw [List.flatten_singleton]
        exact hpage
      · rw [hnext] at hc
        cases hc
    | some c =>
      rw [follow_cons_some hnext] at hx hend ⊢
      rw [List.flatten_cons, List.mem_append]
      rcases mem_page_or_isAfter hsize hrows (hx rows (by simp)) hafter with hpage | ⟨c', hc', hx'⟩
      · exact Or.inl hpage
      · rw [hnext, Option.some.injEq] at hc'
        rw [← hc'] at hx'
        refine Or.inr (ih (fun r hr => h r (List.mem_cons_of_mem _ hr)) ?_ hend ?_ hx')
        · rintro rfl
          cases hend
        · intro r hr
          refine hx r ?_
          rw [List.length_cons, List.take_succ_cons]
          exact List.mem_cons_of_mem _ hr

/-- Behind the next cursor fewer rows are left. -/
theorem remaining_lt (hnext : (nextPage cmp size rows cursor).2 = some c) :
    (remaining cmp rows (some c)).length < (remaining cmp rows cursor).length := by
  obtain ⟨init, hinit⟩ := exists_page hnext
  have hc : c ∈ (nextPage cmp size rows cursor).1 := hinit ▸ List.mem_append_right _ List.mem_cons_self
  have hmem : c ∈ rows.filter (isAfter cmp cursor) :=
    List.mem_filter.2 (mem_remaining.1 (List.mem_of_mem_take hc))
  have hsub : rows.filter (isAfter cmp (some c)) =
      (rows.filter (isAfter cmp cursor)).filter (isAfter cmp (some c)) := by
    rw [List.filter_filter]
    refine List.filter_congr fun x _ => ?_
    cases hx : isAfter cmp (some c) x with
    | false => rfl
    | true =>
      have hafter : isAfter cmp cursor x = true := by
        cases cursor with
        | none => rfl
        | some b =>
          have hbc : cmp b c = .lt := of_decide_eq_true (List.mem_filter.1 hmem).2
          exact decide_eq_true (Std.TransCmp.lt_trans hbc (of_decide_eq_true hx))
      rw [hafter]
      rfl
  unfold remaining sorted
  rw [List.length_insertionSort, List.length_insertionSort, hsub,
    List.length_filter_lt_length_iff_exists]
  refine ⟨c, hmem, ?_⟩
  show ¬ decide (cmp c c = .lt) = true
  have hself : cmp c c = .eq := Std.ReflCmp.compare_self
  rw [hself]
  simp

/-- A table that does not change is read to its end. -/
theorem follow_replicate (n : ℕ) (h : (remaining cmp rows cursor).length < n) :
    (follow cmp size (List.replicate n rows) cursor).2 = none := by
  induction n generalizing cursor with
  | zero => omega
  | succ n ih =>
    rw [List.replicate_succ]
    cases hnext : (nextPage cmp size rows cursor).2 with
    | none => rw [follow_cons_none hnext]
    | some c =>
      have hlt := remaining_lt hnext
      rw [follow_cons_some hnext]
      exact ih (by omega)

/-! ## Pages by number -/

/-- The rows of the page `k`, where the first page is 1. -/
def numberedPage (size : ℕ) (rows : List α) (k : ℕ) : List α := (rows.drop ((k - 1) * size)).take size

/-- The number of pages, rounded up. -/
def pageCount (size total : ℕ) : ℕ := (total + size - 1) / size

omit [Std.TransCmp cmp]

theorem flatMap_numberedPage (n : ℕ) :
    (List.range n).flatMap (fun i => numberedPage size rows (i + 1)) = rows.take (n * size) := by
  induction n with
  | zero => simp
  | succ n ih =>
    rw [List.range_succ, List.flatMap_append, ih, List.flatMap_singleton, Nat.add_mul, Nat.one_mul,
      List.take_add]
    rfl

/-- There is no row behind the last page. -/
theorem le_pageCount_mul (hsize : 0 < size) (total : ℕ) : total ≤ pageCount size total * size := by
  unfold pageCount
  have hlt := Nat.lt_div_mul_add (a := total + size - 1) hsize
  omega

/-- The pages together are the rows. -/
theorem flatMap_numberedPage_pageCount (hsize : 0 < size) (rows : List α) :
    (List.range (pageCount size rows.length)).flatMap (fun i => numberedPage size rows (i + 1)) = rows := by
  rw [flatMap_numberedPage, List.take_of_length_le (le_pageCount_mul hsize _)]

/-- Where everything fits on one page there is one at most. -/
theorem pageCount_le_one_iff (hsize : 0 < size) {total : ℕ} : pageCount size total ≤ 1 ↔ total ≤ size := by
  unfold pageCount
  rw [← Nat.lt_succ_iff, Nat.div_lt_iff_lt_mul hsize]
  omega

end AlsaqiBackend.Lib.Paging
