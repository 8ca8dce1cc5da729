import AlsaqiBackend.Lib.Checks
import AlsaqiBackend.Pagination.Keyset

/-!
# Following the cursors of keyset pagination

`traverse` follows `nextCursor` through tables that may change between the pages. Where the values of the
order key compare in the database as their texts do (`Keyed`), a page is the one of `Lib.Paging`
(`keysetPaginate_eq`), and its cursor stands for the last row. `keyset_traversal_exact` follows from the
facts about pages there.
-/

namespace AlsaqiBackend.Pagination

open Lib

variable {Value : Type} (pg : Postgres Value)

/-! ## The order of the rows -/

instance : Std.TransCmp pg.compare := pg.trans

instance : Std.TransCmp (compareNullable pg) where
  eq_swap := by
    intro a b
    cases a with
    | none => cases b <;> rfl
    | some a =>
      cases b with
      | none => rfl
      | some b =>
        show pg.compare a b = (pg.compare b a).swap
        exact Std.OrientedCmp.eq_swap
  isLE_trans := by
    intro a b c hab hbc
    cases a with
    | none =>
      cases b with
      | none => exact hbc
      | some b => cases hab
    | some a =>
      cases c with
      | none => cases b <;> rfl
      | some c =>
        cases b with
        | none => cases hbc
        | some b =>
          have hab' : (pg.compare a b).isLE := hab
          have hbc' : (pg.compare b c).isLE := hbc
          show (pg.compare a c).isLE
          exact Std.TransCmp.isLE_trans hab' hbc'

theorem compareColumns_cons (column : String) (columns : List String) :
    compareColumns pg (column :: columns) =
      compareLex (fun a b => compareNullable pg (a column) (b column)) (compareColumns pg columns) :=
  rfl

instance compareColumns_trans : ∀ columns, Std.TransCmp (compareColumns pg columns)
  | [] => { eq_swap := rfl, isLE_trans := fun _ _ => rfl }
  | column :: columns => by
    rw [compareColumns_cons]
    have hcolumn : Std.TransCmp fun a b : Row Value => compareNullable pg (a column) (b column) :=
      { eq_swap := Std.OrientedCmp.eq_swap, isLE_trans := Std.TransCmp.isLE_trans }
    have hcolumns := compareColumns_trans columns
    infer_instance

instance (columns : List String) (direction : SortDirection) :
    Std.TransCmp (orderBy pg columns direction) := by
  cases direction with
  | asc => exact compareColumns_trans pg columns
  | desc =>
    show Std.TransCmp fun a b => compareColumns pg columns b a
    infer_instance

/-! ## Cursors -/

/-- The text of a value of the order key. -/
def keyText (row : Row Value) (column : String) : String := (row column).elim "" pg.text

/-- The members of the JSON object of a cursor. -/
def cursorMembers (orderKey : List String) (row : Row Value) : List (List Char × Json) :=
  orderKey.map fun column => (column.toList, .str (keyText pg row column).toList)

/-- The cursor of a row. -/
def cursorText (orderKey : List String) (row : Row Value) : String :=
  String.ofList (base64UrlEncode (encodeUtf8 (stringify (.obj (cursorMembers pg orderKey row)))))

variable {pg} {orderKey : List String} {row : Row Value}

/-- The payload of a row without `NULL` in the order key. -/
theorem payload_eq (columns : List String) (payload : OrderedMap String String)
    (hnew : ∀ column ∈ columns, column ∉ payload.keys) (hnodup : columns.Nodup)
    (hnull : ∀ column ∈ columns, row column ≠ none) :
    ∃ result : OrderedMap String String, columns.foldlM (addColumn pg row) payload = .ok result ∧
      result.entries = payload.entries ++ columns.map fun column => (column, keyText pg row column) := by
  induction columns generalizing payload with
  | nil => exact ⟨payload, rfl, by simp⟩
  | cons column columns ih =>
    obtain ⟨value, hvalue⟩ := Option.ne_none_iff_exists'.1 (hnull column List.mem_cons_self)
    obtain ⟨hcolumn, hcolumns⟩ := List.nodup_cons.1 hnodup
    have hset : (payload.set column (pg.text value)).entries =
        payload.entries ++ [(column, keyText pg row column)] := by
      have hfresh : column ∉ payload.entries.map Prod.fst := hnew column List.mem_cons_self
      show OrderedMap.setEntries _ _ _ = _
      unfold OrderedMap.setEntries keyText
      rw [if_neg hfresh, hvalue]
      rfl
    obtain ⟨result, hresult, hentries⟩ := ih (payload.set column (pg.text value)) (by
      intro other hother hmem
      unfold OrderedMap.keys at hmem
      rw [hset, List.map_append, List.mem_append] at hmem
      rcases hmem with hold | hlast
      · exact hnew other (List.mem_cons_of_mem _ hother) hold
      · rw [List.mem_singleton.1 hlast] at hother
        exact hcolumn hother) hcolumns fun c hc => hnull c (List.mem_cons_of_mem _ hc)
    refine ⟨result, ?_, ?_⟩
    · have hadd : addColumn pg row payload column = .ok (payload.set column (pg.text value)) := by
        unfold addColumn
        rw [hvalue]
        rfl
      rw [List.foldlM_cons, hadd]
      exact hresult
    · rw [hentries, hset, List.map_cons, List.append_assoc]
      rfl

/-- A row without `NULL` in the order key is encoded. -/
theorem encodeKeysetCursor_eq (hnodup : orderKey.Nodup) (hnull : ∀ column ∈ orderKey, row column ≠ none) :
    encodeKeysetCursor pg orderKey row = .ok (cursorText pg orderKey row) := by
  obtain ⟨payload, hpayload, hentries⟩ := payload_eq orderKey (OrderedMap.empty)
    (fun _ _ h => by cases h) hnodup hnull
  unfold encodeKeysetCursor cursorText
  rw [hpayload]
  show Except.ok _ = Except.ok _
  rw [hentries]
  unfold cursorMembers OrderedMap.empty
  rw [List.nil_append, List.map_map]
  rfl

/-- Every column has a value. -/
theorem mapM_eq_ok {α β : Type} {f : α → Except KeysetError β} {g : α → β} :
    ∀ (l : List α), (∀ a ∈ l, f a = .ok (g a)) → l.mapM f = .ok (l.map g)
  | [], _ => rfl
  | a :: l, h => by
    rw [List.mapM_cons, h a List.mem_cons_self, mapM_eq_ok l fun b hb => h b (List.mem_cons_of_mem _ hb)]
    rfl

/-- A member among others with other names. -/
theorem member_of_nodup {members : List (List Char × Json)} {column : String} {value : Json}
    (hnodup : (members.map Prod.fst).Nodup) (hmem : (column.toList, value) ∈ members) :
    member members column = some value := by
  have hreversed : (members.reverse.map Prod.fst).Nodup := by
    rw [List.map_reverse, List.nodup_reverse]
    exact hnodup
  unfold member
  rw [find?_key_of_mem hreversed (List.mem_reverse.2 hmem) rfl]
  rfl

/-- A cursor is read back as the texts of its row. -/
theorem decodeKeysetCursor_cursorText (hnodup : orderKey.Nodup) :
    decodeKeysetCursor (cursorText pg orderKey row) orderKey = .ok (orderKey.map (keyText pg row)) := by
  have hkeys : (cursorMembers pg orderKey row).map Prod.fst = orderKey.map String.toList := by
    unfold cursorMembers
    rw [List.map_map]
    rfl
  have hkeysNodup : (orderKey.map String.toList).Nodup :=
    hnodup.map fun a b h => String.toList_injective h
  have hread : parse (decodeUtf8 (base64UrlDecode (cursorText pg orderKey row).toList)) =
      some (.obj (cursorMembers pg orderKey row)) := by
    unfold cursorText
    rw [String.toList_ofList, base64UrlDecode_encode _ fun b hb => encodeUtf8_lt hb,
      decodeUtf8_encodeUtf8, parse_stringify]
  have hne : cursorText pg orderKey row ≠ "" := by
    intro hempty
    rw [hempty] at hread
    have hnone : parse (decodeUtf8 (base64UrlDecode "".toList)) = none := by decide
    rw [hnone] at hread
    cases hread
  unfold decodeKeysetCursor
  rw [if_neg hne, hread]
  simp only
  rw [hkeys, hkeysNodup.dedup, List.length_map, if_neg (by simp)]
  refine mapM_eq_ok orderKey fun column hcolumn => ?_
  have hmember : member (cursorMembers pg orderKey row) column =
      some (.str (keyText pg row column).toList) :=
    member_of_nodup (hkeys ▸ hkeysNodup) (List.mem_map.2 ⟨column, hcolumn, rfl⟩)
  rw [hmember]
  show Except.ok _ = Except.ok _
  rw [String.ofList_toList]

/-! ## The query behind a cursor -/

/-- The rows have values in the order key, which compare in the database as their texts do. -/
structure Keyed (pg : Postgres Value) (orderKey : List String) (rows : List (Row Value)) : Prop where
  notNull : ∀ row ∈ rows, ∀ column ∈ orderKey, row column ≠ none
  asText : ∀ row ∈ rows, ∀ column ∈ orderKey, ∀ value, row column = some value →
    ∃ param, pg.readParam column (pg.text value) = some param ∧
      ∀ other ∈ rows, ∀ v, other column = some v → pg.compare v param = pg.compare v value

/-- The parameters of a cursor compare with a row as the row of the cursor does. -/
theorem exists_params {rows : List (Row Value)} {c : Row Value} (hc : c ∈ rows) (columns : List String)
    (h : Keyed pg columns rows) :
    ∃ params, readParams pg columns (columns.map (keyText pg c)) = some params ∧
      ∀ row ∈ rows, compareRow pg (columns.map row) params = some (compareColumns pg columns row c) := by
  induction columns with
  | nil => exact ⟨[], rfl, fun _ _ => rfl⟩
  | cons column columns ih =>
    have hrest : Keyed pg columns rows :=
      ⟨fun row hrow col hcol => h.notNull row hrow col (List.mem_cons_of_mem _ hcol),
        fun row hrow col hcol => h.asText row hrow col (List.mem_cons_of_mem _ hcol)⟩
    obtain ⟨params, hparams, hcompare⟩ := ih hrest
    obtain ⟨value, hvalue⟩ := Option.ne_none_iff_exists'.1 (h.notNull c hc column List.mem_cons_self)
    obtain ⟨param, hparam, hsame⟩ := h.asText c hc column List.mem_cons_self value hvalue
    refine ⟨param :: params, ?_, ?_⟩
    · have htext : keyText pg c column = pg.text value := by
        unfold keyText
        rw [hvalue]
        rfl
      unfold readParams at hparams ⊢
      rw [List.map_cons, List.zip_cons_cons, List.mapM_cons, htext, hparam, hparams]
      rfl
    · intro row hrow
      obtain ⟨v, hv⟩ := Option.ne_none_iff_exists'.1 (h.notNull row hrow column List.mem_cons_self)
      have hcol : pg.compare v param = pg.compare v value := hsame row hrow v hv
      have hrow' := hcompare row hrow
      have hcolumns : compareNullable pg (some v) (some value) = pg.compare v value := rfl
      rw [List.map_cons, hv, compareRow, compareColumns, hv, hvalue, hcolumns]
      simp only [hcol]
      cases pg.compare v value with
      | lt => rfl
      | eq => exact hrow'
      | gt => rfl

/-- A row is behind the parameters exactly when it is behind the row of the cursor. -/
theorem isBehind_eq {columns : List String} {params : List Value} {c row : Row Value}
    (direction : SortDirection)
    (h : compareRow pg (columns.map row) params = some (compareColumns pg columns row c)) :
    isBehind pg columns direction params row = Paging.isAfter (orderBy pg columns direction) (some c) row := by
  unfold isBehind Paging.isAfter
  rw [h]
  refine decide_eq_decide.2 (Option.some_inj.trans ?_)
  cases direction with
  | desc => exact Iff.rfl
  | asc => exact Std.OrientedCmp.gt_iff_lt

/-- The columns of an order key. -/
structure ValidKey (orderKey : List String) : Prop where
  ne_nil : orderKey ≠ []
  nodup : orderKey.Nodup
  names : ∀ column ∈ orderKey, isColumnName column = true

/-- The order keys of the registry. -/
theorem validKey_of_getKeysetOrderKey {tableName : String}
    (h : getKeysetOrderKey tableName = some orderKey) : ValidKey orderKey := by
  obtain ⟨l, r, heq, -⟩ := List.lookup_eq_some_iff.1 h
  have hmem : (tableName, orderKey) ∈ KEYSET_TABLES := heq ▸ List.mem_append_right _ List.mem_cons_self
  have hall : ∀ entry ∈ KEYSET_TABLES,
      entry.2 ≠ [] ∧ entry.2.Nodup ∧ ∀ column ∈ entry.2, isColumnName column = true := by decide
  obtain ⟨hne, hnodup, hnames⟩ := hall _ hmem
  exact ⟨hne, hnodup, hnames⟩

/-- The page size is between the bounds. -/
theorem clampKeysetPageSize_bounds (size : RequestedSize) :
    1 ≤ clampKeysetPageSize size ∧ clampKeysetPageSize size ≤ 100 := by
  unfold clampKeysetPageSize
  cases size with
  | missing => decide
  | notFinite => decide
  | finite size =>
    simp only [MAX_KEYSET_PAGE_SIZE, MIN_KEYSET_PAGE_SIZE]
    omega

/-- The clause of a cursor. -/
theorem buildKeysetClause_eq (hkey : ValidKey orderKey) (cursor : Option (Row Value))
    (direction : Option SortDirection) :
    buildKeysetClause orderKey (cursor.map (cursorText pg orderKey)) direction =
      .ok ⟨orderKey, direction.getD .desc, cursor.map fun c => orderKey.map (keyText pg c)⟩ := by
  have hcolumns : orderKey.mapM validateColumnName = .ok orderKey := by
    have hvalid : ∀ column ∈ orderKey, validateColumnName column = .ok (id column) := by
      intro column hcolumn
      unfold validateColumnName
      rw [if_pos (hkey.names column hcolumn)]
      rfl
    rw [mapM_eq_ok orderKey hvalid, List.map_id]
  have hlength : orderKey.length ≠ 0 := fun hzero => hkey.ne_nil (List.length_eq_zero_iff.1 hzero)
  unfold buildKeysetClause
  rw [if_neg hlength, hcolumns]
  cases cursor with
  | none => rfl
  | some c =>
    have hdecode : decodeKeysetCursor (cursorText pg orderKey c) orderKey =
        .ok (orderKey.map (keyText pg c)) := decodeKeysetCursor_cursorText hkey.nodup
    have hne : cursorText pg orderKey c ≠ "" := by
      intro hempty
      have herror : decodeKeysetCursor "" orderKey = .error invalidCursor := if_pos rfl
      rw [hempty, herror] at hdecode
      cases hdecode
    rw [Option.map_some]
    show (if cursorText pg orderKey c = "" then _ else _) = _
    rw [if_neg hne, hdecode]
    rfl

section Page

variable {rows table : List (Row Value)} {cursor : Option (Row Value)} {limit : ℕ}

/-- The rows of the query are those behind the cursor. -/
theorem selectRows_eq (hkeyed : Keyed pg orderKey rows) (htable : ∀ row ∈ table, row ∈ rows)
    (hcursor : ∀ c ∈ cursor, c ∈ rows) (direction : SortDirection) (additionalWhere : Row Value → Bool) :
    selectRows pg table additionalWhere
        ⟨orderKey, direction, cursor.map fun c => orderKey.map (keyText pg c)⟩ limit =
      .ok ((Paging.remaining (orderBy pg orderKey direction) (table.filter additionalWhere) cursor).take
        limit) := by
  cases cursor with
  | none =>
    have hall : (table.filter additionalWhere).filter (Paging.isAfter (orderBy pg orderKey direction) none) =
        table.filter additionalWhere := List.filter_eq_self.2 fun _ _ => rfl
    unfold selectRows Paging.remaining
    rw [hall]
    rfl
  | some c =>
    obtain ⟨params, hparams, hcompare⟩ := exists_params (hcursor c rfl) orderKey hkeyed
    have hfilter : table.filter (fun row => additionalWhere row && isBehind pg orderKey direction params row) =
        (table.filter additionalWhere).filter
          (Paging.isAfter (orderBy pg orderKey direction) (some c)) := by
      rw [List.filter_filter]
      refine List.filter_congr fun row hrow => ?_
      rw [isBehind_eq direction (hcompare row (htable row hrow)), Bool.and_comm]
    unfold selectRows Paging.remaining
    rw [← hfilter]
    simp only [Option.map_some, hparams]
    rfl

/-- The page of the rows behind a cursor, one of which is too many. -/
theorem processKeysetResults_eq (hkey : ValidKey orderKey) (hkeyed : Keyed pg orderKey rows)
    {rest : List (Row Value)} (hrest : ∀ row ∈ rest, row ∈ rows) :
    processKeysetResults pg (rest.take (limit + 1)) limit orderKey =
      .ok ⟨rest.take limit, (if limit < rest.length then (rest.take limit).getLast? else none).map
        (cursorText pg orderKey)⟩ := by
  have hlength : limit < (rest.take (limit + 1)).length ↔ limit < rest.length := by
    rw [List.length_take]
    omega
  unfold processKeysetResults
  simp only [hlength]
  split_ifs with hmore
  · rw [List.take_take, Nat.min_eq_left (Nat.le_succ limit)]
    cases hlast : (rest.take limit).getLast? with
    | none => rfl
    | some row =>
      have hrow : row ∈ rows := hrest row (List.mem_of_mem_take (List.mem_of_getLast? hlast))
      simp only
      rw [encodeKeysetCursor_eq hkey.nodup (hkeyed.notNull row hrow)]
      rfl
  · have hall : rest.take (limit + 1) = rest.take limit := by
      rw [List.take_of_length_le (by omega), List.take_of_length_le (by omega)]
    rw [hall]
    rfl

/-- The data of a page are the first rows of the query. -/
theorem data_of_processKeysetResults {found : List (Row Value)} {page : KeysetPage Value}
    (h : processKeysetResults pg found limit orderKey = .ok page) : page.data = found.take limit := by
  unfold processKeysetResults at h
  simp only at h
  split_ifs at h with hmore
  · cases hlast : (found.take limit).getLast? with
    | none =>
      rw [hlast] at h
      cases h
      rfl
    | some last =>
      rw [hlast] at h
      obtain ⟨next, -, hpage⟩ := bind_eq_ok.1 h
      cases hpage
      rfl
  · cases h
    show found = found.take limit
    rw [List.take_of_length_le (by omega)]

/-- Where the rows of the query fit on the page, there is no cursor to make. -/
theorem processKeysetResults_all {found : List (Row Value)} (h : found.length ≤ limit) :
    processKeysetResults pg found limit orderKey = .ok ⟨found, none⟩ := by
  unfold processKeysetResults
  simp only
  rw [if_neg (by omega), if_neg (by omega)]
  rfl

/-- A page is that of the order, and its cursor is the text of the last row. -/
theorem keysetPaginate_eq {tableName : String} (htableName : getKeysetOrderKey tableName = some orderKey)
    (hkeyed : Keyed pg orderKey rows) (htable : ∀ row ∈ table, row ∈ rows)
    (hcursor : ∀ c ∈ cursor, c ∈ rows) (size : RequestedSize) (direction : Option SortDirection)
    (additionalWhere : Row Value → Bool) :
    keysetPaginate pg table tableName ⟨cursor.map (cursorText pg orderKey), size, direction⟩
        additionalWhere =
      let page := Paging.nextPage (orderBy pg orderKey (direction.getD .desc)) (clampKeysetPageSize size)
        (table.filter additionalWhere) cursor
      .ok ⟨page.1, page.2.map (cursorText pg orderKey)⟩ := by
  have hkey := validKey_of_getKeysetOrderKey htableName
  unfold keysetPaginate
  rw [htableName]
  simp only
  rw [buildKeysetClause_eq hkey]
  show (do
    let found ← selectRows pg table additionalWhere _ _
    processKeysetResults pg found _ _) = _
  rw [selectRows_eq hkeyed htable hcursor]
  refine processKeysetResults_eq hkey hkeyed ?_
  intro row hrow
  exact htable row (List.mem_of_mem_filter (Paging.mem_remaining.1 hrow).1)

end Page

/-! ## Following the cursors -/

/-- `keysetPaginate` again and again, with the cursor of the page before; `none` at the end says that the
last page has had none. -/
def traverse (pg : Postgres Value) (tableName : String) (size : RequestedSize)
    (direction : Option SortDirection) (additionalWhere : Row Value → Bool) :
    List (List (Row Value)) → Option String → Except KeysetError (List (List (Row Value)) × Option String)
  | [], cursor => return ([], cursor)
  | table :: tables, cursor => do
    let page ← keysetPaginate pg table tableName ⟨cursor, size, direction⟩ additionalWhere
    match page.nextCursor with
    | none => return ([page.data], none)
    | some next =>
      let (pages, last) ← traverse pg tableName size direction additionalWhere tables (some next)
      return (page.data :: pages, last)

/-- Following the cursors is following the pages. -/
theorem traverse_eq {tableName : String} (htableName : getKeysetOrderKey tableName = some orderKey)
    {rows : List (Row Value)} (hkeyed : Keyed pg orderKey rows) (size : RequestedSize)
    (direction : Option SortDirection) (additionalWhere : Row Value → Bool) :
    ∀ (tables : List (List (Row Value))) (cursor : Option (Row Value)),
      (∀ table ∈ tables, ∀ row ∈ table, row ∈ rows) → (∀ c ∈ cursor, c ∈ rows) →
        traverse pg tableName size direction additionalWhere tables
          (cursor.map (cursorText pg orderKey)) =
        let read := Paging.follow (orderBy pg orderKey (direction.getD .desc))
          (clampKeysetPageSize size) (tables.map (List.filter additionalWhere)) cursor
        .ok (read.1, read.2.map (cursorText pg orderKey))
  | [], _, _, _ => rfl
  | table :: tables, cursor, htables, hcursor => by
    set order := orderBy pg orderKey (direction.getD .desc) with horder
    have htable := htables table List.mem_cons_self
    rw [traverse, keysetPaginate_eq htableName hkeyed htable hcursor, List.map_cons]
    simp only [bind, Except.bind]
    cases hnext : (Paging.nextPage order (clampKeysetPageSize size) (table.filter additionalWhere) cursor).2 with
    | none =>
      rw [Paging.follow_cons_none hnext]
      rfl
    | some c =>
      obtain ⟨init, hinit⟩ := Paging.exists_page hnext
      have hc : c ∈ rows := by
        have hmem : c ∈ (Paging.nextPage order (clampKeysetPageSize size)
            (table.filter additionalWhere) cursor).1 := hinit ▸ List.mem_append_right _ List.mem_cons_self
        have hremaining := (Paging.mem_remaining.1 (List.mem_of_mem_take hmem)).1
        exact htable c (List.mem_of_mem_filter hremaining)
      have ih := traverse_eq htableName hkeyed size direction additionalWhere tables (some c)
        (fun t ht => htables t (List.mem_cons_of_mem _ ht)) (fun c' hc' => Option.some.inj hc' ▸ hc)
      rw [Paging.follow_cons_some hnext]
      simp only [Option.map_some] at ih ⊢
      rw [ih]
      rfl

/-- The row is before the other one in the order of the pages. -/
def Before (pg : Postgres Value) (orderKey : List String) (direction : Option SortDirection)
    (a b : Row Value) : Prop :=
  orderBy pg orderKey (direction.getD .desc) a b = .lt

/-- No two rows of a table have the same order key. -/
def DistinctKeys (pg : Postgres Value) (orderKey : List String) (table : List (Row Value)) : Prop :=
  table.Pairwise fun a b => compareColumns pg orderKey a b ≠ .eq

/-- Distinct keys are distinct in both directions. -/
theorem DistinctKeys.distinct {table : List (Row Value)} (h : DistinctKeys pg orderKey table)
    (direction : Option SortDirection) (additionalWhere : Row Value → Bool) :
    Paging.Distinct (orderBy pg orderKey (direction.getD .desc)) (table.filter additionalWhere) := by
  refine List.Pairwise.sublist List.filter_sublist (h.imp ?_)
  intro a b hne heq
  cases hdirection : direction.getD .desc with
  | asc =>
    rw [hdirection] at heq
    exact hne heq
  | desc =>
    rw [hdirection] at heq
    exact hne (Std.OrientedCmp.eq_symm heq)

/-- What is before itself is nothing. -/
theorem nodup_of_pairwise_before {direction : Option SortDirection} {rows : List (Row Value)}
    (h : rows.Pairwise (Before pg orderKey direction)) : rows.Nodup := by
  refine h.imp ?_
  rintro a b hlt rfl
  have hself : orderBy pg orderKey (direction.getD .desc) a a = .eq := Std.ReflCmp.compare_self
  unfold Before at hlt
  rw [hself] at hlt
  cases hlt

/-- A part of the rows. -/
theorem Keyed.mono {rows fewer : List (Row Value)} (h : Keyed pg orderKey rows)
    (hsub : ∀ row ∈ fewer, row ∈ rows) : Keyed pg orderKey fewer := by
  refine ⟨fun row hrow => h.notNull row (hsub row hrow), ?_⟩
  intro row hrow column hcolumn value hvalue
  obtain ⟨param, hparam, hsame⟩ := h.asText row (hsub row hrow) column hcolumn value hvalue
  exact ⟨param, hparam, fun other hother => hsame other (hsub other hother)⟩

section Exact

variable {tableName : String} {tables : List (List (Row Value))} {table : List (Row Value)}

/-- The pages of tables that may change. -/
theorem traverse_changing (htableName : getKeysetOrderKey tableName = some orderKey)
    (hkeyed : Keyed pg orderKey tables.flatten) (hdistinct : ∀ table ∈ tables, DistinctKeys pg orderKey table)
    (size : RequestedSize) (direction : Option SortDirection) (additionalWhere : Row Value → Bool) :
    ∃ pages next,
      traverse pg tableName size direction additionalWhere tables none = .ok (pages, next) ∧
      pages.flatten.Pairwise (Before pg orderKey direction) ∧
      (∀ row ∈ pages.flatten, (∃ table ∈ tables, row ∈ table) ∧ additionalWhere row = true) ∧
      (next = none → tables ≠ [] → ∀ row, additionalWhere row = true →
        (∀ table ∈ tables.take pages.length, row ∈ table) → row ∈ pages.flatten) := by
  have hread := traverse_eq htableName hkeyed size direction additionalWhere tables none
    (fun table htable row hrow => List.mem_flatten_of_mem htable hrow) (fun c hc => by cases hc)
  set read := Paging.follow (orderBy pg orderKey (direction.getD .desc)) (clampKeysetPageSize size)
    (tables.map (List.filter additionalWhere)) none with hfollow
  have hsame : ∀ rows ∈ tables.map (List.filter additionalWhere),
      Paging.Distinct (orderBy pg orderKey (direction.getD .desc)) rows := by
    intro rows hmem
    obtain ⟨table, htable, rfl⟩ := List.mem_map.1 hmem
    exact (hdistinct table htable).distinct direction additionalWhere
  refine ⟨read.1, _, hread, Paging.follow_pairwise hsame, ?_, ?_⟩
  · intro row hrow
    obtain ⟨⟨rows, hmem, hin⟩, -⟩ := Paging.of_mem_follow hrow hsame
    obtain ⟨table, htable, rfl⟩ := List.mem_map.1 hmem
    obtain ⟨hin, hpass⟩ := List.mem_filter.1 hin
    exact ⟨⟨table, htable, hin⟩, hpass⟩
  · intro hnext hne row hpass hstays
    have hend : read.2 = none := Option.map_eq_none_iff.1 hnext
    refine Paging.mem_of_follow_end (clampKeysetPageSize_bounds size).1 hsame (by simpa using hne) hend ?_ rfl
    intro rows hmem
    rw [← List.map_take] at hmem
    obtain ⟨table, htable, rfl⟩ := List.mem_map.1 hmem
    exact List.mem_filter.2 ⟨hstays table htable, hpass⟩

/-- The pages of a table that stays as it is come to an end. -/
theorem traverse_ends (htableName : getKeysetOrderKey tableName = some orderKey)
    (hkeyed : Keyed pg orderKey table) (size : RequestedSize) (direction : Option SortDirection)
    (additionalWhere : Row Value → Bool) :
    ∃ n pages, traverse pg tableName size direction additionalWhere (List.replicate (n + 1) table) none =
      .ok (pages, none) := by
  have hrows : ∀ n, ∀ t ∈ List.replicate n table, ∀ row ∈ t, row ∈ table := by
    intro n t ht row hrow
    rw [List.eq_of_mem_replicate ht] at hrow
    exact hrow
  set passing := table.filter additionalWhere with hpass
  have hread := traverse_eq htableName hkeyed size direction additionalWhere
    (List.replicate (passing.length + 1) table) none (hrows _) (fun c hc => by cases hc)
  have hend : (Paging.follow (orderBy pg orderKey (direction.getD .desc)) (clampKeysetPageSize size)
      (List.replicate (passing.length + 1) passing) none).2 = none := by
    refine Paging.follow_replicate _ ?_
    unfold Paging.remaining Paging.sorted
    rw [List.length_insertionSort]
    exact Nat.lt_succ_of_le (List.length_filter_le _ _)
  rw [List.map_replicate, Option.map_none] at hread
  simp only at hread
  rw [hend] at hread
  exact ⟨passing.length, _, hread⟩

end Exact

/-- Keyset pagination of a registered table, with any page size, direction and filter. On a table that
stays as it is, the pages come to an end and show every row that passes, once and in order. On tables that
change between the pages, no row is shown twice, the rows are in order, and when the pages are at an end
every row that passes and was in all the tables read has been shown. -/
theorem keyset_traversal_exact (pg : Postgres Value) {tableName : String} {orderKey : List String}
    (htableName : getKeysetOrderKey tableName = some orderKey) (tables : List (List (Row Value)))
    (hkeyed : Keyed pg orderKey tables.flatten) (hdistinct : ∀ table ∈ tables, DistinctKeys pg orderKey table)
    (size : RequestedSize) (direction : Option SortDirection) (additionalWhere : Row Value → Bool) :
    (∀ table ∈ tables, ∃ n pages,
      traverse pg tableName size direction additionalWhere (List.replicate (n + 1) table) none =
        .ok (pages, none) ∧
      pages.flatten.Pairwise (Before pg orderKey direction) ∧ pages.flatten.Nodup ∧
      ∀ row, row ∈ pages.flatten ↔ row ∈ table ∧ additionalWhere row = true) ∧
    ∃ pages next,
      traverse pg tableName size direction additionalWhere tables none = .ok (pages, next) ∧
      pages.flatten.Pairwise (Before pg orderKey direction) ∧ pages.flatten.Nodup ∧
      (∀ row ∈ pages.flatten, (∃ table ∈ tables, row ∈ table) ∧ additionalWhere row = true) ∧
      (next = none → tables ≠ [] → ∀ row, additionalWhere row = true →
        (∀ table ∈ tables.take pages.length, row ∈ table) → row ∈ pages.flatten) := by
  constructor
  · intro table htable
    have htableKeyed : Keyed pg orderKey table :=
      hkeyed.mono fun row hrow => List.mem_flatten_of_mem htable hrow
    obtain ⟨n, pages, hpages⟩ := traverse_ends htableName htableKeyed size direction additionalWhere
    have hreplicated : ∀ t ∈ List.replicate (n + 1) table, t = table :=
      fun t ht => List.eq_of_mem_replicate ht
    -- The copies of the table are tables that change by nothing.
    have hcopiesKeyed : Keyed pg orderKey (List.replicate (n + 1) table).flatten := by
      refine htableKeyed.mono fun row hrow => ?_
      obtain ⟨t, ht, hin⟩ := List.mem_flatten.1 hrow
      exact hreplicated t ht ▸ hin
    obtain ⟨pages', next, hread, hordered, hshown, hall⟩ := traverse_changing htableName hcopiesKeyed
      (fun t ht => hreplicated t ht ▸ hdistinct table htable) size direction additionalWhere
    obtain ⟨rfl, rfl⟩ := Prod.mk.inj (Except.ok.inj (hread.symm.trans hpages))
    refine ⟨n, pages', hread, hordered, nodup_of_pairwise_before hordered, ?_⟩
    intro row
    constructor
    · intro hrow
      obtain ⟨⟨t, ht, hin⟩, hpass⟩ := hshown row hrow
      exact ⟨hreplicated t ht ▸ hin, hpass⟩
    · rintro ⟨hin, hpass⟩
      refine hall rfl (by simp) row hpass fun t ht => ?_
      rw [hreplicated t (List.mem_of_mem_take ht)]
      exact hin
  · obtain ⟨pages, next, hread, hordered, hshown, hall⟩ :=
      traverse_changing htableName hkeyed hdistinct size direction additionalWhere
    exact ⟨pages, next, hread, hordered, nodup_of_pairwise_before hordered, hshown, hall⟩

/-- A database whose values are texts. -/
def textDatabase : Postgres String where
  compare := compare
  trans := inferInstance
  readParam _ value := some value
  text := id

/-- A row of a request log. -/
def logRow (createdAt id : String) : Row String := fun column =>
  if column = "created_at" then some createdAt else if column = "id" then some id else none

/-- Pages of one row each, while the row of the cursor is deleted and a newer one is inserted. -/
theorem keyset_traversal_logs :
    let first := [logRow "10:00" "a", logRow "11:00" "b", logRow "11:00" "c"]
    let second := [logRow "10:00" "a", logRow "11:00" "b", logRow "12:00" "d"]
    ∃ pages next,
      traverse textDatabase "request_logs" (.finite 1) none (fun _ => true) [first, second, second] none =
        .ok (pages, next) ∧
      pages.flatten.Pairwise (Before textDatabase ["created_at", "id"] none) ∧ pages.flatten.Nodup ∧
      (next = none → ∀ row, (∀ table ∈ [first, second, second].take pages.length, row ∈ table) →
        row ∈ pages.flatten) := by
  intro first second
  have hkeyed : Keyed textDatabase ["created_at", "id"] [first, second, second].flatten := by
    refine ⟨?_, fun row _ column _ value _ => ⟨value, rfl, fun _ _ _ _ => rfl⟩⟩
    simp [first, second, logRow]
  have hdistinct : ∀ table ∈ [first, second, second],
      DistinctKeys textDatabase ["created_at", "id"] table := by
    unfold DistinctKeys
    decide +kernel
  have hkey : getKeysetOrderKey "request_logs" = some ["created_at", "id"] := by decide
  obtain ⟨pages, next, hread, hordered, hnodup, -, hall⟩ := (keyset_traversal_exact textDatabase hkey
    [first, second, second] hkeyed hdistinct (.finite 1) none fun _ => true).2
  exact ⟨pages, next, hread, hordered, hnodup, fun hend row => hall hend (by simp) row rfl⟩

end AlsaqiBackend.Pagination
