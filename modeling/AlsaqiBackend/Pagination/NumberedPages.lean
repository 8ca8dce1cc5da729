import AlsaqiBackend.Pagination.Listing

/-!
# The pages of a list by number

A client asks for page after page of a list. For a table of the offset path the pages are those of
`Lib.Paging.numberedPage`. The keyset path does not look at the page number, so that every page is the
first, and it takes the number of pages from the cached count. `pages_partition_iff` says when the pages
are a partition of the rows.
-/

namespace AlsaqiBackend.Pagination

open Lib

variable {Value : Type}

/-- The rows of a table, with the primary key `id`. -/
structure IdTable (db : Database Value) where
  rows : List (Row Value)
  primaryKey : DistinctKeys db.toPostgres ["id"] rows

/-- The requests of a client: a list with filters, a page size, the time of each request. -/
structure Client where
  tableName : String
  rawFilters : OrderedMap String Json
  pageSize : QueryNumber
  times : ℕ → ℕ

namespace Client

variable (client : Client) (db : Database Value) (table : List (Row Value))

/-- A page of the list. -/
def request (k : ℕ) (cache : CountCache) : Except KeysetError (ListResponse Value) × CountCache :=
  getList db table client.tableName (.finite k) client.pageSize client.rawFilters (client.times k) cache

/-- The cache after the first `n` pages. -/
def cacheAfter (cache : CountCache) : ℕ → CountCache
  | 0 => cache
  | n + 1 => (client.request db table (n + 1) (cacheAfter cache n)).2

/-- The response to the request of page `k`, after those of the pages before. -/
def response (cache : CountCache) (k : ℕ) : Except KeysetError (ListResponse Value) :=
  (client.request db table k (client.cacheAfter db table cache (k - 1))).1

def filters : OrderedMap String Json := routeFilters client.tableName client.rawFilters

/-- The rows that match the filters and are not deleted. -/
def matching : List (Row Value) :=
  match filterValues db client.filters with
  | some values => table.filter (passes db values)
  | none => []

/-- The pages of the list together have every matching row once, and each says with its number and the
number of pages which of the rows it has. -/
def PagesPartition (size : ℕ) (cache : CountCache) : Prop :=
  let totalPages := Paging.pageCount size (client.matching db table).length
  ∃ data : ℕ → List (Row Value),
    let order := (List.range totalPages).flatMap fun i => data (i + 1)
    order.Perm (client.matching db table) ∧
      ∀ k, k = 1 ∨ 1 ≤ k ∧ k ≤ totalPages → ∃ response, client.response db table cache k = .ok response ∧
        response.data = data k ∧ data k = Paging.numberedPage size order k ∧
        response.pagination.page = k ∧ response.pagination.totalPages = totalPages ∧
        (response.pagination.hasNext = true ↔ k < totalPages)

/-- What the list needs: the table has `deleted_at`, and PostgreSQL can read the filters. For a table of
`KEYSET_TABLES`, the matching rows fit on one page, and a count that is in the cache for the first
request is one of as many pages. -/
structure Listable (size : ℕ) (cache : CountCache) : Prop where
  softDelete : "deleted_at" ∈ schemaColumns client.tableName
  read : (filterValues db client.filters).isSome
  onePage : isKeysetTable client.tableName = true → (client.matching db table).length ≤ size
  counted : isKeysetTable client.tableName = true →
    ∀ entry, cache (buildCountCacheKey client.tableName client.filters) = some entry →
      client.times 1 < entry.expiresAt →
        Paging.pageCount size entry.value = Paging.pageCount size (client.matching db table).length

end Client

/-! ## A request -/

section Request

variable {db : Database Value} {table : List (Row Value)} {tableName : String}

/-- The page size of accepted parameters. -/
theorem parsePageSize_eq {page size : QueryNumber} {params : ParsedPaginationParams}
    (h : parsePaginationParams page size = .ok params) : parsePageSize size = .ok params.pageSize := by
  obtain ⟨k, -, h⟩ := bind_eq_ok.1 h
  obtain ⟨pageSize, hsize, hparams⟩ := bind_eq_ok.1 h
  rw [hsize, ← Except.ok.inj hparams]

/-- A parameter that passes is positive. -/
theorem one_le_of_validatePaginationParam {value : QueryNumber} {paramName : String} {n : ℕ}
    (h : validatePaginationParam value paramName = .ok n) : 1 ≤ n := by
  unfold validatePaginationParam at h
  cases value with
  | missing => cases h
  | notNumeric => cases h
  | infinite => cases h
  | finite value =>
    simp only at h
    split_ifs at h with hden hnum
    have hn : value.num.toNat = n := Except.ok.inj h
    omega

/-- An accepted page size. -/
theorem parsePageSize_bounds {size : QueryNumber} {n : ℕ} (h : parsePageSize size = .ok n) :
    1 ≤ n ∧ n ≤ 100 := by
  unfold parsePageSize at h
  split_ifs at h with hmissing
  · cases h
    decide
  · obtain ⟨pageSize, hsize, hn⟩ := bind_eq_ok.1 h
    have hpos := one_le_of_validatePaginationParam hsize
    rw [← Except.ok.inj hn]
    unfold MAX_PAGE_SIZE
    split_ifs <;> omega

/-- The parameters of page `k`. -/
theorem parsePaginationParams_page {size : QueryNumber} {n k : ℕ} (hk : 1 ≤ k)
    (h : parsePageSize size = .ok n) :
    parsePaginationParams (.finite k) size = .ok ⟨k, n, (k - 1) * n⟩ := by
  have hpage : parsePage (.finite k) = .ok k := by
    have hnum : ¬ (k : ℤ) < 1 := by omega
    unfold parsePage validatePaginationParam
    rw [if_neg (by simp)]
    simp only [Rat.den_natCast, Rat.num_natCast, ne_eq, not_true_eq_false, if_false, hnum, Int.toNat_natCast]
    rfl
  unfold parsePaginationParams
  rw [hpage, h]
  rfl

/-- The names of the queries of the route are identifiers. -/
theorem isIdentifier_allowed (h : tableName ∈ ALLOWED_TABLES) :
    ∀ name ∈ tableName :: allowedFields tableName, Events.isIdentifier name = true := by
  have hall : ∀ t ∈ ALLOWED_TABLES, ∀ name ∈ t :: allowedFields t, Events.isIdentifier name = true := by
    decide +kernel
  exact hall tableName h

/-- The columns that the route selects and filters by are those of the table. -/
theorem mem_schemaColumns (h : tableName ∈ ALLOWED_TABLES) :
    ∀ column ∈ selectFields tableName ++ allowedFields tableName, column ∈ schemaColumns tableName := by
  have hall : ∀ t ∈ ALLOWED_TABLES, ∀ column ∈ selectFields t ++ allowedFields t,
      column ∈ schemaColumns t := by decide +kernel
  exact hall tableName h

/-- The conditions of the route's filters. -/
theorem conditions_routeFilters (h : tableName ∈ ALLOWED_TABLES) (rawFilters : OrderedMap String Json) :
    conditions db tableName (routeFilters tableName rawFilters) =
      if "deleted_at" ∈ schemaColumns tableName then
        match filterValues db (routeFilters tableName rawFilters) with
        | some values => .ok (passes db values)
        | none => .error .database
      else .error .database := by
  have hcolumns : (queryColumns tableName (routeFilters tableName rawFilters)).all
      (· ∈ schemaColumns tableName) = decide ("deleted_at" ∈ schemaColumns tableName) := by
    have hnames : ∀ column ∈ selectFields tableName ++ (routeFilters tableName rawFilters).keys,
        column ∈ schemaColumns tableName := by
      intro column hcolumn
      refine mem_schemaColumns h column ?_
      rcases List.mem_append.1 hcolumn with hselect | hfilter
      · exact List.mem_append_left _ hselect
      · have hallowed := (OrderedMap.mem_keys_filterKeys.1 hfilter).2
        exact List.mem_append_right _ (of_decide_eq_true hallowed)
    have hfirst : (selectFields tableName ++ (routeFilters tableName rawFilters).keys).all
        (· ∈ schemaColumns tableName) = true :=
      List.all_eq_true.2 fun column hcolumn => decide_eq_true (hnames column hcolumn)
    unfold queryColumns
    rw [List.all_append, hfirst, List.all_cons, List.all_nil, Bool.and_true, Bool.true_and]
  unfold conditions
  rw [hcolumns]
  simp only [decide_eq_true_eq]
  rfl

/-- Every step passes. -/
theorem forM_eq_ok {α : Type} {f : α → Except KeysetError Unit} :
    ∀ l : List α, (∀ a ∈ l, f a = .ok ()) → l.forM f = .ok ()
  | [], _ => rfl
  | a :: l, h => by
    show (do f a; l.forM f) = _
    rw [h a List.mem_cons_self]
    exact forM_eq_ok l fun b hb => h b (List.mem_cons_of_mem _ hb)

/-- The names pass. -/
theorem findAll_eq (h : tableName ∈ ALLOWED_TABLES) (rawFilters : OrderedMap String Json)
    (page pageSize now : ℕ) (cache : CountCache) :
    findAll db table tableName page pageSize (routeFilters tableName rawFilters) now cache = (do
      let additionalWhere ← conditions db tableName (routeFilters tableName rawFilters)
      if isKeysetTable tableName then
        keysetList db table tableName page pageSize (routeFilters tableName rawFilters) additionalWhere
          now cache
      else return (offsetList db table page pageSize additionalWhere, cache)) := by
  have hname := isIdentifier_allowed h
  have hvalid : ∀ name, Events.isIdentifier name = true → validateIdentifier name = .ok () := by
    intro name hid
    unfold validateIdentifier
    rw [if_pos hid]
    rfl
  have hkeys : (routeFilters tableName rawFilters).keys.forM validateIdentifier = .ok () := by
    refine forM_eq_ok _ fun key hkey => hvalid key (hname key (List.mem_cons_of_mem _ ?_))
    exact of_decide_eq_true (OrderedMap.mem_keys_filterKeys.1 hkey).2
  unfold findAll
  rw [hvalid _ (hname _ List.mem_cons_self), hkeys]
  rfl

end Request

namespace Client

variable {client : Client} {db : Database Value} {table : List (Row Value)} {size : ℕ} {cache : CountCache}
  {values : List (String × Value)} {k : ℕ}

/-- The request of a page. -/
theorem request_eq (hserved : client.tableName ∈ ALLOWED_TABLES)
    (hsize : parsePageSize client.pageSize = .ok size) (hk : 1 ≤ k) :
    client.request db table k cache = settle cache (do
      let additionalWhere ← conditions db client.tableName client.filters
      if isKeysetTable client.tableName then
        keysetList db table client.tableName k size client.filters additionalWhere (client.times k) cache
      else return (offsetList db table k size additionalWhere, cache)) := by
  unfold request getList
  rw [parsePaginationParams_page hk hsize]
  exact congrArg (settle cache) (findAll_eq hserved client.rawFilters k size (client.times k) cache)

/-- A list that the database does not accept has no page. -/
theorem request_rejected (hserved : client.tableName ∈ ALLOWED_TABLES)
    (h : conditions db client.tableName client.filters = .error .database)
    (hsize : parsePageSize client.pageSize = .ok size) (hk : 1 ≤ k) :
    client.request db table k cache = (.error .database, cache) := by
  rw [request_eq hserved hsize hk, h]
  rfl

/-- A page of the offset path. -/
theorem request_offset (hserved : client.tableName ∈ ALLOWED_TABLES)
    (h : conditions db client.tableName client.filters = .ok (passes db values))
    (hsize : parsePageSize client.pageSize = .ok size) (hk : 1 ≤ k)
    (hkeyset : isKeysetTable client.tableName = false) :
    client.request db table k cache = (.ok (offsetList db table k size (passes db values)), cache) := by
  rw [request_eq hserved hsize hk, h, hkeyset]
  rfl

/-- A page of the keyset path. -/
theorem request_keyset (hserved : client.tableName ∈ ALLOWED_TABLES)
    (h : conditions db client.tableName client.filters = .ok (passes db values))
    (hsize : parsePageSize client.pageSize = .ok size) (hk : 1 ≤ k)
    (hkeyset : isKeysetTable client.tableName = true) :
    client.request db table k cache = settle cache (keysetList db table client.tableName k size
      client.filters (passes db values) (client.times k) cache) := by
  rw [request_eq hserved hsize hk, h, hkeyset]
  rfl

/-! ## A page of each path -/

theorem matching_eq (h : filterValues db client.filters = some values) :
    client.matching db table = table.filter (passes db values) := by
  unfold matching
  rw [h]

/-- The filters that PostgreSQL can read, of a table that has `deleted_at`. -/
theorem conditions_eq (hserved : client.tableName ∈ ALLOWED_TABLES)
    (hdeleted : "deleted_at" ∈ schemaColumns client.tableName)
    (h : filterValues db client.filters = some values) :
    conditions db client.tableName client.filters = .ok (passes db values) := by
  unfold filters at h ⊢
  rw [conditions_routeFilters hserved, if_pos hdeleted, h]

/-- The first response of a list that works shows that PostgreSQL has accepted its queries. -/
theorem exists_values (hserved : client.tableName ∈ ALLOWED_TABLES)
    (hsize : parsePageSize client.pageSize = .ok size) {response : ListResponse Value}
    (h : client.response db table cache 1 = .ok response) :
    "deleted_at" ∈ schemaColumns client.tableName ∧ ∃ values, filterValues db client.filters = some values := by
  by_contra hnone
  have hrejected : conditions db client.tableName client.filters = .error .database := by
    unfold filters at hnone ⊢
    rw [conditions_routeFilters hserved]
    split_ifs with hdeleted
    · cases hvalues : filterValues db (routeFilters client.tableName client.rawFilters) with
      | none => rfl
      | some values => exact absurd ⟨hdeleted, values, hvalues⟩ hnone
    · rfl
  unfold Client.response at h
  rw [request_rejected hserved hrejected hsize le_rfl] at h
  cases h

/-- The number of pages in the metadata. -/
theorem totalPages_computePaginationMeta (hsize : 1 ≤ size) (page total : ℕ) :
    (computePaginationMeta page size total).totalPages = Paging.pageCount size total := by
  unfold computePaginationMeta
  simp only
  split_ifs with htotal
  · rw [htotal]
    exact (Nat.div_eq_of_lt (by omega)).symm
  · rfl

/-- A page of the offset path has the rows of its number. -/
theorem response_offset (hserved : client.tableName ∈ ALLOWED_TABLES)
    (h : conditions db client.tableName client.filters = .ok (passes db values))
    (hsize : parsePageSize client.pageSize = .ok size) (hk : 1 ≤ k)
    (hkeyset : isKeysetTable client.tableName = false) :
    client.response db table cache k = .ok
      ⟨Paging.numberedPage size (Paging.sorted (orderBy db.toPostgres ["id"] .desc)
          (table.filter (passes db values))) k, none,
        computePaginationMeta k size (table.filter (passes db values)).length⟩ := by
  unfold Client.response
  rw [request_offset hserved h hsize hk hkeyset]
  rfl

/-- A page of the keyset path has the first rows of the table, whatever its number is. -/
theorem response_keyset (hserved : client.tableName ∈ ALLOWED_TABLES)
    (h : conditions db client.tableName client.filters = .ok (passes db values))
    (hsize : parsePageSize client.pageSize = .ok size) (hk : 1 ≤ k) {orderKey : List String}
    (hkey : getKeysetOrderKey client.tableName = some orderKey) :
    client.response db table cache k = (do
      let pageResult ← processKeysetResults db.toPostgres
        ((Paging.sorted (orderBy db.toPostgres orderKey .desc) (table.filter (passes db values))).take
          (size + 1)) size orderKey
      let total := (getCachedCount (buildCountCacheKey client.tableName client.filters)
        (table.filter (passes db values)).length (client.times k)
        (client.cacheAfter db table cache (k - 1))).1
      return ⟨pageResult.data, pageResult.nextCursor, computePaginationMeta k size total⟩) := by
  have hclamp : clampKeysetPageSize (.finite size) = size := by
    obtain ⟨hpos, hmax⟩ := parsePageSize_bounds hsize
    unfold clampKeysetPageSize MAX_KEYSET_PAGE_SIZE MIN_KEYSET_PAGE_SIZE
    have hfloor : (size : ℚ).floor = size := Rat.floor_intCast size
    simp only [hfloor]
    omega
  have hpage : keysetPaginate db.toPostgres table client.tableName ⟨none, .finite size, none⟩
      (passes db values) = processKeysetResults db.toPostgres
        ((Paging.sorted (orderBy db.toPostgres orderKey .desc) (table.filter (passes db values))).take
          (size + 1)) size orderKey := by
    have hclause : buildKeysetClause orderKey none none = .ok ⟨orderKey, .desc, none⟩ :=
      @buildKeysetClause_eq Value db.toPostgres orderKey (validKey_of_getKeysetOrderKey hkey) none none
    unfold keysetPaginate
    rw [hkey]
    simp only
    rw [hclause, hclamp]
    rfl
  have hkeyset : isKeysetTable client.tableName = true := by
    unfold isKeysetTable
    unfold getKeysetOrderKey at hkey
    rw [hkey]
    rfl
  unfold Client.response
  rw [request_keyset hserved h hsize hk hkeyset]
  unfold keysetList
  rw [hpage, hclamp]
  cases processKeysetResults db.toPostgres
    ((Paging.sorted (orderBy db.toPostgres orderKey .desc) (table.filter (passes db values))).take
      (size + 1)) size orderKey with
  | error error => rfl
  | ok pageResult => rfl

/-! ## Partitions -/

/-- The primary key makes the rows different. -/
theorem nodup_matching (table : IdTable db) : (client.matching db table.rows).Nodup := by
  have hrows : table.rows.Nodup := by
    refine table.primaryKey.imp ?_
    rintro a b hne rfl
    exact hne Std.ReflCmp.compare_self
  unfold matching
  cases filterValues db client.filters with
  | none => exact List.nodup_nil
  | some values => exact hrows.filter _

/-- The pages of the offset path. -/
theorem partition_of_offset (hserved : client.tableName ∈ ALLOWED_TABLES)
    (h : conditions db client.tableName client.filters = .ok (passes db values))
    (hvalues : filterValues db client.filters = some values)
    (hsize : parsePageSize client.pageSize = .ok size)
    (hkeyset : isKeysetTable client.tableName = false) : client.PagesPartition db table size cache := by
  have hpos := (parsePageSize_bounds hsize).1
  set ordered := Paging.sorted (orderBy db.toPostgres ["id"] .desc) (table.filter (passes db values))
    with hordered
  have hperm : ordered.Perm (client.matching db table) := by
    rw [matching_eq hvalues]
    exact List.perm_insertionSort _ _
  unfold PagesPartition
  rw [← hperm.length_eq]
  refine ⟨Paging.numberedPage size ordered, ?_⟩
  simp only
  rw [Paging.flatMap_numberedPage_pageCount hpos]
  refine ⟨hperm, fun k hk => ⟨_, response_offset hserved h hsize (by omega) hkeyset, rfl, rfl, rfl, ?_⟩⟩
  have hlength : (table.filter (passes db values)).length = ordered.length :=
    (List.perm_insertionSort _ _).length_eq.symm
  have htotal := totalPages_computePaginationMeta hpos k (table.filter (passes db values)).length
  rw [hlength] at htotal ⊢
  exact ⟨htotal, by
    rw [← htotal]
    exact decide_eq_true_iff⟩

/-- A count that is in the cache and has not expired is the one that is used. -/
theorem getCachedCount_of_alive {key : String} {count now : ℕ} {entry : CountCacheEntry}
    (hentry : cache key = some entry) (halive : now < entry.expiresAt) :
    (getCachedCount key count now cache).1 = entry.value := by
  unfold getCachedCount
  simp only [hentry]
  rw [if_pos halive]

/-- The count is that of the table, or one in the cache. -/
theorem getCachedCount_cases (key : String) (count now : ℕ) (cache : CountCache) :
    (getCachedCount key count now cache).1 = count ∨ ∃ entry, cache key = some entry ∧
      now < entry.expiresAt ∧ (getCachedCount key count now cache).1 = entry.value := by
  cases hentry : cache key with
  | none =>
    left
    unfold getCachedCount
    simp only [hentry]
  | some entry =>
    by_cases halive : now < entry.expiresAt
    · exact Or.inr ⟨entry, rfl, halive, getCachedCount_of_alive hentry halive⟩
    · left
      unfold getCachedCount
      simp only [hentry]
      rw [if_neg halive]

/-- The only page of the keyset path. -/
theorem partition_of_keyset (hserved : client.tableName ∈ ALLOWED_TABLES)
    (h : conditions db client.tableName client.filters = .ok (passes db values))
    (hvalues : filterValues db client.filters = some values)
    (hsize : parsePageSize client.pageSize = .ok size) (hlistable : client.Listable db table size cache)
    (hkeyset : isKeysetTable client.tableName = true) : client.PagesPartition db table size cache := by
  have hpos := (parsePageSize_bounds hsize).1
  obtain ⟨orderKey, hkey⟩ : ∃ orderKey, getKeysetOrderKey client.tableName = some orderKey :=
    Option.isSome_iff_exists.1 hkeyset
  set ordered := Paging.sorted (orderBy db.toPostgres orderKey .desc) (table.filter (passes db values))
    with hordered
  have hperm : ordered.Perm (client.matching db table) := by
    rw [matching_eq hvalues]
    exact List.perm_insertionSort _ _
  have hfit : ordered.length ≤ size := hperm.length_eq ▸ hlistable.onePage hkeyset
  have hcounted := hlistable.counted hkeyset
  have hone := (Paging.pageCount_le_one_iff hpos).2 hfit
  set total := (getCachedCount (buildCountCacheKey client.tableName client.filters)
    (table.filter (passes db values)).length (client.times 1) cache).1 with htotal
  have hpages : Paging.pageCount size total = Paging.pageCount size ordered.length := by
    rcases getCachedCount_cases (buildCountCacheKey client.tableName client.filters)
      (table.filter (passes db values)).length (client.times 1) cache with
      hcount | ⟨entry, hentry, halive, hvalue⟩
    · rw [htotal, hcount, hperm.length_eq, matching_eq hvalues]
    · rw [htotal, hvalue, hcounted entry hentry halive, hperm.length_eq]
  have hresponse : client.response db table cache 1 =
      .ok ⟨ordered, none, computePaginationMeta 1 size total⟩ := by
    have hall : ordered.take (size + 1) = ordered := List.take_of_length_le (by omega)
    rw [response_keyset hserved h hsize le_rfl hkey, ← hordered, hall, processKeysetResults_all hfit]
    rfl
  unfold PagesPartition
  rw [← hperm.length_eq]
  refine ⟨Paging.numberedPage size ordered, ?_⟩
  simp only
  rw [Paging.flatMap_numberedPage_pageCount hpos]
  refine ⟨hperm, fun k hk => ?_⟩
  obtain rfl : k = 1 := by omega
  have hmeta := totalPages_computePaginationMeta hpos 1 total
  rw [hpages] at hmeta
  refine ⟨_, hresponse, ?_, rfl, rfl, hmeta, ?_⟩
  · show ordered = (ordered.drop ((1 - 1) * size)).take size
    rw [Nat.sub_self, Nat.zero_mul, List.drop_zero, List.take_of_length_le hfit]
  · rw [← hmeta]
    exact decide_eq_true_iff

/-- A list with more than one page of the keyset path has its first page twice. -/
theorem not_partition_of_keyset (table : IdTable db) (hserved : client.tableName ∈ ALLOWED_TABLES)
    (h : conditions db client.tableName client.filters = .ok (passes db values))
    (hvalues : filterValues db client.filters = some values)
    (hsize : parsePageSize client.pageSize = .ok size)
    (hkeyset : isKeysetTable client.tableName = true)
    (hlong : size < (client.matching db table.rows).length) :
    ¬ client.PagesPartition db table.rows size cache := by
  rintro ⟨data, hperm, hpages⟩
  have hpos := (parsePageSize_bounds hsize).1
  obtain ⟨orderKey, hkey⟩ : ∃ orderKey, getKeysetOrderKey client.tableName = some orderKey :=
    Option.isSome_iff_exists.1 hkeyset
  set matching := client.matching db table.rows with hmatching
  set ordered := Paging.sorted (orderBy db.toPostgres orderKey .desc) (table.rows.filter (passes db values))
    with hordered
  have hsorted : ordered.Perm matching := by
    rw [hmatching, matching_eq hvalues]
    exact List.perm_insertionSort _ _
  have htwo : 1 < Paging.pageCount size matching.length := by
    by_contra hle
    have hfit := (Paging.pageCount_le_one_iff hpos).1 (not_lt.1 hle)
    omega
  -- Both pages have the first rows.
  have hfirst : ∀ k, 1 ≤ k → k ≤ Paging.pageCount size matching.length → data k = ordered.take size := by
    intro k hk hle
    obtain ⟨response, hresponse, hdata, -⟩ := hpages k (Or.inr ⟨hk, hle⟩)
    rw [response_keyset hserved h hsize hk hkey] at hresponse
    obtain ⟨pageResult, hpage, hresponse⟩ := bind_eq_ok.1 hresponse
    have hrows := data_of_processKeysetResults hpage
    rw [← hdata, ← Except.ok.inj hresponse]
    show pageResult.data = _
    rw [hrows, List.take_take, Nat.min_eq_left (by omega)]
  set order := (List.range (Paging.pageCount size matching.length)).flatMap fun i => data (i + 1)
    with horder
  obtain ⟨-, -, -, hone, -⟩ := hpages 1 (Or.inl rfl)
  obtain ⟨-, -, -, hsecond, -⟩ := hpages 2 (Or.inr ⟨by omega, htwo⟩)
  rw [hfirst 1 le_rfl (by omega)] at hone
  rw [hfirst 2 (by omega) htwo, hone] at hsecond
  have hnodup : order.Nodup := hperm.nodup_iff.2 (nodup_matching table)
  have hlength : size < order.length := hperm.length_eq ▸ hlong
  have hnonempty : Paging.numberedPage size order 1 ≠ [] := by
    intro hempty
    have hzero := congrArg List.length hempty
    unfold Paging.numberedPage at hzero
    rw [List.length_take, List.length_drop, List.length_nil] at hzero
    omega
  obtain ⟨x, hx⟩ := List.exists_mem_of_ne_nil _ hnonempty
  have hx' : x ∈ Paging.numberedPage size order 2 := hsecond ▸ hx
  unfold Paging.numberedPage at hx hx'
  have hdisjoint := List.disjoint_take_drop hnodup (le_refl size)
  exact hdisjoint (by simpa using hx) (by simpa using List.mem_of_mem_take hx')

/-- The response of the first page has the number of pages of the count in the cache. -/
theorem counted_of_partition (hserved : client.tableName ∈ ALLOWED_TABLES)
    (h : conditions db client.tableName client.filters = .ok (passes db values))
    (hsize : parsePageSize client.pageSize = .ok size)
    (hkeyset : isKeysetTable client.tableName = true) (hpartition : client.PagesPartition db table size cache)
    {entry : CountCacheEntry}
    (hentry : cache (buildCountCacheKey client.tableName client.filters) = some entry)
    (halive : client.times 1 < entry.expiresAt) :
    Paging.pageCount size entry.value = Paging.pageCount size (client.matching db table).length := by
  obtain ⟨orderKey, hkey⟩ : ∃ orderKey, getKeysetOrderKey client.tableName = some orderKey :=
    Option.isSome_iff_exists.1 hkeyset
  obtain ⟨data, -, hpages⟩ := hpartition
  obtain ⟨response, hresponse, -, -, -, htotal, -⟩ := hpages 1 (Or.inl rfl)
  rw [response_keyset hserved h hsize le_rfl hkey] at hresponse
  obtain ⟨pageResult, -, hresponse⟩ := bind_eq_ok.1 hresponse
  have hpagination : response.pagination = computePaginationMeta 1 size
      (getCachedCount (buildCountCacheKey client.tableName client.filters)
        (table.filter (passes db values)).length (client.times 1) cache).1 :=
    congrArg ListResponse.pagination (Except.ok.inj hresponse).symm
  rw [← htotal, hpagination, totalPages_computePaginationMeta (parsePageSize_bounds hsize).1,
    getCachedCount_of_alive hentry halive]

/-- The pages of a list of a served table, with any filters, any accepted page size and any times of the
requests, are a partition of the matching rows exactly when the list is `Listable`. -/
theorem pages_partition_iff (client : Client) (db : Database Value) (table : IdTable db)
    (cache : CountCache) (hserved : client.tableName ∈ ALLOWED_TABLES) {params : ParsedPaginationParams}
    (haccepted : parsePaginationParams .missing client.pageSize = .ok params) :
    client.PagesPartition db table.rows params.pageSize cache ↔
      client.Listable db table.rows params.pageSize cache := by
  have hsize := parsePageSize_eq haccepted
  constructor
  · intro hpartition
    obtain ⟨data, -, hpages⟩ := id hpartition
    obtain ⟨response, hresponse, -⟩ := hpages 1 (Or.inl rfl)
    obtain ⟨hdeleted, values, hvalues⟩ := exists_values hserved hsize hresponse
    have hconditions := conditions_eq hserved hdeleted hvalues
    refine ⟨hdeleted, Option.isSome_iff_exists.2 ⟨values, hvalues⟩, ?_, ?_⟩
    · intro hkeyset
      by_contra hlong
      exact not_partition_of_keyset table hserved hconditions hvalues hsize hkeyset (by omega) hpartition
    · intro hkeyset entry hentry halive
      exact counted_of_partition hserved hconditions hsize hkeyset hpartition hentry halive
  · intro hlistable
    obtain ⟨values, hvalues⟩ := Option.isSome_iff_exists.1 hlistable.read
    have hconditions := conditions_eq hserved hlistable.softDelete hvalues
    cases hkeyset : isKeysetTable client.tableName with
    | false => exact partition_of_offset hserved hconditions hvalues hsize hkeyset
    | true => exact partition_of_keyset hserved hconditions hvalues hsize hlistable hkeyset

end Client

/-! ## Examples -/

/-- `textDatabase`, with a driver that sends texts as they are. -/
def textDriver : Database String where
  toPostgres := textDatabase
  paramText
    | .str text => String.ofList text
    | other => String.ofList (stringify other)

/-- A row with a status, at a time. -/
def statusRow (status createdAt id : String) : Row String := fun column =>
  if column = "status" then some status else logRow createdAt id column

/-- Three rows, one of which is closed. -/
def statusTable : IdTable textDriver where
  rows := [statusRow "Open" "10:00" "a", statusRow "Closed" "10:00" "b", statusRow "Open" "11:00" "c"]
  primaryKey := by
    unfold DistinctKeys
    decide +kernel

/-- A client that asks for pages of one row, each second. -/
def onePerPage (tableName : String) (rawFilters : OrderedMap String Json) : Client :=
  ⟨tableName, rawFilters, .finite 1, fun k => 1000 * k⟩

/-- The open cases of fraud; the parameter `sort` is not whitelisted. -/
def openFraud : Client :=
  onePerPage "fraud_log" ⟨[("status", .str "Open".toList), ("sort", .str "id".toList)], by decide⟩

/-- The open cases are in two pages. -/
theorem pages_partition_fraud : openFraud.PagesPartition textDriver statusTable.rows 1 fun _ => none := by
  have hserved : openFraud.tableName ∈ ALLOWED_TABLES := by decide
  have haccepted : parsePaginationParams .missing openFraud.pageSize = .ok ⟨1, 1, 0⟩ := by decide
  refine (Client.pages_partition_iff openFraud textDriver statusTable _ hserved haccepted).2 ⟨?_, ?_, ?_, ?_⟩
  · decide
  · decide
  · intro hkeyset
    cases hkeyset
  · intro hkeyset
    cases hkeyset

/-- The risks in pages of one, where the first page comes three times; and the laws, whose table has no
`deleted_at`. -/
theorem pages_not_partition :
    ¬ (onePerPage "risk_register" .empty).PagesPartition textDriver statusTable.rows 1 (fun _ => none) ∧
      ¬ (onePerPage "law_bank" .empty).PagesPartition textDriver statusTable.rows 1 (fun _ => none) := by
  have hsize : parsePageSize (.finite 1) = .ok 1 := by decide
  have hrisks : (onePerPage "risk_register" .empty).tableName ∈ ALLOWED_TABLES := by decide
  have hlaws : (onePerPage "law_bank" .empty).tableName ∈ ALLOWED_TABLES := by decide
  have hread : filterValues textDriver (onePerPage "risk_register" .empty).filters = some [] := rfl
  constructor
  · have hconditions := Client.conditions_eq hrisks (by decide) hread
    exact Client.not_partition_of_keyset statusTable hrisks hconditions hread hsize (by decide) (by decide)
  · rintro ⟨data, -, hpages⟩
    obtain ⟨response, hresponse, -⟩ := hpages 1 (Or.inl rfl)
    obtain ⟨hdeleted, -⟩ := Client.exists_values hlaws hsize hresponse
    revert hdeleted
    decide

end AlsaqiBackend.Pagination
