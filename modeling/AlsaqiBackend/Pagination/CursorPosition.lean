import AlsaqiBackend.Lib.JsDate
import AlsaqiBackend.Pagination.Traversal
import Mathlib.Data.List.TakeDrop

/-!
# The position that a cursor denotes

The order keys of `KEYSET_TABLES` are a time and an id. PostgreSQL keeps the time in microseconds, the
driver makes a `Date` of it, and the cursor has the text of the date, which PostgreSQL reads when the
cursor comes back (`Server.postgres`). The text says neither the microseconds nor the milliseconds, so
that the position it is read as is that of a whole second at best, and `denotesPosition_iff` says for
which rows this is the row's own.
-/

namespace AlsaqiBackend.Pagination

open Lib

/-! ## The columns of the order keys -/

/-- What a column of an order key stores: a `TIMESTAMPTZ`, in microseconds since the epoch, or a `UUID`.
-/
inductive KeyValue
  | timestamp (micros : ℤ)
  | uuid (bits : Fin (2 ^ 128))
  deriving DecidableEq

def KeyValue.kind : KeyValue → ℕ
  | .timestamp _ => 0
  | .uuid _ => 1

def KeyValue.number : KeyValue → ℤ
  | .timestamp micros => micros
  | .uuid bits => (bits : ℕ)

/-- The order of the values; those of different columns never meet. -/
def compareKeys : KeyValue → KeyValue → Ordering :=
  compareLex (compareOn KeyValue.kind) (compareOn KeyValue.number)

/-- The text of a `UUID`. -/
def uuidText (bits : Fin (2 ^ 128)) : String :=
  let digits := fixedDigits 16 32 bits
  let group (start length : ℕ) := (digits.drop start).take length
  String.ofList (group 0 8 ++ ['-'] ++ group 8 4 ++ ['-'] ++ group 12 4 ++ ['-'] ++ group 16 4 ++
    ['-'] ++ group 20 12)

/-- The process that makes the cursors, with its time zone, and the database that reads them. -/
structure Server where
  zone : NamedZone
  /-- What PostgreSQL reads a text as beside a `TIMESTAMPTZ` column, in microseconds. -/
  readTimestamp : String → Option ℤ
  readUuid : String → Option (Fin (2 ^ 128))
  readUuid_text : ∀ bits, readUuid (uuidText bits) = some bits
  /-- The text of a date has no fraction of a second. -/
  wholeSecond : ∀ t micros, readTimestamp (dateToString zone (some t)) = some micros → micros % 1000000 = 0
  readInvalid : readTimestamp (dateToString zone none) = none

/-- The date that the driver makes of a time. The digits below the millisecond are dropped. -/
def driverDate (micros : ℤ) : Option ℤ := timeClip (micros / 1000)

def Server.postgres (server : Server) : Postgres KeyValue where
  compare := compareKeys
  trans := by
    unfold compareKeys
    infer_instance
  readParam column text :=
    if column = "id" then (server.readUuid text).map .uuid else (server.readTimestamp text).map .timestamp
  text
    | .timestamp micros => dateToString server.zone (driverDate micros)
    | .uuid bits => uuidText bits

def positionKey : List String := ["created_at", "id"]

/-- Every order key of the registry is the time and the id. -/
theorem getKeysetOrderKey_eq {tableName : String} {orderKey : List String}
    (h : getKeysetOrderKey tableName = some orderKey) : orderKey = positionKey := by
  obtain ⟨l, r, heq, -⟩ := List.lookup_eq_some_iff.1 h
  have hmem : (tableName, orderKey) ∈ KEYSET_TABLES := heq ▸ List.mem_append_right _ List.mem_cons_self
  have hall : ∀ entry ∈ KEYSET_TABLES, entry.2 = positionKey := by decide
  exact hall _ hmem

/-- A row of a registered table, with its position. -/
structure StoredRow where
  columns : Row KeyValue
  createdAt : ℤ
  id : Fin (2 ^ 128)
  createdAt_eq : columns "created_at" = some (.timestamp createdAt)
  id_eq : columns "id" = some (.uuid id)

/-- The row of a position. -/
def StoredRow.of (createdAt : ℤ) (id : Fin (2 ^ 128)) : StoredRow where
  columns column := if column = "created_at" then some (.timestamp createdAt)
    else if column = "id" then some (.uuid id) else none
  createdAt := createdAt
  id := id
  createdAt_eq := rfl
  id_eq := rfl

/-- The text of the row's time. -/
def Server.timeText (server : Server) (row : StoredRow) : String :=
  dateToString server.zone (driverDate row.createdAt)

/-- The cursor of the row denotes its position: read back and bound as parameters, its values are equal
to the row's in the database, and what is behind them is what is behind the row, in both directions. -/
def DenotesPosition (server : Server) (row : StoredRow) : Prop :=
  ∃ cursor texts params, encodeKeysetCursor server.postgres positionKey row.columns = .ok cursor ∧
    decodeKeysetCursor cursor positionKey = .ok texts ∧
    readParams server.postgres positionKey texts = some params ∧
    compareRow server.postgres (positionKey.map row.columns) params = some .eq ∧
    ∀ direction (other : StoredRow),
      isBehind server.postgres positionKey direction params other.columns =
        Paging.isAfter (orderBy server.postgres positionKey direction) (some row.columns) other.columns

/-! ## The way through the cursor -/

variable {server : Server} {row other : StoredRow}

theorem encode_row : encodeKeysetCursor server.postgres positionKey row.columns =
    .ok (cursorText server.postgres positionKey row.columns) := by
  refine encodeKeysetCursor_eq (by decide) ?_
  unfold positionKey
  simp [row.createdAt_eq, row.id_eq]

theorem decode_row :
    decodeKeysetCursor (cursorText server.postgres positionKey row.columns) positionKey =
      .ok [server.timeText row, uuidText row.id] := by
  rw [decodeKeysetCursor_cursorText (by decide)]
  show Except.ok [keyText _ row.columns "created_at", keyText _ row.columns "id"] = _
  unfold keyText
  rw [row.createdAt_eq, row.id_eq]
  rfl

/-- The id is read as itself, and the time as its text is. -/
theorem readParams_row : readParams server.postgres positionKey [server.timeText row, uuidText row.id] =
    (server.readTimestamp (server.timeText row)).map fun micros =>
      [KeyValue.timestamp micros, .uuid row.id] := by
  have hid : server.postgres.readParam "id" (uuidText row.id) = some (.uuid row.id) := by
    show (server.readUuid (uuidText row.id)).map KeyValue.uuid = _
    rw [server.readUuid_text]
    rfl
  have htime : server.postgres.readParam "created_at" (server.timeText row) =
      (server.readTimestamp (server.timeText row)).map .timestamp := rfl
  show [("created_at", server.timeText row), ("id", uuidText row.id)].mapM _ = _
  rw [List.mapM_cons, List.mapM_cons, List.mapM_nil, hid, htime]
  cases server.readTimestamp (server.timeText row) with
  | none => rfl
  | some micros => rfl

/-! ## The order of the positions -/

/-- A time and an id beside others. -/
def comparePositions (p q : ℤ × Fin (2 ^ 128)) : Ordering :=
  (compare p.1 q.1).then (compare ((p.2 : ℕ) : ℤ) (q.2 : ℕ))

def StoredRow.position (row : StoredRow) : ℤ × Fin (2 ^ 128) := (row.createdAt, row.id)

theorem comparePositions_eq_iff {p q : ℤ × Fin (2 ^ 128)} : comparePositions p q = .eq ↔ p = q := by
  unfold comparePositions
  rw [Ordering.then_eq_eq, compare_eq_iff_eq, compare_eq_iff_eq, Prod.ext_iff, Fin.ext_iff]
  exact and_congr_right fun _ => Int.ofNat_inj

theorem comparePositions_gt {p q : ℤ × Fin (2 ^ 128)} (h : q.1 < p.1) : comparePositions p q = .gt := by
  unfold comparePositions
  rw [compare_gt_iff_gt.2 h]
  rfl

theorem compareColumns_position : compareColumns server.postgres positionKey row.columns other.columns =
    comparePositions row.position other.position := by
  unfold positionKey compareColumns compareColumns compareColumns
  rw [row.createdAt_eq, row.id_eq, other.createdAt_eq, other.id_eq]
  show (compare _ _).then ((compare _ _).then .eq) = _
  rw [Ordering.then_eq]
  rfl

theorem compareRow_position (p : ℤ × Fin (2 ^ 128)) :
    compareRow server.postgres (positionKey.map row.columns) [.timestamp p.1, .uuid p.2] =
      some (comparePositions row.position p) := by
  unfold positionKey
  rw [List.map_cons, List.map_cons, List.map_nil, row.createdAt_eq, row.id_eq]
  have htime : server.postgres.compare (.timestamp row.createdAt) (.timestamp p.1) =
      compare row.createdAt p.1 := rfl
  have hid : server.postgres.compare (.uuid row.id) (.uuid p.2) = compare ((row.id : ℕ) : ℤ) (p.2 : ℕ) := rfl
  unfold compareRow compareRow comparePositions StoredRow.position
  rw [htime, hid]
  cases compare row.createdAt p.1 with
  | lt => rfl
  | gt => rfl
  | eq =>
    cases compare ((row.id : ℕ) : ℤ) (p.2 : ℕ) with
    | lt => rfl
    | eq => rfl
    | gt => rfl

/-- What is behind the parameters of a position. -/
theorem isBehind_position (direction : SortDirection) (p : ℤ × Fin (2 ^ 128)) :
    isBehind server.postgres positionKey direction [.timestamp p.1, .uuid p.2] row.columns =
      decide (comparePositions row.position p = match direction with | .desc => .lt | .asc => .gt) := by
  unfold isBehind
  rw [compareRow_position]
  exact decide_eq_decide.2 Option.some_inj

/-- What is behind the row. -/
theorem isAfter_position (direction : SortDirection) :
    Paging.isAfter (orderBy server.postgres positionKey direction) (some row.columns) other.columns =
      decide (comparePositions other.position row.position =
        match direction with | .desc => .lt | .asc => .gt) := by
  have hcompare : compareRow server.postgres (positionKey.map other.columns)
      [.timestamp row.createdAt, .uuid row.id] =
        some (compareColumns server.postgres positionKey other.columns row.columns) := by
    rw [compareColumns_position]
    exact compareRow_position row.position
  rw [← isBehind_eq direction hcompare]
  exact isBehind_position direction row.position

/-! ## Which rows a cursor denotes -/

/-- PostgreSQL reads the text of the date of a second as this second. -/
def Server.Understands (server : Server) (second : ℤ) : Prop :=
  |1000 * second| ≤ maxTimeValue ∧
    server.readTimestamp (dateToString server.zone (some (1000 * second))) = some (1000000 * second)

/-- The cursor of a row whose text is read as a time denotes this time, with the id of the row. -/
theorem of_denotesPosition (h : DenotesPosition server row) :
    server.readTimestamp (server.timeText row) = some row.createdAt := by
  obtain ⟨cursor, texts, params, hencode, hdecode, hread, hequal, -⟩ := h
  rw [encode_row] at hencode
  rw [← Except.ok.inj hencode, decode_row] at hdecode
  rw [← Except.ok.inj hdecode, readParams_row] at hread
  obtain ⟨micros, hmicros, rfl⟩ := Option.map_eq_some_iff.1 hread
  rw [compareRow_position (micros, row.id), Option.some_inj, comparePositions_eq_iff] at hequal
  rw [hmicros, Option.some_inj]
  exact (congrArg Prod.fst hequal).symm

/-- A time that is read from the text of a date is a whole second that PostgreSQL understands. -/
theorem exists_second (h : server.readTimestamp (server.timeText row) = some row.createdAt) :
    ∃ second, row.createdAt = 1000000 * second ∧ server.Understands second := by
  unfold Server.timeText driverDate timeClip at h
  split_ifs at h with hrange
  · have hwhole := server.wholeSecond _ _ h
    have hmillis : row.createdAt / 1000 = 1000 * (row.createdAt / 1000000) := by omega
    have hmicros : row.createdAt = 1000000 * (row.createdAt / 1000000) := by omega
    rw [hmillis] at h hrange
    exact ⟨row.createdAt / 1000000, hmicros, hrange, h.trans (congrArg some hmicros)⟩
  · rw [server.readInvalid] at h
    cases h

/-- The cursor of a row denotes its position exactly when the row's time is a whole second, in the range
of a `Date`, which PostgreSQL reads from the text that JavaScript writes in the server's time zone. -/
theorem denotesPosition_iff (server : Server) (row : StoredRow) :
    DenotesPosition server row ↔
      ∃ second, row.createdAt = 1000000 * second ∧ server.Understands second := by
  constructor
  · exact fun h => exists_second (of_denotesPosition h)
  · rintro ⟨second, hsecond, hrange, hread⟩
    have htext : server.readTimestamp (server.timeText row) = some row.createdAt := by
      have hmillis : row.createdAt / 1000 = 1000 * second := by omega
      unfold Server.timeText driverDate timeClip
      rw [hmillis, if_pos hrange, hread, hsecond]
    refine ⟨_, _, [.timestamp row.createdAt, .uuid row.id], encode_row, decode_row, ?_, ?_, ?_⟩
    · rw [readParams_row, htext]
      rfl
    · have hself : comparePositions row.position row.position = .eq := comparePositions_eq_iff.2 rfl
      exact (compareRow_position row.position).trans (congrArg some hself)
    · intro direction other
      rw [isAfter_position]
      exact isBehind_position direction row.position

/-! ## The other rows -/

section Page

variable {tableName : String} {table : List (Row KeyValue)} {size : RequestedSize}
  {direction : Option SortDirection} {additionalWhere : Row KeyValue → Bool}

/-- The query behind the cursor of a row. -/
theorem keysetPaginate_row (htableName : (getKeysetOrderKey tableName).isSome) :
    keysetPaginate server.postgres table tableName
        ⟨some (cursorText server.postgres positionKey row.columns), size, direction⟩ additionalWhere =
      (do
        let rows ← selectRows server.postgres table additionalWhere
          ⟨positionKey, direction.getD .desc, some [server.timeText row, uuidText row.id]⟩
          (clampKeysetPageSize size + 1)
        processKeysetResults server.postgres rows (clampKeysetPageSize size) positionKey) := by
  obtain ⟨orderKey, horderKey⟩ := Option.isSome_iff_exists.1 htableName
  have hkey := validKey_of_getKeysetOrderKey horderKey
  obtain rfl := getKeysetOrderKey_eq horderKey
  have htexts : positionKey.map (keyText server.postgres row.columns) =
      [server.timeText row, uuidText row.id] :=
    Except.ok.inj ((decodeKeysetCursor_cursorText (by decide)).symm.trans decode_row)
  have hclause : buildKeysetClause positionKey
      (some (cursorText server.postgres positionKey row.columns)) direction = _ :=
    buildKeysetClause_eq hkey (some row.columns) direction
  rw [Option.map_some, htexts] at hclause
  unfold keysetPaginate
  rw [horderKey]
  simp only
  rw [hclause]
  rfl

/-- Where the text is read as an earlier time, a row between the two is behind the row and is on no page
behind its cursor. -/
theorem skipped {read : ℤ} (htableName : (getKeysetOrderKey tableName).isSome)
    (hread : server.readTimestamp (server.timeText row) = some read) (hafter : read < other.createdAt)
    (hbefore : other.createdAt < row.createdAt) :
    Paging.isAfter (orderBy server.postgres positionKey .desc) (some row.columns) other.columns = true ∧
      ∀ page, keysetPaginate server.postgres table tableName
          ⟨some (cursorText server.postgres positionKey row.columns), size, some .desc⟩ additionalWhere =
            .ok page → other.columns ∉ page.data := by
  have hgt : comparePositions other.position (read, row.id) = .gt := comparePositions_gt hafter
  have hlt : comparePositions other.position row.position = .lt := by
    unfold comparePositions StoredRow.position
    rw [compare_lt_iff_lt.2 hbefore]
    rfl
  refine ⟨?_, ?_⟩
  · rw [isAfter_position]
    exact decide_eq_true hlt
  · intro page hpage hmem
    rw [keysetPaginate_row htableName] at hpage
    unfold selectRows at hpage
    simp only [readParams_row, hread, Option.map_some] at hpage
    rw [data_of_processKeysetResults hpage] at hmem
    have hrow := List.mem_of_mem_take (List.mem_of_mem_take hmem)
    unfold Paging.sorted at hrow
    obtain ⟨-, hpass⟩ := List.mem_filter.1 ((List.mem_insertionSort _).1 hrow)
    have hbehind := (Bool.and_eq_true_iff.1 hpass).2
    rw [Option.getD_some, isBehind_position .desc (read, row.id), hgt] at hbehind
    cases of_decide_eq_true hbehind

/-- Where the text is read as an earlier time, the row itself is behind its cursor in ascending order.
-/
theorem repeated {read : ℤ} (hbefore : read < row.createdAt) :
    isBehind server.postgres positionKey .asc [.timestamp read, .uuid row.id] row.columns = true := by
  have hgt : comparePositions row.position (read, row.id) = .gt := comparePositions_gt hbefore
  rw [isBehind_position .asc (read, row.id)]
  exact decide_eq_true hgt

end Page

/-! ## Two servers -/

/-- The number of hexadecimal digits. -/
def hexNumber (digits : List Char) : ℕ := digits.foldl (fun n c => 16 * n + (hexValue c).getD 0) 0

theorem hexNumber_fixedDigits (w n : ℕ) : hexNumber (fixedDigits 16 w n) = n % 16 ^ w := by
  induction w generalizing n with
  | zero => rw [pow_zero, Nat.mod_one]; rfl
  | succ w ih =>
    have hvalue : ∀ d < 16, (hexValue (Nat.digitChar d)).getD 0 = d := by decide
    have hlast : hexNumber (fixedDigits 16 (w + 1) n) =
        16 * hexNumber (fixedDigits 16 w (n / 16)) + (hexValue (Nat.digitChar (n % 16))).getD 0 := by
      unfold hexNumber
      rw [fixedDigits, List.foldl_append]
      rfl
    rw [hlast, ih, hvalue _ (Nat.mod_lt _ (by decide)), pow_succ, mul_comm (16 ^ w) 16, Nat.mod_mul]
    omega

/-- A text as a `UUID`: 32 digits, between which dashes may stand. -/
def readUuidText (text : String) : Option (Fin (2 ^ 128)) :=
  let digits := text.toList.filter (· ≠ '-')
  if digits.length = 32 then some (Fin.ofNat (2 ^ 128) (hexNumber digits)) else none

theorem readUuidText_uuidText (bits : Fin (2 ^ 128)) : readUuidText (uuidText bits) = some bits := by
  have hdash : ∀ c ∈ fixedDigits 16 32 bits, c ≠ '-' := by
    intro c hc hdash
    exact notMem_fixedDigits (digitChar_ne (by decide) (by decide)) _ _ _ (hdash ▸ hc)
  have hgroup : ∀ start length, (((fixedDigits 16 32 bits).drop start).take length).filter (· ≠ '-') =
      ((fixedDigits 16 32 bits).drop start).take length := by
    intro start length
    refine List.filter_eq_self.2 fun c hc => decide_eq_true ?_
    exact hdash c (List.mem_of_mem_drop (List.mem_of_mem_take hc))
  have hdigits : (uuidText bits).toList.filter (· ≠ '-') = fixedDigits 16 32 bits := by
    have hcut := (fixedDigits 16 32 bits).drop_take_append_drop
    have hlast : ((fixedDigits 16 32 bits).drop 20).take 12 = (fixedDigits 16 32 bits).drop 20 :=
      List.take_of_length_le (by simp)
    have hsplitter : ['-'].filter (· ≠ '-') = [] := by decide
    unfold uuidText
    simp only [String.toList_ofList, List.filter_append, hgroup, hsplitter, List.nil_append,
      List.append_assoc]
    rw [hlast, hcut 16 4, hcut 12 4, hcut 8 4, hcut 0 8]
    rfl
  unfold readUuidText
  simp only [hdigits, fixedDigits_length, if_true, hexNumber_fixedDigits]
  have hlt : (bits : ℕ) % 16 ^ 32 = bits := Nat.mod_eq_of_lt bits.isLt
  rw [hlt]
  exact congrArg some (Fin.ext hlt)

def utc : NamedZone := ⟨fun _ => 0, fun _ => "Coordinated Universal Time"⟩

/-- A database that does not know the names of time zones in the texts of dates. -/
def rejectingServer : Server where
  zone := utc
  readTimestamp _ := none
  readUuid := readUuidText
  readUuid_text := readUuidText_uuidText
  wholeSecond := fun _ _ h => by cases h
  readInvalid := rfl

/-- A database that reads the texts of dates, here one of them. -/
def readingServer : Server where
  zone := utc
  readTimestamp text :=
    if text = "Thu Jan 15 2026 10:00:00 GMT+0000 (Coordinated Universal Time)" then some 1768471200000000
    else none
  readUuid := readUuidText
  readUuid_text := readUuidText_uuidText
  wholeSecond := by
    intro t micros h
    split_ifs at h
    rw [← Option.some.inj h]
    rfl
  readInvalid := by decide

/-- A row with a fraction of a second, which its cursor does not denote at either server. At the one
that reads the text, an older row of the second is skipped in descending order, and the row itself is
behind its cursor in ascending order. -/
theorem fraction_not_denoted :
    let row := StoredRow.of 1768471200123456 7
    let older := StoredRow.of 1768471200123400 9
    ¬ DenotesPosition rejectingServer row ∧ ¬ DenotesPosition readingServer row ∧
      Paging.isAfter (orderBy readingServer.postgres positionKey .desc) (some row.columns) older.columns =
        true ∧
      (∀ page, keysetPaginate readingServer.postgres [row.columns, older.columns] "request_logs"
          ⟨some (cursorText readingServer.postgres positionKey row.columns), .finite 1, some .desc⟩
          (fun _ => true) = .ok page → older.columns ∉ page.data) ∧
      isBehind readingServer.postgres positionKey .asc [.timestamp 1768471200000000, .uuid row.id]
        row.columns = true := by
  intro row older
  have hread : readingServer.readTimestamp (readingServer.timeText row) = some 1768471200000000 := by decide
  refine ⟨?_, ?_, and_assoc.1 ⟨skipped (by decide) hread (by decide) (by decide), repeated (by decide)⟩⟩
  · intro h
    cases of_denotesPosition h
  · intro h
    have hsame := of_denotesPosition h
    rw [hread] at hsame
    revert hsame
    decide

end AlsaqiBackend.Pagination
