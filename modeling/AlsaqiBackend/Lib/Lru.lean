import Mathlib.Data.Set.Card

/-!
# Bounded maps that forget what is least recently used

`LruMap` says for every key what was last set for it, when, when it was last used, and what has become of it
since. `LruStep` are the rules of a map with a bound and a time to live: a `get` answers what was last set
unless it has expired, was invalidated or was evicted; an entry is evicted only by a new key in a full map, and
is then the one whose last use is the longest ago.

An implementation keeps the entries in a list, the least recently used one first. `Represents` relates such a list
to a map; it is kept when entries are taken out (`Represents.remove`) and when one is put at the end
(`Represents.append`), and the first entry is the one that the rules evict (`Represents.isLeastUsed`).
-/

namespace AlsaqiBackend.Lib

variable {κ ν ε : Type*}

/-! ## The map -/

/-- What has become of what was set: it is there, a `get` has found it expired, or it was removed. -/
inductive Fate
  | held
  | lapsed
  | invalidated
  | evicted
  deriving DecidableEq

/-- What was last set for a key. -/
structure LruRecord (ν : Type*) where
  value : ν
  setAt : ℤ
  usedAt : ℕ
  fate : Fate

/-- The time, the number of operations so far, and the records of the keys. -/
structure LruMap (κ ν : Type*) where
  now : ℤ
  tick : ℕ
  records : κ → Option (LruRecord ν)

inductive LruOp (κ ν : Type*)
  | get (key : κ)
  | set (key : κ) (value : ν)
  | invalidate (keys : Set κ)
  | wait (ms : ℕ)

namespace LruMap

/-- No key has been set. -/
def start (now : ℤ) : LruMap κ ν := ⟨now, 0, fun _ => none⟩

variable (m : LruMap κ ν)

/-- The entry of the key takes a place. -/
def Holds (key : κ) : Prop := ∃ r, m.records key = some r ∧ r.fate = .held

/-- What was last set has not expired, and was neither invalidated nor evicted. -/
def Answers (ttl : ℤ) (key : κ) (value : ν) : Prop :=
  ∃ r, m.records key = some r ∧ r.value = value ∧ m.now ≤ r.setAt + ttl ∧ r.fate ≠ .invalidated ∧ r.fate ≠ .evicted

def Full (maxEntries : ℕ) : Prop := (maxEntries : ℕ∞) ≤ {key | m.Holds key}.encard

/-- No entry was set or successfully read longer ago. -/
def IsLeastUsed (key : κ) : Prop :=
  ∃ r, m.records key = some r ∧ r.fate = .held ∧
    ∀ key' r', m.records key' = some r' → r'.fate = .held → r.usedAt ≤ r'.usedAt

def next : LruMap κ ν := { m with tick := m.tick + 1 }

open Classical in
/-- The entries of the keys are removed. -/
noncomputable def setFate (keys : Set κ) (fate : Fate) : LruMap κ ν :=
  { m with
    records := fun key =>
      (m.records key).map fun r => if key ∈ keys ∧ r.fate = .held then { r with fate } else r }

variable [DecidableEq κ]

/-- The record of a key. -/
def place (key : κ) (r : LruRecord ν) : LruMap κ ν := { m with records := Function.update m.records key (some r) }

/-- The key is set now. -/
def put (key : κ) (value : ν) : LruMap κ ν := m.place key ⟨value, m.now, m.tick, .held⟩

end LruMap

/-- The rules, with the answer of an operation. -/
inductive LruStep [DecidableEq κ] (maxEntries : ℕ) (ttl : ℤ) (m : LruMap κ ν) :
    LruOp κ ν → Option ν → LruMap κ ν → Prop
  | hit {key : κ} {r : LruRecord ν} : m.records key = some r → m.Answers ttl key r.value →
      LruStep maxEntries ttl m (.get key) (some r.value) (m.place key { r with usedAt := m.tick }).next
  | miss {key : κ} : (∀ value, ¬m.Answers ttl key value) →
      LruStep maxEntries ttl m (.get key) none (m.setFate {key} .lapsed).next
  | put {key : κ} {value : ν} : m.Holds key ∨ ¬m.Full maxEntries →
      LruStep maxEntries ttl m (.set key value) none (m.put key value).next
  | evict {key victim : κ} {value : ν} : ¬m.Holds key → m.Full maxEntries → m.IsLeastUsed victim →
      LruStep maxEntries ttl m (.set key value) none ((m.setFate {victim} .evicted).put key value).next
  | invalidate {keys : Set κ} :
      LruStep maxEntries ttl m (.invalidate keys) none (m.setFate keys .invalidated).next
  | wait {ms : ℕ} : LruStep maxEntries ttl m (.wait ms) none { m with now := m.now + ms }.next

/-- Operations one after the other, with their answers. -/
inductive LruRun [DecidableEq κ] (maxEntries : ℕ) (ttl : ℤ) :
    LruMap κ ν → List (LruOp κ ν) → List (Option ν) → LruMap κ ν → Prop
  | nil {m : LruMap κ ν} : LruRun maxEntries ttl m [] [] m
  | cons {m m' m'' : LruMap κ ν} {op : LruOp κ ν} {ops : List (LruOp κ ν)} {answer : Option ν}
      {answers : List (Option ν)} : LruStep maxEntries ttl m op answer m' →
      LruRun maxEntries ttl m' ops answers m'' → LruRun maxEntries ttl m (op :: ops) (answer :: answers) m''

namespace LruMap

variable {m : LruMap κ ν} {keys : Set κ} {fate : Fate} {key key' : κ} {r : LruRecord ν}

/-- When the record of a key was last used. -/
def usedAt (m : LruMap κ ν) (key : κ) : ℕ := ((m.records key).map LruRecord.usedAt).getD 0

theorem usedAt_eq (h : m.records key = some r) : m.usedAt key = r.usedAt := by
  unfold usedAt
  rw [h]
  rfl

/-- A record after entries are removed. -/
theorem setFate_eq_some (h : (m.setFate keys fate).records key = some r) :
    ∃ old, m.records key = some old ∧ r.value = old.value ∧ r.setAt = old.setAt ∧ r.usedAt = old.usedAt ∧
      (key ∈ keys ∧ old.fate = .held ∧ r.fate = fate ∨ (key ∉ keys ∨ old.fate ≠ .held) ∧ r.fate = old.fate) := by
  obtain ⟨old, hold, rfl⟩ := Option.map_eq_some_iff.1 h
  refine ⟨old, hold, ?_⟩
  by_cases hremoved : key ∈ keys ∧ old.fate = .held
  · rw [if_pos hremoved]
    exact ⟨rfl, rfl, rfl, .inl ⟨hremoved.1, hremoved.2, rfl⟩⟩
  · rw [if_neg hremoved]
    exact ⟨rfl, rfl, rfl, .inr ⟨not_and_or.1 hremoved, rfl⟩⟩

theorem setFate_of_notMem (h : key ∉ keys) : (m.setFate keys fate).records key = m.records key := by
  unfold setFate
  simp only [h, false_and, if_false, Option.map_id']

/-- Where no entry takes a place there is nothing to remove. -/
theorem setFate_eq_self (h : ∀ key ∈ keys, ¬m.Holds key) : m.setFate keys fate = m := by
  have hrecords : (m.setFate keys fate).records = m.records := by
    funext key
    unfold setFate
    cases hr : m.records key with
    | none => simp [hr]
    | some r =>
      have hnot : ¬(key ∈ keys ∧ r.fate = .held) := fun hremoved => h key hremoved.1 ⟨r, hr, hremoved.2⟩
      simp [hr, hnot]
  exact congrArg (fun records => { m with records }) hrecords

theorem usedAt_setFate (key : κ) : (m.setFate keys fate).usedAt key = m.usedAt key := by
  unfold usedAt setFate
  simp only [Option.map_map]
  refine congrArg (Option.getD · 0) (Option.map_congr fun r _ => ?_)
  simp only [Function.comp_apply]
  split_ifs
  · rfl
  · rfl

variable [DecidableEq κ]

theorem place_self : (m.place key r).records key = some r := Function.update_self ..

theorem place_of_ne (h : key' ≠ key) : (m.place key r).records key' = m.records key' := Function.update_of_ne h ..

theorem usedAt_place_self : (m.place key r).usedAt key = r.usedAt := usedAt_eq place_self

theorem usedAt_place_of_ne (h : key' ≠ key) : (m.place key r).usedAt key' = m.usedAt key' := by
  unfold usedAt
  rw [place_of_ne h]

/-- A record replaces what was removed. -/
theorem setFate_place : (m.setFate {key} fate).place key r = m.place key r := by
  have hrecords : Function.update (m.setFate {key} fate).records key (some r) =
      Function.update m.records key (some r) := by
    funext key'
    by_cases h : key' = key
    · rw [h, Function.update_self, Function.update_self]
    · rw [Function.update_of_ne h, Function.update_of_ne h]
      exact setFate_of_notMem h
  unfold place
  rw [hrecords]
  rfl

end LruMap

/-! ## The list -/

/-- The entries, the least recently used one first, are those that the map holds. -/
structure Represents (value : ε → ν) (expiry : ε → ℤ) (maxEntries : ℕ) (ttl : ℤ) (store : List (κ × ε))
    (m : LruMap κ ν) : Prop where
  nodup : (store.map Prod.fst).Nodup
  complete : ∀ key r, m.records key = some r → r.fate = .held → ∃ e, (key, e) ∈ store
  sound : ∀ e ∈ store, ∃ r, m.records e.1 = some r ∧ r.fate = .held ∧ value e.2 = r.value ∧
    expiry e.2 = r.setAt + ttl
  sorted : store.Pairwise fun a b => m.usedAt a.1 < m.usedAt b.1
  used : ∀ key r, m.records key = some r → r.usedAt < m.tick
  lapsed : ∀ key r, m.records key = some r → r.fate = .lapsed → r.setAt + ttl < m.now
  bounded : store.length ≤ maxEntries

namespace Represents

variable {value : ε → ν} {expiry : ε → ℤ} {maxEntries : ℕ} {ttl : ℤ} {store : List (κ × ε)} {m : LruMap κ ν}
  {key : κ} {e : ε} {r : LruRecord ν} {keys : Set κ} {fate : Fate}

theorem start {now : ℤ} : Represents value expiry maxEntries ttl [] (LruMap.start now : LruMap κ ν) where
  nodup := List.nodup_nil
  complete := fun _ _ h => by cases h
  sound := fun _ h => absurd h List.not_mem_nil
  sorted := List.Pairwise.nil
  used := fun _ _ h => by cases h
  lapsed := fun _ _ h => by cases h
  bounded := Nat.zero_le _

theorem next (h : Represents value expiry maxEntries ttl store m) :
    Represents value expiry maxEntries ttl store m.next where
  nodup := h.nodup
  complete := h.complete
  sound := h.sound
  sorted := h.sorted
  used := fun key r hr => Nat.lt_succ_of_lt (h.used key r hr)
  lapsed := h.lapsed
  bounded := h.bounded

theorem wait (h : Represents value expiry maxEntries ttl store m) (ms : ℕ) :
    Represents value expiry maxEntries ttl store { m with now := m.now + ms } where
  nodup := h.nodup
  complete := h.complete
  sound := h.sound
  sorted := h.sorted
  used := h.used
  lapsed := fun key r hr hfate => by
    have := h.lapsed key r hr hfate
    simp only
    omega
  bounded := h.bounded

/-- The list has the keys that the map holds. -/
theorem mem_keys_iff (h : Represents value expiry maxEntries ttl store m) :
    key ∈ store.map Prod.fst ↔ m.Holds key := by
  constructor
  · intro hmem
    obtain ⟨e, he, rfl⟩ := List.mem_map.1 hmem
    obtain ⟨r, hr, hheld, -⟩ := h.sound e he
    exact ⟨r, hr, hheld⟩
  · rintro ⟨r, hr, hheld⟩
    obtain ⟨e, he⟩ := h.complete key r hr hheld
    exact List.mem_map.2 ⟨(key, e), he, rfl⟩

/-- An entry of the list answers until it expires. -/
theorem answers_iff (h : Represents value expiry maxEntries ttl store m) (he : (key, e) ∈ store) {v : ν} :
    m.Answers ttl key v ↔ value e = v ∧ m.now ≤ expiry e := by
  obtain ⟨r, hr, hheld, hvalue, hexpiry⟩ := h.sound (key, e) he
  constructor
  · rintro ⟨r', hr', hv, hnow, -, -⟩
    cases hr.symm.trans hr'
    exact ⟨hvalue.trans hv, hexpiry ▸ hnow⟩
  · rintro ⟨hv, hnow⟩
    refine ⟨r, hr, hvalue.symm.trans hv, hexpiry ▸ hnow, ?_, ?_⟩
    · rw [hheld]
      exact fun hne => by cases hne
    · rw [hheld]
      exact fun hne => by cases hne

/-- A key that is not in the list is not answered. -/
theorem not_answers (h : Represents value expiry maxEntries ttl store m) (hkey : key ∉ store.map Prod.fst) (v : ν) :
    ¬m.Answers ttl key v := by
  rintro ⟨r, hr, -, hnow, hinvalidated, hevicted⟩
  rw [h.mem_keys_iff] at hkey
  cases hfate : r.fate with
  | held => exact hkey ⟨r, hr, hfate⟩
  | lapsed =>
    have := h.lapsed key r hr hfate
    omega
  | invalidated => exact hinvalidated hfate
  | evicted => exact hevicted hfate

/-- The map is full when the list is. -/
theorem full_iff (h : Represents value expiry maxEntries ttl store m) :
    m.Full maxEntries ↔ maxEntries ≤ store.length := by
  classical
  have hkeys : {key | m.Holds key} = ((store.map Prod.fst).toFinset : Set κ) := by
    rw [List.coe_toFinset]
    exact Set.ext fun key => h.mem_keys_iff.symm
  have hcard : (store.map Prod.fst).toFinset.card = store.length := by
    rw [List.toFinset_card_of_nodup h.nodup, List.length_map]
  unfold LruMap.Full
  rw [hkeys, Set.encard_coe_eq_coe_finsetCard, hcard, Nat.cast_le]

/-- The first entry is the least recently used one. -/
theorem isLeastUsed {store : List (κ × ε)} (h : Represents value expiry maxEntries ttl ((key, e) :: store) m) :
    m.IsLeastUsed key := by
  obtain ⟨r, hr, hheld, -⟩ := h.sound (key, e) List.mem_cons_self
  refine ⟨r, hr, hheld, fun key' r' hr' hheld' => ?_⟩
  obtain ⟨e', he'⟩ := h.complete key' r' hr' hheld'
  rcases List.mem_cons.1 he' with heq | htail
  · obtain ⟨rfl, -⟩ := Prod.mk.inj heq
    rw [Option.some.inj (hr.symm.trans hr')]
  · have hlt : m.usedAt key < m.usedAt key' := (List.pairwise_cons.1 h.sorted).1 _ htail
    rw [LruMap.usedAt_eq hr, LruMap.usedAt_eq hr'] at hlt
    exact hlt.le

/-- Entries are taken out of the list. -/
theorem remove (h : Represents value expiry maxEntries ttl store m) {keep : κ × ε → Bool}
    (hkeep : ∀ e ∈ store, keep e = true ↔ e.1 ∉ keys) (hfate : fate ≠ .held)
    (hlapsed : fate = .lapsed → ∀ key ∈ keys, ∀ r, m.records key = some r → r.fate = .held → r.setAt + ttl < m.now) :
    Represents value expiry maxEntries ttl (store.filter keep) (m.setFate keys fate) where
  nodup := h.nodup.sublist (List.filter_sublist.map Prod.fst)
  complete := fun key r hr hheld => by
    obtain ⟨old, hold, -, -, -, hcase⟩ := LruMap.setFate_eq_some hr
    rcases hcase with ⟨-, -, hr'⟩ | ⟨hkeys, hr'⟩
    · exact absurd (hr'.symm.trans hheld) hfate
    · have hold' : old.fate = .held := hr'.symm.trans hheld
      obtain ⟨e, he⟩ := h.complete key old hold hold'
      refine ⟨e, List.mem_filter.2 ⟨he, (hkeep _ he).2 (hkeys.resolve_right fun hne => hne hold')⟩⟩
  sound := fun e he => by
    obtain ⟨hmem, hkept⟩ := List.mem_filter.1 he
    rw [LruMap.setFate_of_notMem ((hkeep e hmem).1 hkept)]
    exact h.sound e hmem
  sorted := by
    simp only [LruMap.usedAt_setFate]
    exact h.sorted.sublist List.filter_sublist
  used := fun key r hr => by
    obtain ⟨old, hold, -, -, hused, -⟩ := LruMap.setFate_eq_some hr
    rw [hused]
    exact h.used key old hold
  lapsed := fun key r hr hr' => by
    obtain ⟨old, hold, -, hset, -, hcase⟩ := LruMap.setFate_eq_some hr
    rw [hset]
    rcases hcase with ⟨hkey, hheld, hnew⟩ | ⟨-, hkept⟩
    · exact hlapsed (hnew.symm.trans hr') key hkey old hold hheld
    · exact h.lapsed key old hold (hkept.symm.trans hr')
  bounded := (List.length_filter_le keep store).trans h.bounded

variable [DecidableEq κ]

/-- An entry is put at the end of the list. -/
theorem append (h : Represents value expiry maxEntries ttl store m) (hkey : key ∉ store.map Prod.fst)
    (hlength : store.length < maxEntries) (hheld : r.fate = .held) (hused : r.usedAt = m.tick)
    (hvalue : value e = r.value) (hexpiry : expiry e = r.setAt + ttl) :
    Represents value expiry maxEntries ttl (store ++ [(key, e)]) (m.place key r).next where
  nodup := by
    rw [List.map_append, List.map_singleton, ← List.concat_eq_append]
    exact h.nodup.concat hkey
  complete := fun key' r' hr' hheld' => by
    by_cases hne : key' = key
    · exact ⟨e, List.mem_append_right store (List.mem_singleton.2 (by rw [hne]))⟩
    · rw [LruMap.next, LruMap.place_of_ne hne] at hr'
      obtain ⟨e', he'⟩ := h.complete key' r' hr' hheld'
      exact ⟨e', List.mem_append_left _ he'⟩
  sound := fun e' he' => by
    rcases List.mem_append.1 he' with hold | hnew
    · have hne : e'.1 ≠ key := fun heq => hkey (heq ▸ List.mem_map_of_mem hold)
      rw [LruMap.next, LruMap.place_of_ne hne]
      exact h.sound e' hold
    · rw [List.mem_singleton.1 hnew]
      exact ⟨r, LruMap.place_self, hheld, hvalue, hexpiry⟩
  sorted := by
    have hne : ∀ e' ∈ store, e'.1 ≠ key := fun e' he' heq => hkey (heq ▸ List.mem_map_of_mem he')
    refine List.pairwise_append.2 ⟨?_, List.pairwise_singleton _ _, fun a ha b hb => ?_⟩
    · refine h.sorted.imp_of_mem fun ha hb hlt => ?_
      show (m.place key r).usedAt _ < (m.place key r).usedAt _
      rwa [LruMap.usedAt_place_of_ne (hne _ ha), LruMap.usedAt_place_of_ne (hne _ hb)]
    · rw [List.mem_singleton.1 hb]
      show (m.place key r).usedAt _ < (m.place key r).usedAt _
      obtain ⟨r', hr', -⟩ := h.sound a ha
      rw [LruMap.usedAt_place_of_ne (hne a ha), LruMap.usedAt_place_self, hused, LruMap.usedAt_eq hr']
      exact h.used _ _ hr'
  used := fun key' r' hr' => by
    show r'.usedAt < m.tick + 1
    by_cases hne : key' = key
    · rw [hne, LruMap.next, LruMap.place_self] at hr'
      rw [← Option.some.inj hr', hused]
      exact Nat.lt_succ_self m.tick
    · rw [LruMap.next, LruMap.place_of_ne hne] at hr'
      exact Nat.lt_succ_of_lt (h.used key' r' hr')
  lapsed := fun key' r' hr' hlapsed => by
    by_cases hne : key' = key
    · rw [hne, LruMap.next, LruMap.place_self] at hr'
      rw [← Option.some.inj hr', hheld] at hlapsed
      cases hlapsed
    · rw [LruMap.next, LruMap.place_of_ne hne] at hr'
      exact h.lapsed key' r' hr' hlapsed
  bounded := by
    rw [List.length_append, List.length_singleton]
    omega

omit [DecidableEq κ] in
/-- The first entry is evicted. -/
theorem evictFirst {store : List (κ × ε)} {victim : κ} {e : ε}
    (h : Represents value expiry maxEntries ttl ((victim, e) :: store) m) :
    Represents value expiry maxEntries ttl store (m.setFate {victim} .evicted) := by
  classical
  have hvictim : ∀ e' ∈ store, e'.1 ≠ victim := fun e' he' heq =>
    (List.nodup_cons.1 h.nodup).1 (List.mem_map.2 ⟨e', he', heq⟩)
  have hkeep : ∀ e' ∈ (victim, e) :: store, decide (e'.1 ≠ victim) = true ↔ e'.1 ∉ ({victim} : Set κ) :=
    fun e' _ => by rw [decide_eq_true_iff, Set.mem_singleton_iff]
  have hrest : ((victim, e) :: store).filter (fun e' => e'.1 ≠ victim) = store := by
    rw [List.filter_cons_of_neg (by simp)]
    exact List.filter_eq_self.2 fun e' he' => decide_eq_true (hvictim e' he')
  rw [← hrest]
  exact h.remove hkeep (by decide) fun heq => by cases heq

/-- The entry of a key is taken out. -/
theorem removeKey (h : Represents value expiry maxEntries ttl store m) (hfate : fate ≠ .held)
    (hlapsed : fate = .lapsed → ∀ r, m.records key = some r → r.fate = .held → r.setAt + ttl < m.now) :
    Represents value expiry maxEntries ttl (store.filter fun e => e.1 ≠ key) (m.setFate {key} fate) := by
  refine h.remove (fun e' _ => ?_) hfate fun heq key' hkey' => ?_
  · rw [decide_eq_true_iff, Set.mem_singleton_iff]
  · rw [Set.mem_singleton_iff.1 hkey']
    exact hlapsed heq

/-- The entry of a key is taken out, and another one put at the end. -/
theorem replace (h : Represents value expiry maxEntries ttl store m) (hkey : key ∈ store.map Prod.fst)
    (hheld : r.fate = .held) (hused : r.usedAt = m.tick) (hvalue : value e = r.value)
    (hexpiry : expiry e = r.setAt + ttl) :
    Represents value expiry maxEntries ttl ((store.filter fun e => e.1 ≠ key) ++ [(key, e)]) (m.place key r).next := by
  have hremoved : Represents value expiry maxEntries ttl (store.filter fun e => e.1 ≠ key)
      (m.setFate {key} .evicted) := h.removeKey (by decide) fun heq => by cases heq
  have hout : key ∉ (store.filter fun e => e.1 ≠ key).map Prod.fst := by
    intro hmem
    obtain ⟨e', he', heq⟩ := List.mem_map.1 hmem
    exact of_decide_eq_true (List.mem_filter.1 he').2 heq
  have hlength : (store.filter fun e => e.1 ≠ key).length < maxEntries := by
    obtain ⟨e', he', heq⟩ := List.mem_map.1 hkey
    refine lt_of_lt_of_le (List.length_filter_lt_length_iff_exists.2 ⟨e', he', ?_⟩) h.bounded
    simp [heq]
  rw [← LruMap.setFate_place]
  exact hremoved.append hout hlength hheld hused hvalue hexpiry

end Represents

end AlsaqiBackend.Lib
