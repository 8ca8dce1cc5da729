import AlsaqiBackend.Lib.Modify

/-!
# Maps that keep the order of insertion

A JavaScript `Map` where the order of its entries matters, because a loop goes over them: the list of
its entries, without a repeated key. A `set` on a key that is there changes its entry in place, and
any other one adds an entry at the end.
-/

namespace AlsaqiBackend.Lib

/-- The entries of a `Map`, in the order in which their keys were first set. -/
structure OrderedMap (κ ν : Type*) where
  entries : List (κ × ν)
  nodup : (entries.map Prod.fst).Nodup

namespace OrderedMap

variable {κ ν : Type*}

/-- `new Map()`. -/
def empty : OrderedMap κ ν := ⟨[], List.nodup_nil⟩

/-- `Object.keys`. -/
def keys (m : OrderedMap κ ν) : List κ := m.entries.map Prod.fst

/-- The entries whose keys have a property. -/
def filterKeys (p : κ → Bool) (m : OrderedMap κ ν) : OrderedMap κ ν :=
  ⟨m.entries.filter fun e => p e.1, m.nodup.sublist (List.filter_sublist.map Prod.fst)⟩

/-- The values are changed. -/
def mapValues (f : κ → ν → ν) (m : OrderedMap κ ν) : OrderedMap κ ν :=
  ⟨m.entries.map fun e => (e.1, f e.1 e.2), by rw [List.map_map]; exact m.nodup⟩

variable [DecidableEq κ]

/-- `map.get(k)`. -/
def get (m : OrderedMap κ ν) (k : κ) : Option ν :=
  (m.entries.find? fun e => e.1 = k).map Prod.snd

/-- The entries after a `set`. -/
def setEntries (k : κ) (v : ν) (l : List (κ × ν)) : List (κ × ν) :=
  if k ∈ l.map Prod.fst then l.map fun e => if e.1 = k then (k, v) else e else l ++ [(k, v)]

/-- The entry of a key is changed without a change of the keys. -/
theorem map_fst_replace (k : κ) (v : ν) (l : List (κ × ν)) :
    (l.map fun e => if e.1 = k then (k, v) else e).map Prod.fst = l.map Prod.fst := by
  rw [List.map_map]
  refine List.map_congr_left fun e _ => ?_
  by_cases he : e.1 = k
  · simp [he]
  · simp [he]

theorem nodup_setEntries (k : κ) (v : ν) {l : List (κ × ν)} (h : (l.map Prod.fst).Nodup) :
    ((setEntries k v l).map Prod.fst).Nodup := by
  rw [setEntries]
  by_cases hk : k ∈ l.map Prod.fst
  · rw [if_pos hk, map_fst_replace]
    exact h
  · rw [if_neg hk, List.map_append, List.map_singleton, ← List.concat_eq_append]
    exact h.concat hk

/-- `map.set(k, v)`. -/
def set (m : OrderedMap κ ν) (k : κ) (v : ν) : OrderedMap κ ν :=
  ⟨setEntries k v m.entries, nodup_setEntries k v m.nodup⟩

/-- What a key has is the value of its entry. -/
theorem get_eq_some (m : OrderedMap κ ν) (k : κ) (v : ν) :
    m.get k = some v ↔ (k, v) ∈ m.entries := by
  rw [get, Option.map_eq_some_iff]
  constructor
  · rintro ⟨e, he, rfl⟩
    have hentry : e ∈ m.entries ∧ e.1 = k := of_find?_key he
    obtain ⟨hmem, rfl⟩ := hentry
    exact hmem
  · intro h
    have hfound : m.entries.find? (fun e => e.1 = k) = some (k, v) :=
      find?_key_of_mem m.nodup h rfl
    exact ⟨(k, v), hfound, rfl⟩

/-- A key that is not there has no value. -/
theorem get_eq_none (m : OrderedMap κ ν) (k : κ) : m.get k = none ↔ k ∉ m.keys := by
  rw [get, Option.map_eq_none_iff, List.find?_eq_none, keys, List.mem_map]
  constructor
  · rintro h ⟨e, he, rfl⟩
    exact h e he (decide_eq_true rfl)
  · intro h e he heq
    exact h ⟨e, he, of_decide_eq_true heq⟩

omit [DecidableEq κ] in
theorem keys_mapValues (f : κ → ν → ν) (m : OrderedMap κ ν) : (m.mapValues f).keys = m.keys := by
  rw [keys, mapValues, List.map_map]
  rfl

/-- What a key has after a `set`. -/
theorem get_set (m : OrderedMap κ ν) (k k' : κ) (v : ν) :
    (m.set k v).get k' = if k' = k then some v else m.get k' := by
  refine Option.ext fun w => ?_
  have hset : (m.set k v).get k' = some w ↔ (k', w) ∈ setEntries k v m.entries := get_eq_some _ k' w
  rw [hset, setEntries]
  by_cases hk : k ∈ m.entries.map Prod.fst
  · obtain ⟨e, he, rfl⟩ := List.mem_map.1 hk
    rw [if_pos hk, List.mem_map]
    by_cases hk' : k' = e.1
    · subst hk'
      rw [if_pos rfl, Option.some.injEq]
      constructor
      · rintro ⟨e', he', heq⟩
        by_cases hsame : e'.1 = e.1
        · rw [if_pos hsame, Prod.mk.injEq] at heq
          exact heq.2
        · rw [if_neg hsame] at heq
          exact absurd (congrArg Prod.fst heq) hsame
      · rintro rfl
        exact ⟨e, he, if_pos rfl⟩
    · rw [if_neg hk', get_eq_some]
      constructor
      · rintro ⟨e', he', heq⟩
        by_cases hsame : e'.1 = e.1
        · rw [if_pos hsame, Prod.mk.injEq] at heq
          exact absurd heq.1.symm hk'
        · rw [if_neg hsame] at heq
          exact heq ▸ he'
      · intro h
        exact ⟨(k', w), h, if_neg hk'⟩
  · rw [if_neg hk, List.mem_append, List.mem_singleton, Prod.mk.injEq]
    by_cases hk' : k' = k
    · subst hk'
      have hno : ∀ w, (k', w) ∉ m.entries := fun w hw => hk (List.mem_map.2 ⟨(k', w), hw, rfl⟩)
      rw [if_pos rfl, Option.some.injEq]
      simp [hno, eq_comm]
    · rw [if_neg hk', get_eq_some]
      simp [hk']

/-- The keys after a `set`. -/
theorem mem_keys_set {m : OrderedMap κ ν} {k k' : κ} {v : ν} :
    k' ∈ (m.set k v).keys ↔ k' = k ∨ k' ∈ m.keys := by
  have hget := get_set m k k' v
  have hiff : (m.set k v).get k' = none ↔ k' ∉ (m.set k v).keys := get_eq_none _ k'
  have hiff' : m.get k' = none ↔ k' ∉ m.keys := get_eq_none m k'
  by_cases hk : k' = k
  · rw [hget, if_pos hk] at hiff
    simpa [hk] using hiff
  · rw [hget, if_neg hk] at hiff
    rw [← not_iff_not, ← hiff, hiff']
    simp [hk]

omit [DecidableEq κ] in
theorem mem_keys_filterKeys {m : OrderedMap κ ν} {p : κ → Bool} {k : κ} :
    k ∈ (m.filterKeys p).keys ↔ k ∈ m.keys ∧ p k = true := by
  simp only [keys, filterKeys, List.mem_map, List.mem_filter]
  constructor
  · rintro ⟨e, ⟨he, hp⟩, rfl⟩
    exact ⟨⟨e, he, rfl⟩, hp⟩
  · rintro ⟨⟨e, he, rfl⟩, hp⟩
    exact ⟨e, ⟨he, hp⟩, rfl⟩

/-- What a key has among changed values. -/
theorem get_mapValues (f : κ → ν → ν) (m : OrderedMap κ ν) (k : κ) :
    (m.mapValues f).get k = (m.get k).map (f k) := by
  show ((m.entries.map fun e => (e.1, f e.1 e.2)).find? fun e => e.1 = k).map Prod.snd = _
  rw [List.find?_map, Option.map_map, get, Option.map_map]
  show (m.entries.find? fun e => e.1 = k).map _ = _
  refine Option.map_congr fun e he => ?_
  have hentry : e ∈ m.entries ∧ e.1 = k := of_find?_key he
  show f e.1 e.2 = f k e.2
  rw [hentry.2]

/-- A key that the filter keeps has what it had. -/
theorem get_filterKeys {m : OrderedMap κ ν} {p : κ → Bool} {k : κ} (hk : p k = true) :
    (m.filterKeys p).get k = m.get k := by
  refine Option.ext fun v => ?_
  rw [get_eq_some, get_eq_some]
  exact List.mem_filter.trans (and_iff_left hk)

end OrderedMap

end AlsaqiBackend.Lib
