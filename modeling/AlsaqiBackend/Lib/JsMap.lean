import Mathlib.Data.List.Count

/-!
# The lookups of a `Map`

A JavaScript `Map`, where the order of its entries does not matter: the function from its keys to
their values. The two lemmas are about the loops that fill one from a list, as an index of the list
(`has_foldl_set`) and as a count of its keys (`get_foldl_count`).
-/

namespace AlsaqiBackend.Lib

/-- A `Map` without the order of its entries. -/
def JsMap (κ ν : Type*) := κ → Option ν

namespace JsMap

variable {α κ ν : Type*}

/-- `new Map()`. -/
def empty : JsMap κ ν := fun _ => none

/-- `map.get(k)`. -/
def get (m : JsMap κ ν) (k : κ) : Option ν := m k

/-- `map.has(k)`. -/
def has (m : JsMap κ ν) (k : κ) : Bool := (m k).isSome

/-- `map.set(k, v)`. -/
def set [DecidableEq κ] (m : JsMap κ ν) (k : κ) (v : ν) : JsMap κ ν :=
  fun k' => if k' = k then some v else m k'

variable [DecidableEq κ]

/-- What a key has after a `set`. -/
theorem get_set (m : JsMap κ ν) (k k' : κ) (v : ν) :
    (m.set k v).get k' = if k' = k then some v else m.get k' := rfl

/-- An index of a list has the keys of its items, beside those that it had. -/
theorem has_foldl_set (f : α → κ) (g : α → ν) (l : List α) (m : JsMap κ ν) (k : κ) :
    (l.foldl (fun m a => m.set (f a) (g a)) m).has k = true ↔ m.has k = true ∨ k ∈ l.map f := by
  induction l generalizing m with
  | nil => simp
  | cons a l ih =>
    rw [List.foldl_cons, ih, List.map_cons, List.mem_cons]
    by_cases hk : k = f a
    · simp [has, set, hk]
    · simp [has, set, hk]

/-- A count of a list counts how often a key occurs among those of its items. -/
theorem get_foldl_count [BEq κ] [LawfulBEq κ] (f : α → κ) (l : List α) (m : JsMap κ ℕ) (k : κ) :
    ((l.foldl (fun m a => m.set (f a) ((m.get (f a)).getD 0 + 1)) m).get k).getD 0 =
      (m.get k).getD 0 + (l.map f).count k := by
  induction l generalizing m with
  | nil => simp
  | cons a l ih =>
    rw [List.foldl_cons, ih, List.map_cons, List.count_cons]
    by_cases hk : f a = k
    · subst hk
      simp [get, set]
      omega
    · have hk' : k ≠ f a := fun h => hk h.symm
      simp [get, set, hk, hk']

end JsMap

end AlsaqiBackend.Lib
