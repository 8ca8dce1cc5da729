import AlsaqiBackend.Lib.Json
import AlsaqiBackend.Lib.OrderedMap

/-!
# Fields of JSON objects

A field of a value, a value without a field, and a value with a field set. An array or a primitive value has no
named fields.
-/

namespace AlsaqiBackend.Lib

open OrderedMap (setEntries)

variable {κ ν : Type*} [DecidableEq κ] [BEq κ] [LawfulBEq κ] {key key' : κ} {value : ν} {members : List (κ × ν)}

theorem lookup_cons_eq_if (k : κ) (v : ν) :
    ((k, v) :: members).lookup key = if key = k then some v else members.lookup key := by
  rw [List.lookup_cons]
  by_cases hkey : key = k
  · rw [if_pos hkey, beq_iff_eq.2 hkey]
  · rw [if_neg hkey, beq_eq_false_iff_ne.2 hkey]

/-- What other keys have does not depend on the members that are left out. -/
theorem lookup_filter_ne (h : key' ≠ key) :
    (members.filter fun member => member.1 ≠ key).lookup key' = members.lookup key' := by
  induction members with
  | nil => rfl
  | cons member members ih =>
    obtain ⟨k, v⟩ := member
    rw [lookup_cons_eq_if]
    by_cases hk : k = key
    · rw [List.filter_cons_of_neg (by simpa using hk), ih, if_neg (hk ▸ h)]
    · rw [List.filter_cons_of_pos (by simpa using hk), lookup_cons_eq_if, ih]

theorem lookup_replace :
    (members.map fun member => if member.1 = key then (key, value) else member).lookup key' =
      if key' = key then (members.lookup key).map fun _ => value else members.lookup key' := by
  induction members with
  | nil => simp
  | cons member members ih =>
    obtain ⟨k, v⟩ := member
    rw [List.map_cons]
    by_cases hk : k = key
    · subst hk
      rw [if_pos rfl, lookup_cons_eq_if, lookup_cons_eq_if, lookup_cons_eq_if, ih, if_pos rfl]
      by_cases hkey' : key' = k
      · rw [if_pos hkey', if_pos hkey', Option.map_some]
      · rw [if_neg hkey', if_neg hkey', if_neg hkey', if_neg hkey']
    · rw [if_neg hk, lookup_cons_eq_if, lookup_cons_eq_if, lookup_cons_eq_if, ih]
      by_cases hkey' : key' = key
      · rw [if_neg (hkey' ▸ Ne.symm hk), if_pos hkey', if_pos hkey', if_neg (Ne.symm hk)]
      · rw [if_neg hkey', if_neg hkey']

/-- What a key has after a member is set. -/
theorem lookup_setEntries :
    (setEntries key value members).lookup key' = if key' = key then some value else members.lookup key' := by
  unfold setEntries
  by_cases hmem : key ∈ members.map Prod.fst
  · rw [if_pos hmem, lookup_replace]
    have hsome : (members.lookup key).isSome = true := by
      rw [List.lookup_isSome_iff]
      obtain ⟨member, hmember, heq⟩ := List.mem_map.1 hmem
      exact ⟨member, hmember, by simp [heq]⟩
    obtain ⟨old, hold⟩ := Option.isSome_iff_exists.1 hsome
    rw [hold]
    rfl
  · rw [if_neg hmem, List.lookup_append, lookup_cons_eq_if, List.lookup_nil]
    by_cases hkey : key' = key
    · have hnone : members.lookup key = none := by
        rw [List.lookup_eq_none_iff]
        intro member hmember
        rw [bne_iff_ne]
        exact fun heq => hmem (List.mem_map.2 ⟨member, hmember, heq.symm⟩)
      rw [if_pos hkey, if_pos hkey, hkey, hnone, Option.none_or]
    · rw [if_neg hkey, if_neg hkey, Option.or_none]

namespace Json

/-- `value[key]`, where it is there. -/
def member (key : List Char) : Json → Option Json
  | .obj members => members.lookup key
  | _ => none

def field (key : String) (value : Json) : Option Json := value.member key.toList

/-- `typeof value === 'object'`, and not `null`. -/
def isObject : Json → Bool
  | .obj _ | .arr _ => true
  | _ => false

end Json

end AlsaqiBackend.Lib
