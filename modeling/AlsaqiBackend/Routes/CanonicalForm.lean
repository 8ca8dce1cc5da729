import AlsaqiBackend.Lib.Segments
import AlsaqiBackend.Lib.Utf16

/-!
# Canonical paths

`canonicalizePath` decodes a path until it stays as it is, at most sixteen times, and stops at a text that
cannot be decoded; then it resolves the segments. The result always has the form of a path with names only.

`canonicalizePath_isCanonical_iff` says when it is also final. It is not when escapes are left in it that can be
decoded: the malformed escape at which the decoding stopped has been taken back by two dots, or the sixteen
rounds did not suffice.
-/

namespace AlsaqiBackend.Routes.CanonicalForm

open AlsaqiBackend.Lib

/-! ## The source -/

/-- The rounds of `safeDecode`: until the text stays as it is or cannot be decoded. -/
def decodeRounds : ℕ → List UInt16 → List UInt16
  | 0, current => current
  | rounds + 1, current =>
    match decodeUri current with
    | none => current
    | some next => if next = current then current else decodeRounds rounds next

def safeDecode (rawPath : List UInt16) : List UInt16 := decodeRounds 16 rawPath

/-- `decoded.replace(/\\/g, '/')`. -/
def forwardSlashes (text : List UInt16) : List UInt16 :=
  text.map fun u => if u = unit '\\' then unit '/' else u

def canonicalizePath (rawPath : List UInt16) : List UInt16 :=
  let withForwardSlashes := forwardSlashes (safeDecode rawPath)
  rooted (unit '/') (resolve (unit '/') (unit '.') [] withForwardSlashes)

/-! ## What the result should be -/

/-- A path from the root, whose segments are names, without backslashes. -/
def IsRooted (path : List UInt16) : Prop :=
  path.head? = some (unit '/') ∧ path.tail.head? ≠ some (unit '/') ∧ unit '\\' ∉ path ∧
    (path.tail = [] ∨
      ∀ s ∈ path.tail.splitOn (unit '/'), s ≠ [] ∧ s ≠ [unit '.'] ∧ s ≠ [unit '.', unit '.'])

/-- The path has the form, no escape of it can be decoded, and it is its own canonical path. -/
def IsCanonical (path : List UInt16) : Prop :=
  IsRooted path ∧ (∀ decoded, decodeUri path = some decoded → decoded = path) ∧ canonicalizePath path = path

/-- A segment of the decoded path that no pair of dots takes back. -/
def Remains (rawPath name : List UInt16) : Prop :=
  Survives (unit '.') ((forwardSlashes (safeDecode rawPath)).splitOn (unit '/')) name

variable {rawPath path : List UInt16} {names : List (List UInt16)}

/-! ## Form -/

/-- The segments of a canonical path. -/
def segmentsOf (rawPath : List UInt16) : List (List UInt16) :=
  resolve (unit '/') (unit '.') [] (forwardSlashes (safeDecode rawPath))

theorem isSegment_segmentsOf : ∀ s ∈ segmentsOf rawPath, IsSegment (unit '/') (unit '.') s :=
  isSegment_of_mem_resolve (fun _ h => absurd h List.not_mem_nil) _

theorem mem_segmentsOf {name : List UInt16} : name ∈ segmentsOf rawPath ↔ Remains rawPath name := mem_resolve_iff

theorem backslash_notMem_forwardSlashes (text : List UInt16) : unit '\\' ∉ forwardSlashes text := by
  intro hmem
  obtain ⟨u, -, hu⟩ := List.mem_map.1 hmem
  split_ifs at hu with hback
  · exact absurd hu (by decide)
  · exact hback hu

theorem backslash_notMem_segmentsOf : ∀ s ∈ segmentsOf rawPath, unit '\\' ∉ s := fun _ hs hmem =>
  backslash_notMem_forwardSlashes _ (mem_of_survives (mem_segmentsOf.1 hs) hmem)

/-- The text of segments without backslashes has the form of a canonical path. -/
theorem isRooted_rooted (h : ∀ s ∈ names, IsSegment (unit '/') (unit '.') s) (hback : ∀ s ∈ names, unit '\\' ∉ s) :
    IsRooted (rooted (unit '/') names) := by
  have hbackslash : unit '\\' ∉ rooted (unit '/') names := by
    rw [mem_rooted (by decide)]
    rintro ⟨s, hs, hmem⟩
    exact hback s hs hmem
  refine ⟨rfl, ?_, hbackslash, ?_⟩
  · cases names with
    | nil => exact fun h => nomatch h
    | cons s names =>
      obtain ⟨u, s, rfl⟩ := List.exists_cons_of_ne_nil (h s List.mem_cons_self).1
      intro hhead
      have hslash : unit '/' ∉ u :: s := (h _ List.mem_cons_self).2.2.2
      cases names <;> exact hslash (List.mem_cons.2 (.inl (Option.some.inj hhead).symm))
  · by_cases hnames : names = []
    · exact .inl (by rw [hnames]; rfl)
    · refine .inr fun s hs => ?_
      have hsplit : (rooted (unit '/') names).tail.splitOn (unit '/') = names :=
        List.splitOn_intercalate _ (fun s hs => (h s hs).2.2.2) hnames
      rw [hsplit] at hs
      exact ⟨(h s hs).1, (h s hs).2.1, (h s hs).2.2.1⟩

/-! ## Escapes -/

/-- Separators stand in no escape. -/
theorem isApart_slash : IsApart (unit '/') := ⟨by decide, by decide⟩

theorem decodeUri_rooted : decodeUri (rooted (unit '/') names) = none ↔ ∃ s ∈ names, decodeUri s = none := by
  have hjoined : decodeUri ([unit '/'].intercalate names) = none ↔ ∃ s ∈ names, decodeUri s = none := by
    induction names with
    | nil => simp [decodeUri, decodeUriFrom]
    | cons s names ih =>
      cases names with
      | nil => simp
      | cons s' names =>
        rw [List.intercalate_cons_cons, List.append_assoc, List.singleton_append,
          decodeUri_append_cons isApart_slash, ih, List.exists_mem_cons_iff (a := s)]
  rw [← hjoined, rooted, decodeUri, decodeUriFrom_cons isApart_slash.1, Option.map_eq_none_iff]
  rfl

/-- A text that cannot be decoded, or has nothing to decode, is its own decoded text. -/
theorem safeDecode_eq_self (h : decodeUri path = none ∨ decodeUri path = some path) : safeDecode path = path := by
  unfold safeDecode decodeRounds
  rcases h with h | h
  · rw [h]
  · rw [h]
    exact if_pos rfl

theorem forwardSlashes_eq_self (h : unit '\\' ∉ path) : forwardSlashes path = path := by
  have hkeep : ∀ u ∈ path, (if u = unit '\\' then unit '/' else u) = u := fun u hu =>
    if_neg fun (heq : u = unit '\\') => h (heq ▸ hu)
  exact (List.map_congr_left hkeep).trans (List.map_id path)

/-- The text of segments is its own canonical path when nothing of it is decoded. -/
theorem canonicalizePath_rooted (h : ∀ s ∈ names, IsSegment (unit '/') (unit '.') s)
    (hback : ∀ s ∈ names, unit '\\' ∉ s)
    (hdecode : decodeUri (rooted (unit '/') names) = none ∨
      decodeUri (rooted (unit '/') names) = some (rooted (unit '/') names)) :
    canonicalizePath (rooted (unit '/') names) = rooted (unit '/') names := by
  unfold canonicalizePath
  simp only
  rw [safeDecode_eq_self hdecode, forwardSlashes_eq_self (isRooted_rooted h hback).2.2.1, resolve_rooted h,
    List.nil_append]

/-- The canonical path of every text has the form; no escape of it can be decoded, and it is final, exactly when
no segment that remains of the decoded path has an escape, or one of them is malformed. -/
theorem canonicalizePath_isCanonical_iff (rawPath : List UInt16) :
    IsCanonical (canonicalizePath rawPath) ↔
      (∀ s, Remains rawPath s → unit '%' ∉ s) ∨ ∃ s, Remains rawPath s ∧ decodeUri s = none := by
  have hpath : canonicalizePath rawPath = rooted (unit '/') (segmentsOf rawPath) := rfl
  have hsegments := @isSegment_segmentsOf rawPath
  have hback := @backslash_notMem_segmentsOf rawPath
  have hnone : decodeUri (canonicalizePath rawPath) = none ↔ ∃ s, Remains rawPath s ∧ decodeUri s = none := by
    rw [hpath, decodeUri_rooted]
    simp only [mem_segmentsOf]
  have hself : decodeUri (canonicalizePath rawPath) = some (canonicalizePath rawPath) ↔
      ∀ s, Remains rawPath s → unit '%' ∉ s := by
    rw [decodeUri_eq_self_iff, hpath, mem_rooted (by decide)]
    simp only [mem_segmentsOf, not_exists, not_and]
  rw [← hself, ← hnone]
  constructor
  · rintro ⟨-, hfinal, -⟩
    cases hdecode : decodeUri (canonicalizePath rawPath) with
    | none => exact .inr rfl
    | some decoded => exact .inl (congrArg some (hfinal decoded hdecode))
  · intro h
    refine ⟨isRooted_rooted hsegments hback, ?_, canonicalizePath_rooted hsegments hback h.symm⟩
    intro decoded hdecode
    rcases h with h | h
    · rw [h] at hdecode
      exact (Option.some.inj hdecode).symm
    · rw [h] at hdecode
      cases hdecode

/-- The malformed escape at which the decoding stops is taken back. -/
theorem takenBack_not_isCanonical : ¬IsCanonical (canonicalizePath (units "/%41/%/..")) := by
  rintro ⟨-, hfinal, -⟩
  have hpath : canonicalizePath (units "/%41/%/..") = units "/%41" := by decide +kernel
  have hdecode : decodeUri (units "/%41") = some (units "/A") := by decide +kernel
  rw [hpath] at hfinal
  exact absurd (hfinal _ hdecode) (by decide)

end AlsaqiBackend.Routes.CanonicalForm
