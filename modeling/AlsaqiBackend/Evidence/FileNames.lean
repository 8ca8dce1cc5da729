import AlsaqiBackend.Lib.Segments
import AlsaqiBackend.Lib.Utf16
import Mathlib.Data.List.Infix

/-!
# Names of evidence files

`sanitizeFileName` takes `../` and `..\` out of a name until there is none, then a drive, the separators and
everything behind the first 255 units. A pass of the loop can bring two parts of such a sequence together, but
it makes the text shorter (`length_removalPass_lt`), so that the loop ends. `buildEvidencePath` puts the name
behind the evidence number, and the path leads to a child of the directory of the finding whatever the name is
(`resolve_buildEvidencePath`).
-/

namespace AlsaqiBackend.Evidence

open AlsaqiBackend.Lib

/-! ## The source -/

def isSeparator (u : UInt16) : Bool := u = unit '/' || u = unit '\\'

/-- `../` and `..\`. -/
def parentSequence (sep : UInt16) : List UInt16 := [unit '.', unit '.', sep]

/-- `text.replace(/\.\.\//g, '')`, with the separator. -/
def removeParents (sep : UInt16) : List UInt16 → List UInt16
  | u :: v :: w :: rest =>
    if [u, v, w] = parentSequence sep then removeParents sep rest
    else u :: removeParents sep (v :: w :: rest)
  | text => text

/-- The condition of the loop. -/
def hasParents (text : List UInt16) : Bool :=
  parentSequence (unit '/') <:+: text || parentSequence (unit '\\') <:+: text

/-- The body of the loop. -/
def removalPass (text : List UInt16) : List UInt16 :=
  removeParents (unit '\\') (removeParents (unit '/') text)

variable {sep : UInt16} {text : List UInt16}

theorem length_removeParents : (removeParents sep text).length ≤ text.length := by
  fun_induction removeParents sep text with
  | case1 u v w rest h ih =>
    simp only [List.length_cons]
    omega
  | case2 u v w rest h ih =>
    rw [List.length_cons, List.length_cons]
    omega
  | case3 => exact le_rfl

/-- Where a text begins with the sequence it has its three units. -/
theorem begins_parentSequence {u v w : UInt16} {rest : List UInt16} :
    parentSequence sep <+: u :: v :: w :: rest ↔ [u, v, w] = parentSequence sep := by
  simp only [parentSequence, List.cons_prefix_cons, List.nil_prefix, and_true, List.cons.injEq]
  exact ⟨fun ⟨h1, h2, h3⟩ => ⟨h1.symm, h2.symm, h3.symm⟩, fun ⟨h1, h2, h3⟩ => ⟨h1.symm, h2.symm, h3.symm⟩⟩

/-- A text without the sequence is left as it is. -/
theorem removeParents_of_notInfix (h : ¬parentSequence sep <:+: text) : removeParents sep text = text := by
  fun_induction removeParents sep text with
  | case1 u v w rest heq ih => exact absurd (begins_parentSequence.2 heq).isInfix h
  | case2 u v w rest heq ih => rw [ih fun hrest => h (hrest.trans (List.suffix_cons u _).isInfix)]
  | case3 => rfl

/-- A text with the sequence gets shorter. -/
theorem length_removeParents_lt (h : parentSequence sep <:+: text) :
    (removeParents sep text).length < text.length := by
  fun_induction removeParents sep text with
  | case1 u v w rest heq ih =>
    have hle := @length_removeParents sep rest
    simp only [List.length_cons]
    omega
  | case2 u v w rest heq ih =>
    have hrest : parentSequence sep <:+: v :: w :: rest :=
      (List.infix_cons_iff.1 h).resolve_left fun hstart => heq (begins_parentSequence.1 hstart)
    have hlt := ih hrest
    rw [List.length_cons, List.length_cons]
    omega
  | case3 text hshort =>
    have hthree : 3 ≤ text.length := h.length_le
    match text, hshort, hthree with
    | u :: v :: w :: rest, hshort, _ => exact (hshort u v w rest rfl).elim

/-- A pass of the loop makes the text shorter. -/
theorem length_removalPass_lt (h : hasParents text = true) : (removalPass text).length < text.length := by
  unfold removalPass
  by_cases hslash : parentSequence (unit '/') <:+: text
  · exact lt_of_le_of_lt length_removeParents (length_removeParents_lt hslash)
  · rw [removeParents_of_notInfix hslash]
    have hback : parentSequence (unit '\\') <:+: text := by
      unfold hasParents at h
      rw [Bool.or_eq_true, decide_eq_true_eq, decide_eq_true_eq] at h
      exact h.resolve_left hslash
    exact length_removeParents_lt hback

/-- The loop. -/
def removalLoop (text : List UInt16) : List UInt16 :=
  if hasParents text then removalLoop (removalPass text) else text
termination_by text.length
decreasing_by exact length_removalPass_lt (by assumption)

/-- A letter and a colon before a separator. -/
def removeDrive : List UInt16 → List UInt16
  | letter :: colon :: sep :: rest =>
    if (0x41 ≤ letter.toNat ∧ letter.toNat ≤ 0x5A ∨ 0x61 ≤ letter.toNat ∧ letter.toNat ≤ 0x7A) ∧
        colon = unit ':' ∧ isSeparator sep then rest
    else letter :: colon :: sep :: rest
  | text => text

def sanitizeFileName (fileName : List UInt16) : List UInt16 :=
  if fileName = [] then []
  else
    let sanitized := removeDrive (removalLoop fileName)
    let sanitized := sanitized.dropWhile isSeparator
    let sanitized := sanitized.filter fun u => !isSeparator u
    if sanitized.length > 255 then sanitized.take 255 else sanitized

def buildEvidencePath (planId findingId evidenceNumber fileName : List UInt16) : List UInt16 :=
  let sanitizedName := sanitizeFileName fileName
  units "/uploads/findings/" ++ planId ++ unit '/' :: findingId ++ unit '/' :: evidenceNumber ++
    unit '_' :: sanitizedName

/-! ## Names -/

/-- The loop stops at the first text without the sequences, after some passes. -/
def LoopEnds (text : List UInt16) : Prop :=
  ∃ passes, hasParents (removalPass^[passes] text) = false ∧
    (∀ n < passes, hasParents (removalPass^[n] text) = true) ∧ removalLoop text = removalPass^[passes] text

theorem loopEnds (text : List UInt16) : LoopEnds text := by
  induction text using removalLoop.induct with
  | case1 text h ih =>
    obtain ⟨passes, hend, hbefore, hloop⟩ := ih
    refine ⟨passes + 1, hend, fun n hn => ?_, ?_⟩
    · cases n with
      | zero => exact h
      | succ n => exact hbefore n (by omega)
    · rw [removalLoop, if_pos h, hloop]
      rfl
  | case2 text h =>
    refine ⟨0, Bool.eq_false_iff.2 h, fun n hn => absurd hn (Nat.not_lt_zero n), ?_⟩
    rw [removalLoop, if_neg h]
    rfl

theorem not_isSeparator_of_mem_sanitizeFileName {fileName : List UInt16} :
    ∀ u ∈ sanitizeFileName fileName, isSeparator u = false := by
  intro u hu
  have hkept : ∀ name, u ∈ List.filter (fun u => !isSeparator u) name → isSeparator u = false := by
    intro name hmem
    simpa using (List.mem_filter.1 hmem).2
  unfold sanitizeFileName at hu
  simp only at hu
  split_ifs at hu with hempty hlong
  · cases hu
  · exact hkept _ (List.mem_of_mem_take hu)
  · exact hkept _ hu

theorem length_sanitizeFileName (fileName : List UInt16) : (sanitizeFileName fileName).length ≤ 255 := by
  unfold sanitizeFileName
  simp only
  split_ifs with hempty hlong
  · simp
  · exact List.length_take_le 255 _
  · omega

/-- A text without separators has none of the sequences. -/
theorem hasParents_eq_false (h : ∀ u ∈ text, isSeparator u = false) : hasParents text = false := by
  have hnone : ∀ sep, isSeparator sep = true → ¬parentSequence sep <:+: text := by
    intro sep hsep hinfix
    have hmem : sep ∈ text := hinfix.subset (by simp [parentSequence])
    rw [h sep hmem] at hsep
    cases hsep
  unfold hasParents
  rw [decide_eq_false (hnone _ (by decide)), decide_eq_false (hnone _ (by decide))]
  rfl

/-- A short name without separators is left as it is. -/
theorem sanitizeFileName_eq_self (h : ∀ u ∈ text, isSeparator u = false) (hlength : text.length ≤ 255) :
    sanitizeFileName text = text := by
  have hloop : removalLoop text = text := by
    rw [removalLoop, hasParents_eq_false h]
    rfl
  have hdrive : removeDrive text = text := by
    match text, h with
    | letter :: colon :: sep :: rest, h =>
      have hsep : isSeparator sep = false := h sep (by simp)
      rw [removeDrive, if_neg fun hmatch => by simp [hsep] at hmatch]
    | [], _ => rfl
    | [_], _ => rfl
    | [_, _], _ => rfl
  have hdrop : text.dropWhile isSeparator = text := by
    cases text with
    | nil => rfl
    | cons u rest => rw [List.dropWhile_cons_of_neg (by simp [h u List.mem_cons_self])]
  have hfilter : text.filter (fun u => !isSeparator u) = text :=
    List.filter_eq_self.2 fun u hu => by simp [h u hu]
  unfold sanitizeFileName
  simp only
  rw [hloop, hdrive, hdrop, hfilter]
  split_ifs with hempty hlong
  · exact hempty.symm
  · omega
  · rfl

/-! ## Paths -/

/-- A part of a path that stays in its directory. -/
def IsPathPart (part : List UInt16) : Prop :=
  (∀ u ∈ part, isSeparator u = false) ∧ part ≠ [unit '.'] ∧ part ≠ [unit '.', unit '.']

/-- The directory of a finding; an id that is empty adds no name. -/
def evidenceDirectory (cwd : List (List UInt16)) (planId findingId : List UInt16) : List (List UInt16) :=
  cwd ++ units "uploads" :: units "findings" :: [planId, findingId].filter (· ≠ [])

/-- The name of the file of an evidence. -/
def evidenceName (evidenceNumber fileName : List UInt16) : List UInt16 :=
  evidenceNumber ++ unit '_' :: sanitizeFileName fileName

variable {planId findingId evidenceNumber : List UInt16}

theorem buildEvidencePath_eq_rooted (fileName : List UInt16) :
    buildEvidencePath planId findingId evidenceNumber fileName =
      rooted (unit '/') ([units "uploads", units "findings"] ++ [planId, findingId] ++
        [evidenceName evidenceNumber fileName]) := by
  have hstart : units "/uploads/findings/" =
      unit '/' :: (units "uploads" ++ unit '/' :: (units "findings" ++ [unit '/'])) := by decide
  unfold buildEvidencePath rooted evidenceName
  simp only [hstart, List.cons_append, List.nil_append, List.intercalate_cons_cons, List.intercalate_singleton,
    List.append_assoc]

/-- The underscore behind the number keeps the name from being a pair of dots. -/
theorem isPathPart_evidenceName (hnumber : ∀ u ∈ evidenceNumber, isSeparator u = false) (fileName : List UInt16) :
    IsPathPart (evidenceName evidenceNumber fileName) := by
  have hunderscore : unit '_' ∈ evidenceName evidenceNumber fileName := by simp [evidenceName]
  refine ⟨?_, ?_, ?_⟩
  · exact List.forall_mem_append.2
      ⟨hnumber, List.forall_mem_cons.2 ⟨by decide, not_isSeparator_of_mem_sanitizeFileName⟩⟩
  · intro heq
    rw [heq] at hunderscore
    exact absurd hunderscore (by decide)
  · intro heq
    rw [heq] at hunderscore
    exact absurd hunderscore (by decide)

/-- Whether units are no separators is computed on the list, not on all units. -/
theorem forall_not_isSeparator_iff {part : List UInt16} :
    (∀ u ∈ part, isSeparator u = false) ↔ part.all (fun u => !isSeparator u) = true := by
  rw [List.all_eq_true]
  exact forall₂_congr fun u _ => (Bool.not_eq_true' (isSeparator u)).symm.to_iff

theorem IsPathPart.slash_notMem {part : List UInt16} (h : IsPathPart part) : unit '/' ∉ part := fun hmem =>
  absurd (h.1 _ hmem) (by decide)

/-- The path leads to a child of the directory of the finding. -/
theorem resolve_buildEvidencePath (hplan : IsPathPart planId) (hfinding : IsPathPart findingId)
    (hnumber : ∀ u ∈ evidenceNumber, isSeparator u = false) (cwd : List (List UInt16)) (fileName : List UInt16) :
    resolve (unit '/') (unit '.') cwd (buildEvidencePath planId findingId evidenceNumber fileName) =
      evidenceDirectory cwd planId findingId ++ [evidenceName evidenceNumber fileName] := by
  have hname := isPathPart_evidenceName hnumber fileName
  have hparts : ∀ s ∈ [units "uploads", units "findings"] ++ [planId, findingId] ++
      [evidenceName evidenceNumber fileName], IsPathPart s := by
    have hbase : ∀ s ∈ [units "uploads", units "findings"], IsPathPart s := by
      unfold IsPathPart
      simp only [forall_not_isSeparator_iff]
      decide
    refine List.forall_mem_append.2 ⟨List.forall_mem_append.2 ⟨hbase, ?_⟩, List.forall_mem_singleton.2 hname⟩
    exact List.forall_mem_cons.2 ⟨hplan, List.forall_mem_singleton.2 hfinding⟩
  -- Only the ids can be empty.
  have hbase : [units "uploads", units "findings"].filter (· ≠ []) = [units "uploads", units "findings"] := by
    decide
  have hlast : [evidenceName evidenceNumber fileName].filter (· ≠ []) = [evidenceName evidenceNumber fileName] := by
    refine List.filter_eq_self.2 fun s hs => ?_
    rw [List.mem_singleton.1 hs]
    simp [evidenceName]
  rw [buildEvidencePath_eq_rooted, resolve_rooted_parts (fun s hs => (hparts s hs).slash_notMem)
    (fun s hs => (hparts s hs).2), List.filter_append, List.filter_append, hbase, hlast, evidenceDirectory]
  simp only [List.append_assoc, List.cons_append, List.nil_append]

/-- What a name becomes has no separators and at most 255 units, stays so, and the loop before it ends; and its
path is that of a child of the directory of the finding, with the evidence number in front. -/
theorem fileNames_inside (fileName : List UInt16) :
    LoopEnds fileName ∧ (∀ u ∈ sanitizeFileName fileName, isSeparator u = false) ∧
      (sanitizeFileName fileName).length ≤ 255 ∧
      sanitizeFileName (sanitizeFileName fileName) = sanitizeFileName fileName ∧
      ∀ cwd planId findingId evidenceNumber, IsPathPart planId → IsPathPart findingId →
        (∀ u ∈ evidenceNumber, isSeparator u = false) →
        ∃ child, resolve (unit '/') (unit '.') cwd (buildEvidencePath planId findingId evidenceNumber fileName) =
          evidenceDirectory cwd planId findingId ++ [child] ∧ evidenceNumber <+: child := by
  have hplain := @not_isSeparator_of_mem_sanitizeFileName fileName
  have hlength := length_sanitizeFileName fileName
  refine ⟨loopEnds fileName, hplain, hlength, sanitizeFileName_eq_self hplain hlength, ?_⟩
  intro cwd planId findingId evidenceNumber hplan hfinding hnumber
  exact ⟨evidenceName evidenceNumber fileName, resolve_buildEvidencePath hplan hfinding hnumber cwd fileName,
    List.prefix_append _ _⟩

/-- The ids and the number of an upload. -/
theorem passwd_inside : ∃ child,
    resolve (unit '/') (unit '.') [units "app"]
        (buildEvidencePath (units "p1") (units "f1") (units "F01-E01") (units "..././/etc/passwd")) =
      evidenceDirectory [units "app"] (units "p1") (units "f1") ++ [child] ∧ units "F01-E01" <+: child :=
  (fileNames_inside (units "..././/etc/passwd")).2.2.2.2 _ _ _ _
    ⟨forall_not_isSeparator_iff.2 (by decide), by decide, by decide⟩
    ⟨forall_not_isSeparator_iff.2 (by decide), by decide, by decide⟩ (forall_not_isSeparator_iff.2 (by decide))

end AlsaqiBackend.Evidence
