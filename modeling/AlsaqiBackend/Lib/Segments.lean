import Mathlib.Data.List.Basic

/-!
# Segments of a path

A path is cut at its separators. `resolve` leaves out the segments that are empty or a dot, and two dots take
the segment before them back. What is left names something (`isSegment_of_mem_resolve`), and the text that is
made of such segments (`rooted`) is resolved to them again (`resolve_rooted`).

`mem_foldl_resolveStep` says without the stack which segments are left: those after which, however far one goes,
there are no more pairs of dots than names.
-/

namespace AlsaqiBackend.Lib

variable {α : Type*} [DecidableEq α] {sep dot : α}

/-- A segment that names something. -/
def IsSegment (sep dot : α) (s : List α) : Prop := s ≠ [] ∧ s ≠ [dot] ∧ s ≠ [dot, dot] ∧ sep ∉ s

/-- A segment, after the ones before it. -/
def resolveStep (dot : α) (path : List (List α)) (s : List α) : List (List α) :=
  if s = [] ∨ s = [dot] then path
  else if s = [dot, dot] then path.dropLast
  else path ++ [s]

/-- The segments of a text, from a path on. -/
def resolve (sep dot : α) (base : List (List α)) (text : List α) : List (List α) :=
  (text.splitOn sep).foldl (resolveStep dot) base

/-- A text with a separator before each segment; without segments it is the separator. -/
def rooted (sep : α) (path : List (List α)) : List α := sep :: [sep].intercalate path

/-- No segment has a separator. -/
theorem sep_notMem_of_mem_splitOn (text : List α) : ∀ s ∈ text.splitOn sep, sep ∉ s := by
  induction text with
  | nil =>
    intro s hs
    rw [List.splitOn_nil, List.mem_singleton] at hs
    rw [hs]
    exact List.not_mem_nil
  | cons x text ih =>
    by_cases hx : x = sep
    · have hsplit : (x :: text).splitOn sep = [] :: text.splitOn sep := by
        rw [hx, ← List.nil_append (sep :: text), List.splitOn_append_cons_self, List.splitOn_nil]
        rfl
      rw [hsplit]
      exact List.forall_mem_cons.2 ⟨List.not_mem_nil, ih⟩
    · obtain ⟨first, rest, hrest⟩ := List.exists_cons_of_ne_nil (List.splitOn_ne_nil sep text)
      rw [List.splitOn_cons_eq_if_modifyHead, if_neg (by simpa using hx)]
      rw [hrest] at ih ⊢
      obtain ⟨hfirst, htail⟩ := List.forall_mem_cons.1 ih
      exact List.forall_mem_cons.2 ⟨List.not_mem_cons_of_ne_of_not_mem (Ne.symm hx) hfirst, htail⟩

/-! ## Steps -/

theorem resolveStep_skip {s : List α} (h : s = [] ∨ s = [dot]) (path : List (List α)) :
    resolveStep dot path s = path := if_pos h

theorem resolveStep_back (path : List (List α)) : resolveStep dot path [dot, dot] = path.dropLast := by
  unfold resolveStep
  rw [if_neg (by simp), if_pos rfl]

theorem resolveStep_segment {s : List α} (hne : ¬(s = [] ∨ s = [dot])) (hback : s ≠ [dot, dot])
    (path : List (List α)) : resolveStep dot path s = path ++ [s] := by
  unfold resolveStep
  rw [if_neg hne, if_neg hback]

/-- Without dots the segments that are not empty are left. -/
theorem foldl_resolveStep {names : List (List α)} (h : ∀ s ∈ names, s ≠ [dot] ∧ s ≠ [dot, dot])
    (path : List (List α)) : names.foldl (resolveStep dot) path = path ++ names.filter (· ≠ []) := by
  induction names generalizing path with
  | nil => exact (List.append_nil path).symm
  | cons s names ih =>
    obtain ⟨hs, hnames⟩ := List.forall_mem_cons.1 h
    by_cases hempty : s = []
    · rw [List.foldl_cons, resolveStep_skip (.inl hempty), ih hnames, List.filter_cons_of_neg (by simpa using hempty)]
    · rw [List.foldl_cons, resolveStep_segment (not_or.2 ⟨hempty, hs.1⟩) hs.2, ih hnames,
        List.filter_cons_of_pos (by simpa using hempty), List.append_assoc, List.singleton_append]

theorem isSegment_of_mem_foldl {segments path : List (List α)} (hpath : ∀ n ∈ path, IsSegment sep dot n)
    (hsegments : ∀ s ∈ segments, sep ∉ s) : ∀ n ∈ segments.foldl (resolveStep dot) path, IsSegment sep dot n := by
  induction segments generalizing path with
  | nil => exact hpath
  | cons s segments ih =>
    obtain ⟨hs, hrest⟩ := List.forall_mem_cons.1 hsegments
    rw [List.foldl_cons]
    refine ih ?_ hrest
    by_cases hskip : s = [] ∨ s = [dot]
    · rwa [resolveStep_skip hskip]
    · by_cases hback : s = [dot, dot]
      · rw [hback, resolveStep_back]
        exact fun n hn => hpath n (List.dropLast_subset path hn)
      · rw [resolveStep_segment hskip hback]
        rw [not_or] at hskip
        exact List.forall_mem_append.2 ⟨hpath, List.forall_mem_singleton.2 ⟨hskip.1, hskip.2, hback, hs⟩⟩

/-- What is resolved names something. -/
theorem isSegment_of_mem_resolve {base : List (List α)} (hbase : ∀ n ∈ base, IsSegment sep dot n) (text : List α) :
    ∀ n ∈ resolve sep dot base text, IsSegment sep dot n :=
  isSegment_of_mem_foldl hbase (sep_notMem_of_mem_splitOn text)

/-- The segments of a text that is made of parts without separators and dots. -/
theorem resolve_rooted_parts {parts : List (List α)} (hsep : ∀ s ∈ parts, sep ∉ s)
    (hdots : ∀ s ∈ parts, s ≠ [dot] ∧ s ≠ [dot, dot]) (base : List (List α)) :
    resolve sep dot base (rooted sep parts) = base ++ parts.filter (· ≠ []) := by
  unfold resolve rooted
  rw [← List.nil_append (sep :: _), List.splitOn_append_cons_self, List.splitOn_nil, List.singleton_append,
    List.foldl_cons, resolveStep_skip (.inl rfl)]
  by_cases hparts : parts = []
  · rw [hparts, List.intercalate_nil, List.splitOn_nil]
    rw [List.foldl_cons, List.foldl_nil, resolveStep_skip (.inl rfl), List.filter_nil, List.append_nil]
  · rw [List.splitOn_intercalate sep hsep hparts, foldl_resolveStep hdots]

/-- The segments of a text that is made of segments. -/
theorem resolve_rooted {names : List (List α)} (h : ∀ s ∈ names, IsSegment sep dot s) (base : List (List α)) :
    resolve sep dot base (rooted sep names) = base ++ names := by
  rw [resolve_rooted_parts (fun s hs => (h s hs).2.2.2) (fun s hs => ⟨(h s hs).2.1, (h s hs).2.2.1⟩),
    List.filter_eq_self.2 fun s hs => by simpa using (h s hs).1]

omit [DecidableEq α] in
theorem mem_intercalate {names : List (List α)} {x : α} (hx : x ≠ sep) :
    x ∈ [sep].intercalate names ↔ ∃ s ∈ names, x ∈ s := by
  induction names with
  | nil => simp
  | cons s names ih =>
    cases names with
    | nil => simp
    | cons s' names =>
      rw [List.intercalate_cons_cons, List.mem_append, List.mem_append, ih, List.mem_singleton,
        List.exists_mem_cons_iff (a := s)]
      simp only [hx, or_false]

omit [DecidableEq α] in
/-- What stands in the text of a path besides the separators. -/
theorem mem_rooted {names : List (List α)} {x : α} (hx : x ≠ sep) :
    x ∈ rooted sep names ↔ ∃ s ∈ names, x ∈ s := by
  unfold rooted
  rw [List.mem_cons, mem_intercalate hx]
  exact or_iff_right hx

/-- What stands in a segment of a text stands in the text. -/
theorem mem_of_mem_splitOn {text s : List α} {x : α} (hs : s ∈ text.splitOn sep) (hx : x ∈ s) : x ∈ text := by
  have hne : x ≠ sep := fun heq => sep_notMem_of_mem_splitOn text s hs (heq ▸ hx)
  rw [← @List.intercalate_splitOn α text _ _ sep, mem_intercalate hne]
  exact ⟨s, hs, hx⟩

/-! ## Segments that are left -/

/-- Two dots. -/
def backs (dot : α) (segments : List (List α)) : ℕ := segments.count [dot, dot]

/-- The segments that are put on a path. -/
def pushes (dot : α) (segments : List (List α)) : ℕ :=
  segments.countP fun s => s ≠ [] ∧ s ≠ [dot] ∧ s ≠ [dot, dot]

/-- No pair of dots takes back what has `depth` segments behind it. -/
def Kept (dot : α) (segments : List (List α)) (depth : ℕ) : Prop :=
  ∀ t, t <+: segments → backs dot t ≤ pushes dot t + depth

/-- A segment of a text that no pair of dots behind it takes back. -/
def Survives (dot : α) (segments : List (List α)) (name : List α) : Prop :=
  ∃ before after, segments = before ++ name :: after ∧ name ≠ [] ∧ name ≠ [dot] ∧ name ≠ [dot, dot] ∧
    Kept dot after 0

variable {segments path : List (List α)} {depth : ℕ} {s name : List α}

theorem kept_nil : Kept dot [] depth := by
  intro t ht
  rw [List.prefix_nil.1 ht]
  exact Nat.zero_le _

/-- The first segment counts for every start of the rest. -/
theorem kept_cons :
    Kept dot (s :: segments) depth ↔
      ∀ t, t <+: segments → backs dot (s :: t) ≤ pushes dot (s :: t) + depth := by
  constructor
  · intro h t ht
    exact h (s :: t) ((List.prefix_cons_inj s).2 ht)
  · intro h t ht
    rcases List.prefix_cons_iff.1 ht with rfl | ⟨t, rfl, ht'⟩
    · exact Nat.zero_le _
    · exact h t ht'

theorem kept_skip (h : s = [] ∨ s = [dot]) : Kept dot (s :: segments) depth ↔ Kept dot segments depth := by
  have hcounts : ∀ t, backs dot (s :: t) = backs dot t ∧ pushes dot (s :: t) = pushes dot t := by
    intro t
    unfold backs pushes
    rcases h with rfl | rfl <;> simp
  rw [kept_cons]
  simp only [hcounts]
  rfl

theorem kept_back : Kept dot ([dot, dot] :: segments) depth ↔ ∃ left, depth = left + 1 ∧ Kept dot segments left := by
  have hbacks : ∀ t, backs dot ([dot, dot] :: t) = backs dot t + 1 := fun t => List.count_cons_self
  have hpushes : ∀ t, pushes dot ([dot, dot] :: t) = pushes dot t := fun t => by simp [pushes]
  rw [kept_cons]
  simp only [hbacks, hpushes]
  constructor
  · intro h
    have hpos : 1 ≤ depth := by simpa [backs, pushes] using h [] List.nil_prefix
    refine ⟨depth - 1, by omega, fun t ht => ?_⟩
    have := h t ht
    omega
  · rintro ⟨left, rfl, h⟩ t ht
    have := h t ht
    omega

theorem kept_segment (hne : ¬(s = [] ∨ s = [dot])) (hback : s ≠ [dot, dot]) :
    Kept dot (s :: segments) depth ↔ Kept dot segments (depth + 1) := by
  rw [not_or] at hne
  have hbacks : ∀ t, backs dot (s :: t) = backs dot t := fun t => List.count_cons_of_ne hback
  have hpushes : ∀ t, pushes dot (s :: t) = pushes dot t + 1 := fun t =>
    List.countP_cons_of_pos (by simp [hne, hback])
  rw [kept_cons]
  simp only [hbacks, hpushes]
  refine forall_congr' fun t => imp_congr_right fun _ => ?_
  omega

/-- The first segment survives itself, if it is one. -/
theorem survives_cons :
    Survives dot (s :: segments) name ↔
      (s = name ∧ name ≠ [] ∧ name ≠ [dot] ∧ name ≠ [dot, dot] ∧ Kept dot segments 0) ∨
        Survives dot segments name := by
  constructor
  · rintro ⟨before, after, hsplit, h⟩
    cases before with
    | nil =>
      obtain ⟨hs, hafter⟩ := List.cons.inj hsplit
      exact .inl ⟨hs, hafter ▸ h⟩
    | cons x before => exact .inr ⟨before, after, (List.cons.inj hsplit).2, h⟩
  · rintro (⟨rfl, h⟩ | ⟨before, after, rfl, h⟩)
    · exact ⟨[], segments, rfl, h⟩
    · exact ⟨s :: before, after, rfl, h⟩

omit [DecidableEq α] in
/-- A segment at a depth of a path whose last segment is taken back. -/
theorem exists_dropLast_iff {P : ℕ → Prop} :
    (∃ below above, path.dropLast = below ++ name :: above ∧ P above.length) ↔
      ∃ below above, path = below ++ name :: above ∧ ∃ left, above.length = left + 1 ∧ P left := by
  constructor
  · rintro ⟨below, above, hpath, h⟩
    have hne : path ≠ [] := by
      rintro rfl
      cases below <;> cases hpath
    refine ⟨below, above ++ [path.getLast hne], ?_, above.length, by simp, h⟩
    rw [← List.cons_append, ← List.append_assoc, ← hpath, List.dropLast_append_getLast]
  · rintro ⟨below, above, rfl, left, hleft, h⟩
    have hne : above ≠ [] := by
      rintro rfl
      cases hleft
    refine ⟨below, above.dropLast, ?_, ?_⟩
    · rw [List.dropLast_append_of_ne_nil (List.cons_ne_nil _ _), List.dropLast_cons_of_ne_nil hne]
    · rwa [List.length_dropLast, hleft, Nat.add_sub_cancel]

omit [DecidableEq α] in
/-- A segment at a depth of a path with one more segment. -/
theorem exists_concat_iff {P : ℕ → Prop} :
    (∃ below above, path ++ [s] = below ++ name :: above ∧ P above.length) ↔
      (s = name ∧ P 0) ∨ ∃ below above, path = below ++ name :: above ∧ P (above.length + 1) := by
  constructor
  · rintro ⟨below, above, hpath, h⟩
    rcases List.eq_nil_or_concat above with rfl | ⟨above, x, rfl⟩
    · obtain ⟨-, hs⟩ := List.append_inj' hpath rfl
      exact .inl ⟨(List.cons.inj hs).1, h⟩
    · rw [List.concat_eq_append] at hpath h
      rw [← List.cons_append, ← List.append_assoc] at hpath
      refine .inr ⟨below, above, (List.append_inj' hpath rfl).1, ?_⟩
      rwa [List.length_append, List.length_singleton] at h
  · rintro (⟨rfl, h⟩ | ⟨below, above, rfl, h⟩)
    · exact ⟨path, [], rfl, h⟩
    · refine ⟨below, above ++ [s], by simp, ?_⟩
      rwa [List.length_append, List.length_singleton]

/-- A segment of a path that is left, or one that the text puts on it. -/
theorem mem_foldl_resolveStep :
    name ∈ segments.foldl (resolveStep dot) path ↔
      (∃ below above, path = below ++ name :: above ∧ Kept dot segments above.length) ∨
        Survives dot segments name := by
  induction segments generalizing path with
  | nil =>
    rw [List.foldl_nil, List.mem_iff_append]
    constructor
    · rintro ⟨below, above, rfl⟩
      exact .inl ⟨below, above, rfl, kept_nil⟩
    · rintro (⟨below, above, hpath, -⟩ | ⟨before, after, hsplit, -⟩)
      · exact ⟨below, above, hpath⟩
      · cases before <;> cases hsplit
  | cons s segments ih =>
    rw [List.foldl_cons, ih, survives_cons]
    by_cases hskip : s = [] ∨ s = [dot]
    · have hnot : ¬(s = name ∧ name ≠ [] ∧ name ≠ [dot] ∧ name ≠ [dot, dot] ∧ Kept dot segments 0) := by
        rintro ⟨rfl, hempty, hdot, -⟩
        exact hskip.elim hempty hdot
      simp only [resolveStep_skip hskip, kept_skip hskip, hnot, false_or]
    by_cases hback : s = [dot, dot]
    · have hnot : ¬(s = name ∧ name ≠ [] ∧ name ≠ [dot] ∧ name ≠ [dot, dot] ∧ Kept dot segments 0) := by
        rintro ⟨rfl, -, -, hne, -⟩
        exact hne hback
      rw [hback] at hnot ⊢
      simp only [resolveStep_back, kept_back, hnot, false_or, exists_dropLast_iff]
    · have hself : (s = name ∧ name ≠ [] ∧ name ≠ [dot] ∧ name ≠ [dot, dot] ∧ Kept dot segments 0) ↔
          s = name ∧ Kept dot segments 0 := by
        rw [not_or] at hskip
        constructor
        · rintro ⟨heq, -, -, -, hkept⟩
          exact ⟨heq, hkept⟩
        · rintro ⟨rfl, hkept⟩
          exact ⟨rfl, hskip.1, hskip.2, hback, hkept⟩
      rw [resolveStep_segment hskip hback, exists_concat_iff, hself, or_assoc]
      simp only [kept_segment hskip hback]
      exact or_left_comm

/-- What is resolved without a path before it are the segments that no pair of dots takes back. -/
theorem mem_resolve_iff {text : List α} :
    name ∈ resolve sep dot [] text ↔ Survives dot (text.splitOn sep) name := by
  unfold resolve
  rw [mem_foldl_resolveStep]
  constructor
  · rintro (⟨below, above, hnil, -⟩ | h)
    · cases below <;> cases hnil
    · exact h
  · exact .inr

/-- What stands in a segment that is left stands in the text. -/
theorem mem_of_survives {text : List α} {x : α} (h : Survives dot (text.splitOn sep) name) (hx : x ∈ name) :
    x ∈ text := by
  obtain ⟨before, after, hsplit, -⟩ := h
  exact mem_of_mem_splitOn (hsplit ▸ List.mem_append_right before List.mem_cons_self) hx

end AlsaqiBackend.Lib
