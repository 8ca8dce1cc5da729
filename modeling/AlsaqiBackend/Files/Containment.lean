import AlsaqiBackend.Lib.FileTree

/-!
# Path containment

`checkContainment` resolves a requested path against the upload directory and asks whether what it leads to
is the directory or stands below it. Where the path leads nowhere, `realpathBestEffort` takes the longest
front of it that leads somewhere, so that what it returns leads to the same as the path itself
(`realpath_realpathBestEffort`).

The paths of the file system are lists of names, and the requested path is the text that the router has cut
out of the request.
-/

namespace AlsaqiBackend.Files

open Lib

variable (tree : FileTree)

/-- The loop of `realpathBestEffort`. The names of `current` stand from the last one on. -/
def realpathLoop (absolutePath : List PathName) : List PathName → List PathName → List PathName
  | [], trailing =>
    match tree.realpath [] with
    | some real => trailing.foldl joinPath real
    | none => absolutePath
  | basename :: dirname, trailing =>
    match tree.realpath (basename :: dirname).reverse with
    | some real => trailing.foldl joinPath real
    | none => realpathLoop absolutePath dirname (basename :: trailing)

def realpathBestEffort (absolutePath : List PathName) : List PathName :=
  realpathLoop tree absolutePath absolutePath.reverse []

structure ContainmentResult where
  contained : Bool
  resolvedPath : List PathName

/-- Nothing in the `try` block throws: `resolvedPath` is never `null`. -/
def checkContainment (uploadDir : List PathName) (requestedRelPath : List Char) : ContainmentResult :=
  let resolvedBase := realpathBestEffort tree uploadDir
  let candidate := pathResolve resolvedBase requestedRelPath
  let resolvedPath := realpathBestEffort tree candidate
  { contained := pathText resolvedPath = pathText resolvedBase ∨
      (pathText resolvedBase ++ ['/']).isPrefixOf (pathText resolvedPath)
    resolvedPath := resolvedPath }

variable {tree} {path real : List PathName}

/-- Names are joined one after the other. -/
theorem foldl_joinPath {names : List PathName} (h : ∀ n ∈ names, IsName n) (path : List PathName) :
    names.foldl joinPath path = path ++ names := by
  induction names generalizing path with
  | nil => exact (List.append_nil path).symm
  | cons n names ih =>
    have hn : IsName n := h n List.mem_cons_self
    have hjoin : joinPath path n = path ++ [n] := by
      rw [joinPath, components, List.splitOn_eq_singleton hn.2.2.2]
      exact foldl_normalizeStep (fun c hc => (List.mem_singleton.1 hc) ▸ hn) path
    rw [List.foldl_cons, hjoin, ih fun n' hn' => h n' (List.mem_cons_of_mem _ hn'), List.append_assoc,
      List.singleton_append]

/-- The loop stops at a front of the path that leads somewhere. -/
theorem realpathLoop_spec (tree : FileTree) {absolutePath current trailing : List PathName}
    (h : ∀ n ∈ trailing, IsName n) (hcurrent : ∀ n ∈ current, IsName n) :
    ∃ front back real, current.reverse ++ trailing = front ++ back ∧ tree.realpath front = some real ∧
      (∀ n ∈ back, IsName n) ∧ realpathLoop tree absolutePath current trailing = real ++ back := by
  induction current generalizing trailing with
  | nil =>
    refine ⟨[], trailing, [], rfl, FileTree.realpath_nil, h, ?_⟩
    rw [realpathLoop, FileTree.realpath_nil]
    exact foldl_joinPath h []
  | cons basename dirname ih =>
    rw [realpathLoop]
    cases hreal : tree.realpath (basename :: dirname).reverse with
    | some real => exact ⟨(basename :: dirname).reverse, trailing, real, rfl, hreal, h, foldl_joinPath h real⟩
    | none =>
      have htrailing : ∀ n ∈ basename :: trailing, IsName n :=
        List.forall_mem_cons.2 ⟨hcurrent _ List.mem_cons_self, h⟩
      obtain ⟨front, back, real, hcut, hrest⟩ :=
        ih htrailing fun n hn => hcurrent n (List.mem_cons_of_mem _ hn)
      refine ⟨front, back, real, ?_, hrest⟩
      rw [List.reverse_cons, List.append_assoc, List.singleton_append, hcut]

theorem realpathBestEffort_spec (tree : FileTree) (h : ∀ n ∈ path, IsName n) :
    ∃ front back real, path = front ++ back ∧ tree.realpath front = some real ∧ (∀ n ∈ back, IsName n) ∧
      realpathBestEffort tree path = real ++ back := by
  have hnil : ∀ n ∈ ([] : List PathName), IsName n := fun n hn => absurd hn List.not_mem_nil
  obtain ⟨front, back, real, hcut, hrest⟩ :=
    realpathLoop_spec tree hnil fun n hn => h n (List.mem_reverse.1 hn)
  rw [List.reverse_reverse, List.append_nil] at hcut
  exact ⟨front, back, real, hcut, hrest⟩

/-- What the path is resolved to leads to the same as the path. -/
theorem realpath_realpathBestEffort (h : ∀ n ∈ path, IsName n) :
    tree.realpath (realpathBestEffort tree path) = tree.realpath path := by
  obtain ⟨front, back, real, rfl, hreal, -, heq⟩ := realpathBestEffort_spec tree h
  rw [heq, FileTree.realpath_append_of_realpath hreal]

theorem isName_of_mem_realpathBestEffort (tree : FileTree) (h : ∀ n ∈ path, IsName n) :
    ∀ n ∈ realpathBestEffort tree path, IsName n := by
  obtain ⟨front, back, real, -, hreal, hback, heq⟩ := realpathBestEffort_spec tree h
  rw [heq]
  intro n hn
  rcases List.mem_append.1 hn with hfront | hrest
  · exact (FileTree.real_of_realpath hreal).isName n hfront
  · exact hback n hrest

/-- A path that leads somewhere is resolved to where it leads. -/
theorem realpathBestEffort_of_realpath (h : tree.realpath path = some real) :
    realpathBestEffort tree path = real := by
  unfold realpathBestEffort
  have hrev : tree.realpath path.reverse.reverse = some real := by rw [List.reverse_reverse, h]
  cases hcurrent : path.reverse with
  | nil =>
    rw [hcurrent] at hrev
    rw [realpathLoop, ← List.reverse_nil, hrev]
    rfl
  | cons basename dirname =>
    rw [hcurrent] at hrev
    rw [realpathLoop, hrev]
    rfl

/-- Two paths of names with one text are one path. -/
theorem pathText_inj {path path' : List PathName} (h : ∀ n ∈ path, IsName n) (h' : ∀ n ∈ path', IsName n) :
    pathText path = pathText path' ↔ path = path' := by
  constructor
  · intro heq
    have hcomponents : (components (pathText path)).foldl normalizeStep [] =
        (components (pathText path')).foldl normalizeStep [] := by rw [heq]
    have hself : ∀ {names : List PathName}, (∀ n ∈ names, IsName n) →
        (components (pathText names)).foldl normalizeStep [] = names := by
      intro names hnames
      unfold pathText
      split_ifs with hnil
      · rw [hnil]
        decide
      · rw [components_flatMap fun n hn => (hnames n hn).2.2.2, List.foldl_cons]
        exact foldl_normalizeStep hnames []
    rwa [hself h, hself h'] at hcomponents
  · exact fun heq => by rw [heq]

/-- What is contained: the directory itself, or what stands below it. The root directory contains nothing
but itself, since a second separator is looked for behind its own. -/
theorem contained_iff {uploadDir : List PathName} {requestedRelPath : List Char}
    (hdir : tree.realpath uploadDir = some real) :
    (checkContainment tree uploadDir requestedRelPath).contained = true ↔
      (checkContainment tree uploadDir requestedRelPath).resolvedPath = real ∨
        real ≠ [] ∧ real <+: (checkContainment tree uploadDir requestedRelPath).resolvedPath ∧
          real ≠ (checkContainment tree uploadDir requestedRelPath).resolvedPath := by
  have hreal : ∀ n ∈ real, IsName n := (FileTree.real_of_realpath hdir).isName
  unfold checkContainment
  rw [realpathBestEffort_of_realpath hdir]
  dsimp only
  have hresolved := isName_of_mem_realpathBestEffort tree
    (isName_of_mem_pathResolve hreal requestedRelPath)
  generalize realpathBestEffort tree (pathResolve real requestedRelPath) = resolved at hresolved ⊢
  rw [decide_eq_true_eq, pathText_inj hresolved hreal, List.isPrefixOf_iff_prefix]
  refine or_congr_right ?_
  by_cases hroot : real = []
  · subst hroot
    -- No path has a text that begins with two separators.
    have hno : ¬ pathText [] ++ ['/'] <+: pathText resolved := by
      unfold pathText
      cases resolved with
      | nil => decide
      | cons n rest =>
        have hn : IsName n := hresolved n List.mem_cons_self
        rw [if_pos rfl, if_neg (List.cons_ne_nil n rest), List.flatMap_cons]
        cases n with
        | nil => exact absurd rfl hn.1
        | cons x n =>
          intro hprefix
          have hx : '/' = x := (List.cons_prefix_cons.1 (List.cons_prefix_cons.1 hprefix).2).1
          exact hn.2.2.2 (hx ▸ List.mem_cons_self)
    exact ⟨fun h => absurd h hno, fun h => absurd rfl h.1⟩
  · rw [and_iff_right hroot]
    have hslash : ∀ {names : List PathName}, (∀ n ∈ names, IsName n) → ∀ n ∈ names, '/' ∉ n :=
      fun hnames n hn => (hnames n hn).2.2.2
    rw [← flatMap_prefix_iff (hslash hreal) (hslash hresolved)]
    unfold pathText
    rw [if_neg hroot]
    split_ifs with hnil
    · -- The text of the root is one separator, that of the directory with one behind it is longer.
      subst hnil
      obtain ⟨n, rest, rfl⟩ := List.exists_cons_of_ne_nil hroot
      refine ⟨fun h => ?_, fun h => ?_⟩
      · have hlength := h.length_le
        simp at hlength
      · have hlength := h.length_le
        simp at hlength
    · exact Iff.rfl

end AlsaqiBackend.Files
