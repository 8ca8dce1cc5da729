import AlsaqiBackend.Lib.Separator

/-!
# File trees with symbolic links

A file tree says what is under each path from its root: a directory, a file, or a link with a path. A path
is the list of its names. `walkWith` goes through the components of a path as the system does: `..` leaves
the directory in which it stands, and a link is followed where it stands; `walk` bounds how many links may
lead through one another. `realpath` is the path without links (`Real`) of what a path leads to.

A path can be cut anywhere (`walkWith_append`), and a path without links leads to itself
(`Real.walkWith`), so that the two paths to one thing can be exchanged in front of any others. The texts of
paths are those of POSIX: `pathResolve` and `joinPath` work on the texts alone, without the tree.
-/

namespace AlsaqiBackend.Lib

/-- A component of a path, or a name in a directory. -/
abbrev PathName := List Char

/-! ## Texts of paths -/

/-- The components of a text. -/
def components (text : List Char) : List PathName := text.splitOn '/'

def isAbsolute (text : List Char) : Bool := text.head? = some '/'

/-- What can be the name of an entry. -/
def IsName (c : PathName) : Prop := c ≠ [] ∧ c ≠ ['.'] ∧ c ≠ ['.', '.'] ∧ '/' ∉ c

instance (c : PathName) : Decidable (IsName c) := by
  unfold IsName
  infer_instance

/-- A component, after a path that has been normalized. -/
def normalizeStep (path : List PathName) (c : PathName) : List PathName :=
  if c = [] ∨ c = ['.'] then path
  else if c = ['.', '.'] then path.dropLast
  else path ++ [c]

/-- `path.resolve(base, text)` from an absolute path: a text that is absolute takes its place. -/
def pathResolve (base : List PathName) (text : List Char) : List PathName :=
  (components text).foldl normalizeStep (if isAbsolute text then [] else base)

/-- `path.join(base, text)`. -/
def joinPath (base : List PathName) (text : List Char) : List PathName :=
  (components text).foldl normalizeStep base

/-- The text of an absolute path. -/
def pathText (path : List PathName) : List Char :=
  if path = [] then ['/'] else path.flatMap ('/' :: ·)

/-- Names are left as they are. -/
theorem foldl_normalizeStep {names : List PathName} (h : ∀ c ∈ names, IsName c) (path : List PathName) :
    names.foldl normalizeStep path = path ++ names := by
  induction names generalizing path with
  | nil => exact (List.append_nil path).symm
  | cons c names ih =>
    have hc : IsName c := h c List.mem_cons_self
    have hstep : normalizeStep path c = path ++ [c] := by
      unfold normalizeStep
      rw [if_neg (not_or.2 ⟨hc.1, hc.2.1⟩), if_neg hc.2.2.1]
    rw [List.foldl_cons, hstep, ih fun c' hc' => h c' (List.mem_cons_of_mem _ hc'), List.append_assoc,
      List.singleton_append]

/-- A normalized path has names only. -/
theorem isName_of_mem_normalizeStep {path : List PathName} {c : PathName} (hpath : ∀ n ∈ path, IsName n)
    (hc : '/' ∉ c) : ∀ n ∈ normalizeStep path c, IsName n := by
  intro n hn
  unfold normalizeStep at hn
  split_ifs at hn with hskip hparent
  · exact hpath n hn
  · exact hpath n (List.dropLast_subset _ hn)
  · rcases List.mem_append.1 hn with hold | hnew
    · exact hpath n hold
    · rw [List.mem_singleton.1 hnew]
      rw [not_or] at hskip
      exact ⟨hskip.1, hskip.2, hparent, hc⟩

/-- No component has a slash. -/
theorem notMem_of_mem_components {text : List Char} : ∀ c ∈ components text, '/' ∉ c := by
  unfold components
  induction text with
  | nil => simp
  | cons x text ih =>
    rw [List.splitOn_cons_eq_if_modifyHead]
    split_ifs with hx
    · intro c hc
      rcases List.mem_cons.1 hc with rfl | hc
      · exact List.not_mem_nil
      · exact ih c hc
    · intro c hc
      have hne : '/' ≠ x := fun heq => hx (by simp [heq.symm])
      cases hsplit : List.splitOn '/' text with
      | nil =>
        rw [hsplit] at hc
        cases hc
      | cons first rest =>
        rw [hsplit, List.modifyHead_cons] at hc
        rcases List.mem_cons.1 hc with rfl | hc
        · exact List.not_mem_cons_of_ne_of_not_mem hne (ih first (hsplit ▸ List.mem_cons_self))
        · exact ih c (hsplit ▸ List.mem_cons_of_mem _ hc)

/-- What is resolved has names only. -/
theorem isName_of_mem_foldl {comps path : List PathName} (hpath : ∀ n ∈ path, IsName n)
    (hcomps : ∀ c ∈ comps, '/' ∉ c) : ∀ n ∈ comps.foldl normalizeStep path, IsName n := by
  induction comps generalizing path with
  | nil => exact hpath
  | cons c comps ih =>
    exact ih (isName_of_mem_normalizeStep hpath (hcomps c List.mem_cons_self))
      fun c' hc' => hcomps c' (List.mem_cons_of_mem _ hc')

theorem isName_of_mem_pathResolve {base : List PathName} (hbase : ∀ n ∈ base, IsName n) (text : List Char) :
    ∀ n ∈ pathResolve base text, IsName n := by
  unfold pathResolve
  refine isName_of_mem_foldl ?_ notMem_of_mem_components
  split_ifs
  · exact fun n hn => absurd hn List.not_mem_nil
  · exact hbase

/-- The components of the text of a path. -/
theorem components_flatMap {path : List PathName} (h : ∀ n ∈ path, '/' ∉ n) :
    components (path.flatMap ('/' :: ·)) = [] :: path := by
  unfold components
  induction path with
  | nil => simp
  | cons n path ih =>
    have hn : '/' ∉ n := h n List.mem_cons_self
    have hrest := ih fun n' hn' => h n' (List.mem_cons_of_mem _ hn')
    rw [List.flatMap_cons, List.cons_append, ← List.nil_append ('/' :: _),
      List.splitOn_append_cons_self_of_not_mem List.not_mem_nil]
    cases path with
    | nil => simp [List.splitOn_eq_singleton hn]
    | cons n' path =>
      rw [List.flatMap_cons, List.cons_append, List.splitOn_append_cons_self_of_not_mem hn]
      rw [List.flatMap_cons, List.cons_append, ← List.nil_append ('/' :: _),
        List.splitOn_append_cons_self_of_not_mem List.not_mem_nil] at hrest
      rw [(List.cons.inj hrest).2]

/-- The text of a path with a name is absolute, and is resolved to the path from everywhere. -/
theorem pathResolve_pathText {path : List PathName} (h : ∀ n ∈ path, IsName n) (hne : path ≠ [])
    (base : List PathName) : pathResolve base (pathText path) = path := by
  have hslash : ∀ n ∈ path, '/' ∉ n := fun n hn => (h n hn).2.2.2
  have habsolute : isAbsolute (path.flatMap ('/' :: ·)) = true := by
    obtain ⟨n, rest, rfl⟩ := List.exists_cons_of_ne_nil hne
    rfl
  unfold pathResolve pathText
  rw [if_neg hne, habsolute, if_pos rfl, components_flatMap hslash, List.foldl_cons]
  exact foldl_normalizeStep h []

/-- A text goes on behind the text of a path with a separator exactly when the path goes on. -/
theorem flatMap_prefix_iff {base path : List PathName} (hbase : ∀ n ∈ base, '/' ∉ n)
    (hpath : ∀ n ∈ path, '/' ∉ n) :
    base.flatMap ('/' :: ·) ++ ['/'] <+: path.flatMap ('/' :: ·) ↔ base <+: path ∧ base ≠ path := by
  induction base generalizing path with
  | nil =>
    cases path with
    | nil => simp
    | cons n path => simp
  | cons m base ih =>
    cases path with
    | nil => simp
    | cons n path =>
      have hm : '/' ∉ m := hbase m List.mem_cons_self
      have hn : '/' ∉ n := hpath n List.mem_cons_self
      have hrest : base.flatMap ('/' :: ·) ++ ['/'] <+: path.flatMap ('/' :: ·) ↔ base <+: path ∧ base ≠ path :=
        ih (fun n' hn' => hbase n' (List.mem_cons_of_mem _ hn'))
          fun n' hn' => hpath n' (List.mem_cons_of_mem _ hn')
      -- What stands behind the first name of the base begins with a separator.
      obtain ⟨u, hu⟩ : ∃ u, base.flatMap ('/' :: ·) ++ ['/'] = '/' :: u := by
        cases base with
        | nil => exact ⟨[], rfl⟩
        | cons m' base => exact ⟨_, rfl⟩
      have hsame : (m :: base <+: n :: path ∧ m :: base ≠ n :: path) ↔ m = n ∧ base <+: path ∧ base ≠ path := by
        rw [List.cons_prefix_cons, ne_eq, List.cons.injEq]
        constructor
        · rintro ⟨⟨rfl, hprefix⟩, hne⟩
          exact ⟨rfl, hprefix, fun heq => hne ⟨rfl, heq⟩⟩
        · rintro ⟨rfl, hprefix, hne⟩
          exact ⟨⟨rfl, hprefix⟩, fun heq => hne heq.2⟩
      rw [hsame, ← hrest, List.flatMap_cons, List.flatMap_cons, List.cons_append, List.cons_append,
        List.cons_append, List.cons_prefix_cons, and_iff_right rfl, List.append_assoc, hu]
      constructor
      · rintro ⟨t, ht⟩
        rw [List.append_assoc, List.cons_append] at ht
        cases path with
        | nil =>
          rw [List.flatMap_nil, List.append_nil] at ht
          exact absurd (ht ▸ List.mem_append_right m List.mem_cons_self) hn
        | cons n' path =>
          rw [List.flatMap_cons, List.cons_append] at ht
          obtain ⟨rfl, htail⟩ := (cut_at_first hm hn).1 ht
          refine ⟨rfl, t, ?_⟩
          rw [List.flatMap_cons, List.cons_append, List.cons_append, htail]
      · rintro ⟨rfl, t, ht⟩
        exact ⟨t, by rw [List.append_assoc, ht]⟩

/-! ## Trees -/

/-- What is under a path: a link has the text of a path, which may be absolute. -/
inductive Entry where
  | dir
  | file
  | link (target : List Char)
deriving DecidableEq

/-- A file tree, with the number of links that may lead through one another. -/
structure FileTree where
  entry : List PathName → Option Entry
  maxLinks : ℕ
  root : entry [] = some .dir
  isName : ∀ path c, entry (path ++ [c]) ≠ none → IsName c

namespace FileTree

variable (tree : FileTree)

/-- Go through components from a directory, where `follow` says to what a link leads in its directory. -/
def walkWith (follow : List PathName → List Char → Option (List PathName)) :
    List PathName → List PathName → Option (List PathName)
  | cur, [] => some cur
  | cur, c :: todo =>
    if tree.entry cur ≠ some .dir then none
    else if c = [] ∨ c = ['.'] then walkWith follow cur todo
    else if c = ['.', '.'] then walkWith follow cur.dropLast todo
    else
      match tree.entry (cur ++ [c]) with
      | none => none
      | some (.link target) => (follow cur target).bind fun next => walkWith follow next todo
      | some .dir => walkWith follow (cur ++ [c]) todo
      | some .file => walkWith follow (cur ++ [c]) todo

/-- Go through components, where at most so many links lead through one another. -/
def walk : ℕ → List PathName → List PathName → Option (List PathName)
  | 0 => tree.walkWith fun _ _ => none
  | links + 1 => tree.walkWith fun cur target =>
      walk links (if isAbsolute target then [] else cur) (components target)

/-- `realpath` of an absolute path. -/
def realpath (path : List PathName) : Option (List PathName) := tree.walk tree.maxLinks [] path

/-- A path that is there and has no links in it. -/
inductive Real : List PathName → Prop
  | root : Real []
  | child {path : List PathName} {c : PathName} {e : Entry} : Real path → tree.entry path = some .dir →
      tree.entry (path ++ [c]) = some e → (∀ target, e ≠ .link target) → Real (path ++ [c])

variable {tree} {follow : List PathName → List Char → Option (List PathName)} {path cur : List PathName}

/-- A path can be cut anywhere. -/
theorem walkWith_append (cur front back : List PathName) :
    tree.walkWith follow cur (front ++ back) =
      (tree.walkWith follow cur front).bind fun next => tree.walkWith follow next back := by
  induction front generalizing cur with
  | nil => rfl
  | cons c front ih =>
    rw [List.cons_append, walkWith, walkWith]
    split_ifs with hdir hskip hparent
    · rfl
    · exact ih cur
    · exact ih cur.dropLast
    · cases tree.entry (cur ++ [c]) with
      | none => rfl
      | some e =>
        cases e with
        | dir => exact ih (cur ++ [c])
        | file => exact ih (cur ++ [c])
        | link target =>
          dsimp only
          rw [Option.bind_assoc]
          exact Option.bind_congr fun next _ => ih next

theorem walk_append (links : ℕ) (cur front back : List PathName) :
    tree.walk links cur (front ++ back) =
      (tree.walk links cur front).bind fun next => tree.walk links next back := by
  cases links with
  | zero => exact walkWith_append cur front back
  | succ links => exact walkWith_append cur front back

/-- One step to an entry that is no link. -/
theorem walkWith_singleton {c : PathName} {e : Entry} (hdir : tree.entry cur = some .dir)
    (hentry : tree.entry (cur ++ [c]) = some e) (hlink : ∀ target, e ≠ .link target) :
    tree.walkWith follow cur [c] = some (cur ++ [c]) := by
  have hname : IsName c := tree.isName cur c (by rw [hentry]; exact Option.some_ne_none e)
  rw [walkWith, if_neg (not_not.2 hdir), if_neg (not_or.2 ⟨hname.1, hname.2.1⟩), if_neg hname.2.2.1, hentry]
  cases e with
  | dir => rfl
  | file => rfl
  | link target => exact absurd rfl (hlink target)

namespace Real

/-- A path without links leads to itself. -/
theorem walkWith (h : tree.Real path) : tree.walkWith follow [] path = some path := by
  induction h with
  | root => rfl
  | child _ hdir hentry hlink ih =>
    rw [walkWith_append, ih]
    exact walkWith_singleton hdir hentry hlink

theorem walk (h : tree.Real path) (links : ℕ) : tree.walk links [] path = some path := by
  cases links with
  | zero => exact h.walkWith
  | succ links => exact h.walkWith

theorem realpath (h : tree.Real path) : tree.realpath path = some path := h.walk tree.maxLinks

theorem isName (h : tree.Real path) : ∀ n ∈ path, IsName n := by
  induction h with
  | root => exact fun n hn => absurd hn List.not_mem_nil
  | child _ _ hentry _ ih =>
    intro n hn
    rcases List.mem_append.1 hn with hold | hnew
    · exact ih n hold
    · rw [List.mem_singleton.1 hnew]
      exact tree.isName _ _ (by rw [hentry]; exact Option.some_ne_none _)

theorem dropLast (h : tree.Real path) : tree.Real path.dropLast := by
  cases h with
  | root => exact .root
  | child hparent =>
    rw [List.dropLast_concat]
    exact hparent

end Real

/-- What a walk arrives at has no links, when the links lead to what has none. -/
theorem real_of_walkWith {todo next : List PathName}
    (hfollow : ∀ cur target next, tree.Real cur → follow cur target = some next → tree.Real next)
    (hcur : tree.Real cur) (h : tree.walkWith follow cur todo = some next) : tree.Real next := by
  induction todo generalizing cur with
  | nil => exact Option.some.inj h ▸ hcur
  | cons c todo ih =>
    rw [walkWith] at h
    split_ifs at h with hdir hskip hparent
    · exact ih hcur h
    · exact ih hcur.dropLast h
    · have hdir' : tree.entry cur = some .dir := not_not.1 hdir
      split at h
      · exact absurd h.symm (Option.some_ne_none next)
      · obtain ⟨middle, hmiddle, hrest⟩ := Option.bind_eq_some_iff.1 h
        exact ih (hfollow _ _ _ hcur hmiddle) hrest
      next hentry => exact ih (.child hcur hdir' hentry fun _ => Entry.noConfusion) h
      next hentry => exact ih (.child hcur hdir' hentry fun _ => Entry.noConfusion) h

theorem real_of_walk {links : ℕ} {todo next : List PathName} (hcur : tree.Real cur)
    (h : tree.walk links cur todo = some next) : tree.Real next := by
  induction links generalizing cur todo next with
  | zero => exact real_of_walkWith (fun _ _ _ _ hnone => absurd hnone.symm (Option.some_ne_none _)) hcur h
  | succ links ih =>
    refine real_of_walkWith (fun cur' target next' hcur' hfollow => ?_) hcur h
    split_ifs at hfollow
    · exact ih .root hfollow
    · exact ih hcur' hfollow

theorem real_of_realpath {next : List PathName} (h : tree.realpath path = some next) : tree.Real next :=
  real_of_walk .root h

/-- The front of a path can be exchanged for what it leads to. -/
theorem realpath_append_of_realpath {front real : List PathName} (h : tree.realpath front = some real)
    (back : List PathName) : tree.realpath (front ++ back) = tree.realpath (real ++ back) := by
  have hreal : tree.realpath real = some real := (real_of_realpath h).realpath
  unfold realpath at h hreal ⊢
  rw [walk_append, walk_append, h, hreal]

/-- The regular file to which a path leads, by its real path. -/
def file (tree : FileTree) (path : List PathName) : Option (List PathName) :=
  (tree.realpath path).filter fun real => tree.entry real = some .file

theorem file_eq_some_iff {real : List PathName} :
    tree.file path = some real ↔ tree.realpath path = some real ∧ tree.entry real = some .file := by
  rw [file, Option.filter_eq_some_iff, decide_eq_true_eq]

theorem realpath_nil : tree.realpath [] = some [] := Real.root.realpath

end FileTree

end AlsaqiBackend.Lib
