import AlsaqiBackend.Lib.Modify
import Mathlib.Data.List.Perm.Subperm
import Mathlib.Data.Nat.Find
import Mathlib.Logic.Function.Basic

/-!
# Parent pointers

A hierarchy is given by the parent of each of its keys. `climb` goes up a number of times, and a key ends at a
root when this comes to an end. When the parent of one key changes, all keys still end at a root exactly when the
new parent is not below the key (`endsAtRoot_update_iff`).

`nest` builds the trees below a parent from a list of nodes, to a given height. Where every parent is in the
list and every key ends at a root, each node is in the trees (`mem_under_of_closed`), once (`nodup_under`).
-/

namespace AlsaqiBackend.Lib

variable {κ : Type*} {up : κ → Option κ} {i j n : ℕ} {k a x : κ}

/-! ## Going up -/

/-- The key that is `n` steps above another one. -/
def climb (up : κ → Option κ) : ℕ → κ → Option κ
  | 0, k => some k
  | n + 1, k => (up k).bind (climb up n)

/-- Going up from a key comes to an end. -/
def EndsAtRoot (up : κ → Option κ) (k : κ) : Prop := ∃ n, climb up n k = none

/-- A key is another one, or above it. -/
def Above (up : κ → Option κ) (a k : κ) : Prop := ∃ n, climb up n k = some a

theorem climb_add (i j : ℕ) (k : κ) : climb up (i + j) k = (climb up i k).bind (climb up j) := by
  induction i generalizing k with
  | zero => rw [Nat.zero_add, climb, Option.bind_some]
  | succ i ih =>
    rw [Nat.add_right_comm, climb, climb, Option.bind_assoc]
    exact congrArg _ (funext ih)

theorem climb_one : climb up 1 k = up k := by
  rw [climb]
  exact Option.bind_fun_some (up k)

theorem climb_succ (i : ℕ) (k : κ) : climb up (i + 1) k = (climb up i k).bind up := by
  rw [climb_add]
  exact congrArg _ (funext fun k => climb_one)

/-- What is above the end is the end. -/
theorem climb_eq_none_of_le (h : climb up i k = none) (hij : i ≤ j) : climb up j k = none := by
  obtain ⟨d, rfl⟩ := Nat.exists_eq_add_of_le hij
  rw [climb_add, h, Option.bind_none]

theorem exists_climb_of_le (h : climb up j k = some a) (hij : i ≤ j) : ∃ b, climb up i k = some b := by
  rw [← Option.ne_none_iff_exists']
  intro hnone
  exact absurd (h.symm.trans (climb_eq_none_of_le hnone hij)) (Option.some_ne_none a)

theorem EndsAtRoot.of_climb (hk : EndsAtRoot up k) (h : climb up i k = some a) : EndsAtRoot up a := by
  obtain ⟨n, hn⟩ := hk
  refine ⟨n, ?_⟩
  have hlater : climb up (i + n) k = none := climb_eq_none_of_le hn (Nat.le_add_left n i)
  rwa [climb_add, h, Option.bind_some] at hlater

/-- With fewer parents a key still ends at a root. -/
theorem EndsAtRoot.mono {up' : κ → Option κ} (hk : EndsAtRoot up k) (h : ∀ k p, up' k = some p → up k = some p) :
    EndsAtRoot up' k := by
  have hclimb : ∀ n a, climb up' n k = some a → climb up n k = some a := by
    intro n
    induction n with
    | zero => exact fun _ ha => ha
    | succ n ih =>
      intro a ha
      rw [climb_succ] at ha ⊢
      obtain ⟨b, hb, hba⟩ := Option.bind_eq_some_iff.1 ha
      rw [ih b hb]
      exact h b a hba
  obtain ⟨n, hn⟩ := hk
  refine ⟨n, ?_⟩
  by_contra hsome
  obtain ⟨a, ha⟩ := Option.ne_none_iff_exists'.1 hsome
  exact absurd ((hclimb n a ha).symm.trans hn) (Option.some_ne_none a)

theorem endsAtRoot_of_up (h : ∀ p, up k = some p → EndsAtRoot up p) : EndsAtRoot up k := by
  match hup : up k with
  | none => exact ⟨1, climb_one.trans hup⟩
  | some p =>
    obtain ⟨n, hn⟩ := h p hup
    refine ⟨n + 1, ?_⟩
    rw [climb, hup, Option.bind_some]
    exact hn

/-- A key that ends at a root is not above itself. -/
theorem EndsAtRoot.climb_succ_ne (hk : EndsAtRoot up k) (n : ℕ) : climb up (n + 1) k ≠ some k := by
  intro hcycle
  have hround : ∀ m, climb up (m * (n + 1)) k = some k := by
    intro m
    induction m with
    | zero => rw [Nat.zero_mul, climb]
    | succ m ih => rw [Nat.succ_mul, climb_add, ih, Option.bind_some, hcycle]
  obtain ⟨m, hm⟩ := hk
  have hle : m ≤ m * (n + 1) := Nat.le_mul_of_pos_right m (Nat.succ_pos n)
  exact absurd ((hround m).symm.trans (climb_eq_none_of_le hm hle)) (Option.some_ne_none k)

/-- The steps up lead to different keys. -/
theorem EndsAtRoot.climb_inj (hk : EndsAtRoot up k) (hi : climb up i k = some a) (hj : climb up j k = some a) :
    i = j := by
  have hle : ∀ {i j : ℕ}, climb up i k = some a → climb up j k = some a → i ≤ j → i = j := by
    intro i j hi hj hij
    obtain ⟨d, rfl⟩ := Nat.exists_eq_add_of_le hij
    rw [climb_add, hi, Option.bind_some] at hj
    match d, hj with
    | 0, _ => rfl
    | d + 1, hj => exact absurd hj ((hk.of_climb hi).climb_succ_ne d)
  obtain hij | hij := Nat.le_total i j
  · exact hle hi hj hij
  · exact (hle hj hi hij).symm

/-- The way up to a root has at most as many keys as there are. -/
theorem lt_length_of_climb {l : List κ} (hk : EndsAtRoot up k) (h : climb up n k = some a)
    (hmem : ∀ i ≤ n, ∀ b, climb up i k = some b → b ∈ l) : n < l.length := by
  have hnodup : ((List.range (n + 1)).map fun i => climb up i k).Nodup := by
    refine List.Nodup.map_on (fun i hi j hj heq => ?_) List.nodup_range
    obtain ⟨b, hb⟩ := exists_climb_of_le h (Nat.le_of_lt_succ (List.mem_range.1 hi))
    exact hk.climb_inj hb (heq.symm.trans hb)
  have hsub : ((List.range (n + 1)).map fun i => climb up i k) ⊆ l.map some := by
    intro b hb
    obtain ⟨i, hi, rfl⟩ := List.mem_map.1 hb
    have hle : i ≤ n := Nat.le_of_lt_succ (List.mem_range.1 hi)
    obtain ⟨b, hb⟩ := exists_climb_of_le h hle
    rw [hb]
    exact List.mem_map_of_mem (hmem i hle b hb)
  have hlength := (List.subperm_of_subset hnodup hsub).length_le
  rw [List.length_map, List.length_range, List.length_map] at hlength
  omega

/-! ## A new parent -/

section Update

variable [DecidableEq κ] {p : Option κ}

/-- A change at a key that is not above leaves the way up as it is. -/
theorem climb_update (h : ¬Above up x k) (n : ℕ) : climb (Function.update up x p) n k = climb up n k := by
  induction n with
  | zero => rfl
  | succ n ih =>
    rw [climb_succ, climb_succ, ih]
    match hb : climb up n k with
    | none => rfl
    | some b =>
      have hne : b ≠ x := fun heq => h ⟨n, heq ▸ hb⟩
      rw [Option.bind_some, Option.bind_some, Function.update_of_ne hne]

/-- All keys end at a root after a change where the new parent is not below the key. -/
theorem endsAtRoot_update (hall : ∀ k, EndsAtRoot up k) (h : ∀ q, p = some q → ¬Above up x q) (k : κ) :
    EndsAtRoot (Function.update up x p) k := by
  have hx : EndsAtRoot (Function.update up x p) x := by
    refine endsAtRoot_of_up fun q hq => ?_
    rw [Function.update_self] at hq
    obtain ⟨n, hn⟩ := hall q
    exact ⟨n, (climb_update (h q hq) n).trans hn⟩
  obtain ⟨n, hn⟩ := hall k
  induction n generalizing k with
  | zero => exact absurd hn (Option.some_ne_none k)
  | succ n ih =>
    by_cases hkx : k = x
    · exact hkx ▸ hx
    · refine endsAtRoot_of_up fun q hq => ?_
      rw [Function.update_of_ne hkx] at hq
      rw [climb, hq, Option.bind_some] at hn
      exact ih q hn

/-- A key whose new parent is below it goes round. -/
theorem not_endsAtRoot_update {q : κ} (h : Above up x q) : ¬EndsAtRoot (Function.update up x (some q)) x := by
  -- the first time that the way up comes to the key, it has not met the change
  classical
  have hfirst := Nat.find_spec h
  have hbefore : ∀ i ≤ Nat.find h, climb (Function.update up x (some q)) i q = climb up i q := by
    intro i hi
    induction i with
    | zero => rfl
    | succ i ih =>
      rw [climb_succ, climb_succ, ih (Nat.le_of_succ_le hi)]
      match hb : climb up i q with
      | none => rfl
      | some b =>
        have hne : b ≠ x := fun heq => Nat.find_min h hi (heq ▸ hb)
        rw [Option.bind_some, Option.bind_some, Function.update_of_ne hne]
  intro hends
  refine hends.climb_succ_ne (Nat.find h) ?_
  rw [climb, Function.update_self, Option.bind_some, hbefore _ (Nat.le_refl _)]
  exact hfirst

/-- Where all keys end at a root, they still do after the parent of a key has changed exactly when the new
parent is not the key or below it. -/
theorem endsAtRoot_update_iff (hall : ∀ k, EndsAtRoot up k) :
    (∀ k, EndsAtRoot (Function.update up x p) k) ↔ ∀ q, p = some q → ¬Above up x q := by
  constructor
  · rintro h q rfl habove
    exact not_endsAtRoot_update habove (h x)
  · exact endsAtRoot_update hall

end Update

/-! ## Trees of nodes -/

inductive RoseTree (α : Type*) where
  | node (entity : α) (children : List (RoseTree α))

variable {α : Type*}

mutual

/-- The nodes of a tree. -/
def RoseTree.toList : RoseTree α → List α
  | .node entity children => entity :: RoseTree.toListAll children

/-- The nodes of several trees. -/
def RoseTree.toListAll : List (RoseTree α) → List α
  | [] => []
  | tree :: trees => tree.toList ++ RoseTree.toListAll trees

end

theorem RoseTree.toListAll_map {β : Type*} (f : β → RoseTree α) (l : List β) :
    RoseTree.toListAll (l.map f) = l.flatMap fun b => (f b).toList := by
  induction l with
  | nil => rw [List.map_nil, RoseTree.toListAll, List.flatMap_nil]
  | cons b l ih => rw [List.map_cons, RoseTree.toListAll, ih, List.flatMap_cons]

section Nest

variable [DecidableEq κ] (key : α → κ) (parent : α → Option κ) (nodes : List α)

/-- The trees below a parent, of at most the given height. -/
def nest : ℕ → Option κ → List (RoseTree α)
  | 0, _ => []
  | n + 1, p => (nodes.filter (parent · = p)).map fun a => .node a (nest n (some (key a)))

/-- The nodes of these trees. -/
def under (n : ℕ) (p : Option κ) : List α := RoseTree.toListAll (nest key parent nodes n p)

/-- The parent of the node with a key. -/
def upOf (k : κ) : Option κ := (nodes.find? (key · = k)).bind parent

theorem under_zero (p : Option κ) : under key parent nodes 0 p = [] := by
  rw [under, nest, RoseTree.toListAll]

theorem under_succ (n : ℕ) (p : Option κ) :
    under key parent nodes (n + 1) p =
      (nodes.filter (parent · = p)).flatMap fun a => a :: under key parent nodes n (some (key a)) := by
  rw [under, nest, RoseTree.toListAll_map]
  refine congrArg (fun f => List.flatMap f _) (funext fun a => ?_)
  rw [RoseTree.toList, under]

variable {key parent nodes} {b c : α} {p : Option κ}

theorem notMem_under_zero : b ∉ under key parent nodes 0 p := by
  rw [under_zero]
  exact List.not_mem_nil

/-- A key with a parent is that of a node. -/
theorem exists_of_upOf {q : κ} (h : upOf key parent nodes k = some q) : ∃ c ∈ nodes, key c = k ∧ parent c = some q := by
  obtain ⟨c, hc, hq⟩ := Option.bind_eq_some_iff.1 h
  obtain ⟨hmem, hkey⟩ := of_find?_key hc
  exact ⟨c, hmem, hkey, hq⟩

theorem mem_under_succ :
    b ∈ under key parent nodes (n + 1) p ↔
      ∃ c ∈ nodes, parent c = p ∧ (b = c ∨ b ∈ under key parent nodes n (some (key c))) := by
  rw [under_succ, List.mem_flatMap]
  refine exists_congr fun c => ?_
  rw [List.mem_filter, List.mem_cons, decide_eq_true_eq, and_assoc]

theorem mem_of_mem_under (h : b ∈ under key parent nodes n p) : b ∈ nodes := by
  induction n generalizing p with
  | zero => exact absurd h notMem_under_zero
  | succ n ih =>
    obtain ⟨c, hc, -, rfl | hb⟩ := mem_under_succ.1 h
    · exact hc
    · exact ih hb

/-- The parent of a node of the trees is theirs, or one of the nodes. -/
theorem parent_of_mem_under (h : b ∈ under key parent nodes n p) :
    parent b = p ∨ ∃ c ∈ nodes, parent b = some (key c) := by
  induction n generalizing p with
  | zero => exact absurd h notMem_under_zero
  | succ n ih =>
    obtain ⟨c, hc, hp, rfl | hb⟩ := mem_under_succ.1 h
    · exact Or.inl hp
    · exact Or.inr ((ih hb).elim (fun hparent => ⟨c, hc, hparent⟩) id)

theorem under_mono {m : ℕ} (hnm : n ≤ m) (h : b ∈ under key parent nodes n p) :
    b ∈ under key parent nodes m p := by
  induction n generalizing m p with
  | zero => exact absurd h notMem_under_zero
  | succ n ih =>
    obtain ⟨m, rfl⟩ : ∃ m', m = m' + 1 := ⟨m - 1, by omega⟩
    obtain ⟨c, hc, hp, hb⟩ := mem_under_succ.1 h
    exact mem_under_succ.2 ⟨c, hc, hp, hb.imp_right (ih (Nat.le_of_succ_le_succ hnm))⟩

/-- The nodes that are a number of steps below the roots. -/
inductive Depth (key : α → κ) (parent : α → Option κ) (nodes : List α) : ℕ → Option κ → Prop
  | root : Depth key parent nodes 0 none
  | child {n : ℕ} {c : α} (hc : c ∈ nodes) (h : Depth key parent nodes n (parent c)) :
      Depth key parent nodes (n + 1) (some (key c))

/-- What is below a node is below the roots. -/
theorem mem_under_of_depth {d : ℕ} (hp : Depth key parent nodes d p) (h : b ∈ under key parent nodes n p) :
    b ∈ under key parent nodes (n + d) none := by
  induction hp generalizing n with
  | root => exact h
  | @child d c hc _ ih =>
    have hup : b ∈ under key parent nodes (n + 1) (parent c) := mem_under_succ.2 ⟨c, hc, rfl, Or.inr h⟩
    have hroot := ih hup
    rwa [Nat.add_right_comm] at hroot

variable (hkeys : (nodes.map key).Nodup)

include hkeys

theorem upOf_key (hb : b ∈ nodes) : upOf key parent nodes (key b) = parent b := by
  rw [upOf, find?_key_of_mem hkeys hb rfl, Option.bind_some]

/-- The way up from a node of the given depth is in the nodes, and ends there. -/
theorem Depth.climb {d : ℕ} (h : Depth key parent nodes d p) (hp : p = some k) :
    (∀ i < d, ∃ c ∈ nodes, climb (upOf key parent nodes) i k = some (key c)) ∧
      Lib.climb (upOf key parent nodes) d k = none := by
  induction h generalizing k with
  | root => exact absurd hp.symm (Option.some_ne_none k)
  | @child d c hc hd ih =>
    obtain rfl := Option.some.inj hp
    have hup : upOf key parent nodes (key c) = parent c := upOf_key hkeys hc
    match hparent : parent c with
    | none =>
      rw [hparent] at hd hup
      obtain rfl : d = 0 := by
        cases hd
        rfl
      refine ⟨fun i hi => ?_, climb_one.trans hup⟩
      obtain rfl : i = 0 := by omega
      exact ⟨c, hc, rfl⟩
    | some q =>
      rw [hparent] at hup
      obtain ⟨hway, hend⟩ := ih hparent
      refine ⟨fun i hi => ?_, ?_⟩
      · match i with
        | 0 => exact ⟨c, hc, rfl⟩
        | i + 1 =>
          rw [Lib.climb, hup, Option.bind_some]
          exact hway i (Nat.lt_of_succ_lt_succ hi)
      · rw [Lib.climb, hup, Option.bind_some]
        exact hend

/-- No node is deeper than there are nodes. -/
theorem Depth.le_length {d : ℕ} (h : Depth key parent nodes d p) : d ≤ nodes.length := by
  match d, h with
  | 0, _ => exact Nat.zero_le _
  | d + 1, h =>
    obtain ⟨k, rfl⟩ : ∃ k, p = some k := by
      cases h
      exact ⟨_, rfl⟩
    obtain ⟨hway, hend⟩ := h.climb hkeys rfl
    obtain ⟨c, -, hc⟩ := hway d (Nat.lt_succ_self d)
    have hlt : d < (nodes.map key).length := by
      refine lt_length_of_climb ⟨d + 1, hend⟩ hc fun i hi b hb => ?_
      obtain ⟨c', hc', hclimb⟩ := hway i (Nat.lt_succ_of_le hi)
      obtain rfl := Option.some.inj (hclimb.symm.trans hb)
      exact List.mem_map_of_mem hc'
    rwa [List.length_map] at hlt

/-- The way up from a node of the trees leads to one of their roots. -/
theorem climb_of_mem_under (h : b ∈ under key parent nodes n p) :
    ∃ i, ∃ c ∈ nodes, parent c = p ∧ Lib.climb (upOf key parent nodes) i (key b) = some (key c) := by
  induction n generalizing p with
  | zero => exact absurd h notMem_under_zero
  | succ n ih =>
    obtain ⟨c, hc, hp, rfl | hb⟩ := mem_under_succ.1 h
    · exact ⟨0, b, hc, hp, rfl⟩
    · obtain ⟨i, c', hc', hp', hclimb⟩ := ih hb
      refine ⟨i + 1, c, hc, hp, ?_⟩
      rw [climb_succ, hclimb, Option.bind_some, upOf_key hkeys hc', hp']

/-- A node of the trees below a key has the key above it. -/
theorem climb_succ_of_mem_under {q : κ} (h : b ∈ under key parent nodes n (some q)) :
    ∃ i, Lib.climb (upOf key parent nodes) (i + 1) (key b) = some q := by
  obtain ⟨i, c, hc, hp, hclimb⟩ := climb_of_mem_under hkeys h
  refine ⟨i, ?_⟩
  rw [climb_succ, hclimb, Option.bind_some, upOf_key hkeys hc, hp]

/-- Where all keys end at a root, no node is twice in the trees. -/
theorem nodup_under (hroot : ∀ k, EndsAtRoot (upOf key parent nodes) k) :
    (under key parent nodes n p).Nodup := by
  induction n generalizing p with
  | zero =>
    rw [under_zero]
    exact List.nodup_nil
  | succ n ih =>
    have hblock : ∀ c ∈ nodes, ∀ b ∈ c :: under key parent nodes n (some (key c)),
        ∃ i, Lib.climb (upOf key parent nodes) i (key b) = some (key c) := by
      intro c hc b hb
      obtain rfl | hb := List.mem_cons.1 hb
      · exact ⟨0, rfl⟩
      · obtain ⟨i, hclimb⟩ := climb_succ_of_mem_under hkeys hb
        exact ⟨i + 1, hclimb⟩
    rw [under_succ, List.nodup_flatMap]
    refine ⟨fun c hc => List.nodup_cons.2 ⟨fun hself => ?_, ih⟩, ?_⟩
    · obtain ⟨i, hclimb⟩ := climb_succ_of_mem_under hkeys hself
      exact (hroot (key c)).climb_succ_ne i hclimb
    · -- a node of two trees would have both their roots above it, which have one parent
      have hapart : ∀ {c c' : α} {i j : ℕ} {b : α}, c ∈ nodes → c' ∈ nodes → parent c = p → parent c' = p →
          Lib.climb (upOf key parent nodes) i (key b) = some (key c) →
          Lib.climb (upOf key parent nodes) j (key b) = some (key c') → i ≤ j → key c = key c' := by
        intro c c' i j b hc hc' hp hp' hi hj hij
        obtain ⟨d, rfl⟩ := Nat.exists_eq_add_of_le hij
        rw [climb_add, hi, Option.bind_some] at hj
        match d, hj with
        | 0, hj => exact Option.some.inj hj
        | d + 1, hj =>
          rw [Lib.climb, upOf_key hkeys hc, hp] at hj
          obtain ⟨q, rfl, hq⟩ := Option.bind_eq_some_iff.1 hj
          refine absurd ?_ ((hroot q).climb_succ_ne d)
          rw [climb_succ, hq, Option.bind_some, upOf_key hkeys hc', hp']
      have hnodup : (nodes.filter (parent · = p)).Nodup := (hkeys.of_map key).filter _
      refine hnodup.imp_of_mem fun {c c'} hc hc' hne b hb hb' => ?_
      obtain ⟨hc, hp⟩ := List.mem_filter.1 hc
      obtain ⟨hc', hp'⟩ := List.mem_filter.1 hc'
      obtain ⟨i, hi⟩ := hblock c hc b hb
      obtain ⟨j, hj⟩ := hblock c' hc' b hb'
      have heq : key c = key c' := by
        obtain hij | hij := Nat.le_total i j
        · exact hapart hc hc' (of_decide_eq_true hp) (of_decide_eq_true hp') hi hj hij
        · exact (hapart hc' hc (of_decide_eq_true hp') (of_decide_eq_true hp) hj hi hij).symm
      exact hne (List.inj_on_of_nodup_map hkeys hc hc' heq)

/-- Where the parents are in the list and every key ends at a root, every node is below the roots. -/
theorem mem_under_of_closed (hroot : ∀ k, EndsAtRoot (upOf key parent nodes) k)
    (hclosed : ∀ c ∈ nodes, ∀ q, parent c = some q → q ∈ nodes.map key) (hb : b ∈ nodes) :
    b ∈ under key parent nodes nodes.length none := by
  have hdepth : ∀ n, ∀ c ∈ nodes, Lib.climb (upOf key parent nodes) n (key c) = none →
      ∃ d, Depth key parent nodes d (parent c) := by
    intro n
    induction n with
    | zero => exact fun c _ h => absurd h (Option.some_ne_none _)
    | succ n ih =>
      intro c hc hclimb
      match hp : parent c with
      | none => exact ⟨0, Depth.root⟩
      | some q =>
        obtain ⟨c', hc', rfl⟩ := List.mem_map.1 (hclosed c hc q hp)
        rw [Lib.climb, upOf_key hkeys hc, hp, Option.bind_some] at hclimb
        obtain ⟨d, hd⟩ := ih c' hc' hclimb
        exact ⟨d + 1, Depth.child hc' hd⟩
  obtain ⟨n, hn⟩ := hroot (key b)
  obtain ⟨d, hd⟩ := hdepth n b hb hn
  have hself : b ∈ under key parent nodes 1 (parent b) := mem_under_succ.2 ⟨b, hb, rfl, Or.inl rfl⟩
  have hle : d + 1 ≤ nodes.length := (Depth.child hb hd).le_length hkeys
  exact under_mono (by omega) (mem_under_of_depth hd hself)

end Nest

end AlsaqiBackend.Lib
