import AlsaqiBackend.Lib.FileTree
import AlsaqiBackend.Lib.Percent
import Mathlib.Data.List.Forall2

/-!
# Patterns of routes

A router has a list of layers, each with a pattern for the path of a request, and takes the first one that
matches. A pattern is a list of segments: a literal, which is compared without regard to case, or a parameter,
which takes any text without a slash. `PathMatcher` is what is promised of the matching; `expressMatcher` is
one that decodes the parameters, and takes a path with one more slash at its end as well.

What a pattern without parameters takes is its own text up to case and slashes at the end: such a path has
nothing to be decoded or resolved (`Spells.literal`).
-/

namespace AlsaqiBackend.Lib

/-- A segment of a pattern. -/
inductive PatternSegment where
  | literal (text : List Char)
  | param (name : List Char)
  deriving DecidableEq

/-- The pattern of a text such as `/users/:id`. -/
def patternOf (text : String) : List PatternSegment :=
  ((components text.toList).filter (· ≠ [])).map fun segment =>
    match segment with
    | ':' :: name => .param name
    | text => .literal text

def PatternSegment.isParam : PatternSegment → Bool
  | .literal _ => false
  | .param _ => true

/-- A text in small letters. -/
def lowered (text : List Char) : List Char := text.map Char.toLower

/-- A segment of the pattern takes a segment of the path. -/
def PatternSegment.takes : PatternSegment → List Char → Bool
  | .literal text, segment => lowered segment = lowered text
  | .param _, segment => segment ≠ []

/-- The path is one for the pattern, with some slashes at its end. -/
def Spells (pattern : List PatternSegment) (path : List Char) : Prop :=
  ∃ segments n, List.Forall₂ (fun p s => p.takes s = true ∧ '/' ∉ s) pattern segments ∧
    path = segments.flatMap ('/' :: ·) ++ List.replicate n '/'

/-- What a pattern that has to take the beginning of a path leaves of it. The empty one leaves all. -/
def Leaves (pattern : List PatternSegment) (path rest : List Char) : Prop :=
  if pattern = [] then rest = path
  else
    ∃ segments tail, List.Forall₂ (fun p s => p.takes s = true ∧ '/' ∉ s) pattern segments ∧
      path = segments.flatMap ('/' :: ·) ++ tail ∧ (∀ c ∈ tail.head?, c = '/') ∧
        rest = if tail = [] then ['/'] else tail

/-- The pattern of a route matches, does not, or has a parameter that cannot be decoded. -/
inductive RouteMatch where
  | found
  | absent
  | undecodable
  deriving DecidableEq

/-- How a router matches the path of a request with the pattern of a route, and with the one of another router
that is mounted. -/
structure PathMatcher where
  matchRoute : List PatternSegment → List Char → RouteMatch
  matchMount : List PatternSegment → List Char → Option (List Char)
  spells_of_matchRoute {pattern : List PatternSegment} {path : List Char} :
    matchRoute pattern path = .found → Spells pattern path
  leaves_of_matchMount {pattern : List PatternSegment} {path rest : List Char} :
    matchMount pattern path = some rest → Leaves pattern path rest

variable {pattern : List PatternSegment} {path rest : List Char}

/-! ## Texts -/

/-- A character of the literals of this module's users: a letter, a digit or a hyphen. -/
def isWordChar (c : Char) : Bool := c.isAlphanum || c = '-'

/-- A text that is not empty, with such characters only, and no capital ones. -/
def IsWord (text : List Char) : Prop := text ≠ [] ∧ (∀ c ∈ text, isWordChar c = true) ∧ lowered text = text

instance (text : List Char) : Decidable (IsWord text) :=
  -- The characters of the text are gone through, not all characters there are.
  decidable_of_iff (text ≠ [] ∧ text.all isWordChar = true ∧ lowered text = text) (by
    rw [IsWord, List.all_eq_true])

/-- A character in another case is such a character as well. -/
theorem isWordChar_of_toLower {c d : Char} (h : c.toLower = d) (hd : isWordChar d = true) :
    isWordChar c = true := by
  unfold Char.toLower at h
  split_ifs at h with hupper
  · have hcapital : c.isUpper = true := decide_eq_true hupper
    have halphanum : c.isAlphanum = true := by
      show ((c.isUpper || c.isLower) || c.isDigit) = true
      rw [hcapital, Bool.true_or, Bool.true_or]
    rw [isWordChar, halphanum, Bool.true_or]
  · exact h ▸ hd

theorem isWordChar_of_lowered {text segment : List Char} (htext : ∀ c ∈ text, isWordChar c = true)
    (h : lowered segment = text) : ∀ c ∈ segment, isWordChar c = true := by
  intro c hc
  refine isWordChar_of_toLower rfl (htext _ ?_)
  rw [← h]
  exact List.mem_map_of_mem hc

/-- What takes the place of a word is the name of an entry, and has nothing to be decoded. -/
theorem IsWord.isName {text segment : List Char} (htext : IsWord text) (h : lowered segment = text) :
    IsName segment ∧ '%' ∉ segment ∧ '\\' ∉ segment := by
  obtain ⟨hne, hchars, -⟩ := htext
  have hsegment := isWordChar_of_lowered hchars h
  have hnot : ∀ c, isWordChar c = false → c ∉ segment := by
    intro c hc hmem
    rw [hsegment c hmem] at hc
    cases hc
  refine ⟨⟨?_, ?_, ?_, hnot '/' (by decide)⟩, hnot '%' (by decide), hnot '\\' (by decide)⟩
  · rintro rfl
    exact hne h.symm
  · rintro rfl
    exact hnot '.' (by decide) List.mem_cons_self
  · rintro rfl
    exact hnot '.' (by decide) List.mem_cons_self

/-! ## Paths of patterns -/

/-- The text between the first two slashes. -/
def firstSegment (path : List Char) : List Char := (path.drop 1).takeWhile (· ≠ '/')

theorem firstSegment_cons {segment tail : List Char} (hsegment : '/' ∉ segment)
    (htail : ∀ c ∈ tail.head?, c = '/') : firstSegment ('/' :: (segment ++ tail)) = segment := by
  unfold firstSegment
  have hall : ∀ c ∈ segment, decide (c ≠ '/') = true := by
    intro c hc
    rw [decide_eq_true_eq]
    rintro rfl
    exact hsegment hc
  rw [List.drop_one, List.tail_cons, List.takeWhile_append_of_pos hall]
  cases tail with
  | nil => rw [List.takeWhile_nil, List.append_nil]
  | cons c tail =>
    rw [htail c rfl, List.takeWhile_cons_of_neg (by simp), List.append_nil]

/-- The segments behind the first one begin with a slash. -/
theorem head?_flatMap {segments : List (List Char)} {tail : List Char} (htail : ∀ c ∈ tail.head?, c = '/') :
    ∀ c ∈ (segments.flatMap ('/' :: ·) ++ tail).head?, c = '/' := by
  cases segments with
  | nil => exact htail
  | cons segment segments =>
    intro c hc
    exact (Option.some.inj hc).symm

/-- The first segment of a path for a pattern that begins with a literal. -/
theorem Spells.firstSegment {text : List Char} (h : Spells (.literal text :: pattern) path) :
    lowered (firstSegment path) = lowered text := by
  obtain ⟨segments, n, hsegments, rfl⟩ := h
  obtain ⟨segment, rest, ⟨htakes, hslash⟩, -, rfl⟩ := List.forall₂_cons_left_iff.1 hsegments
  have htail : ∀ c ∈ (List.replicate n '/').head?, c = '/' := by
    intro c hc
    exact List.eq_of_mem_replicate (List.mem_of_mem_head? hc)
  rw [List.flatMap_cons, List.cons_append, List.cons_append, List.append_assoc,
    firstSegment_cons hslash (head?_flatMap htail)]
  exact of_decide_eq_true htakes

theorem Leaves.firstSegment {text : List Char} (h : Leaves (.literal text :: pattern) path rest) :
    lowered (firstSegment path) = lowered text := by
  unfold Leaves at h
  rw [if_neg (List.cons_ne_nil _ _)] at h
  obtain ⟨segments, tail, hsegments, rfl, htail, -⟩ := h
  obtain ⟨segment, others, ⟨htakes, hslash⟩, -, rfl⟩ := List.forall₂_cons_left_iff.1 hsegments
  rw [List.flatMap_cons, List.cons_append, List.cons_append, List.append_assoc,
    firstSegment_cons hslash (head?_flatMap htail)]
  exact of_decide_eq_true htakes

/-- A pattern of words takes names, and their texts up to case. -/
theorem Spells.literal (h : Spells pattern path) (hwords : ∀ p ∈ pattern, ∃ text, p = .literal text ∧ IsWord text) :
    ∃ (segments : List (List Char)) (n : ℕ), pattern = (segments.map lowered).map .literal ∧
      (∀ s ∈ segments, IsName s ∧ '%' ∉ s ∧ '\\' ∉ s) ∧
        path = segments.flatMap ('/' :: ·) ++ List.replicate n '/' := by
  obtain ⟨segments, n, hsegments, rfl⟩ := h
  refine ⟨segments, n, ?_, ?_, rfl⟩
  · induction hsegments with
    | nil => rfl
    | @cons p s pattern segments hhead _ ih =>
      obtain ⟨text, rfl, htext⟩ := hwords p List.mem_cons_self
      have hlowered : lowered s = lowered text := of_decide_eq_true hhead.1
      rw [List.map_cons, List.map_cons, hlowered, htext.2.2,
        ← ih fun p' hp' => hwords p' (List.mem_cons_of_mem _ hp')]
  · induction hsegments with
    | nil => exact fun s hs => absurd hs List.not_mem_nil
    | @cons p s pattern segments hhead _ ih =>
      intro s' hs'
      obtain ⟨text, rfl, htext⟩ := hwords p List.mem_cons_self
      rcases List.mem_cons.1 hs' with rfl | hs'
      · exact htext.isName ((of_decide_eq_true hhead.1 : lowered s' = lowered text).trans htext.2.2)
      · exact ih (fun p' hp' => hwords p' (List.mem_cons_of_mem _ hp')) s' hs'

/-! ## A matcher -/

/-- The texts of the parameters can be decoded. -/
def decodable : List PatternSegment → List (List Char) → Bool
  | .param _ :: pattern, s :: segments => (decodeURIComponent s).isSome && decodable pattern segments
  | .literal _ :: pattern, _ :: segments => decodable pattern segments
  | _, _ => true

/-- All segments of the pattern take those of the path, of which there are as many. -/
def takesAll : List PatternSegment → List (List Char) → Bool
  | [], segments => segments.isEmpty
  | _ :: _, [] => false
  | p :: pattern, s :: segments => p.takes s && takesAll pattern segments

/-- How many slashes may stand behind what the pattern takes: one, and the path of the empty pattern is a slash
itself. -/
def slashesBehind (pattern : List PatternSegment) : ℕ := if pattern = [] then 2 else 1

/-- The pattern takes the whole path. -/
def expressMatchRoute (pattern : List PatternSegment) (path : List Char) : RouteMatch :=
  match components path with
  | [] :: segments =>
    let taken := segments.take pattern.length
    let behind := segments.drop pattern.length
    if takesAll pattern taken && behind.all (· = []) && behind.length ≤ slashesBehind pattern then
      if decodable pattern taken then .found else .undecodable
    else .absent
  | _ => .absent

/-- The pattern takes the first segments of the path, and leaves the others. -/
def expressMatchMount (pattern : List PatternSegment) (path : List Char) : Option (List Char) :=
  if pattern = [] then some path
  else
    match components path with
    | [] :: segments =>
      let taken := segments.take pattern.length
      let behind := segments.drop pattern.length
      if takesAll pattern taken then some (pathText behind) else none
    | _ => none

/-- A text that begins with a slash is put together from its components. -/
theorem eq_flatMap_of_components {segments : List (List Char)} (h : components path = [] :: segments) :
    path = segments.flatMap ('/' :: ·) := by
  have hjoin : ['/'].intercalate (components path) = path := List.intercalate_splitOn '/'
  have hflat : ∀ (l : List (List Char)), ['/'].intercalate ([] :: l) = l.flatMap ('/' :: ·) := by
    intro l
    induction l with
    | nil => rfl
    | cons s l ih =>
      rw [List.flatMap_cons, ← ih]
      cases l with
      | nil => simp [List.intercalate]
      | cons s' l => simp [List.intercalate, List.intersperse]
  rw [← hjoin, h, hflat]

theorem forall₂_of_takesAll {segments : List (List Char)} (h : takesAll pattern segments = true)
    (hslash : ∀ s ∈ segments, '/' ∉ s) :
    List.Forall₂ (fun p s => p.takes s = true ∧ '/' ∉ s) pattern segments := by
  induction pattern generalizing segments with
  | nil =>
    rw [List.isEmpty_iff.1 h]
    exact .nil
  | cons p pattern ih =>
    cases segments with
    | nil => cases h
    | cons s segments =>
      rw [takesAll, Bool.and_eq_true] at h
      exact .cons ⟨h.1, hslash s List.mem_cons_self⟩ (ih h.2 fun s' hs' => hslash s' (List.mem_cons_of_mem _ hs'))

/-- No segment has a slash. -/
theorem notMem_of_components {segments : List (List Char)} (h : components path = [] :: segments) :
    ∀ s ∈ segments, '/' ∉ s := fun s hs =>
  notMem_of_mem_components s (h ▸ List.mem_cons_of_mem _ hs)

theorem flatMap_replicate_nil (n : ℕ) :
    (List.replicate n ([] : List Char)).flatMap ('/' :: ·) = List.replicate n '/' := by
  induction n with
  | zero => rfl
  | succ n ih => rw [List.replicate_succ, List.flatMap_cons, ih, List.replicate_succ, List.singleton_append]

theorem spells_of_expressMatchRoute (h : expressMatchRoute pattern path = .found) : Spells pattern path := by
  unfold expressMatchRoute at h
  split at h
  next segments hcomponents =>
    dsimp only at h
    split_ifs at h with htaken
    rw [Bool.and_eq_true, Bool.and_eq_true] at htaken
    obtain ⟨⟨htakes, hempty⟩, -⟩ := htaken
    have hslash := notMem_of_components hcomponents
    have hbehind : segments.drop pattern.length = List.replicate (segments.drop pattern.length).length [] :=
      List.eq_replicate_length.2 fun s hs => of_decide_eq_true (List.all_eq_true.1 hempty s hs)
    refine ⟨segments.take pattern.length, (segments.drop pattern.length).length, ?_, ?_⟩
    · exact forall₂_of_takesAll htakes fun s hs => hslash s (List.mem_of_mem_take hs)
    · rw [← flatMap_replicate_nil, ← hbehind, ← List.flatMap_append, List.take_append_drop]
      exact eq_flatMap_of_components hcomponents
  next => cases h

theorem leaves_of_expressMatchMount (h : expressMatchMount pattern path = some rest) : Leaves pattern path rest := by
  unfold expressMatchMount at h
  unfold Leaves
  split_ifs at h ⊢ with hpattern
  · exact (Option.some.inj h).symm
  · split at h
    next segments hcomponents =>
      dsimp only at h
      split_ifs at h with htakes
      obtain rfl := Option.some.inj h
      have hslash := notMem_of_components hcomponents
      refine ⟨segments.take pattern.length, (segments.drop pattern.length).flatMap ('/' :: ·), ?_, ?_, ?_, ?_⟩
      · exact forall₂_of_takesAll htakes fun s hs => hslash s (List.mem_of_mem_take hs)
      · rw [← List.flatMap_append, List.take_append_drop]
        exact eq_flatMap_of_components hcomponents
      · intro c hc
        have hhead := @head?_flatMap (segments.drop pattern.length) [] (by simp)
        rw [List.append_nil] at hhead
        exact hhead c hc
      · unfold pathText
        cases hbehind : segments.drop pattern.length with
        | nil => rfl
        | cons s behind => rfl
    next => cases h

/-- The matching of Express. -/
def expressMatcher : PathMatcher where
  matchRoute := expressMatchRoute
  matchMount := expressMatchMount
  spells_of_matchRoute := spells_of_expressMatchRoute
  leaves_of_matchMount := leaves_of_expressMatchMount

end AlsaqiBackend.Lib
