import Mathlib.Data.List.Basic

/-!
# Statements with parameters

The condition of a `SELECT`, over the columns of a row. A parameter is a `?`, which the driver numbers
from left to right (`Condition.number`), or `$k`. PostgreSQL rejects a statement unless as many values
are bound to it as its highest parameter says (`select`).
-/

namespace AlsaqiBackend.Lib.Statements

inductive Operand where
  | question
  /-- `$k`. -/
  | param (k : ℕ)
  | literal (text : String)
  deriving DecidableEq, Repr

inductive Condition (κ : Type) where
  | eq (column : κ) (operand : Operand)
  | isIn (column : κ) (operands : List Operand)
  | and (left right : Condition κ)
  | or (left right : Condition κ)
  deriving DecidableEq, Repr

variable {κ ρ : Type}

/-! ## Numbers for question marks -/

/-- A `?` gets the number of the counter. -/
def Operand.number : Operand → ℕ → Operand × ℕ
  | .question, counter => (.param counter, counter + 1)
  | operand, counter => (operand, counter)

def numberAll : List Operand → ℕ → List Operand × ℕ
  | [], counter => ([], counter)
  | operand :: operands, counter =>
    let (operand, counter) := operand.number counter
    let (operands, counter) := numberAll operands counter
    (operand :: operands, counter)

def Condition.number : Condition κ → ℕ → Condition κ × ℕ
  | .eq column operand, counter =>
    let (operand, counter) := operand.number counter
    (.eq column operand, counter)
  | .isIn column operands, counter =>
    let (operands, counter) := numberAll operands counter
    (.isIn column operands, counter)
  | .and left right, counter =>
    let (left, counter) := left.number counter
    let (right, counter) := right.number counter
    (.and left right, counter)
  | .or left right, counter =>
    let (left, counter) := left.number counter
    let (right, counter) := right.number counter
    (.or left right, counter)

/-! ## Values for parameters -/

def Operand.highest : Operand → ℕ
  | .param k => k
  | _ => 0

/-- The highest number of a parameter. -/
def Condition.highest : Condition κ → ℕ
  | .eq _ operand => operand.highest
  | .isIn _ operands => (operands.map Operand.highest).foldr max 0
  | .and left right => max left.highest right.highest
  | .or left right => max left.highest right.highest

def Operand.value (bound : List String) : Operand → Option String
  | .question => none
  | .param 0 => none
  | .param (k + 1) => bound[k]?
  | .literal text => some text

/-- `=`, which `NULL` leaves open. -/
def equal (left right : Option String) : Bool := left.isSome && left = right

theorem equal_some {value : Option String} {text : String} :
    equal value (some text) = decide (value = some text) := by
  unfold equal
  cases value with
  | none => rfl
  | some v => simp

/-- The condition is true of a row. -/
def Condition.holds (bound : List String) (row : κ → Option String) : Condition κ → Bool
  | .eq column operand => equal (row column) (operand.value bound)
  | .isIn column operands => operands.any fun operand => equal (row column) (operand.value bound)
  | .and left right => left.holds bound row && right.holds bound row
  | .or left right => left.holds bound row || right.holds bound row

/-- "bind message supplies … parameters, but prepared statement requires …". -/
structure BindError where
  supplied : ℕ
  required : ℕ
  deriving DecidableEq, Repr

/-- The rows of a statement for which values are bound. -/
def select (columns : ρ → κ → Option String) (condition : Condition κ) (bound : List String) (rows : List ρ) :
    Except BindError (List ρ) :=
  if bound.length = condition.highest then .ok (rows.filter fun row => condition.holds bound (columns row))
  else .error ⟨bound.length, condition.highest⟩

/-! ## Parameters with numbers of their own -/

/-- `$1, …, $n`. -/
def params (n : ℕ) : List Operand := (List.range n).map fun i => .param (i + 1)

/-- Parameters that have a number keep it. -/
theorem numberAll_params (n counter : ℕ) : numberAll (params n) counter = (params n, counter) := by
  -- By induction on the numbers; the counter is touched by question marks only.
  have hall : ∀ indices : List ℕ, numberAll (indices.map fun i => .param (i + 1)) counter =
      (indices.map fun i => .param (i + 1), counter) := by
    intro indices
    induction indices with
    | nil => rfl
    | cons i indices ih =>
      rw [List.map_cons, numberAll, Operand.number]
      · simp only [ih]
      · nofun
  exact hall _

theorem highest_params (n : ℕ) : ((params n).map Operand.highest).foldr max 0 = n := by
  unfold params
  induction n with
  | zero => rfl
  | succ n ih =>
    -- A new last parameter is a maximum besides the one of the others.
    have hfold : ∀ (numbers : List ℕ) (last : ℕ), numbers.foldr max last = max (numbers.foldr max 0) last := by
      intro numbers last
      induction numbers with
      | nil => simp
      | cons k numbers ih => rw [List.foldr_cons, List.foldr_cons, ih, Nat.max_assoc]
    rw [List.range_succ, List.map_append, List.map_append, List.foldr_append, hfold, ih]
    simp [Operand.highest]

end AlsaqiBackend.Lib.Statements
