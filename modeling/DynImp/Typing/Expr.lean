import DynImp.Typing.Fault

/-!
# Typing expressions

Every expression gets a type, and every name the declaration it resolves to.  Parts are
typed before the whole, from left to right, and the first fault ends the work.
-/

namespace DynImp.Typing

/-- What the names of a program resolve to while it is checked. -/
abbrev StaticScope := Scope Variable Callee

/-! ## §1 Rules -/

/-- **Assignability.** Fails unless a value of type `actual` may be stored where `target` is
expected. -/
def requireAssignable (target actual : Ty) (offset : Nat) : Except TypeError Unit :=
  if target.accepts actual then .ok () else .error ⟨offset, .notAssignable target actual⟩

/-- **Operators.** The type of a binary expression, where its operands have the right types.
Adding to a string makes a string of anything. -/
def operatorType? (op : BinaryOp) (left right : Ty) : Option Ty :=
  match op with
  | .and | .or => if left = .boolean ∧ right = .boolean then some .boolean else none
  | .less | .greater | .equal | .notEqual =>
    if left.isOrdered ∧ left = right then some .boolean else none
  | .add =>
    if left = .string ∨ right = .string then some .string
    else if left.isNumeric ∧ left = right then some left
    else none
  | .subtract | .multiply | .divide => if left.isNumeric ∧ left = right then some left else none
  | .power => if left.isNumeric ∧ right = .integer then some left else none

/-- Whether an expression is a binary one. -/
def isBinary {ν : Notes} : Expr ν → Bool
  | .binary .. => true
  | _ => false

/-- What a variable resolves to. -/
def resolveVariable (Γ : StaticScope) (offset : Nat) (name : String) : Except TypeError Variable :=
  (Γ.lookupVariable name).mapError fun e => ⟨offset, .undefined e⟩

/-- What a called function resolves to. -/
def resolveCallee (Γ : StaticScope) (offset : Nat) (name : String) (arity : Nat) :
    Except TypeError Callee :=
  (Γ.lookupFunction name arity).mapError fun e => ⟨offset, .undefined e⟩

/-! ## §2 Inference -/

mutual

/-- **Inference.** The expression with its notes. -/
def infer (Γ : StaticScope) : Expr Bare → Except TypeError (Expr Typed)
  | .literal offset _ value => return .literal offset (.ofScalar value) value
  | .group offset _ inner => do
    if isBinary inner then
      let inner ← infer Γ inner
      return .group offset inner.type inner
    else throw ⟨offset, .redundantGroup⟩
  | .binary _ op left right => do
    let offset := left.offset
    let left ← infer Γ left
    let right ← infer Γ right
    match operatorType? op left.type right.type with
    | some type => return .binary type op left right
    | none => throw ⟨offset, .invalidOperands op left.type right.type⟩
  | .var offset _ _ name => do
    let found ← resolveVariable Γ offset name
    return .var offset found.type found name
  | .element offset _ _ name index => do
    let found ← resolveVariable Γ offset name
    -- A variable that is no list is refused before its index is typed.
    match found.type with
    | .list element =>
      let start := index.offset
      let index ← infer Γ index
      if index.type = .integer then return .element offset element found name index
      else throw ⟨start, .indexNotInteger index.type⟩
    | _ => throw ⟨offset, .notAList name⟩
  | .call offset _ _ name args => do
    let found ← resolveCallee Γ offset name args.length
    let args ← inferEach Γ args found.signature.params
    return .call offset found.signature.result found name args
  | .list offset _ items =>
    match items with
    | [] => throw ⟨offset, .emptyList⟩
    | first :: others => do
      let first ← infer Γ first
      let others ← inferEach Γ others (List.replicate others.length first.type)
      return .list offset (.list first.type) (first :: others)

/-- Expressions in order, each one assignable to the slot at its place. -/
def inferEach (Γ : StaticScope) : List (Expr Bare) → List Ty → Except TypeError (List (Expr Typed))
  | [], _ => return []
  | e :: es, slots => do
    let offset := e.offset
    let e ← infer Γ e
    match slots with
    | slot :: slots =>
      requireAssignable slot e.type offset
      return e :: (← inferEach Γ es slots)
    | [] => return e :: (← inferEach Γ es [])

end

/-- **Stored values.** A value for a slot of type `target`.  The items of a list literal that is
stored into a list are checked one by one, and the literal takes the type of the slot. -/
def inferFor (Γ : StaticScope) (target : Ty) (value : Expr Bare) : Except TypeError (Expr Typed) :=
  match target, value with
  | .list element, .list offset _ items => do
    if items.isEmpty then throw ⟨offset, .emptyList⟩
    let items ← inferEach Γ items (List.replicate items.length element)
    return .list offset target items
  | _, _ => do
    let inferred ← infer Γ value
    requireAssignable target inferred.type value.offset
    return inferred

/-- **Conditions** are Boolean. -/
def inferCondition (Γ : StaticScope) (condition : Expr Bare) : Except TypeError (Expr Typed) := do
  let inferred ← infer Γ condition
  if inferred.type = .boolean then return inferred
  else throw ⟨condition.offset, .conditionNotBoolean inferred.type⟩

/-- **Receivers** are variables that may change, and elements of any list. -/
def inferReceiver (Γ : StaticScope) (receiver : Expr Bare) : Except TypeError (Expr Typed) :=
  match receiver with
  | .var offset _ _ name => do
    let found ← resolveVariable Γ offset name
    if found.mutable then return .var offset found.type found name
    else throw ⟨offset, .immutableAssignment name⟩
  | .element .. => infer Γ receiver
  | _ => throw ⟨receiver.offset, .notAReceiver⟩

end DynImp.Typing
