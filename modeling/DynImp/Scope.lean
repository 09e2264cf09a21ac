import DynImp.Numeral

/-!
# Scopes

A chain of frames, the innermost first.  Each frame binds variables by name and functions
by name and number of parameters.  A lookup walks outward and stops at the first frame
that has a binding; inside a frame the latest definition counts.

What a binding holds is left open: the checker binds types and signatures, a running
program binds cells and callable bodies.
-/

namespace DynImp

/-- **Frame.** The bindings of one block, the latest first. -/
structure Frame (V F : Type) where
  vars : List (String × V)
  /-- The functions by name and number of parameters. -/
  funs : List ((String × Nat) × F)

/-- A frame without bindings. -/
def Frame.empty {V F : Type} : Frame V F := ⟨[], []⟩

/-- **Scope.** The innermost frame and those around it. -/
structure Scope (V F : Type) where
  /-- The innermost frame, which definitions go to. -/
  inner : Frame V F
  /-- The frames around it, the nearest first. -/
  outer : List (Frame V F)

/-- **Unknown names.** -/
inductive ScopeError where
  | undefinedVariable (name : String)
  | undefinedFunction (name : String) (arity : Nat)
  deriving DecidableEq, Repr

/-- The wording of an unknown name. -/
def ScopeError.message : ScopeError → String
  | undefinedVariable name => "undefined variable '" ++ name ++ "'"
  | undefinedFunction name arity =>
    "undefined function '" ++ name ++ "/" ++ Numeral.signedText 10 arity ++ "'"

namespace Scope

variable {V F : Type}

/-! ## §1 Opening and closing -/

/-- A scope with one frame and no bindings. -/
def root : Scope V F := ⟨.empty, []⟩

/-- Opens a frame inside. -/
def push (s : Scope V F) : Scope V F := ⟨.empty, s.inner :: s.outer⟩

/-- Closes the innermost frame, unless it is the only one. -/
def pop? (s : Scope V F) : Option (Scope V F) :=
  match s.outer with
  | [] => none
  | frame :: frames => some ⟨frame, frames⟩

/-- The outermost frame alone. -/
def outermost (s : Scope V F) : Scope V F :=
  match s.outer.getLast? with
  | some frame => ⟨frame, []⟩
  | none => s

/-! ## §2 Definitions -/

/-- Binds a variable in the innermost frame, in place of one of the same name there. -/
def defineVariable (s : Scope V F) (name : String) (v : V) : Scope V F :=
  { s with inner := { s.inner with vars := (name, v) :: s.inner.vars } }

/-- Binds a function in the innermost frame, in place of one of the same name and number of
parameters there. -/
def defineFunction (s : Scope V F) (name : String) (arity : Nat) (f : F) : Scope V F :=
  { s with inner := { s.inner with funs := ((name, arity), f) :: s.inner.funs } }

/-! ## §3 Lookups -/

/-- All frames, the innermost first. -/
def frames (s : Scope V F) : List (Frame V F) := s.inner :: s.outer

/-- The innermost variable of a name. -/
def findVariable (s : Scope V F) (name : String) : Option V :=
  s.frames.findSome? fun frame => frame.vars.lookup name

/-- The innermost function of a name and number of parameters. -/
def findFunction (s : Scope V F) (name : String) (arity : Nat) : Option F :=
  s.frames.findSome? fun frame => frame.funs.lookup (name, arity)

/-- The innermost variable of a name, or why there is none. -/
def lookupVariable (s : Scope V F) (name : String) : Except ScopeError V :=
  match s.findVariable name with
  | some v => .ok v
  | none => .error (.undefinedVariable name)

/-- The innermost function of a name and number of parameters, or why there is none. -/
def lookupFunction (s : Scope V F) (name : String) (arity : Nat) : Except ScopeError F :=
  match s.findFunction name arity with
  | some f => .ok f
  | none => .error (.undefinedFunction name arity)

end Scope

end DynImp
