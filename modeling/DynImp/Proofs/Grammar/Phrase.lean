import DynImp.Grammar.Program

/-!
# Phrases

The grammar said without readers: which tokens a tree spans.

* **Layer A: lists of phrases.** Phrases one after another, each opened by its first token
  (`Many`), and phrases with a mark between them (`Joined`).
* **Layer B: expressions.** `Expr.Spans e ts`: the tokens `ts` are all of the expression `e`.
* **Layer C: statements, items and programs**, in the same way.

A tree spans a list of tokens as a whole: its parts span slices of the list that follow one
another, and every offset in the tree is that of the first token of a slice.  What a phrase
must not be followed by is no matter of the phrase; it comes up where phrases are read.
-/

namespace DynImp

/-! ## §1 Tokens -/

namespace Token

/-- The value that the token stands for if it is a literal, a constant included. -/
def literal? (t : Token) : Option Scalar :=
  if t.kind = .identifier then constant? t.text else t.scalar?

/-- The token is a name that stands for no constant. -/
def IsName (t : Token) : Prop := t.kind = .identifier ∧ constant? t.text = none

/-- The token is the mark that begins a group or a list.  No name is. -/
def Opens (t : Token) (mark : String) : Prop := t.kind = .operator ∧ t.text = mark

/-- The token is the operator. -/
def IsOperator (t : Token) (op : BinaryOp) : Prop :=
  t.kind = .operator ∧ BinaryOp.ofSymbol? t.text = some op

end Token

namespace Grammar

/-! ## §2 Lists of phrases -/

/-- **Repetition.** Phrases one after another, each beginning with a token that opens it. -/
inductive Many {α : Type} (opens : Token → Bool) (P : α → List Token → Prop) :
    List α → List Token → Prop where
  | nil : Many opens P [] []
  | cons {t a as ts rest} : opens t → P a (t :: ts) → Many opens P as rest →
      Many opens P (a :: as) (t :: ts ++ rest)

/-- **Enumeration.** At least one phrase, with a mark between any two. -/
inductive Joined {α : Type} (mark : String) (P : α → List Token → Prop) :
    List α → List Token → Prop where
  | one {a ts} : P a ts → Joined mark P [a] ts
  | more {a as ts t rest} : P a ts → t.spells mark → Joined mark P as rest →
      Joined mark P (a :: as) (ts ++ t :: rest)

/-- A phrase that may be left out, and then spans nothing. -/
inductive Optional {α : Type} (P : α → List Token → Prop) : Option α → List Token → Prop where
  | none : Optional P none []
  | some {a ts} : P a ts → Optional P (some a) ts

/-- A phrase after a mark. -/
inductive After {α : Type} (mark : String) (P : α → List Token → Prop) :
    α → List Token → Prop where
  | mk {a t ts} : t.spells mark → P a ts → After mark P a (t :: ts)

/-- A list of phrases after a mark, or neither. -/
inductive Tail {α : Type} (mark : String) (P : List α → List Token → Prop) :
    List α → List Token → Prop where
  | none : Tail mark P [] []
  | some {as t ts} : t.spells mark → P as ts → Tail mark P as (t :: ts)

/-- A single keyword or mark, known by its offset. -/
inductive Mark (word : String) : Nat → List Token → Prop where
  | mk {t} : t.spells word → Mark word t.offset [t]

/-- A single name. -/
inductive Name : String → List Token → Prop where
  | mk {t} : t.kind = .identifier → Name t.text [t]

end Grammar

/-! ## §3 Expressions -/

/-- How tightly a level binds, from 0 for the loosest. -/
def Level.rank : Level → Nat
  | .logical => 0
  | .comparison => 1
  | .additive => 2
  | .multiplicative => 3

/-- How tightly an expression binds: as its operator does, and most tightly without one. -/
def Expr.rank {ν : Notes} : Expr ν → Nat
  | .binary _ op _ _ => op.level.rank
  | _ => 4

open Grammar

/-- **Expressions and their tokens.** -/
inductive Expr.Spans : Expr Bare → List Token → Prop where
  | literal {t v} : t.literal? = some v → Spans (.literal t.offset () v) [t]
  | group {opening inner ts closing} : opening.Opens "(" → inner.Spans ts →
      closing.spells ")" → Spans (.group opening.offset () inner) (opening :: (ts ++ [closing]))
  /-- An operator binds at most as tightly as the one of its left operand, and less tightly than
  that of its right one. -/
  | binary {op left right ls t rs} : left.Spans ls → t.IsOperator op → right.Spans rs →
      op.level.rank ≤ left.rank → op.level.rank < right.rank →
      Spans (.binary () op left right) (ls ++ t :: rs)
  | var {t} : t.IsName → Spans (.var t.offset () () t.text) [t]
  | element {t opening index ts closing} : t.IsName → opening.spells "[" → index.Spans ts →
      closing.spells "]" →
      Spans (.element t.offset () () t.text index) (t :: opening :: (ts ++ [closing]))
  | callNone {t opening closing} : t.IsName → opening.spells "(" → closing.spells ")" →
      Spans (.call t.offset () () t.text []) [t, opening, closing]
  /-- The first argument does not look like the end of the arguments. -/
  | callSome {t opening args ts closing} : t.IsName → opening.spells "(" →
      Reader.startsWith ")" ts = false → Joined "," Expr.Spans args ts → closing.spells ")" →
      Spans (.call t.offset () () t.text args) (t :: opening :: (ts ++ [closing]))
  | list {opening items ts closing} : opening.Opens "[" → Joined "," Expr.Spans items ts →
      closing.spells "]" → Spans (.list opening.offset () items) (opening :: (ts ++ [closing]))

namespace Grammar

/-! ## §4 Statements -/

/-- A written type after its colon, or none. -/
def TypePhrase : Option String → List Token → Prop := Optional (After ":" Name)

/-- An initial value after its equals sign, or none. -/
def InitialPhrase : Option (Expr Bare) → List Token → Prop := Optional (After "=" Expr.Spans)

/-- Whether a token may begin a statement: it does not close the block. -/
def beginsStatement (t : Token) : Bool := !blockEnds.any t.spells

/-- The words that tell a statement. -/
def statementWords : List String := ["LET", "IF", "SWITCH", "WHILE", "RETURN"]

mutual

/-- **Statements and their tokens.** -/
inductive StmtSpans : Stmt Bare → List Token → Prop where
  | perform {e ts semi} : Reader.startsWithAny statementWords ts = false → e.Spans ts →
      semi.spells ";" → StmtSpans (.perform e) (ts ++ [semi])
  | assign {receiver ts equals value vs semi} :
      Reader.startsWithAny statementWords ts = false → receiver.Spans ts → equals.spells "=" →
      value.Spans vs → semi.spells ";" →
      StmtSpans (.assign receiver value) (ts ++ equals :: (vs ++ [semi]))
  | declare {word name type ts value vs semi} : word.spells "LET" → name.kind = .identifier →
      TypePhrase type ts → InitialPhrase value vs → semi.spells ";" →
      StmtSpans (.declare word.offset () name.text type value)
        (word :: name :: (ts ++ (vs ++ [semi])))
  /-- An `ELSE` without statements leaves no trace in the tree. -/
  | choose {word condition cs doWord yes ys no ns endWord} : word.spells "IF" →
      condition.Spans cs → doWord.spells "DO" → Many beginsStatement StmtSpans yes ys →
      Tail "ELSE" (Many beginsStatement StmtSpans) no ns →
      endWord.spells "END" →
      StmtSpans (.choose condition yes no) (word :: (cs ++ doWord :: (ys ++ (ns ++ [endWord]))))
  | switch {word subject ss cases cs defaultWord body bs endWord} : word.spells "SWITCH" →
      subject.Spans ss → Many (·.spells "CASE") CaseSpans cases cs →
      defaultWord.spells "DEFAULT" → Many beginsStatement StmtSpans body bs →
      endWord.spells "END" →
      StmtSpans (.switch subject (cases ++ [.mk defaultWord.offset none body]))
        (word :: (ss ++ (cs ++ defaultWord :: (bs ++ [endWord]))))
  | loop {word condition cs doWord body bs endWord} : word.spells "WHILE" →
      condition.Spans cs → doWord.spells "DO" → Many beginsStatement StmtSpans body bs →
      endWord.spells "END" →
      StmtSpans (.loop condition body) (word :: (cs ++ doWord :: (bs ++ [endWord])))
  | giveBack {word value vs semi} : word.spells "RETURN" → value.Spans vs → semi.spells ";" →
      StmtSpans (.giveBack value) (word :: (vs ++ [semi]))

/-- **Cases with a value and their tokens.** -/
inductive CaseSpans : Case Bare → List Token → Prop where
  | valued {word value vs colon body bs} : word.spells "CASE" → value.Spans vs →
      colon.spells ":" → Many beginsStatement StmtSpans body bs →
      CaseSpans (.mk word.offset (some value) body) (word :: (vs ++ colon :: bs))

end

/-! ## §5 Items -/

/-- A phrase with a mark after it. -/
inductive Ended {α : Type} (mark : String) (P : α → List Token → Prop) :
    α → List Token → Prop where
  | mk {a ts t} : P a ts → t.spells mark → Ended mark P a (ts ++ [t])

/-- Whether a token may begin a global. -/
def beginsGlobal (t : Token) : Bool := globalWords.any t.spells

/-- **Globals and their tokens**, without the semicolon. -/
inductive GlobalSpans : Global Bare → List Token → Prop where
  | var {word name type ts value vs} : word.spells "VAR" → name.kind = .identifier →
      TypePhrase type ts → InitialPhrase value vs →
      GlobalSpans ⟨word.offset, (), name.text, type, true, false, value⟩
        (word :: name :: (ts ++ vs))
  | val {word name type ts equals value vs} : word.spells "VAL" → name.kind = .identifier →
      TypePhrase type ts → equals.spells "=" → value.Spans vs →
      GlobalSpans ⟨word.offset, (), name.text, type, false, false, some value⟩
        (word :: name :: (ts ++ equals :: vs))
  | list {word name type ts equals opening items vs closing} : word.spells "LIST" →
      name.kind = .identifier → TypePhrase type ts → equals.spells "=" → opening.spells "[" →
      Joined "," Expr.Spans items vs → closing.spells "]" →
      GlobalSpans
        ⟨word.offset, (), name.text, type, true, true, some (.list opening.offset () items)⟩
        (word :: name :: (ts ++ equals :: opening :: (vs ++ [closing])))

/-- **Parameters and their tokens.** -/
inductive ParameterSpans : Parameter → List Token → Prop where
  | mk {name type ts} : name.kind = .identifier → TypePhrase type ts →
      ParameterSpans ⟨name.text, type⟩ (name :: ts)

/-- Parameters with the closing parenthesis.  The first one does not look like it. -/
inductive ParametersSpan : List Parameter → List Token → Prop where
  | none {closing} : closing.spells ")" → ParametersSpan [] [closing]
  | some {params ts closing} : Reader.startsWith ")" ts = false →
      Joined "," ParameterSpans params ts → closing.spells ")" →
      ParametersSpan params (ts ++ [closing])

/-- **Functions and their tokens.** -/
inductive FunctionSpans : Function Bare → List Token → Prop where
  | mk {word name opening params ps type ts doWord body bs endWord} : word.spells "FUN" →
      name.kind = .identifier → opening.spells "(" → ParametersSpan params ps →
      TypePhrase type ts → doWord.spells "DO" → Many beginsStatement StmtSpans body bs →
      endWord.spells "END" →
      FunctionSpans ⟨word.offset, (), name.text, params, type, body⟩
        (word :: name :: opening :: (ps ++ (ts ++ doWord :: (bs ++ [endWord]))))

/-- **Programs and their tokens.** -/
inductive ProgramSpans : Program Bare → List Token → Prop where
  | mk {globals gs functions fs} : Many beginsGlobal (Ended ";" GlobalSpans) globals gs →
      Many (·.spells "FUN") FunctionSpans functions fs →
      ProgramSpans ⟨globals, functions⟩ (gs ++ fs)

end Grammar

end DynImp
