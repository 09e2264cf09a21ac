import DynImp.Proofs.Grammar.Trees
import DynImp.Proofs.Grammar.Words
import DynImp.Proofs.Typing.Shape

/-!
# Grammatical trees

The trees that the grammar describes, wherever they come from.

* **Layer A: names and literals.** A name is spelled like one and is no reserved word, and a
  literal has a value that can be spelled.
* **Layer B: trees.** A condition on every kind of node; a tree is grammatical if all its
  nodes meet theirs.
* **Layer C: first words.** What an expression or a statement begins with, so that it is not
  taken for something else.
-/

namespace DynImp

open Grammar

/-! ## §1 Names and literals -/

/-- A text that is spelled like a name. -/
def Identifier (name : String) : Prop := Token.Kind.identifier.Spells name.toList

/-- Whether characters are those of a name. -/
def isIdentifier : List Char → Bool
  | [] => false
  | first :: others => Token.isNameStart first && others.all Token.isNamePart

theorem isIdentifier_iff {cs : List Char} :
    isIdentifier cs = true ↔ Token.Kind.identifier.Spells cs := by
  cases cs with
  | nil => simp [isIdentifier, Token.Kind.Spells]
  | cons first others =>
      rw [isIdentifier, Bool.and_eq_true, List.all_eq_true]
      constructor
      · exact fun h => ⟨first, others, rfl, h⟩
      · rintro ⟨_, _, heq, h⟩
        obtain ⟨rfl, rfl⟩ := List.cons.inj heq
        exact h

instance (name : String) : Decidable (Identifier name) := decidable_of_iff _ isIdentifier_iff

/-- **Reserved words.** The names that mean something to the grammar. -/
def reserved : List String :=
  ["VAR", "VAL", "LIST", "FUN", "DO", "END", "IF", "ELSE", "SWITCH", "CASE", "DEFAULT", "WHILE",
    "RETURN", "LET", "TRUE", "FALSE", "NIL"]

/-- A name that is free for variables and functions. -/
def Unreserved (name : String) : Prop := Identifier name ∧ name ∉ reserved

instance (name : String) : Decidable (Unreserved name) :=
  inferInstanceAs (Decidable (Identifier name ∧ name ∉ reserved))

theorem Unreserved.constant?_eq_none {name : String} (h : Unreserved name) :
    Token.constant? name = none := by
  have := h.2
  simp only [reserved, List.mem_cons, not_or] at this
  simp [Token.constant?, this]

/-- Whether a scalar can be written as a literal: a decimal has to have places, and not more than
any text has. -/
def Scalar.HasLiteral : Scalar → Prop
  | .decimal d => 1 ≤ d.scale ∧ d.scale < Decimal.scaleBound
  | _ => True

instance : (v : Scalar) → Decidable v.HasLiteral
  | .decimal d => inferInstanceAs (Decidable (1 ≤ d.scale ∧ d.scale < Decimal.scaleBound))
  | .nil | .boolean _ | .integer _ | .character _ | .string _ => .isTrue trivial

/-! ## §2 Trees -/

variable {ν : Notes}

/-- **Regular nodes.** What the grammar demands of an expression apart from its parts. -/
def Expr.Regular : Expr ν → Prop
  | .literal _ _ v => v.HasLiteral
  | .group .. => True
  /- Without a group, a left operand binds at least as tightly as its operator, and a right one
  more tightly. -/
  | .binary _ op left right => op.level.rank ≤ left.rank ∧ op.level.rank < right.rank
  | .var _ _ _ name | .element _ _ _ name _ | .call _ _ _ name _ => Unreserved name
  | .list _ _ items => items ≠ []

instance : (e : Expr ν) → Decidable e.Regular
  | .literal _ _ v => inferInstanceAs (Decidable v.HasLiteral)
  | .group .. => .isTrue trivial
  | .binary _ op left right =>
    inferInstanceAs (Decidable (op.level.rank ≤ left.rank ∧ op.level.rank < right.rank))
  | .var _ _ _ name | .element _ _ _ name _ | .call _ _ _ name _ =>
    inferInstanceAs (Decidable (Unreserved name))
  | .list _ _ items => inferInstanceAs (Decidable (items ≠ []))

/-- **Grammatical expressions.** Expressions that are all regular. -/
def Expr.Grammatical (es : List (Expr ν)) : Prop := ∀ e ∈ es, e.Regular

instance (es : List (Expr ν)) : Decidable (Expr.Grammatical es) :=
  inferInstanceAs (Decidable (∀ e ∈ es, e.Regular))

theorem Expr.Grammatical.of_subset {es fs : List (Expr ν)} (h : Grammatical fs) (hes : es ⊆ fs) :
    Grammatical es :=
  fun e he => h e (hes he)

theorem Expr.Grammatical.regular {e : Expr ν} (h : Grammatical e.parts) : e.Regular :=
  h e (by rw [parts_eq]; exact List.mem_cons_self)

theorem Expr.Grammatical.inner {e d : Expr ν} (h : Grammatical e.parts) (hd : d ∈ e.inner) :
    Grammatical d.parts :=
  h.of_subset (parts_subset hd)

/-- **Regular nodes.** What the grammar demands of a statement apart from its parts. -/
def Stmt.Regular : Stmt ν → Prop
  | .declare _ _ name type _ => Unreserved name ∧ ∀ t ∈ type, Identifier t
  | .switch _ cases => Case.Closed cases
  | _ => True

instance : (s : Stmt ν) → Decidable s.Regular
  | .declare _ _ name type _ =>
    inferInstanceAs (Decidable (Unreserved name ∧ ∀ t ∈ type, Identifier t))
  | .switch _ cases => inferInstanceAs (Decidable (Case.Closed cases))
  | .perform _ | .assign .. | .choose .. | .loop .. | .giveBack _ => .isTrue trivial

/-- **Grammatical statements.** Statements that are all regular. -/
def Stmt.Grammatical (block : List (Stmt ν)) : Prop := ∀ s ∈ block, s.Regular

instance (block : List (Stmt ν)) : Decidable (Stmt.Grammatical block) :=
  inferInstanceAs (Decidable (∀ s ∈ block, s.Regular))

theorem Stmt.Grammatical.of_subset {block others : List (Stmt ν)} (h : Grammatical others)
    (hblock : block ⊆ others) : Grammatical block :=
  fun s hs => h s (hblock hs)

/-- **Valid statements.** Statements that are grammatical with all that is in them. -/
structure Stmt.Valid (s : Stmt ν) : Prop where
  exprs : Expr.Grammatical s.exprs
  parts : Stmt.Grammatical s.parts

namespace Stmt.Valid

variable {s : Stmt ν}

theorem regular (h : s.Valid) : s.Regular := h.parts s (by rw [parts_eq]; exact List.mem_cons_self)

theorem operand (h : s.Valid) {e : Expr ν} (he : e ∈ s.operands) : Expr.Grammatical e.parts :=
  h.exprs.of_subset (operand_subset he)

theorem inner (h : s.Valid) {t : Stmt ν} (ht : t ∈ s.inner) : t.Valid :=
  ⟨h.exprs.of_subset (exprs_subset ht), h.parts.of_subset (parts_subset ht)⟩

end Stmt.Valid

/-- **Grammatical globals.** A `LIST` has a list literal for its value, and a `VAL` has a value. -/
structure Global.Grammatical (g : Global ν) : Prop where
  name : Unreserved g.name
  type : ∀ type ∈ g.typeName, Identifier type
  list : g.isList = true → g.mutable = true ∧ ∃ o τ items, g.value = some (.list o τ items)
  constant : g.isList = false → g.mutable = false → g.value.isSome = true

/-- **Grammatical parameters.** -/
structure Parameter.Grammatical (x : Parameter) : Prop where
  name : Unreserved x.name
  type : ∀ type ∈ x.typeName, Identifier type

/-- **Grammatical functions**, but for their bodies. -/
structure Function.Grammatical (f : Function ν) : Prop where
  name : Unreserved f.name
  params : ∀ x ∈ f.params, x.Grammatical
  returnType : ∀ type ∈ f.returnTypeName, Identifier type

/-- **Grammatical programs.** -/
structure Program.Grammatical (p : Program ν) : Prop where
  exprs : Expr.Grammatical p.exprs
  stmts : Stmt.Grammatical p.stmts
  globals : ∀ g ∈ p.globals, g.Grammatical
  functions : ∀ f ∈ p.functions, f.Grammatical

namespace Program.Grammatical

variable {p : Program ν}

theorem value (h : p.Grammatical) {g : Global ν} (hg : g ∈ p.globals) {e : Expr ν}
    (he : e ∈ g.value.toList) : Expr.Grammatical e.parts := by
  refine h.exprs.of_subset fun d hd => List.mem_append_left _ (List.mem_flatMap.mpr ⟨g, hg, ?_⟩)
  rw [Expr.someParts_eq]
  exact subset_flatMap he hd

theorem body (h : p.Grammatical) {f : Function ν} (hf : f ∈ p.functions) {s : Stmt ν}
    (hs : s ∈ f.body) : s.Valid := by
  constructor
  · refine h.exprs.of_subset fun e he => List.mem_append_right _ (List.mem_flatMap.mpr ⟨f, hf, ?_⟩)
    rw [Stmt.blockExprs_eq]
    exact subset_flatMap hs he
  · refine h.stmts.of_subset fun t ht => List.mem_flatMap.mpr ⟨f, hf, ?_⟩
    rw [Stmt.blockParts_eq]
    exact subset_flatMap hs ht

end Program.Grammatical

/-! ## §3 First words -/

/-- **First words.** The words that an expression begins with. -/
def Word.BeginsExpr : Word → Prop
  | .name text => Unreserved text
  | .mark text => text = "(" ∨ text = "["
  | .value _ => True

theorem Expr.Grammatical.exists_first {e : Expr ν} (h : Expr.Grammatical e.parts) :
    ∃ w ws, e.words = w :: ws ∧ w.BeginsExpr := by
  induction e using Expr.induct with
  | literal o τ v => exact ⟨.value v, [], rfl, trivial⟩
  | group o τ inner => exact ⟨.mark "(", _, rfl, .inl rfl⟩
  | binary τ op left right ihl =>
      obtain ⟨w, ws, hwords, hw⟩ := ihl (h.inner List.mem_cons_self)
      exact ⟨w, _, by rw [words, hwords, List.cons_append], hw⟩
  | var o τ x name => exact ⟨.name name, [], rfl, h.regular⟩
  | element o τ x name index => exact ⟨.name name, _, rfl, h.regular⟩
  | call o τ f name args => exact ⟨.name name, _, rfl, h.regular⟩
  | list o τ items => exact ⟨.mark "[", _, rfl, .inr rfl⟩

/-- The words that stand where an expression might, and are none. -/
def notExpr : List String := ")" :: (statementWords ++ blockEnds)

theorem not_identifier_of_mem_operators {name : String} (h : name.toList ∈ Token.operators) :
    ¬ Identifier name :=
  fun hname => hname.not_operator h

theorem Unreserved.not_mem_notExpr {name : String} (h : Unreserved name) : name ∉ notExpr := by
  have hrest : ∀ word ∈ statementWords ++ blockEnds, word ∈ reserved := by decide
  rw [notExpr, List.mem_cons, not_or]
  constructor
  · rintro rfl
    exact not_identifier_of_mem_operators (by decide) h.1
  · exact fun hmem => h.2 (hrest name hmem)

theorem Token.spells_iff {t : Token} {word : String} :
    t.spells word = true ↔ (t.kind = .identifier ∨ t.kind = .operator) ∧ t.text = word := by
  simp [spells]

theorem Token.constant?_eq_some {text : String} {v : Scalar} (h : constant? text = some v) :
    text ∈ ["NIL", "TRUE", "FALSE"] := by
  refine Classical.byContradiction fun hmem => ?_
  simp only [List.mem_cons, not_or] at hmem
  simp [constant?, hmem] at h

/-- What an expression begins with is not taken for something else. -/
theorem Word.BeginsExpr.spells_eq_false {w : Word} (hw : w.BeginsExpr) {t : Token}
    (ht : t.Writes w) {word : String} (hword : word ∈ notExpr) : t.spells word = false := by
  rw [Bool.eq_false_iff, Ne, Token.spells_iff]
  rintro ⟨hkind, rfl⟩
  cases w with
  | name text =>
      rw [ht.2] at hword
      exact hw.not_mem_notExpr hword
  | mark text =>
      rw [ht.2] at hword
      obtain rfl | rfl := hw <;> exact absurd hword (by decide)
  | value v =>
      have hconstants : ∀ text ∈ ["NIL", "TRUE", "FALSE"], text ∉ notExpr := by decide
      simp only [Token.Writes, Token.literal?] at ht
      obtain hkind | hkind := hkind
      · rw [if_pos hkind] at ht
        exact hconstants _ (Token.constant?_eq_some ht) hword
      · simp [hkind, Token.scalar?] at ht

end DynImp
