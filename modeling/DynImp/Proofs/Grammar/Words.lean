import DynImp.Proofs.Grammar.Phrase
import DynImp.Proofs.Token.Tiling

/-!
# Writing trees out

A tree is written as a list of words in the order of the grammar: its names and literals, and
the keywords and marks that the tree itself does not hold.

* **Layer A: words.** What a token may be the writing of.
* **Layer B: trees.** `words` for every kind of tree.  Nothing is written for an offset, and
  an `ELSE` only before statements.
* **Layer C: lists of tokens.** `Written ts ws`: the tokens are a writing of the words.
-/

namespace DynImp

/-! ## §1 Words -/

/-- **Word.** What a tree says at one token. -/
inductive Word where
  /-- A name, or a keyword. -/
  | name (text : String)
  /-- An operator or other mark. -/
  | mark (text : String)
  /-- A literal, however it is spelled. -/
  | value (v : Scalar)
  deriving DecidableEq, Repr

namespace Token

/-- The token is a writing of the word. -/
def Writes (t : Token) : Word → Prop
  | .name text => t.kind = .identifier ∧ t.text = text
  | .mark text => t.kind = .operator ∧ t.text = text
  | .value v => t.literal? = some v

/-- The text of the token is one of its kind. -/
def Spelled (t : Token) : Prop := t.kind.Spells t.text.toList

theorem spelled_of_scan {text : String} {ts : List Token} (h : scan text = .ok ts) :
    ∀ t ∈ ts, t.Spelled := by
  intro t ht
  obtain ⟨_, _, -, -, hspells, -⟩ := (scanFrom_eq_ok_iff.mp h).stands t ht
  exact hspells

theorem not_isNameStart_of_operator {c : Char} {cs : List Char} (h : c :: cs ∈ operators) :
    isNameStart c = false := by
  have hall : ∀ cs ∈ operators, cs.head?.all (!isNameStart ·) := by decide
  simpa using hall _ h

/-- No name is spelled as an operator. -/
theorem Kind.Spells.not_operator {cs : List Char} (h : Kind.identifier.Spells cs) :
    cs ∉ operators := by
  obtain ⟨first, others, rfl, hfirst, -⟩ := h
  intro hmem
  rw [not_isNameStart_of_operator hmem] at hfirst
  cases hfirst

theorem Spelled.writes_mark {t : Token} {mark : String} (ht : t.Spelled) (h : t.spells mark)
    (hmark : mark.toList ∈ operators) : t.Writes (.mark mark) := by
  simp only [spells, decide_eq_true_eq] at h
  obtain ⟨hkind | hkind, rfl⟩ := h
  · rw [Spelled, hkind] at ht
    exact absurd hmark ht.not_operator
  · exact ⟨hkind, rfl⟩

theorem Spelled.writes_name {t : Token} {word : String} (ht : t.Spelled) (h : t.spells word)
    (hword : word.toList ∉ operators) : t.Writes (.name word) := by
  simp only [spells, decide_eq_true_eq] at h
  obtain ⟨hkind | hkind, rfl⟩ := h
  · exact ⟨hkind, rfl⟩
  · rw [Spelled, hkind] at ht
    exact absurd ht hword

theorem IsOperator.writes {t : Token} {op : BinaryOp} (h : t.IsOperator op) :
    t.Writes (.mark op.symbol) := by
  have := List.find?_some h.2
  exact ⟨h.1, (of_decide_eq_true this).symm⟩

end Token

/-! ## §2 Lists -/

namespace Grammar

/-- The words of phrases with commas between them. -/
def enumeration {α : Type} (words : α → List Word) : List α → List Word
  | [] => []
  | [a] => words a
  | a :: b :: rest => words a ++ .mark "," :: enumeration words (b :: rest)

/-- The words of a type after its colon. -/
def typeWords : Option String → List Word
  | none => []
  | some name => [.mark ":", .name name]

end Grammar

open Grammar

variable {ν : Notes}

/-! ## §3 Expressions -/

mutual

/-- The words of an expression. -/
def Expr.words : Expr ν → List Word
  | .literal _ _ value => [.value value]
  | .group _ _ inner => .mark "(" :: (inner.words ++ [.mark ")"])
  | .binary _ op left right => left.words ++ .mark op.symbol :: right.words
  | .var _ _ _ name => [.name name]
  | .element _ _ _ name index => .name name :: .mark "[" :: (index.words ++ [.mark "]"])
  | .call _ _ _ name args => .name name :: .mark "(" :: (Expr.allWords args ++ [.mark ")"])
  | .list _ _ items => .mark "[" :: (Expr.allWords items ++ [.mark "]"])

/-- The words of expressions with commas between them. -/
def Expr.allWords : List (Expr ν) → List Word
  | [] => []
  | [e] => e.words
  | e :: f :: rest => e.words ++ .mark "," :: Expr.allWords (f :: rest)

end

@[simp] theorem Expr.allWords_eq (es : List (Expr ν)) :
    Expr.allWords es = enumeration Expr.words es := by
  induction es with
  | nil => rfl
  | cons e es ih =>
      cases es with
      | nil => rfl
      | cons f rest => rw [Expr.allWords, ih, enumeration]

/-- The words of an initial value after its equals sign. -/
def Expr.initialWords : Option (Expr ν) → List Word
  | none => []
  | some e => .mark "=" :: e.words

/-! ## §4 Statements -/

mutual

/-- The words of a statement. -/
def Stmt.words : Stmt ν → List Word
  | .perform e => e.words ++ [.mark ";"]
  | .declare _ _ name type value =>
    .name "LET" :: .name name :: (typeWords type ++ (Expr.initialWords value ++ [.mark ";"]))
  | .assign receiver value => receiver.words ++ .mark "=" :: (value.words ++ [.mark ";"])
  | .choose condition yes no =>
    .name "IF" :: (condition.words ++ .name "DO" :: (Stmt.blockWords yes ++
      ((if no.isEmpty then [] else .name "ELSE" :: Stmt.blockWords no) ++ [.name "END"])))
  | .switch subject cases =>
    .name "SWITCH" :: (subject.words ++ (Case.allWords cases ++ [.name "END"]))
  | .loop condition body =>
    .name "WHILE" :: (condition.words ++ .name "DO" :: (Stmt.blockWords body ++ [.name "END"]))
  | .giveBack value => .name "RETURN" :: (value.words ++ [.mark ";"])

/-- The words of a block. -/
def Stmt.blockWords : List (Stmt ν) → List Word
  | [] => []
  | s :: block => s.words ++ Stmt.blockWords block

/-- The words of a case. -/
def Case.words : Case ν → List Word
  | .mk _ (some value) body =>
    .name "CASE" :: (value.words ++ .mark ":" :: Stmt.blockWords body)
  | .mk _ none body => .name "DEFAULT" :: Stmt.blockWords body

/-- The words of cases. -/
def Case.allWords : List (Case ν) → List Word
  | [] => []
  | c :: cases => c.words ++ Case.allWords cases

end

@[simp] theorem Stmt.blockWords_eq (block : List (Stmt ν)) :
    Stmt.blockWords block = block.flatMap Stmt.words := by
  induction block with
  | nil => rfl
  | cons s block ih => rw [Stmt.blockWords, ih, List.flatMap_cons]

@[simp] theorem Case.allWords_eq (cases : List (Case ν)) :
    Case.allWords cases = cases.flatMap Case.words := by
  induction cases with
  | nil => rfl
  | cons c cases ih => rw [Case.allWords, ih, List.flatMap_cons]

/-! ## §5 Items -/

/-- The keyword of a global. -/
def Global.keyword (g : Global ν) : String :=
  if g.isList then "LIST" else if g.mutable then "VAR" else "VAL"

/-- The words of a global, without the semicolon. -/
def Global.words (g : Global ν) : List Word :=
  .name g.keyword :: .name g.name :: (typeWords g.typeName ++ Expr.initialWords g.value)

/-- The words of a parameter. -/
def Parameter.words (x : Parameter) : List Word := .name x.name :: typeWords x.typeName

/-- The words of a function. -/
def Function.words (f : Function ν) : List Word :=
  .name "FUN" :: .name f.name :: .mark "(" ::
    ((enumeration Parameter.words f.params ++ [.mark ")"]) ++ (typeWords f.returnTypeName ++
      .name "DO" :: (f.body.flatMap Stmt.words ++ [.name "END"])))

/-- The words of a program. -/
def Program.words (p : Program ν) : List Word :=
  p.globals.flatMap (fun g => g.words ++ [.mark ";"]) ++ p.functions.flatMap Function.words

namespace Grammar

/-! ## §6 Tokens -/

/-- **Writings.** The tokens write the words one by one, except that an `ELSE` right before an `END`
writes nothing. -/
inductive Written : List Token → List Word → Prop where
  | nil : Written [] []
  | cons {t w ts ws} : t.Writes w → Written ts ws → Written (t :: ts) (w :: ws)
  | emptyElse {t u ts ws} : t.Writes (.name "ELSE") → u.Writes (.name "END") →
      Written (u :: ts) ws → Written (t :: u :: ts) ws

namespace Written

theorem one {t : Token} {w : Word} (h : t.Writes w) : Written [t] [w] := .cons h .nil

theorem append {ts us : List Token} {ws vs : List Word} (hts : Written ts ws)
    (hus : Written us vs) : Written (ts ++ us) (ws ++ vs) := by
  induction hts with
  | nil => exact hus
  | cons ht _ ih => exact .cons ht ih
  | emptyElse ht hu _ ih => exact .emptyElse ht hu ih

end Written

section Lists

variable {α : Type} {P : α → List Token → Prop} {words : α → List Word}

theorem Many.written {opens : Token → Bool} {as : List α} {ts : List Token}
    (h : Many opens P as ts)
    (hP : ∀ a ∈ as, ∀ ts, P a ts → (∀ t ∈ ts, t.Spelled) → Written ts (words a))
    (hts : ∀ t ∈ ts, t.Spelled) : Written ts (as.flatMap words) := by
  induction h with
  | nil => exact .nil
  | cons _ ha _ ih =>
      rw [List.forall_mem_append] at hts
      rw [List.forall_mem_cons] at hP
      exact (hP.1 _ ha hts.1).append (ih hP.2 hts.2)

theorem Joined.written {as : List α} {ts : List Token} (h : Joined "," P as ts)
    (hP : ∀ a ∈ as, ∀ ts, P a ts → (∀ t ∈ ts, t.Spelled) → Written ts (words a))
    (hts : ∀ t ∈ ts, t.Spelled) : Written ts (enumeration words as) := by
  induction h with
  | one ha => exact hP _ List.mem_cons_self _ ha hts
  | @more a as _ t _ ha hmark hrest ih =>
      rw [List.forall_mem_append, List.forall_mem_cons] at hts
      obtain ⟨has, hcomma, hrests⟩ := hts
      rw [List.forall_mem_cons] at hP
      have hwritten := ih hP.2 hrests
      cases as with
      | nil => cases hrest
      | cons b as =>
          exact (hP.1 _ ha has).append (.cons (hcomma.writes_mark hmark (by decide)) hwritten)

end Lists

theorem TypePhrase.written {type : Option String} {ts : List Token} (h : TypePhrase type ts)
    (hts : ∀ t ∈ ts, t.Spelled) : Written ts (typeWords type) := by
  cases h with
  | none => exact .nil
  | some h =>
      cases h with
      | mk hcolon hname =>
          cases hname with
          | mk hkind =>
              rw [List.forall_mem_cons] at hts
              exact .cons (hts.1.writes_mark hcolon (by decide)) (.one ⟨hkind, rfl⟩)

end Grammar

end DynImp
