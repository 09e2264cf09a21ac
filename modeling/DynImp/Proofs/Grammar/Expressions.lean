import DynImp.Proofs.Grammar.Reads
import DynImp.Proofs.Grammar.Unplaced

/-!
# Reading expressions

Level by level: a chain of one level reads the expressions that bind at least as tightly as
its operators, if its operands read those that bind more tightly.
-/

namespace DynImp

theorem Expr.Spans.ne_nil {e : Expr Bare} {ts : List Token} (h : e.Spans ts) : ts ≠ [] := by
  cases h <;> simp

namespace Grammar

open Reader

/-! ## §1 What may follow an expression -/

/-- **Following.** No operator that binds as tightly as `rank` or more, and nothing that turns a
name before it into an element or a call. -/
def Follows (rank : Nat) : List Token → Prop
  | [] => True
  | t :: _ =>
    (∀ op, t.IsOperator op → op.level.rank < rank) ∧ t.spells "[" = false ∧ t.spells "(" = false

theorem text_of_spells {t : Token} {word : String} (h : t.spells word) : t.text = word := by
  simp only [Token.spells, decide_eq_true_eq] at h
  exact h.2

theorem spells_eq_false {t : Token} {word other : String} (h : t.spells word)
    (hne : word ≠ other) : t.spells other = false := by
  simp [Token.spells, text_of_spells h, hne]

/-- What expressions are followed by. -/
def closers : List String := ["]", ")", ",", ";", "=", ":", "DO", "CASE", "DEFAULT"]

theorem follows_of_closer {word : String} (hword : word ∈ closers) {t : Token} (h : t.spells word)
    (rank : Nat) (ts : List Token) : Follows rank (t :: ts) := by
  have hall : ∀ word ∈ closers, BinaryOp.ofSymbol? word = none ∧ word ≠ "[" ∧ word ≠ "(" := by
    decide
  obtain ⟨hop, hindex, hargs⟩ := hall word hword
  refine ⟨fun op hop' => ?_, spells_eq_false h hindex, spells_eq_false h hargs⟩
  have := hop'.2
  rw [text_of_spells h, hop] at this
  cases this

theorem Follows.startsWith_eq_false {rank : Nat} {ts : List Token} (h : Follows rank ts) :
    startsWith "[" ts = false ∧ startsWith "(" ts = false := by
  cases ts with
  | nil => exact ⟨rfl, rfl⟩
  | cons t ts => exact h.2

theorem Follows.mono {rank rank' : Nat} {ts : List Token} (h : Follows rank ts)
    (hle : rank ≤ rank') : Follows rank' ts := by
  cases ts with
  | nil => trivial
  | cons t ts => exact ⟨fun op hop => Nat.lt_of_lt_of_le (h.1 op hop) hle, h.2⟩

/-! ## §2 Operator chains -/

/-- An expression that binds at least as tightly as `rank`, and its tokens. -/
def SpansFrom (rank : Nat) (e : Expr Bare) (ts : List Token) : Prop :=
  e.Spans ts ∧ rank ≤ e.rank

theorem rank_injective {l m : Level} (h : l.rank = m.rank) : l = m := by
  cases l <;> cases m <;> first | rfl | cases h

theorem rank_le (level : Level) : level.rank ≤ 3 := by
  cases level <;> decide

theorem operatorAt?_eq_some_iff {level : Level} {t : Token} {ts : List Token} {op : BinaryOp} :
    operatorAt? level (t :: ts) = some op ↔ t.IsOperator op ∧ op.level = level := by
  by_cases hkind : t.kind = .operator <;>
    simp [operatorAt?, Token.IsOperator, hkind, Option.filter_eq_some_iff]

theorem operatorAt?_eq_of_face {t t' : Token} (h : t'.face = t.face) (level : Level)
    (ts ts' : List Token) : operatorAt? level (t' :: ts') = operatorAt? level (t :: ts) := by
  simp [operatorAt?, Token.kind_eq_of_face h, Token.text_eq_of_face h]

/-- An operator of the level comes next. -/
def atOperator (level : Level) (ts : List Token) : Bool := (operatorAt? level ts).isSome

theorem faceTest_atOperator (level : Level) :
    FaceTest (atOperator level) fun t => atOperator level [t] where
  nil := rfl
  cons _ _ := rfl
  face h := by rw [atOperator, atOperator, operatorAt?_eq_of_face h]

/-- Takes an operator of the level. -/
def operator (level : Level) : Reader BinaryOp :=
  single (fun t => operatorAt? level [t]) .expectedExpression

/-- **Links.** An operator of a chain and its right operand. -/
def link (level : Level) (operand : Reader (Expr Bare)) : Reader (BinaryOp × Expr Bare) := do
  let op ← operator level
  let right ← operand
  return (op, right)

/-- A chain goes on by one link. -/
def linked (left : Expr Bare) (l : BinaryOp × Expr Bare) : Expr Bare := .binary () l.1 left l.2

/-- A link without places. -/
def unplacedLink (l : BinaryOp × Expr Bare) : BinaryOp × Expr Bare := (l.1, l.2.unplaced)

theorem unplaced_foldl_linked (links : List (BinaryOp × Expr Bare)) (left : Expr Bare) :
    (links.foldl linked left).unplaced = (links.map unplacedLink).foldl linked left.unplaced := by
  induction links generalizing left with
  | nil => rfl
  | cons l links ih => rw [List.foldl_cons, ih, List.map_cons, List.foldl_cons]; rfl

theorem operator_apply (level : Level) (t : Token) (ts : List Token) :
    operator level (t :: ts) = match operatorAt? level (t :: ts) with
      | some op => .ok (op, ts)
      | none => .error ⟨t :: ts, .expectedExpression⟩ := by
  have hone : operatorAt? level [t] = operatorAt? level (t :: ts) := rfl
  cases hop : operatorAt? level (t :: ts) <;> simp only [operator, single, first, hone, hop]
  rfl

/-- A chain is its first operand, and then links as long as there are any. -/
theorem chainOnto_eq (level : Level) (operand : Reader (Expr Bare)) (bound : Nat)
    (left : Expr Bare) :
    chainOnto level operand bound left =
      repeatWhile (atOperator level) (link level operand) bound >>= fun links =>
        pure (links.foldl linked left) := by
  induction bound generalizing left with
  | zero => rfl
  | succ bound ih =>
      funext ts
      cases ts with
      | nil => rfl
      | cons t ts =>
          rw [chainOnto, bind_apply, repeatWhile_succ]
          cases hop : operatorAt? level (t :: ts) with
          | none =>
              have hmore : atOperator level (t :: ts) = false := by rw [atOperator, hop]; rfl
              simp only [hop, hmore, Bool.false_eq_true, if_false]
              rfl
          | some op =>
              have hmore : atOperator level (t :: ts) = true := by rw [atOperator, hop]; rfl
              have hoperator : operator level (t :: ts) = .ok (op, ts) := by
                rw [operator_apply, hop]
              cases hright : operand ts with
              | error r =>
                  have hlink : link level operand (t :: ts) = .error r := by
                    rw [link, bind_of_ok hoperator, bind_of_error hright]
                  simp only [hop, hmore, if_true, List.drop_succ_cons, List.drop_zero]
                  rw [bind_of_error hright, bind_of_error hlink]
              | ok result =>
                  obtain ⟨right, rest⟩ := result
                  have hlink : link level operand (t :: ts) = .ok ((op, right), rest) := by
                    rw [link, bind_of_ok hoperator, bind_of_ok hright]
                    rfl
                  simp only [hop, hmore, if_true, List.drop_succ_cons, List.drop_zero]
                  rw [bind_of_ok hright, bind_of_ok hlink, ih, bind_apply, bind_apply]
                  cases repeatWhile (atOperator level) (link level operand) bound rest <;> rfl

/-- **Links and their tokens.** -/
inductive LinkSpans (level : Level) (P : Expr Bare → List Token → Prop) :
    BinaryOp × Expr Bare → List Token → Prop where
  | mk {t op right rs} : t.IsOperator op → op.level = level → P right rs →
      LinkSpans level P (op, right) (t :: rs)

/-- The links of a chain, each opened by an operator of the level. -/
def LinksSpan (level : Level) : List (BinaryOp × Expr Bare) → List Token → Prop :=
  Many (fun t => atOperator level [t]) (LinkSpans level (SpansFrom (level.rank + 1)))

theorem atOperator_of_isOperator {t : Token} {op : BinaryOp} (h : t.IsOperator op) :
    atOperator op.level [t] = true := by
  rw [atOperator, operatorAt?_eq_some_iff.mpr ⟨h, rfl⟩]
  rfl

theorem Many.append {α : Type} {opens : Token → Bool} {P : α → List Token → Prop} {as bs : List α}
    {ts us : List Token} (has : Many opens P as ts) (hbs : Many opens P bs us) :
    Many opens P (as ++ bs) (ts ++ us) := by
  induction has with
  | nil => exact hbs
  | cons ht ha _ ih => simpa [List.append_assoc] using Many.cons ht ha ih

/-- An expression of a level comes apart into an operand of the level and links. -/
theorem SpansFrom.exists_links {level : Level} : ∀ {e : Expr Bare} {ts : List Token},
    SpansFrom level.rank e ts → ∃ first s links t, ts = s ++ t ∧
      SpansFrom (level.rank + 1) first s ∧ LinksSpan level links t ∧ e = links.foldl linked first
  | .binary _ op left right, _, ⟨@Expr.Spans.binary _ _ _ ls t rs hl hop hr hleft hright, h⟩ => by
      by_cases hlevel : op.level = level
      · subst hlevel
        obtain ⟨first, s, links, us, rfl, hfirst, hlinks, rfl⟩ :=
          SpansFrom.exists_links ⟨hl, hleft⟩
        refine ⟨first, s, links ++ [(op, right)], us ++ t :: rs, by simp, hfirst, ?_, ?_⟩
        · refine Many.append hlinks ?_
          simpa using Many.cons (atOperator_of_isOperator hop) (.mk hop rfl ⟨hr, hright⟩) .nil
        · rw [List.foldl_append]
          rfl
      · have hrank : op.level.rank ≠ level.rank := fun h => hlevel (rank_injective h)
        exact ⟨_, _, [], [], by simp, ⟨.binary hl hop hr hleft hright, by
          simp only [Expr.rank] at h ⊢
          omega⟩, .nil, rfl⟩
  | .literal .., _, ⟨he, _⟩ | .group .., _, ⟨he, _⟩ | .var .., _, ⟨he, _⟩ | .element .., _, ⟨he, _⟩
  | .call .., _, ⟨he, _⟩ | .list .., _, ⟨he, _⟩ =>
      ⟨_, _, [], [], by simp, ⟨he, Nat.succ_le_succ (rank_le level)⟩, .nil, rfl⟩

/-- Links go on from any expression of the level. -/
theorem SpansFrom.foldl_linked {level : Level} {links : List (BinaryOp × Expr Bare)}
    {t : List Token} (hlinks : LinksSpan level links t) :
    ∀ {first s}, SpansFrom level.rank first s →
      SpansFrom level.rank (links.foldl linked first) (s ++ t) := by
  induction hlinks with
  | nil =>
      intro first s hfirst
      simpa using hfirst
  | cons hopens hlink _ ih =>
      intro first s hfirst
      cases hlink with
      | mk hop hlevel hright =>
          subst hlevel
          have hnext : SpansFrom _ (linked first (_, _)) _ :=
            ⟨.binary hfirst.1 hop hright.1 hfirst.2 hright.2, Nat.le_refl _⟩
          simpa [List.append_assoc] using ih hnext

theorem spansFrom_iff {level : Level} {e : Expr Bare} {ts : List Token} :
    SpansFrom level.rank e ts ↔
      ∃ first s links t, ts = s ++ t ∧ SpansFrom (level.rank + 1) first s ∧
        LinksSpan level links t ∧ e = links.foldl linked first := by
  refine ⟨SpansFrom.exists_links, ?_⟩
  rintro ⟨first, s, links, t, rfl, hfirst, hlinks, rfl⟩
  exact SpansFrom.foldl_linked hlinks ⟨hfirst.1, Nat.le_of_succ_le hfirst.2⟩

theorem exists_operator (level : Level) :
    ∃ (t : Token) (op : BinaryOp), t.IsOperator op ∧ op.level = level := by
  have hsymbol : ∀ op : BinaryOp, Token.IsOperator ⟨.operator, op.symbol, 0⟩ op := fun op => by
    refine ⟨rfl, ?_⟩
    cases op <;> decide
  cases level
  · exact ⟨_, .and, hsymbol _, rfl⟩
  · exact ⟨_, .less, hsymbol _, rfl⟩
  · exact ⟨_, .add, hsymbol _, rfl⟩
  · exact ⟨_, .multiply, hsymbol _, rfl⟩

/-- An operator may follow its left operand. -/
theorem follows_of_isOperator {t : Token} {op : BinaryOp} (h : t.IsOperator op)
    (ts : List Token) : Follows (op.level.rank + 1) (t :: ts) := by
  have hsymbol : ∀ word, BinaryOp.ofSymbol? word = none → t.spells word = false := by
    intro word hword
    rw [Bool.eq_false_iff]
    intro hspells
    have := h.2
    rw [text_of_spells hspells, hword] at this
    cases this
  refine ⟨fun op' hop' => ?_, hsymbol "[" (by decide), hsymbol "(" (by decide)⟩
  obtain rfl : op' = op := Option.some.inj (hop'.2.symm.trans h.2)
  exact Nat.lt_succ_self _

theorem exists_isOperator {level : Level} {t : Token} (h : atOperator level [t] = true) :
    ∃ op, t.IsOperator op ∧ op.level = level := by
  obtain ⟨op, hop⟩ := Option.isSome_iff_exists.mp h
  exact ⟨op, operatorAt?_eq_some_iff.mp hop⟩

/-- Where nothing goes on with a level, no operator of the level comes next. -/
theorem Follows.not_atOperator {level : Level} {ts : List Token} (h : Follows level.rank ts) :
    atOperator level ts = false := by
  cases ts with
  | nil => rfl
  | cons t ts =>
      rw [atOperator, Option.isSome_eq_false_iff, Option.isNone_iff_eq_none,
        Option.eq_none_iff_forall_ne_some]
      intro op hop
      obtain ⟨hop', rfl⟩ := operatorAt?_eq_some_iff.mp hop
      exact Nat.lt_irrefl _ (h.1 op hop')

namespace Reader.Reads

variable {k : Nat} {x y : Reader (Expr Bare)}

theorem operator (level : Level) :
    Reads k id (Grammar.operator level) (Grammar.operator level)
      (fun op ts => ∃ t, ts = [t] ∧ t.IsOperator op ∧ op.level = level) fun _ => True := by
  obtain ⟨t, op, hop⟩ := exists_operator level
  refine (single ⟨t, op, operatorAt?_eq_some_iff.mpr hop⟩ id ?_).of_iff fun op ts => ?_
  · intro t t' hface
    rw [operatorAt?_eq_of_face hface level [] []]
  · simp only [operatorAt?_eq_some_iff]

/-- An operator and an operand after it. -/
theorem link {P : Expr Bare → List Token → Prop} {F : List Token → Prop}
    (hx : Reads k Expr.unplaced x y P F) (level : Level) :
    Reads k unplacedLink (Grammar.link level x) (Grammar.link level y) (LinkSpans level P) F := by
  refine ((operator level).after fun op op' hop =>
    hx.map unplacedLink (fun right => (op, right)) (fun right => (op', right)) ?_).of_iff
      fun l ts => ?_
  · rintro right right' hright
    exact Prod.ext hop hright
  · constructor
    · rintro ⟨op, _, rs, rfl, ⟨t, rfl, hop, hlevel⟩, right, rfl, hright⟩
      exact .mk hop hlevel hright
    · rintro ⟨hop, hlevel, hright⟩
      exact ⟨_, [_], _, rfl, ⟨_, rfl, hop, hlevel⟩, _, rfl, hright⟩

/-- **Chains.** Operands that bind more tightly than a level make expressions of the level.  The
first one takes a token, so the bounds need not count it. -/
theorem chain (level : Level) {bound bound' : Nat}
    (hx : Reads (k + 1) Expr.unplaced x y (SpansFrom (level.rank + 1)) (Follows (level.rank + 1)))
    (hk : k ≤ bound) (hk' : k ≤ bound') :
    Reads (k + 1) Expr.unplaced (Grammar.chain level bound x) (Grammar.chain level bound' y)
      (SpansFrom level.rank) (Follows level.rank) := by
  have hopens : ∀ t ts, atOperator level [t] = true → Follows (level.rank + 1) (t :: ts) := by
    intro t ts ht
    obtain ⟨op, hop, rfl⟩ := exists_isOperator ht
    exact follows_of_isOperator hop ts
  have hlinks := repeatWhile (faceTest_atOperator level) (fun l h => nomatch h) hopens
    ((hx.mono (Nat.le_succ k)).link level) hk hk'
  have hchain := hx.bind (j := k) (fun a a' ha => hlinks.map Expr.unplaced (List.foldl linked a)
    (List.foldl linked a') ?_) ?_ ?_
  · simp only [Grammar.chain, chainOnto_eq]
    refine (hchain.of_iff fun e ts => ?_).follow fun ts h =>
      ⟨h.not_atOperator, h.mono (Nat.le_succ _)⟩
    rw [spansFrom_iff]
    constructor
    · rintro ⟨first, s, t, rfl, hfirst, links, rfl, hlinks⟩
      exact ⟨first, s, links, t, rfl, hfirst, hlinks, rfl⟩
    · rintro ⟨first, s, links, t, rfl, hfirst, hlinks, rfl⟩
      exact ⟨first, s, t, rfl, hfirst, links, rfl, hlinks⟩
  · intro links links' h
    rw [unplaced_foldl_linked, unplaced_foldl_linked, ha, h]
  · intro first s hfirst
    exact Nat.add_le_add_left (List.length_pos_iff.mpr hfirst.1.ne_nil) k
  · rintro first e t rest ⟨links, rfl, hlinks⟩ hrest
    exact hlinks.follow hopens hrest.2

end Reader.Reads

/-! ## §3 Primaries -/

theorem Joined.ne_nil {α : Type} {mark : String} {P : α → List Token → Prop} (hP : ∀ a, ¬ P a [])
    {as : List α} {ts : List Token} (h : Joined mark P as ts) : ts ≠ [] := by
  cases h with
  | one ha =>
      rintro rfl
      exact hP _ ha
  | more => simp

theorem Ended.ne_nil {α : Type} {mark : String} {P : α → List Token → Prop} {a : α}
    {ts : List Token} (h : Ended mark P a ts) : ts ≠ [] := by
  cases h
  simp

theorem startsWith_append {word : String} {ts : List Token} (hts : ts ≠ []) (us : List Token) :
    startsWith word (ts ++ us) = startsWith word ts := by
  obtain ⟨t, ts, rfl⟩ := List.exists_cons_of_ne_nil hts
  rfl

/-- Arguments up to the closing parenthesis, and the call that they make of a name. -/
def CallSpans (t : Token) (e : Expr Bare) (ts : List Token) : Prop :=
  After ")" (fun e ts => e = .call t.offset () () t.text [] ∧ ts = []) e ts ∨
    ((∃ args, e = .call t.offset () () t.text args ∧ Ended ")" (Joined "," Expr.Spans) args ts) ∧
      startsWith ")" ts = false)

/-- What makes an expression of a name: an index, arguments, or nothing. -/
def NamedSpans (t : Token) (e : Expr Bare) (ts : List Token) : Prop :=
  After "[" (fun e ts => ∃ index, e = .element t.offset () () t.text index ∧
      Ended "]" Expr.Spans index ts) e ts ∨
    ((After "(" (CallSpans t) e ts ∨
      ((e = .var t.offset () () t.text ∧ ts = []) ∧ startsWith "(" ts = false)) ∧
      startsWith "[" ts = false)

/-- What makes an expression of its first token, other than an operator chain. -/
inductive PrimarySpans (t : Token) : Expr Bare → List Token → Prop where
  | literal {v} : t.literal? = some v → PrimarySpans t (.literal t.offset () v) []
  | group {inner ts} : t.Opens "(" → Ended ")" Expr.Spans inner ts →
      PrimarySpans t (.group t.offset () inner) ts
  | list {items ts} : t.Opens "[" → Ended "]" (Joined "," Expr.Spans) items ts →
      PrimarySpans t (.list t.offset () items) ts
  | named {e ts} : t.IsName → NamedSpans t e ts → PrimarySpans t e ts

theorem primarySpans_iff {t : Token} {e : Expr Bare} {ts : List Token} :
    PrimarySpans t e ts ↔ SpansFrom 4 e (t :: ts) := by
  constructor
  · intro h
    cases h with
    | literal hv => exact ⟨.literal hv, Nat.le_refl _⟩
    | group hopen hinner =>
        cases hinner with
        | mk hinner hclose => exact ⟨.group hopen hinner hclose, Nat.le_refl _⟩
    | list hopen hitems =>
        cases hitems with
        | mk hitems hclose => exact ⟨.list hopen hitems hclose, Nat.le_refl _⟩
    | named ht h =>
        obtain ⟨hopen, index, rfl, ⟨hindex, hclose⟩⟩ | ⟨⟨hopen, hcall⟩ | ⟨⟨rfl, rfl⟩, -⟩, -⟩ := h
        · exact ⟨.element ht hopen hindex hclose, Nat.le_refl _⟩
        · obtain ⟨hclose, rfl, rfl⟩ | ⟨⟨args, rfl, ⟨hargs, hclose⟩⟩, hne⟩ := hcall
          · exact ⟨.callNone ht hopen hclose, Nat.le_refl _⟩
          · rw [startsWith_append (hargs.ne_nil fun _ h => h.ne_nil rfl)] at hne
            exact ⟨.callSome ht hopen hne hargs hclose, Nat.le_refl _⟩
        · exact ⟨.var ht, Nat.le_refl _⟩
  · rintro ⟨he, hrank⟩
    generalize hus : t :: ts = us at he
    cases he with
    | @binary op =>
        have := rank_le op.level
        simp only [Expr.rank] at hrank
        omega
    | literal hv => cases hus; exact .literal hv
    | group hopen hinner hclose => cases hus; exact .group hopen (.mk hinner hclose)
    | list hopen hitems hclose => cases hus; exact .list hopen (.mk hitems hclose)
    | var ht => cases hus; exact .named ht (.inr ⟨.inr ⟨⟨rfl, rfl⟩, rfl⟩, rfl⟩)
    | element ht hopen hindex hclose =>
        cases hus
        exact .named ht (.inl (.mk hopen ⟨_, rfl, .mk hindex hclose⟩))
    | callNone ht hopen hclose =>
        cases hus
        refine .named ht (.inr ⟨.inl (.mk hopen (.inl (.mk hclose ⟨rfl, rfl⟩))), ?_⟩)
        exact spells_eq_false hopen (by decide)
    | callSome ht hopen hne hargs hclose =>
        cases hus
        refine .named ht (.inr ⟨.inl (.mk hopen (.inr ⟨⟨_, rfl, .mk hargs hclose⟩, ?_⟩)), ?_⟩)
        · rw [startsWith_append (hargs.ne_nil fun _ h => h.ne_nil rfl)]
          exact hne
        · exact spells_eq_false hopen (by decide)

/-- How a primary goes on after its first token. -/
def afterToken (bound : Nat) (expr : Reader (Expr Bare)) (t : Token) :
    Except Reason (Reader (Expr Bare)) :=
  match t.literal? with
  | some value => .ok (pure (.literal t.offset () value))
  | none =>
    match t.kind with
    | .identifier => .ok (named bound expr t.offset t.text)
    | .operator =>
      if t.text = "(" then .ok (grouped expr t.offset)
      else if t.text = "[" then .ok (listed bound expr t.offset)
      else .error .expectedExpression
    | _ => .error .invalidLiteral

theorem primary_eq_first (bound : Nat) (expr : Reader (Expr Bare)) :
    primary bound expr = first (afterToken bound expr) .expectedExpression := by
  funext ts
  cases ts with
  | nil => rfl
  | cons t ts =>
      rw [primary, first, afterToken, Token.literal?]
      cases hkind : t.kind with
      | identifier =>
          simp only [if_true]
          cases Token.constant? t.text <;> rfl
      | operator =>
          have hscalar : t.scalar? = none := by rw [Token.scalar?, hkind]
          simp only [hscalar, reduceCtorEq, if_false]
          split
          · rfl
          · split <;> rfl
      | _ =>
          simp only [reduceCtorEq, if_false]
          cases t.scalar? <;> rfl

section

variable {bound : Nat} {expr : Reader (Expr Bare)} {t : Token}

theorem literal?_of_isName (h : t.IsName) : t.literal? = none := by
  rw [Token.literal?, if_pos h.1, h.2]

theorem literal?_of_opens {mark : String} (h : t.Opens mark) : t.literal? = none := by
  have hkind : ¬ t.kind = .identifier := by simp [h.1]
  rw [Token.literal?, if_neg hkind, Token.scalar?, h.1]

theorem not_opens_of_isName (h : t.IsName) {mark : String} : ¬ t.Opens mark := by
  intro hopen
  cases h.1.symm.trans hopen.1

theorem opens_unique {mark mark' : String} (h : t.Opens mark) (h' : t.Opens mark') :
    mark = mark' :=
  h.2.symm.trans h'.2

/-- The first token tells the forms of a primary apart. -/
theorem primarySpans_of_literal {v : Scalar} (h : t.literal? = some v) {e : Expr Bare}
    {ts : List Token} : PrimarySpans t e ts ↔ e = .literal t.offset () v ∧ ts = [] := by
  constructor
  · intro hspans
    cases hspans with
    | literal hw => exact ⟨by rw [Option.some.inj (hw.symm.trans h)], rfl⟩
    | group hopen | list hopen => simp [literal?_of_opens hopen] at h
    | named hname => simp [literal?_of_isName hname] at h
  · rintro ⟨rfl, rfl⟩
    exact .literal h

theorem primarySpans_of_isName (h : t.IsName) {e : Expr Bare} {ts : List Token} :
    PrimarySpans t e ts ↔ NamedSpans t e ts := by
  refine ⟨fun hspans => ?_, .named h⟩
  cases hspans with
  | literal hv => simp [literal?_of_isName h] at hv
  | group hopen | list hopen => exact absurd hopen (not_opens_of_isName h)
  | named _ hnamed => exact hnamed

theorem primarySpans_of_opens_group (h : t.Opens "(") {e : Expr Bare} {ts : List Token} :
    PrimarySpans t e ts ↔
      ∃ inner, e = .group t.offset () inner ∧ Ended ")" Expr.Spans inner ts := by
  constructor
  · intro hspans
    cases hspans with
    | literal hv => simp [literal?_of_opens h] at hv
    | group _ hinner => exact ⟨_, rfl, hinner⟩
    | list hopen => exact absurd (opens_unique h hopen) (by decide)
    | named hname => exact absurd h (not_opens_of_isName hname)
  · rintro ⟨inner, rfl, hinner⟩
    exact .group h hinner

theorem primarySpans_of_opens_list (h : t.Opens "[") {e : Expr Bare} {ts : List Token} :
    PrimarySpans t e ts ↔
      ∃ items, e = .list t.offset () items ∧ Ended "]" (Joined "," Expr.Spans) items ts := by
  constructor
  · intro hspans
    cases hspans with
    | literal hv => simp [literal?_of_opens h] at hv
    | group hopen => exact absurd (opens_unique h hopen) (by decide)
    | list _ hitems => exact ⟨_, rfl, hitems⟩
    | named hname => exact absurd h (not_opens_of_isName hname)
  · rintro ⟨items, rfl, hitems⟩
    exact .list h hitems

theorem afterToken_of_literal {v : Scalar} (h : t.literal? = some v) :
    afterToken bound expr t = .ok (pure (.literal t.offset () v)) := by
  rw [afterToken, h]

theorem afterToken_of_isName (h : t.IsName) :
    afterToken bound expr t = .ok (named bound expr t.offset t.text) := by
  rw [afterToken, literal?_of_isName h, h.1]

theorem afterToken_of_opens_group (h : t.Opens "(") :
    afterToken bound expr t = .ok (grouped expr t.offset) := by
  rw [afterToken, literal?_of_opens h, h.1]
  exact if_pos h.2

theorem afterToken_of_opens_list (h : t.Opens "[") :
    afterToken bound expr t = .ok (listed bound expr t.offset) := by
  rw [afterToken, literal?_of_opens h, h.1]
  have hne : ¬ t.text = "(" := by simp [h.2]
  exact (if_neg hne).trans (if_pos h.2)

/-- A token with which an expression goes on is one that begins one. -/
theorem afterToken_cases {z : Reader (Expr Bare)} (h : afterToken bound expr t = .ok z) :
    (∃ v, t.literal? = some v) ∨ t.IsName ∨ t.Opens "(" ∨ t.Opens "[" := by
  cases hliteral : t.literal? with
  | some v => exact .inl ⟨v, rfl⟩
  | none =>
      rw [afterToken, hliteral] at h
      cases hkind : t.kind with
      | identifier =>
          rw [Token.literal?, if_pos hkind] at hliteral
          exact .inr (.inl ⟨hkind, hliteral⟩)
      | operator =>
          rw [hkind] at h
          by_cases hgroup : t.text = "("
          · exact .inr (.inr (.inl ⟨hkind, hgroup⟩))
          · by_cases hlist : t.text = "["
            · exact .inr (.inr (.inr ⟨hkind, hlist⟩))
            · simp [hgroup, hlist] at h
      | _ =>
          rw [hkind] at h
          cases h

theorem afterToken_error_of_face {bound' : Nat} {expr' : Reader (Expr Bare)} {t' : Token}
    {reason : Reason} (hface : t'.face = t.face) (h : afterToken bound expr t = .error reason) :
    afterToken bound' expr' t' = .error reason := by
  rw [afterToken] at h ⊢
  rw [Token.literal?_eq_of_face hface, Token.kind_eq_of_face hface, Token.text_eq_of_face hface]
  cases hliteral : t.literal? with
  | some v =>
      rw [hliteral] at h
      cases h
  | none =>
      rw [hliteral] at h
      cases hkind : t.kind with
      | identifier =>
          rw [hkind] at h
          cases h
      | operator =>
          rw [hkind] at h
          by_cases hgroup : t.text = "("
          · simp [hgroup] at h
          · by_cases hlist : t.text = "["
            · simp [hlist] at h
            · simpa [hgroup, hlist] using h
      | _ =>
          rw [hkind] at h
          exact h

end

namespace Reader.Reads

variable {k bound bound' : Nat} {x y : Reader (Expr Bare)}

/-- Expressions with commas between them, up to the mark that closes them. -/
theorem enumeration (hx : Reads k Expr.unplaced x y Expr.Spans (Follows 0)) (word : String)
    (reason : Reason) (f g : List (Expr Bare) → Expr Bare) (hk : k ≤ bound) (hk' : k ≤ bound')
    (hword : word ∈ closers) (hcomma : word ≠ ",")
    (hfg : ∀ es es', es'.map Expr.unplaced = es.map Expr.unplaced →
      (g es').unplaced = (f es).unplaced) :
    Reads k Expr.unplaced
      (Reader.separated "," x bound >>= fun es =>
        Reader.require word reason >>= fun _ => Pure.pure (f es))
      (Reader.separated "," y bound' >>= fun es =>
        Reader.require word reason >>= fun _ => Pure.pure (g es))
      (fun e ts => ∃ es, e = f es ∧ Ended word (Joined "," Expr.Spans) es ts) fun _ => True := by
  have hitems := hx.separated ","
    (fun t ts ht => follows_of_closer (by decide) ht 0 ts) hk hk'
  refine hitems.ended word reason _ f g (fun t ts ht => ?_) hfg
  exact ⟨spells_eq_false ht hcomma, follows_of_closer hword ht 0 ts⟩

/-- What comes after a name that is the first token of an expression. -/
theorem named {t t' : Token} (hx : Reads k Expr.unplaced x y Expr.Spans (Follows 0))
    (hk : k ≤ bound) (hk' : k ≤ bound') (hface : t'.face = t.face) :
    Reads k Expr.unplaced (Grammar.named bound x t.offset t.text)
      (Grammar.named bound' y t'.offset t'.text) (NamedSpans t) (Follows 4) := by
  rw [Token.text_eq_of_face hface]
  have hindex := hx.ended "]" (.expected "]") Expr.unplaced
    (fun index => .element t.offset () () t.text index)
    (fun index => .element t'.offset () () t.text index)
    (fun _ _ ht => follows_of_closer (by decide) ht 0 _) fun index index' h => by
      simp only [Expr.unplaced, h]
  have hargs := hx.enumeration ")" (.expected ")") (fun args => .call t.offset () () t.text args)
    (fun args => .call t'.offset () () t.text args) hk hk' (by decide) (by decide)
    fun args args' h => by simp only [Expr.unplaced, Expr.allUnplaced_eq, h]
  have hnone := pure (k := k) Expr.unplaced (.call t.offset () () t.text [] : Expr Bare)
    (.call t'.offset () () t.text [] : Expr Bare) rfl
  have hvar := pure (k := k) Expr.unplaced (.var t.offset () () t.text : Expr Bare)
    (.var t'.offset () () t.text : Expr Bare) rfl
  have hcall := hnone.accept_ite ")" hargs ?_
  · refine (hindex.follow fun _ _ => trivial).accept_ite "["
      ((hcall.follow fun _ _ => trivial).accept_ite "(" (hvar.follow fun _ _ => trivial) ?_) ?_
    · exact fun e ts _ hts => hts.startsWith_eq_false.2
    · exact fun e ts _ hts => hts.startsWith_eq_false.1
  · rintro e ts ⟨args, -, hargs⟩ -
    exact absurd rfl hargs.ne_nil

theorem grouped {t t' : Token} (hx : Reads k Expr.unplaced x y Expr.Spans (Follows 0)) :
    Reads k Expr.unplaced (Grammar.grouped x t.offset) (Grammar.grouped y t'.offset)
      (fun e ts => ∃ inner, e = .group t.offset () inner ∧ Ended ")" Expr.Spans inner ts)
      fun _ => True :=
  hx.ended ")" .unterminatedParenthesis _ _ _
    (fun _ _ ht => follows_of_closer (by decide) ht 0 _) fun inner inner' h => by
      simp only [Expr.unplaced, h]

theorem listed {t t' : Token} (hx : Reads k Expr.unplaced x y Expr.Spans (Follows 0))
    (hk : k ≤ bound) (hk' : k ≤ bound') :
    Reads k Expr.unplaced (Grammar.listed bound x t.offset) (Grammar.listed bound' y t'.offset)
      (fun e ts =>
        ∃ items, e = .list t.offset () items ∧ Ended "]" (Joined "," Expr.Spans) items ts)
      fun _ => True :=
  hx.enumeration "]" _ _ _ hk hk' (by decide) (by decide) fun items items' h => by
    simp only [Expr.unplaced, Expr.allUnplaced_eq, h]

/-- **Primaries.** -/
theorem primary (hx : Reads k Expr.unplaced x y Expr.Spans (Follows 0)) (hk : k ≤ bound)
    (hk' : k ≤ bound') :
    Reads (k + 1) Expr.unplaced (Grammar.primary bound x) (Grammar.primary bound' y) (SpansFrom 4)
      (Follows 4) := by
  rw [primary_eq_first, primary_eq_first]
  have hnil : Token.literal? ⟨.identifier, "NIL", 0⟩ = some .nil := by decide
  refine first ⟨_, _, .literal hnil, Nat.le_refl _⟩ ?_
    (fun t t' r hface h => afterToken_error_of_face hface h) ?_
  · intro t t' z hface hz
    simp only [← primarySpans_iff]
    obtain ⟨v, hv⟩ | ht | ht | ht := afterToken_cases hz
    · obtain rfl := Except.ok.inj ((afterToken_of_literal hv).symm.trans hz)
      have hread := pure (k := k) Expr.unplaced (.literal t.offset () v : Expr Bare)
        (.literal t'.offset () v) rfl
      refine ⟨_, afterToken_of_literal ((Token.literal?_eq_of_face hface).trans hv), ?_⟩
      exact (hread.follow fun _ _ => trivial).of_iff fun e ts => (primarySpans_of_literal hv).symm
    · obtain rfl := Except.ok.inj ((afterToken_of_isName ht).symm.trans hz)
      refine ⟨_, afterToken_of_isName (ht.of_face hface), ?_⟩
      exact (hx.named hk hk' hface).of_iff fun e ts => (primarySpans_of_isName ht).symm
    · obtain rfl := Except.ok.inj ((afterToken_of_opens_group ht).symm.trans hz)
      refine ⟨_, afterToken_of_opens_group (ht.of_face hface), ?_⟩
      exact (hx.grouped.follow fun _ _ => trivial).of_iff fun e ts =>
        (primarySpans_of_opens_group ht).symm
    · obtain rfl := Except.ok.inj ((afterToken_of_opens_list ht).symm.trans hz)
      refine ⟨_, afterToken_of_opens_list (ht.of_face hface), ?_⟩
      exact ((hx.listed hk hk').follow fun _ _ => trivial).of_iff fun e ts =>
        (primarySpans_of_opens_list ht).symm
  · rintro e ts ⟨he, hrank⟩
    obtain ⟨t, ts, rfl⟩ := List.exists_cons_of_ne_nil he.ne_nil
    refine ⟨t, ts, ?_⟩
    cases primarySpans_iff.mpr ⟨he, hrank⟩ with
    | literal hv => exact ⟨_, rfl, afterToken_of_literal hv⟩
    | group hopen => exact ⟨_, rfl, afterToken_of_opens_group hopen⟩
    | list hopen => exact ⟨_, rfl, afterToken_of_opens_list hopen⟩
    | named ht => exact ⟨_, rfl, afterToken_of_isName ht⟩

/-- One level of nesting. -/
theorem expression_step {n m : Nat}
    (h : Reads k Expr.unplaced (Grammar.expression n) (Grammar.expression m) Expr.Spans (Follows 0))
    (hn : k ≤ n) (hm : k ≤ m) :
    Reads (k + 1) Expr.unplaced (Grammar.expression (n + 1)) (Grammar.expression (m + 1)) Expr.Spans
      (Follows 0) := by
  have hprimary := h.primary hn hm
  have hmultiplicative := chain .multiplicative hprimary hn hm
  have hadditive := chain .additive hmultiplicative hn hm
  have hcomparison := chain .comparison hadditive hn hm
  have hlogical := chain .logical hcomparison hn hm
  exact hlogical.of_iff fun e ts => ⟨fun h => h.1, fun h => ⟨h, Nat.zero_le _⟩⟩

/-- **Expressions.** -/
theorem expression {n m : Nat} (hn : k ≤ n) (hm : k ≤ m) :
    Reads k Expr.unplaced (Grammar.expression n) (Grammar.expression m) Expr.Spans (Follows 0) := by
  have hnil : ∀ m, Grammar.expression m [] = .error ⟨[], .expectedExpression⟩ := fun m => by
    cases m <;> rfl
  induction n generalizing k m with
  | zero =>
      obtain rfl : k = 0 := Nat.le_zero.mp hn
      have hliteral : Token.literal? ⟨.identifier, "NIL", 0⟩ = some .nil := by decide
      exact refuse (hnil m) ⟨_, _, .literal hliteral⟩ fun e he => he.ne_nil rfl
  | succ n ih =>
      cases k with
      | zero =>
          have hstep := expression_step (ih (Nat.zero_le n) (Nat.zero_le n)) (Nat.zero_le n)
            (Nat.zero_le n)
          exact hstep.zero (by rw [hnil, hnil])
      | succ k =>
          cases m with
          | zero => cases hm
          | succ m =>
              have hn' := Nat.le_of_succ_le_succ hn
              have hm' := Nat.le_of_succ_le_succ hm
              exact expression_step (ih hn' hm') hn' hm'

end Reader.Reads

end Grammar

end DynImp
