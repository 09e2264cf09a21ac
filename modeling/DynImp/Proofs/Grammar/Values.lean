import DynImp.Proofs.Decimal.Number
import DynImp.Proofs.Grammar.Literals
import DynImp.Proofs.Grammar.Prefix
import DynImp.Proofs.Grammar.Words
import DynImp.Proofs.Numeral
import Mathlib.Data.Nat.Digits.Defs

/-!
# Values of literals

What the scanner takes for a literal the grammar finds a value for, and all of the text counts.

* **Layer A: numbers.** The number that digits, a sign and a point spell by the rules of base ten.
* **Layer B: tokens.** A token with a spelling of its kind has the value that it spells.
* **Layer C: refusals.** A literal is refused for being one only if it has no value.
-/

namespace DynImp

theorem Token.IsMagnitude.digits {cs : List Char} (h : IsMagnitude cs) :
    cs ≠ [] ∧ ∀ c ∈ cs, c.isDigit = true := by
  obtain ⟨first, others, rfl⟩ := h.exists_cons
  obtain ⟨hfirst, hothers⟩ := h.isDigit
  exact ⟨List.cons_ne_nil _ _, List.forall_mem_cons.mpr ⟨hfirst, hothers⟩⟩

/-! ## §1 Numbers spelled -/

namespace Numeral

/-- **Digits.** The number that they spell in base ten, the last of them being the units. -/
def natSpelled (ds : List Char) : ℕ := Nat.ofDigits 10 (ds.reverse.map fun d => d.toNat - '0'.toNat)

/-- What stands behind the minus sign, if there is one. -/
def unsigned : List Char → List Char
  | '-' :: cs => cs
  | cs => cs

/-- The sign as a factor. -/
def signFactor : List Char → ℤ
  | '-' :: _ => -1
  | _ => 1

/-- **Integers.** The number that digits spell behind an optional minus sign. -/
def integerSpelled (cs : List Char) : ℤ := signFactor cs * natSpelled (unsigned cs)

/-- The digits before the point. -/
def wholeDigits (cs : List Char) : List Char := (unsigned cs).takeWhile (· ≠ '.')

/-- The digits behind the point. -/
def fractionDigits (cs : List Char) : List Char := ((unsigned cs).dropWhile (· ≠ '.')).tail

/-- **Decimals.** The digits before the point spell the whole, and `n` digits behind it so many parts
in `10 ^ n`. -/
def decimalSpelled (cs : List Char) : ℚ :=
  signFactor cs * (natSpelled (wholeDigits cs) +
    natSpelled (fractionDigits cs) / 10 ^ (fractionDigits cs).length)

theorem value_eq_natSpelled (ds : List Char) :
    value 10 (ds.map fun d => d.toNat - 48) = natSpelled ds := by
  -- What is read from the front is summed up from the back.
  rw [natSpelled, Nat.ofDigits_eq_foldr, List.map_reverse, List.foldr_reverse, value]
  congr 1
  funext n d
  exact Nat.add_comm _ _

theorem natSpelled_append (ds es : List Char) :
    natSpelled (ds ++ es) = natSpelled ds * 10 ^ es.length + natSpelled es := by
  simp only [natSpelled, List.reverse_append, List.map_append, Nat.ofDigits_append, List.length_map,
    List.length_reverse]
  ring

/-- The sign is what stands before the digits, which do not begin with one. -/
theorem sign_append {sign ds : List Char} (hsign : sign = [] ∨ sign = ['-']) (hne : ds ≠ [])
    (hdigits : ∀ d ∈ ds, d.isDigit = true) (rest : List Char) :
    unsigned (sign ++ ds ++ rest) = ds ++ rest ∧
      ∀ n : ℕ, withSign (sign = ['-']) n = signFactor (sign ++ ds ++ rest) * n := by
  obtain rfl | rfl := hsign
  · obtain ⟨d, others, rfl⟩ := List.exists_cons_of_ne_nil hne
    have hd : d ≠ '-' := by
      rintro rfl
      exact absurd (hdigits '-' List.mem_cons_self) (by decide)
    simp [unsigned, signFactor, withSign, hd]
  · simp [unsigned, signFactor, withSign]

/-- The text of an integer is read as the number that it spells. -/
theorem ofText?_integer {cs : List Char} (h : Token.IsInteger cs) :
    ofText? (String.ofList cs) = some (integerSpelled cs) := by
  obtain ⟨sign, ds, hsign, hmagnitude, rfl⟩ := h
  obtain ⟨hne, hdigits⟩ := hmagnitude.digits
  obtain ⟨hunsigned, hfactor⟩ := sign_append hsign hne hdigits []
  simp only [List.append_nil] at hunsigned hfactor
  rw [ofText?, String.toList_ofList, ofChars?_append hsign hne hdigits, value_eq_natSpelled,
    hfactor, integerSpelled, hunsigned]

end Numeral

namespace Decimal

open Numeral

/-- The text of a decimal is read as the number that it spells, with all places. -/
theorem ofText?_decimal {cs : List Char} (h : Token.IsDecimal cs) :
    ∃ d, ofText? (String.ofList cs) = some d ∧ d.scale = (fractionDigits cs).length ∧
      d.toRat = decimalSpelled cs := by
  obtain ⟨_, fraction, ⟨sign, ds, hsign, hmagnitude, rfl⟩, -, hfraction, rfl⟩ := h
  obtain ⟨hne, hdigits⟩ := hmagnitude.digits
  obtain ⟨hunsigned, hfactor⟩ := sign_append hsign hne hdigits ('.' :: fraction)
  obtain ⟨htake, hdrop⟩ := Token.span_append
    (fun c hc => decide_eq_true (isDigit_ne (hdigits c hc)).2.1 :
      ∀ c ∈ ds, decide (c ≠ '.') = true)
    (Token.stopsAt_cons.mpr (by decide) : Token.StopsAt (· ≠ '.') ('.' :: fraction))
  have hwhole : wholeDigits (sign ++ ds ++ '.' :: fraction) = ds := by
    rw [wholeDigits, hunsigned, htake]
  have hplaces : fractionDigits (sign ++ ds ++ '.' :: fraction) = fraction := by
    rw [fractionDigits, hunsigned, hdrop]
    rfl
  refine ⟨_, ofText?_append hsign hne hdigits hfraction, by rw [hplaces], ?_⟩
  -- All digits as one integer are the whole shifted by the places, and the fraction.
  rw [toRat, decimalSpelled, hwhole, hplaces, value_eq_natSpelled, natSpelled_append, hfactor,
    zpow_neg, zpow_natCast]
  push_cast
  field_simp

end Decimal

namespace Token

open DynImp.Text

/-! ## §2 Tokens -/

/-- **Values of literals.** The token has the value that its text spells: a number by the rules of
base ten, a decimal with as many places as there are digits behind the point; a character if one is
all that is decoded between the quotes; and a string of one character for each unit between
them. -/
def HasValue (t : Token) : Prop :=
  match t.kind with
  | .integer => t.scalar? = some (.integer (Numeral.integerSpelled t.text.toList))
  | .decimal => ∃ d : Decimal, t.scalar? = some (.decimal d) ∧
      d.scale = (Numeral.fractionDigits t.text.toList).length ∧
      d.toRat = Numeral.decimalSpelled t.text.toList
  | .character => ∃ body c, unquote? t.text = some body ∧ unescape body = [c] ∧
      t.scalar? = some (.character c)
  | .string => ∃ (units : List (List Char)) (s : String), (∀ u ∈ units, IsUnit '"' u) ∧ unquote? t.text = some units.flatten ∧
      units.map unescape = s.toList.map (fun c => [c]) ∧ t.scalar? = some (.string s)
  | .identifier | .operator => True

theorem exists_unescape_flatten {quote : Char} {units : List (List Char)}
    (h : ∀ u ∈ units, IsUnit quote u) :
    ∃ cs : List Char, units.map unescape = cs.map (fun c => [c]) ∧ unescape units.flatten = cs := by
  induction units with
  | nil => exact ⟨[], rfl, rfl⟩
  | cons u units ih =>
      rw [List.forall_mem_cons] at h
      obtain ⟨cs, hmap, hflatten⟩ := ih h.2
      obtain ⟨c, hunit, happend⟩ := exists_unescape h.1
      refine ⟨c :: cs, ?_, ?_⟩
      · rw [List.map_cons, List.map_cons, hunit, hmap]
      · rw [List.flatten_cons, happend, hflatten]

/-- A token with a spelling of its kind has a value. -/
theorem Spelled.hasValue {t : Token} (h : t.Spelled) : t.HasValue := by
  -- One case for each reader of literals: what its kind may look like is what it accepts.
  obtain ⟨kind, text, offset⟩ := t
  obtain ⟨cs, rfl⟩ : ∃ cs, text = String.ofList cs := ⟨text.toList, String.ofList_toList.symm⟩
  simp only [Spelled, String.toList_ofList] at h
  cases kind with
  | identifier | operator => trivial
  | integer => simp [HasValue, scalar?, Numeral.ofText?_integer h]
  | decimal =>
      obtain ⟨d, hread, hscale, hvalue⟩ := Decimal.ofText?_decimal h
      refine ⟨d, ?_, ?_, ?_⟩
      · simp [scalar?, hread]
      · simpa using hscale
      · simpa using hvalue
  | character =>
      obtain ⟨unit, hunit, rfl⟩ := h
      obtain ⟨c, hc, -⟩ := exists_unescape hunit
      refine ⟨unit, c, unquote?_eq (.inl rfl) unit, hc, ?_⟩
      simp only [scalar?, unquote?_eq (.inl rfl), Option.bind_some, hc]
      rfl
  | string =>
      obtain ⟨units, hunits, rfl⟩ := h
      obtain ⟨cs, hmap, hflatten⟩ := exists_unescape_flatten hunits
      refine ⟨units, String.ofList cs, hunits, unquote?_eq (.inr rfl) _, by simpa using hmap, ?_⟩
      simp only [scalar?, unquote?_eq (.inr rfl), Option.map_some, hflatten]

theorem HasValue.scalar?_ne_none {t : Token} (h : t.HasValue) (hname : t.kind ≠ .identifier)
    (hmark : t.kind ≠ .operator) : t.scalar? ≠ none := by
  rw [HasValue] at h
  split at h
  · rw [h]; simp
  · obtain ⟨d, hd, -⟩ := h
    rw [hd]; simp
  · obtain ⟨_, c, -, -, hc⟩ := h
    rw [hc]; simp
  · obtain ⟨_, s, -, -, -, hs⟩ := h
    rw [hs]; simp
  · next hkind => exact absurd hkind hname
  · next hkind => exact absurd hkind hmark

end Token

namespace Grammar

open Reader

/-! ## §3 Refusals -/

/-- **Justified refusals.** A literal is called invalid only where one stands that has no value. -/
def Refusal.Justified (r : Refusal) : Prop :=
  r.reason = .invalidLiteral → ∃ t rest, r.rest = t :: rest ∧ t.kind ≠ .identifier ∧
    t.kind ≠ .operator ∧ t.scalar? = none

theorem Refusal.justified_of_ne {r : Refusal} (h : r.reason ≠ .invalidLiteral) : r.Justified :=
  fun hreason => absurd hreason h

/-- A reader of which all refusals are justified. -/
def Reader.Justified {α : Type} (x : Reader α) : Prop := ∀ ts r, x ts = .error r → r.Justified

namespace Reader.Justified

variable {α β : Type} {x y : Reader α}

theorem pure (a : α) : (Pure.pure a : Reader α).Justified := fun _ _ h => nomatch h

theorem refuse {reason : Reason} (h : reason ≠ .invalidLiteral) :
    (Reader.refuse reason : Reader α).Justified := by
  rintro ts _ ⟨⟩
  exact Refusal.justified_of_ne h

theorem bind {f : α → Reader β} (hx : x.Justified) (hf : ∀ a, (f a).Justified) :
    (x >>= f).Justified := by
  intro ts r h
  cases hxts : x ts with
  | error r' =>
      rw [bind_of_error hxts] at h
      cases h
      exact hx _ _ hxts
  | ok result =>
      rw [bind_of_ok hxts] at h
      exact hf _ _ _ h

theorem ite {c : Prop} [Decidable c] (hx : x.Justified) (hy : y.Justified) :
    (if c then x else y).Justified := by
  split
  · exact hx
  · exact hy

/-- A branch on what comes next. -/
theorem branch {test : List Token → Bool} (hx : x.Justified) (hy : y.Justified) :
    Reader.Justified fun ts => if test ts then x ts else y ts := by
  intro ts r h
  dsimp only at h
  split at h
  · exact hx _ _ h
  · exact hy _ _ h

theorem require (word : String) {reason : Reason} (h : reason ≠ .invalidLiteral) :
    (Reader.require word reason).Justified := by
  intro ts r hr
  rw [Reader.require.eq_def] at hr
  split at hr
  · split at hr
    · cases hr
    · cases hr
      exact Refusal.justified_of_ne h
  · cases hr
    exact Refusal.justified_of_ne h

theorem expect (word : String) : (Reader.expect word).Justified := require word nofun

theorem identifier : Reader.identifier.Justified := by
  intro ts r hr
  rw [Reader.identifier.eq_def] at hr
  split at hr
  · split at hr
    · cases hr
    · cases hr
      exact Refusal.justified_of_ne nofun
  · cases hr
    exact Refusal.justified_of_ne nofun

/-- A word that is not there is no reason to refuse. -/
theorem accept (word : String) : (Reader.accept word).Justified := by
  intro ts r hr
  rw [Reader.accept.eq_def] at hr
  split at hr
  · split at hr <;> cases hr
  · cases hr

theorem repeatWhile {more : List Token → Bool} (hx : x.Justified) (bound : Nat) :
    (Reader.repeatWhile more x bound).Justified := by
  induction bound with
  | zero => exact pure []
  | succ bound ih => exact branch (bind hx fun _ => bind ih fun _ => pure _) (pure [])

theorem separated (mark : String) (hx : x.Justified) (bound : Nat) :
    (Reader.separated mark x bound).Justified :=
  bind hx fun _ => bind (repeatWhile (bind (expect mark) fun _ => hx) bound) fun _ => pure _

end Reader.Justified

open Reader.Justified

section Productions

variable {expr : Reader (Expr Bare)} {block : Reader (List (Stmt Bare))}

theorem chainOnto_justified {operand : Reader (Expr Bare)} (h : operand.Justified) (level : Level)
    (bound : Nat) (left : Expr Bare) : (chainOnto level operand bound left).Justified := by
  induction bound generalizing left with
  | zero => exact pure left
  | succ bound ih =>
      intro ts r hr
      rw [chainOnto] at hr
      dsimp only at hr
      split at hr
      · cases hr
      · exact bind h (fun _ => ih _) _ _ hr

theorem chain_justified {operand : Reader (Expr Bare)} (h : operand.Justified) (level : Level)
    (bound : Nat) : (chain level bound operand).Justified :=
  bind h fun first => chainOnto_justified h level bound first

theorem named_justified (h : expr.Justified) (bound offset : Nat) (name : String) :
    (named bound expr offset name).Justified :=
  bind (accept "[") fun _ => ite
    (bind h fun _ => bind (expect "]") fun _ => pure _)
    (bind (accept "(") fun _ => ite
      (bind (accept ")") fun _ => ite (pure _)
        (bind (separated "," h bound) fun _ => bind (expect ")") fun _ => pure _))
      (pure _))

theorem grouped_justified (h : expr.Justified) (offset : Nat) : (grouped expr offset).Justified :=
  bind h fun _ => bind (require ")" nofun) fun _ => pure _

theorem listed_justified (h : expr.Justified) (bound offset : Nat) :
    (listed bound expr offset).Justified :=
  bind (separated "," h bound) fun _ => bind (expect "]") fun _ => pure _

/-- The one place at which a literal is called invalid. -/
theorem primary_justified (h : expr.Justified) (bound : Nat) : (primary bound expr).Justified := by
  intro ts r hr
  rw [primary.eq_def] at hr
  split at hr
  · cases hr
    exact Refusal.justified_of_ne nofun
  · next t rest =>
      split at hr
      · split at hr
        · cases hr
        · exact named_justified h _ _ _ _ _ hr
      · split at hr
        · exact grouped_justified h _ _ _ hr
        · split at hr
          · exact listed_justified h _ _ _ _ hr
          · cases hr
            exact Refusal.justified_of_ne nofun
      · next hname hmark =>
          split at hr
          · cases hr
          · next hnone =>
              cases hr
              exact fun _ => ⟨t, rest, rfl, hname, hmark, hnone⟩

theorem expression_justified (bound : Nat) : (expression bound).Justified := by
  induction bound with
  | zero => exact refuse nofun
  | succ bound ih =>
      exact chain_justified (chain_justified (chain_justified (chain_justified
        (primary_justified ih bound) _ _) _ _) _ _) _ _

theorem typeName_justified : typeName.Justified :=
  bind (accept ":") fun _ => ite (bind identifier fun _ => pure _) (pure _)

theorem initialValue_justified (h : expr.Justified) : (initialValue expr).Justified :=
  bind (accept "=") fun _ => ite (bind h fun _ => pure _) (pure _)

theorem statementOf_justified (bound : Nat) (h : expr.Justified) (hblock : block.Justified) :
    (statementOf bound expr block).Justified := by
  have declaration : (declaration expr).Justified :=
    bind (expect "LET") fun _ => bind identifier fun _ => bind typeName_justified fun _ =>
      bind (initialValue_justified h) fun _ => bind (expect ";") fun _ => pure _
  have choice : (choice expr block).Justified :=
    bind (expect "IF") fun _ => bind h fun _ => bind (expect "DO") fun _ => bind hblock fun _ =>
      bind (accept "ELSE") fun _ => ite
        (bind hblock fun _ => bind (expect "END") fun _ => pure _)
        (bind (pure _) fun _ => bind (expect "END") fun _ => pure _)
  have valuedCase : (valuedCase expr block).Justified :=
    bind (expect "CASE") fun _ => bind h fun _ => bind (expect ":") fun _ => bind hblock fun _ =>
      pure _
  have switch : (switch bound expr block).Justified :=
    bind (expect "SWITCH") fun _ => bind h fun _ => bind (repeatWhile valuedCase bound) fun _ =>
      bind (require "DEFAULT" nofun) fun _ => bind hblock fun _ => bind (expect "END") fun _ => pure _
  have loop : (loop expr block).Justified :=
    bind (expect "WHILE") fun _ => bind h fun _ => bind (expect "DO") fun _ => bind hblock fun _ =>
      bind (expect "END") fun _ => pure _
  have giveBack : (giveBack expr).Justified :=
    bind (expect "RETURN") fun _ => bind h fun _ => bind (expect ";") fun _ => pure _
  have simple : (simple expr).Justified :=
    bind h fun _ => bind (accept "=") fun _ => ite
      (bind h fun _ => bind (expect ";") fun _ => pure _)
      (bind (expect ";") fun _ => pure _)
  exact branch declaration (branch choice (branch switch (branch loop (branch giveBack simple))))

theorem statement_justified (bound : Nat) : (statement bound).Justified := by
  induction bound with
  | zero => exact refuse nofun
  | succ bound ih =>
      exact statementOf_justified bound (expression_justified bound) (repeatWhile ih bound)

theorem global_justified (bound : Nat) : (global bound).Justified := by
  have h := expression_justified bound
  have varGlobal : (varGlobal (expression bound)).Justified :=
    bind (expect "VAR") fun _ => bind identifier fun _ => bind typeName_justified fun _ =>
      bind (initialValue_justified h) fun _ => pure _
  have valGlobal : (valGlobal (expression bound)).Justified :=
    bind (expect "VAL") fun _ => bind identifier fun _ => bind typeName_justified fun _ =>
      bind (expect "=") fun _ => bind h fun _ => pure _
  have listGlobal : (listGlobal bound (expression bound)).Justified :=
    bind (expect "LIST") fun _ => bind identifier fun _ => bind typeName_justified fun _ =>
      bind (expect "=") fun _ => bind (expect "[") fun _ =>
        bind (listed_justified h bound _) fun _ => pure _
  exact bind (branch varGlobal (branch valGlobal listGlobal)) fun _ =>
    bind (expect ";") fun _ => pure _

theorem function_justified (bound : Nat) : (function bound).Justified := by
  have parameter : parameter.Justified :=
    bind identifier fun _ => bind typeName_justified fun _ => pure _
  have parameters : (parameters bound).Justified :=
    bind (accept ")") fun _ => ite (pure _)
      (bind (separated "," parameter bound) fun _ => bind (expect ")") fun _ => pure _)
  exact bind (expect "FUN") fun _ => bind identifier fun _ => bind (expect "(") fun _ =>
    bind parameters fun _ => bind typeName_justified fun _ => bind (expect "DO") fun _ =>
      bind (repeatWhile (statement_justified bound) bound) fun _ => bind (expect "END") fun _ =>
        pure _

theorem atEnd_justified : atEnd.Justified := by
  intro ts r hr
  rw [atEnd.eq_def] at hr
  split at hr
  · cases hr
  · split at hr <;> cases hr <;> exact Refusal.justified_of_ne nofun

theorem program_justified (bound : Nat) : (program bound).Justified :=
  bind (repeatWhile (global_justified bound) bound) fun _ =>
    bind (repeatWhile (function_justified bound) bound) fun _ => bind atEnd_justified fun _ => pure _

end Productions

end Grammar

/-! ## §4 Texts -/

namespace Token

/-- **No literal is rejected or cut short.** Every literal token of a text has the value that it
spells, and no program is refused for a literal. -/
theorem scan_literals_read {text : String} {ts : List Token} (h : scan text = .ok ts) :
    (∀ e, Program.ofTokens ts = .error e → e.reason ≠ .invalidLiteral) ∧ ∀ t ∈ ts, t.HasValue := by
  have hvalues : ∀ t ∈ ts, t.HasValue := fun t ht => (spelled_of_scan h t ht).hasValue
  refine ⟨fun e herror hreason => ?_, hvalues⟩
  obtain ⟨taken, r, hprogram, htokens, rfl⟩ := Grammar.exists_refusal herror
  rw [Grammar.Refusal.locate_reason] at hreason
  obtain ⟨t, rest, hrest, hname, hmark, hnone⟩ :=
    Grammar.program_justified _ _ _ hprogram hreason
  -- The literal that is called invalid is a token of the text, so it has a value.
  have ht : t ∈ ts := by rw [htokens, hrest]; simp
  exact (hvalues t ht).scalar?_ne_none hname hmark hnone

/-- Literals of all four kinds. -/
def literals : String := "-12.050 7 '\\'' \"a\\n\\\\\""

theorem literals_read : ∃ ts, scan literals = .ok ts ∧
    ts.filterMap scalar? =
      [.decimal ⟨-12050, 3⟩, .integer 7, .character '\'', .string "a\n\\"] ∧
    (∀ e, Program.ofTokens ts = .error e → e.reason ≠ .invalidLiteral) ∧
    ∀ t ∈ ts, t.HasValue := by
  have hscan : (scan literals).toOption.map (·.filterMap scalar?) =
      some [.decimal ⟨-12050, 3⟩, .integer 7, .character '\'', .string "a\n\\"] := by
    decide +kernel
  cases h : scan literals with
  | error e =>
      rw [h] at hscan
      cases hscan
  | ok ts =>
      rw [h] at hscan
      exact ⟨ts, rfl, Option.some.inj hscan, scan_literals_read h⟩

end Token

end DynImp
