import DynImp.Proofs.Grammar.Takes
import DynImp.Proofs.Token.Tiling

/-!
# Quoted literals

The scanner finds the end of a quoted literal by its units, and the grammar decodes what
stands between the quotes by itself.  Both have to agree on where an escape ends.

* **Layer A: units.** Whatever the scanner takes for one unit is decoded as one character, on its
  own and in front of anything else.
* **Layer B: escapings.** A way to write characters as units is read back, whichever it is.
* **Layer C: literals.** A text in quotes is one token, and this is read as one literal.
-/

namespace DynImp

namespace Text

open DynImp.Token (IsUnit)

/-! ## §1 Units -/

theorem unescape_plain {c : Char} (h : c ≠ '\\') (rest : List Char) :
    unescape (c :: rest) = c :: unescape rest := by
  rw [unescape]
  · rintro rfl; exact absurd rfl h
  · rintro _ _ rfl; exact absurd rfl h

/-- A unit is decoded as one character, on its own and whatever comes after it. -/
theorem exists_unescape {quote : Char} {unit : List Char} (h : IsUnit quote unit) :
    ∃ c, unescape unit = [c] ∧ ∀ rest, unescape (unit ++ rest) = c :: unescape rest := by
  cases h with
  | @plain c _ hbackslash =>
      exact ⟨c, unescape_plain hbackslash [], unescape_plain hbackslash⟩
  | @escape letter _ =>
      exact ⟨escapeValue letter, by simp [unescape], fun rest => by simp [unescape]⟩

/-- The quotes of characters and strings. -/
def IsQuote (quote : Char) : Prop := quote = '\'' ∨ quote = '"'

/-- **Escapings.** A way to write characters between two copies of `quote`: each as a unit, which is
decoded as the character. -/
structure Escaping (quote : Char) (write : Char → List Char) : Prop where
  isUnit : ∀ c, IsUnit quote (write c)
  decoded : ∀ c, unescape (write c) = [c]

/-- What is escaped is read back. -/
theorem Escaping.unescape_flatMap {quote : Char} {write : Char → List Char}
    (h : Escaping quote write) (cs : List Char) : unescape (cs.flatMap write) = cs := by
  induction cs with
  | nil => rfl
  | cons c cs ih =>
      -- The unit that is written for `c` is decoded in front of the others as it is alone.
      obtain ⟨d, hunit, happend⟩ := exists_unescape (h.isUnit c)
      obtain rfl : c = d := by simpa using (h.decoded c).symm.trans hunit
      rw [List.flatMap_cons, happend, ih]

/-! ## §2 Escapes for everything that has one -/

/-- The characters with an escape, each with the letter after the backslash. -/
def escapes : List (Char × Char) :=
  [('\x08', 'b'), ('\n', 'n'), ('\r', 'r'), ('\t', 't'), ('\'', '\''), ('"', '"'), ('\\', '\\')]

/-- A character, or its escape if it has one. -/
def escape (c : Char) : List Char :=
  match escapes.lookup c with
  | some letter => ['\\', letter]
  | none => [c]

/-- The scanner takes the letters of the table for escapes, and the grammar decodes them so. -/
theorem escapes_decoded : ∀ e ∈ escapes, isEscapeLetter e.2 ∧ escapeValue e.2 = e.1 := by
  decide

theorem escaping_escape {quote : Char} (hquote : IsQuote quote) : Escaping quote escape := by
  suffices h : ∀ c, IsUnit quote (escape c) ∧ unescape (escape c) = [c] from
    ⟨fun c => (h c).1, fun c => (h c).2⟩
  intro c
  cases hc : escapes.lookup c with
  | some letter =>
      obtain ⟨before, after, htable, -⟩ := List.lookup_eq_some_iff.mp hc
      have hmem : (c, letter) ∈ escapes := by
        rw [htable]
        exact List.mem_append_right _ List.mem_cons_self
      obtain ⟨hletter, hvalue⟩ := escapes_decoded _ hmem
      simp only [escape, hc]
      exact ⟨.escape hletter, congrArg (· :: []) hvalue⟩
  | none =>
      -- A character without an escape is none of those that a unit excludes.
      have hne : ∀ d ∈ escapes.map Prod.fst, c ≠ d := by
        simpa using List.lookup_eq_none_iff.mp hc
      have hbackslash : c ≠ '\\' := hne _ (by decide)
      have hbare : c ≠ quote := by
        obtain rfl | rfl := hquote <;> exact hne _ (by decide)
      simp only [escape, hc]
      exact ⟨.plain hbare hbackslash (hne _ (by decide)) (hne _ (by decide)),
        unescape_plain hbackslash []⟩

/-- A text in quotes, with all escapes. -/
def enclosed (quote : Char) (cs : List Char) : String :=
  String.ofList (quote :: (cs.flatMap escape ++ [quote]))

end Text

namespace Token

open DynImp.Text

/-! ## §3 One token -/

theorem unquote?_eq {quote : Char} (h : IsQuote quote) (body : List Char) :
    unquote? (String.ofList (quote :: (body ++ [quote]))) = some body := by
  have hsize : quote.utf8Size = 1 := by obtain rfl | rfl := h <;> decide
  simp [unquote?, hsize]

section Escaping

variable {write : Char → List Char} (offset : Nat)

theorem spells_character (h : Escaping '\'' write) (c : Char) :
    Kind.character.Spells ('\'' :: (write c ++ ['\''])) :=
  ⟨_, h.isUnit c, rfl⟩

theorem spells_string (h : Escaping '"' write) (cs : List Char) :
    Kind.string.Spells ('"' :: (cs.flatMap write ++ ['"'])) := by
  refine ⟨cs.map write, fun u hu => ?_, by rw [List.flatMap_def]⟩
  obtain ⟨c, -, rfl⟩ := List.mem_map.mp hu
  exact h.isUnit c

theorem scalar?_character (h : Escaping '\'' write) (c : Char) :
    scalar? ⟨.character, String.ofList ('\'' :: (write c ++ ['\''])), offset⟩ =
      some (.character c) := by
  rw [scalar?, unquote?_eq (.inl rfl), Option.bind_some, h.decoded]
  rfl

theorem scalar?_string (h : Escaping '"' write) (s : String) :
    scalar? ⟨.string, String.ofList ('"' :: (s.toList.flatMap write ++ ['"'])), offset⟩ =
      some (.string s) := by
  rw [scalar?, unquote?_eq (.inr rfl), Option.map_some, h.unescape_flatMap, String.ofList_toList]

end Escaping

/-- A spelling of a kind that nothing follows is scanned as one token. -/
theorem scan_spelling {kind : Kind} {cs : List Char} (hspells : kind.Spells cs)
    (hends : kind.EndsBefore cs []) :
    scan (String.ofList cs) = .ok [⟨kind, String.ofList cs, 0⟩] := by
  let l : Lexeme := ⟨kind, cs, []⟩
  have hproper : l.Proper := ⟨hspells, hends⟩
  have htiles := hproper.tiles ((tiles_nil (0 + width l.text) []).mpr rfl)
  rw [List.append_nil] at htiles
  rw [scan, String.toList_ofList]
  exact scanFrom_eq_ok_iff.mpr htiles

end Token

namespace Grammar

theorem primary_scalar {t : Token} {value : Scalar} (h : t.scalar? = some value) (bound : Nat)
    (inner : Reader (Expr Bare)) (rest : List Token) :
    primary bound inner (t :: rest) = .ok (.literal t.offset () value, rest) := by
  have hkind : t.kind ≠ .identifier ∧ t.kind ≠ .operator := by
    constructor <;> intro hkind <;> simp [Token.scalar?, hkind] at h
  rw [primary]
  split
  · next hidentifier => exact absurd hidentifier hkind.1
  · next hoperator => exact absurd hoperator hkind.2
  · rw [h]

/-- An operand at the end of the tokens is a chain. -/
theorem chain_of_end {operand : Reader (Expr Bare)} {ts : List Token} {e : Expr Bare}
    (h : operand ts = .ok (e, [])) (level : Level) (bound : Nat) :
    chain level bound operand ts = .ok (e, []) := by
  rw [chain, bind_of_ok h]
  cases bound <;> rfl

end Grammar

/-- A token with a value is an expression on its own. -/
theorem Expr.ofTokens_scalar {t : Token} {value : Scalar} (h : t.scalar? = some value) :
    Expr.ofTokens [t] = .ok (.literal t.offset () value, []) := by
  have hread := Grammar.primary_scalar h 1 (Grammar.expression 1) []
  have hchain := Grammar.chain_of_end (Grammar.chain_of_end (Grammar.chain_of_end
    (Grammar.chain_of_end hread .multiplicative 1) .additive 1) .comparison 1) .logical 1
  exact congrArg (Except.mapError _) hchain

namespace Token

open DynImp.Text

/-- **Literals with all escapes** are read back.  A string between double quotes, with an escape for
every character that has one, is scanned as one string token that covers the whole text, and this
token is read as the string; so is every character between single quotes. -/
theorem enclosed_read_back :
    (∀ s : String, scan (enclosed '"' s.toList) = .ok [⟨.string, enclosed '"' s.toList, 0⟩] ∧
      Expr.ofTokens [⟨.string, enclosed '"' s.toList, 0⟩] =
        .ok (.literal 0 () (.string s), [])) ∧
    ∀ c : Char, scan (enclosed '\'' [c]) = .ok [⟨.character, enclosed '\'' [c], 0⟩] ∧
      Expr.ofTokens [⟨.character, enclosed '\'' [c], 0⟩] =
        .ok (.literal 0 () (.character c), []) := by
  have hdouble := escaping_escape (.inr rfl : IsQuote '"')
  have hsingle := escaping_escape (.inl rfl : IsQuote '\'')
  refine ⟨fun s => ⟨scan_spelling (spells_string hdouble _) trivial, ?_⟩, fun c => ⟨?_, ?_⟩⟩
  · exact Expr.ofTokens_scalar (scalar?_string 0 hdouble s)
  · rw [enclosed, List.flatMap_singleton]
    exact scan_spelling (spells_character hsingle c) trivial
  · rw [enclosed, List.flatMap_singleton]
    exact Expr.ofTokens_scalar (scalar?_character 0 hsingle c)

end Token

end DynImp
