import DynImp.Proofs.Grammar.Grammatical
import DynImp.Proofs.Grammar.Literals
import DynImp.Proofs.Grammar.Rereading
import DynImp.Proofs.Numeral
import DynImp.Proofs.Token.Lookahead

/-!
# Texts of trees

Words are laid out as a text with a space after each, and scanned again.

* **Layer A: literals.** One spelling for every scalar that has a literal, which is read as
  the scalar.
* **Layer B: words.** What is laid out is scanned as tokens that write the words.
* **Layer C: trees.** All words of a grammatical tree can be laid out.
-/

namespace DynImp

namespace Text

open DynImp.Token (IsUnit)

/-! ## §1 Escapes -/

/-- How a character is written between two copies of `quote`. -/
def escaped (quote c : Char) : List Char :=
  if c = quote ∨ c = '\\' then ['\\', c]
  else if c = '\n' then ['\\', 'n']
  else if c = '\r' then ['\\', 'r']
  else [c]

theorem isUnit_escaped {quote : Char} (hquote : IsQuote quote) (c : Char) :
    IsUnit quote (escaped quote c) := by
  unfold escaped
  split
  · next h =>
      refine .escape ?_
      obtain rfl | rfl := h
      · obtain rfl | rfl := hquote <;> decide
      · decide
  · next h =>
      rw [not_or] at h
      split
      · exact .escape (by decide)
      · next hn =>
          split
          · exact .escape (by decide)
          · next hr => exact .plain h.1 h.2 hn hr

theorem unescape_escaped {quote : Char} (hquote : IsQuote quote) (c : Char) :
    unescape (escaped quote c) = [c] := by
  unfold escaped
  split
  · next h =>
      have hvalue : escapeValue c = c := by
        obtain rfl | rfl := h
        · obtain rfl | rfl := hquote <;> decide
        · decide
      rw [unescape, hvalue, unescape]
  · next h =>
      split
      · next hn => subst hn; rfl
      · split
        · next hr => subst hr; rfl
        · exact unescape_plain (not_or.mp h).2 []

theorem escaping_escaped {quote : Char} (hquote : IsQuote quote) :
    Escaping quote (escaped quote) :=
  ⟨isUnit_escaped hquote, unescape_escaped hquote⟩

end Text

/-! ## §2 Scalars -/

namespace Scalar

open DynImp.Text (escaped escaping_escaped)

/-- The kind of the literal for a scalar. -/
def kind : Scalar → Token.Kind
  | .nil | .boolean _ => .identifier
  | .integer _ => .integer
  | .decimal _ => .decimal
  | .character _ => .character
  | .string _ => .string

/-- The text of the literal for a scalar. -/
def spelling : Scalar → List Char
  | .decimal d => d.positional
  | .character c => '\'' :: (escaped '\'' c ++ ['\''])
  | .string s => '"' :: (s.toList.flatMap (escaped '"') ++ ['"'])
  | v => v.text.toList

theorem spells_spelling {v : Scalar} (h : v.HasLiteral) : v.kind.Spells v.spelling := by
  cases v with
  | nil => exact isIdentifier_iff.mp (by decide)
  | boolean b => cases b <;> exact isIdentifier_iff.mp (by decide)
  | integer i => exact Numeral.isInteger_signedText i
  | decimal d => exact Decimal.isDecimal_positional h.1
  | character c => exact Token.spells_character (escaping_escaped (.inl rfl)) c
  | string s => exact Token.spells_string (escaping_escaped (.inr rfl)) s.toList

/-- The literal for a scalar is read as the scalar. -/
theorem literal?_spelling {v : Scalar} (h : v.HasLiteral) (offset : Nat) :
    Token.literal? ⟨v.kind, String.ofList v.spelling, offset⟩ = some v := by
  cases v with
  | nil => rfl
  | boolean b => cases b <;> rfl
  | integer i =>
      simp [Token.literal?, Token.scalar?, kind, spelling, text, Numeral.ofText?_signedText]
  | decimal d =>
      have := Decimal.ofText?_positional h.1
      simp [Token.literal?, Token.scalar?, kind, spelling, this]
  | character c => exact Token.scalar?_character offset (escaping_escaped (.inl rfl)) c
  | string s => exact Token.scalar?_string offset (escaping_escaped (.inr rfl)) s

end Scalar

/-! ## §3 Words -/

namespace Word

/-- The kind of token that writes a word. -/
def kind : Word → Token.Kind
  | name _ => .identifier
  | mark _ => .operator
  | value v => v.kind

/-- The text of a word. -/
def spelling : Word → List Char
  | name text | mark text => text.toList
  | value v => v.spelling

/-- **Proper words.** Words that some text has. -/
def Proper : Word → Prop
  | name text => Identifier text
  | mark text => text.toList ∈ Token.operators
  | value v => v.HasLiteral

instance : (w : Word) → Decidable w.Proper
  | name text => inferInstanceAs (Decidable (Identifier text))
  | mark text => inferInstanceAs (Decidable (text.toList ∈ Token.operators))
  | value v => inferInstanceAs (Decidable v.HasLiteral)

theorem Proper.spells {w : Word} (h : w.Proper) : w.kind.Spells w.spelling := by
  cases w with
  | name | mark => exact h
  | value v => exact Scalar.spells_spelling h

theorem Proper.writes {w : Word} (h : w.Proper) (offset : Nat) :
    Token.Writes ⟨w.kind, String.ofList w.spelling, offset⟩ w := by
  cases w with
  | name text | mark text => exact ⟨rfl, String.ofList_toList⟩
  | value v => exact Scalar.literal?_spelling h offset

/-- The text of words, with a space after each. -/
def layOut (ws : List Word) : List Char := ws.flatMap fun w => w.spelling ++ [' ']

/-- What is laid out is scanned as tokens that write the words. -/
theorem exists_scan {ws : List Word} (h : ∀ w ∈ ws, w.Proper) :
    ∃ ts, Token.scan (String.ofList (layOut ws)) = .ok ts ∧ Token.WriteAll ts ws := by
  obtain ⟨ts, htiles, hwrites⟩ := Token.exists_tiles_spaced (fun w hw => (h w hw).spells)
    (fun w hw start => (h w hw).writes start) 0
  refine ⟨ts, Token.scanFrom_eq_ok_iff.mpr ?_, hwrites⟩
  rwa [String.toList_ofList]

end Word

end DynImp
