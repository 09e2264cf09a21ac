import DynImp.Proofs.Decimal.Text
import DynImp.Proofs.Grammar.Grammatical
import DynImp.Proofs.Text.Quoted

/-!
# What a displayed tree begins with

The first characters of an S-expression tell the kind of the tree that is displayed, and the
word that the tree begins with.

* **Layer A: words.** Names, constants and numbers have no character in them that ends a word, and
  a number does not look like a name.
* **Layer B: scalars.** Those without quotes are told apart by their words.
* **Layer C: leads.** `leadOf` finds at the front of a text what a tree says about itself
  (`leadOf_display`), as long as it is followed by what follows a tree in another one.
-/

namespace DynImp

/-! ## §1 Words -/

namespace Display

/-- The characters that no word has in it. -/
def breaks : List Char := [' ', '(', ')', '[', ']', '\'', '"']

/-- What a word consists of. -/
def isWordPart (c : Char) : Bool := c ∉ breaks

/-- Whether a word is a number, going by its first character. -/
def startsNumber : List Char → Bool
  | c :: _ => c.isDigit ∨ c = '-'
  | [] => false

/-- Characters of a class that no break belongs to are parts of words. -/
theorem isWordPart_of_class {inClass : Char → Bool} (hclass : breaks.any inClass = false)
    {c : Char} (h : inClass c = true) : isWordPart c = true := by
  rw [isWordPart, decide_eq_true_eq]
  exact fun hmem => List.any_eq_false.mp hclass c hmem h

theorem isWordPart_of_isDigit {c : Char} (h : c.isDigit = true) : isWordPart c = true :=
  isWordPart_of_class (by decide) h

/-- **Words.** -/
structure IsWord (cs : List Char) : Prop where
  ne_nil : cs ≠ []
  parts : ∀ c ∈ cs, isWordPart c = true

instance (cs : List Char) : Decidable (IsWord cs) :=
  decidable_of_iff (cs ≠ [] ∧ cs.all isWordPart = true)
    ⟨fun h => ⟨h.1, List.all_eq_true.mp h.2⟩, fun h => ⟨h.ne_nil, List.all_eq_true.mpr h.parts⟩⟩

theorem isWord_of_identifier {name : String} (h : Identifier name) :
    IsWord name.toList ∧ startsNumber name.toList = false := by
  obtain ⟨first, others, hname, hfirst, hothers⟩ := h
  obtain ⟨-, -, hdigit⟩ := Token.nameStart_start hfirst
  have hminus : first ≠ '-' := by
    rintro rfl
    exact absurd hfirst (by decide)
  rw [hname]
  refine ⟨⟨List.cons_ne_nil _ _, List.forall_mem_cons.mpr ⟨?_, fun c hc => ?_⟩⟩, ?_⟩
  · exact isWordPart_of_class (by decide) hfirst
  · exact isWordPart_of_class (by decide) (hothers c hc)
  · simp [startsNumber, hdigit, hminus]

/-- Digits behind an optional sign are a word that is a number, whatever comes after them in it. -/
theorem isWord_of_digits {sign ds rest : List Char} (hsign : sign = [] ∨ sign = ['-'])
    (hne : ds ≠ []) (hdigits : ∀ d ∈ ds, d.isDigit = true)
    (hrest : ∀ c ∈ rest, isWordPart c = true) :
    IsWord (sign ++ (ds ++ rest)) ∧ startsNumber (sign ++ (ds ++ rest)) = true := by
  have hparts : ∀ c ∈ ds ++ rest, isWordPart c = true :=
    List.forall_mem_append.mpr ⟨fun c hc => isWordPart_of_isDigit (hdigits c hc), hrest⟩
  obtain ⟨d, others, rfl⟩ := List.exists_cons_of_ne_nil hne
  obtain rfl | rfl := hsign
  · exact ⟨⟨List.cons_ne_nil _ _, hparts⟩, by simp [startsNumber, hdigits d List.mem_cons_self]⟩
  · exact ⟨⟨List.cons_ne_nil _ _, List.forall_mem_cons.mpr ⟨by decide, hparts⟩⟩, rfl⟩

theorem isWord_signedText (i : Int) :
    IsWord (Numeral.signedText 10 i).toList ∧
      startsNumber (Numeral.signedText 10 i).toList = true := by
  obtain ⟨hne, hdigits⟩ := (Numeral.isMagnitude_text i.natAbs).digits
  have h := isWord_of_digits (Numeral.sign_eq i) hne hdigits (List.forall_mem_nil _)
  rwa [List.append_nil, ← Numeral.signedText_toList] at h

/-- In every layout there are digits first. -/
theorem exists_layOut (n : Nat) (scale : Int) :
    ∃ ds rest, Decimal.layOut (Numeral.text 10 n) scale = ds ++ rest ∧ ds ≠ [] ∧
      (∀ d ∈ ds, d.isDigit = true) ∧ ∀ c ∈ rest, isWordPart c = true := by
  obtain ⟨hne, hdigits⟩ := (Numeral.isMagnitude_text n).digits
  have hword : ∀ ds : List Char, (∀ d ∈ ds, d.isDigit = true) → ∀ c ∈ ds, isWordPart c = true :=
    fun _ hds c hc => isWordPart_of_isDigit (hds c hc)
  have hexponent := fun i => (isWord_signedText i).1.parts
  -- A power of ten with one digit in front of the point; a point among the digits; zeros behind the
  -- digits; an exponent behind the digits.
  unfold Decimal.layOut
  split
  · split
    · obtain ⟨d, ds, hds⟩ := List.exists_cons_of_ne_nil hne
      rw [hds, List.forall_mem_cons] at hdigits
      obtain ⟨point, hpoint, hparts⟩ : ∃ point, Decimal.leadingPoint (d :: ds) = d :: point ∧
          ∀ c ∈ point, isWordPart c = true := by
        cases ds with
        | nil => exact ⟨[], rfl, List.forall_mem_nil _⟩
        | cons c ds => exact ⟨_, rfl, List.forall_mem_cons.mpr ⟨by decide, hword _ hdigits.2⟩⟩
      rw [hds, hpoint, List.append_assoc]
      refine ⟨[d], point ++ (['E'] ++ _), rfl, List.cons_ne_nil _ _,
        List.forall_mem_singleton.mpr hdigits.1, ?_⟩
      exact List.forall_mem_append.mpr
        ⟨hparts, List.forall_mem_cons.mpr ⟨by decide, hexponent _⟩⟩
    · next hscale _ =>
      obtain ⟨whole, fraction, hpoint, hspec⟩ :=
        Decimal.exists_positional n (show 1 ≤ scale.toNat by omega)
      obtain ⟨hwhole, hfraction⟩ := List.forall_mem_append.mp hspec.digits
      refine ⟨whole, '.' :: fraction, hpoint, hspec.magnitude.digits.1, hwhole, ?_⟩
      exact List.forall_mem_cons.mpr ⟨by decide, hword _ hfraction⟩
  · split
    · refine ⟨_, Decimal.zeros _, rfl, hne, hdigits, fun c hc => ?_⟩
      rw [List.eq_of_mem_replicate hc]
      decide
    · refine ⟨_, ['e', '+'] ++ _, List.append_assoc _ _ _, hne, hdigits, ?_⟩
      exact List.forall_mem_cons.mpr ⟨by decide, List.forall_mem_cons.mpr ⟨by decide, hexponent _⟩⟩

theorem isWord_decimal (d : Decimal) :
    IsWord d.text.toList ∧ startsNumber d.text.toList = true := by
  cases hzero : d.isZero with
  | true =>
      rw [Decimal.text, if_pos hzero]
      exact ⟨by decide, by decide⟩
  | false =>
      obtain ⟨ds, rest, hlayout, hne, hdigits, hrest⟩ := exists_layOut d.unscaled.natAbs d.scale
      rw [Decimal.text_toList hzero, hlayout]
      exact isWord_of_digits (Numeral.sign_eq _) hne hdigits hrest

end Display

/-! ## §2 Scalars -/

namespace Scalar

/-- The quote around a displayed scalar, if there is one. -/
def quote? : Scalar → Option Char
  | .character _ => some '\''
  | .string _ => some '"'
  | _ => none

/-- Displayed scalars that count as the same: equal ones, and numbers with the same text. -/
inductive Alike : Scalar → Scalar → Prop where
  | same (v : Scalar) : Alike v v
  | numbers {v w : Scalar} : v.number?.isSome → w.number?.isSome → v.text = w.text → Alike v w

theorem Alike.quoted_eq {v w : Scalar} (h : v.Alike w) : v.quoted = w.quoted := by
  cases h with
  | same => rfl
  | numbers hv hw htext => cases v <;> cases hv <;> cases w <;> cases hw <;> exact htext

end Scalar

namespace Display

/-- A scalar without quotes is a constant or a number, and its text tells which. -/
theorem plain_cases {v : Scalar} (h : v.quote? = none) :
    v.quoted = v.text ∧ IsWord v.text.toList ∧
      ((startsNumber v.text.toList = true ∧ v.number?.isSome) ∨
        startsNumber v.text.toList = false ∧ Token.constant? v.text = some v) := by
  cases v with
  | nil => exact ⟨rfl, by decide, .inr ⟨by decide, by decide⟩⟩
  | boolean b => cases b <;> exact ⟨rfl, by decide, .inr ⟨by decide, by decide⟩⟩
  | integer i =>
      obtain ⟨hword, hstarts⟩ := isWord_signedText i
      exact ⟨rfl, hword, .inl ⟨hstarts, rfl⟩⟩
  | decimal d =>
      obtain ⟨hword, hstarts⟩ := isWord_decimal d
      exact ⟨rfl, hword, .inl ⟨hstarts, rfl⟩⟩
  | character | string => cases h

end Display

/-! ## §3 Leads -/

/-- **Leads.** What can be seen at the front of a displayed tree. -/
inductive Lead where
  /-- A quote, or a word that is a constant or a number. -/
  | literal (quote : Option Char) (word : List Char)
  | name (word : List Char)
  /-- A name with a bracket right after it. -/
  | element (word : List Char)
  /-- What stands between an opening parenthesis and a space. -/
  | form (word : List Char)
  | list

namespace Display

/-- The lead of a text. -/
def leadOf (cs : List Char) : Lead :=
  let word := cs.takeWhile isWordPart
  if cs.head? = some '(' then .form (cs.tail.takeWhile (· ≠ ' '))
  else if cs.head? = some '[' then .list
  else if cs.head? = some '\'' ∨ cs.head? = some '"' then .literal cs.head? []
  else if startsNumber word ∨ (Token.constant? (String.ofList word)).isSome then .literal none word
  else if (cs.dropWhile isWordPart).head? = some '[' then .element word
  else .name word

/-- What may follow a tree that is displayed in another one. -/
def Ends (rest : List Char) : Prop := ∀ c ∈ rest.head?, c = ' ' ∨ c = ')' ∨ c = ']'

theorem leadOf_word {word rest : List Char} (hword : IsWord word)
    (hrest : Token.StopsAt isWordPart rest) :
    leadOf (word ++ rest) =
      if startsNumber word ∨ (Token.constant? (String.ofList word)).isSome then .literal none word
      else if rest.head? = some '[' then .element word else .name word := by
  obtain ⟨htake, hdrop⟩ := Token.span_append hword.parts hrest
  obtain ⟨c, cs, rfl⟩ := List.exists_cons_of_ne_nil hword.ne_nil
  -- The first character is part of the word, so it opens no form, no list and no quoted text.
  have hbreak : ∀ b ∈ breaks, c ≠ b := by
    rintro b hb rfl
    exact absurd (hword.parts c List.mem_cons_self) (by simpa [isWordPart] using hb)
  have hhead : ∀ b ∈ breaks, (c :: cs ++ rest).head? ≠ some b :=
    fun b hb heq => hbreak b hb (Option.some.inj heq)
  rw [leadOf, htake, hdrop, if_neg (hhead '(' (by decide)), if_neg (hhead '[' (by decide)),
    if_neg (not_or.mpr ⟨hhead '\'' (by decide), hhead '"' (by decide)⟩)]

end Display

open Display

/-- The lead of a scalar. -/
def Scalar.lead (v : Scalar) : Lead :=
  .literal v.quote? (if v.quote?.isSome then [] else v.text.toList)

namespace Expr

variable {ν : Notes}

/-- The lead of a tree. -/
def lead : Expr ν → Lead
  | literal _ _ v => v.lead
  | group .. => .form "group".toList
  | binary _ op _ _ => .form op.symbol.toList
  | var _ _ _ name => .name name.toList
  | element _ _ _ name _ => .element name.toList
  | call .. => .form "call".toList
  | list .. => .list

/-- **Named nodes.** Names are spelled like one and are no constants, and a list has items. -/
def Named : Expr ν → Prop
  | literal .. | group .. | binary .. => True
  | var _ _ _ name | element _ _ _ name _ | call _ _ _ name _ =>
    Identifier name ∧ Token.constant? name = none
  | list _ _ items => items ≠ []

end Expr

namespace Display

variable {rest : List Char}

theorem Ends.stopsAt (h : Ends rest) : Token.StopsAt isWordPart rest := by
  intro c hc
  obtain rfl | rfl | rfl := h c hc <;> decide

theorem Ends.not_bracket (h : Ends rest) : rest.head? ≠ some '[' := by
  intro heq
  exact absurd (h '[' heq) (by decide)

theorem ends_nil : Ends [] := nofun

theorem ends_cons {c : Char} (h : c = ' ' ∨ c = ')' ∨ c = ']') (rest : List Char) :
    Ends (c :: rest) := by
  rintro _ ⟨⟩
  exact h

theorem leadOf_name {name : String} (hname : Identifier name)
    (hconstant : Token.constant? name = none) (hrest : Token.StopsAt isWordPart rest) :
    leadOf (name.toList ++ rest) =
      if rest.head? = some '[' then .element name.toList else .name name.toList := by
  obtain ⟨hword, hstarts⟩ := isWord_of_identifier hname
  rw [leadOf_word hword hrest, String.ofList_toList, hconstant, hstarts]
  rfl

/-- **Names are made out from the front.** -/
theorem name_append_inj {name name' : String} {rest rest' : List Char} (hname : Identifier name)
    (hname' : Identifier name') (hrest : Ends rest) (hrest' : Ends rest')
    (h : name.toList ++ rest = name'.toList ++ rest') : name = name' ∧ rest = rest' := by
  obtain ⟨htake, hdrop⟩ := Token.span_append (isWord_of_identifier hname).1.parts hrest.stopsAt
  obtain ⟨htake', hdrop'⟩ :=
    Token.span_append (isWord_of_identifier hname').1.parts hrest'.stopsAt
  rw [h] at htake hdrop
  exact ⟨String.toList_inj.mp (htake.symm.trans htake'), hdrop.symm.trans hdrop'⟩

theorem leadOf_scalar (v : Scalar) (hrest : Ends rest) :
    leadOf (v.quoted.toList ++ rest) = v.lead := by
  cases hquote : v.quote? with
  | some quote =>
      cases v <;> cases hquote <;>
        simp [Scalar.quoted, Text.quotedChar, Text.quotedString, Text.quoted, leadOf, Scalar.lead,
          Scalar.quote?]
  | none =>
      obtain ⟨hquoted, hword, hkind⟩ := plain_cases hquote
      have hliteral : startsNumber v.text.toList ∨ (Token.constant? v.text).isSome := by
        obtain ⟨hstarts, -⟩ | ⟨-, hconstant⟩ := hkind
        · exact .inl hstarts
        · exact .inr (by rw [hconstant]; rfl)
      rw [hquoted, leadOf_word hword hrest.stopsAt, String.ofList_toList, if_pos hliteral,
        Scalar.lead, hquote]
      rfl

/-- No operator is written like the word at the front of a group or a call. -/
theorem symbol_ne_form (op : BinaryOp) {word : String} (hword : word = "group" ∨ word = "call") :
    op.symbol.toList ≠ word.toList := by
  obtain rfl | rfl := hword <;> cases op <;> decide

/-- **The lead can be seen.** -/
theorem leadOf_display {ν : Notes} {e : Expr ν} (he : e.Named) (hrest : Ends rest) :
    leadOf (e.display.toList ++ rest) = e.lead := by
  cases e with
  | literal o τ v => exact leadOf_scalar v hrest
  | group o τ inner => simp [Expr.display, leadOf, Expr.lead]
  | binary τ op left right => cases op <;> simp [Expr.display, leadOf, Expr.lead, BinaryOp.symbol]
  | var o τ x name =>
      rw [Expr.display, leadOf_name he.1 he.2 hrest.stopsAt, if_neg hrest.not_bracket]
      rfl
  | element o τ x name index =>
      rw [Expr.display, String.toList_append, String.toList_append, String.toList_append]
      simp only [List.append_assoc]
      rw [leadOf_name he.1 he.2 (by simp [Token.StopsAt]; decide), if_pos (by simp)]
      rfl
  | call o τ f name args => simp [Expr.display, leadOf, Expr.lead]
  | list o τ items => simp [Expr.display, leadOf, Expr.lead]

theorem alike_of_text {v w : Scalar} (hv : v.quote? = none) (hw : w.quote? = none)
    (htext : v.text = w.text) : v.Alike w := by
  obtain ⟨-, -, ⟨hstarts, hnumber⟩ | ⟨hstarts, hconstant⟩⟩ := plain_cases hv <;>
    obtain ⟨-, -, ⟨hstarts', hnumber'⟩ | ⟨hstarts', hconstant'⟩⟩ := plain_cases hw <;>
    rw [htext] at hstarts
  · exact .numbers hnumber hnumber' htext
  -- A number and a constant have different first characters.
  · rw [hstarts'] at hstarts
    cases hstarts
  · rw [hstarts'] at hstarts
    cases hstarts
  · rw [htext, hconstant'] at hconstant
    cases hconstant
    exact .same v

/-- **Scalars are made out from the front.** -/
theorem quoted_append_inj {v w : Scalar} {rest' : List Char} (hlead : v.lead = w.lead)
    (h : v.quoted.toList ++ rest = w.quoted.toList ++ rest') : v.Alike w ∧ rest = rest' := by
  obtain ⟨hquote, hword⟩ := Lead.literal.inj hlead
  cases hv : v.quote? with
  | some quote =>
      have hw := hquote.symm.trans hv
      cases v <;> cases hv <;> cases w <;> cases hw <;>
        simp only [Scalar.quoted, Text.quotedChar, Text.quotedString, String.toList_ofList] at h
      -- A character between single quotes, and a string between double ones.
      · obtain ⟨htext, hrest⟩ := Text.quoted_append_inj (.inl rfl) h
        cases htext
        exact ⟨.same _, hrest⟩
      · obtain ⟨htext, hrest⟩ := Text.quoted_append_inj (.inr rfl) h
        cases String.toList_inj.mp htext
        exact ⟨.same _, hrest⟩
  | none =>
      have hw := hquote.symm.trans hv
      rw [hv, hw] at hword
      have htext : v.text = w.text := String.toList_inj.mp hword
      rw [(plain_cases hv).1, (plain_cases hw).1, htext] at h
      exact ⟨alike_of_text hv hw htext, List.append_cancel_left h⟩

end Display

end DynImp
