import DynImp.Numeral
import DynImp.Text.Alphabetic
import DynImp.Text.Numeric
import DynImp.Text.Blank
import DynImp.Text.Escape
import DynImp.Text.Width
import DynImp.Token

/-!
# From text to tokens

Scanning is greedy and stops at the first fault.

* **Layer A: lexemes.** One function per lexical category takes the characters after the
  first one apart into the text of the lexeme and the rest.
* **Layer B: texts.** White space between lexemes is skipped and every lexeme becomes a
  token at its byte offset.

Every scanner returns `text ++ rest` equal to its input, so the rest is never longer than
the input; that is what ends the walk over the whole text.
-/

namespace DynImp.Token

open DynImp.Numeral (startsWithDigit)
open DynImp.Text

/-! ## §1 Faults -/

/-- **Lexical faults.** Why a text has no next token. -/
inductive Fault where
  | unexpectedCharacter (c : Char)
  /-- `&`, `|` or `!` without its second character. -/
  | incompleteOperator (c : Char)
  /-- A `-` at the very end of the text. -/
  | danglingMinus
  /-- A `0` followed by another digit. -/
  | leadingZero
  /-- A point without a digit after it. -/
  | trailingDecimalPoint
  /-- A character literal with nothing between its quotes. -/
  | emptyCharacter
  /-- A character literal that goes on after one character. -/
  | characterTooLong
  /-- A character literal cut off by the end of the line or text. -/
  | unterminatedCharacter
  /-- A string literal cut off by the end of the line or text. -/
  | unterminatedString
  /-- A backslash before something that is no escape letter. -/
  | invalidEscape
  deriving DecidableEq, Repr

/-- The wording of a fault. -/
def Fault.message : Fault → String
  | .unexpectedCharacter c => "Unexpected character '" ++ String.singleton c ++ "'"
  | .incompleteOperator c => "Incomplete operator '" ++ String.singleton c ++ "'"
  | .danglingMinus => "Dangling '-'"
  | .leadingZero => "Leading zero in number literal"
  | .trailingDecimalPoint => "Decimal point must be followed by a digit"
  | .emptyCharacter => "Empty character literal"
  | .characterTooLong => "Character literal holds more than one character"
  | .unterminatedCharacter => "Unterminated character literal"
  | .unterminatedString => "Unterminated string"
  | .invalidEscape => "Invalid escape sequence"

/-- A fault at a byte of the text. -/
structure LexError where
  /-- The byte at which the fault shows. -/
  offset : Nat
  fault : Fault
  deriving DecidableEq, Repr

/-! ## §2 Lexemes -/

/-- **Lexeme.** The text of one token and what follows it. -/
structure Lexeme where
  kind : Kind
  text : List Char
  rest : List Char
  deriving DecidableEq, Repr

/-- The outcome of one scanner.  A fault comes with its distance in bytes from the start of
the lexeme. -/
abbrev Scan := Except (Nat × Fault) Lexeme

/-- Whether the text is over or goes on with a line break. -/
def atLineEnd : List Char → Bool
  | c :: _ => c = '\n' ∨ c = '\r'
  | [] => true

/-- **Numbers.** The lexeme `sign` followed by `first`, a digit, and by what of `rest` belongs
to the number.  A zero is followed by no digit, and a point by at least one. -/
def number (sign : List Char) (first : Char) (rest : List Char) : Scan :=
  let lead := sign ++ [first]
  if first = '0' ∧ startsWithDigit rest then .error (width lead, .leadingZero)
  else
    let whole := lead ++ rest.takeWhile Char.isDigit
    -- A point belongs to the number in any case: what does not go on behind it is a fault.
    match rest.dropWhile Char.isDigit with
    | '.' :: tail =>
      if startsWithDigit tail then
        .ok ⟨.decimal, whole ++ '.' :: tail.takeWhile Char.isDigit, tail.dropWhile Char.isDigit⟩
      else .error (width whole, .trailingDecimalPoint)
    | tail => .ok ⟨.integer, whole, tail⟩

/-- What a name may begin with. -/
def isNameStart (c : Char) : Bool := isAlphabetic c ∨ c = '@'

/-- What a name may go on with. -/
def isNamePart (c : Char) : Bool := isAlphabetic c ∨ isNumeric c ∨ c = '_' ∨ c = '-'

/-- **Names.** `first` and every following character that can be part of a name. -/
def name (first : Char) (rest : List Char) : Lexeme :=
  ⟨.identifier, first :: rest.takeWhile isNamePart, rest.dropWhile isNamePart⟩

/-- The closing quote of a character literal whose opening quote and one character or escape
are `lead`. -/
def closeCharacter (lead rest : List Char) : Scan :=
  match rest with
  | '\'' :: tail => .ok ⟨.character, lead ++ ['\''], tail⟩
  | _ => .error (width lead, if atLineEnd rest then .unterminatedCharacter else .characterTooLong)

/-- **Characters.** A character literal whose opening quote is already read. -/
def character (rest : List Char) : Scan :=
  match rest with
  | '\'' :: _ => .error (1, .emptyCharacter)
  | '\\' :: letter :: tail =>
    if isEscapeLetter letter then closeCharacter ['\'', '\\', letter] tail
    else .error (2, .invalidEscape)
  | ['\\'] => .error (2, .invalidEscape)
  | c :: tail =>
    if atLineEnd rest then .error (1, .unterminatedCharacter) else closeCharacter ['\'', c] tail
  | [] => .error (1, .unterminatedCharacter)

/-- The part of a string literal after its opening quote: the characters up to and with the
closing quote, and the rest.  `pos` is the distance of `rest` from the opening quote. -/
def stringBody (pos : Nat) (rest : List Char) : Except (Nat × Fault) (List Char × List Char) :=
  match rest with
  | '"' :: tail => .ok (['"'], tail)
  | '\\' :: letter :: tail =>
    if isEscapeLetter letter then
      match stringBody (pos + 2) tail with
      | .ok (body, rest) => .ok ('\\' :: letter :: body, rest)
      | .error fault => .error fault
    else .error (pos + 1, .invalidEscape)
  | ['\\'] => .error (pos + 1, .invalidEscape)
  | c :: tail =>
    if c = '\n' ∨ c = '\r' then .error (pos, .unterminatedString)
    else
      match stringBody (pos + c.utf8Size) tail with
      | .ok (body, rest) => .ok (c :: body, rest)
      | .error fault => .error fault
  | [] => .error (pos, .unterminatedString)

/-- **Strings.** A string literal whose opening quote is already read. -/
def string (rest : List Char) : Scan :=
  match stringBody 1 rest with
  | .ok (body, rest) => .ok ⟨.string, '"' :: body, rest⟩
  | .error fault => .error fault

/-- **Marks.** The one-character operators that no second character extends. -/
def isMark (c : Char) : Bool :=
  c = '+' ∨ c = '-' ∨ c = '*' ∨ c = '/' ∨ c = '^' ∨ c = '(' ∨ c = ')' ∨ c = ';' ∨ c = ':' ∨
    c = ',' ∨ c = '[' ∨ c = ']' ∨ c = '<' ∨ c = '>'

/-- An operator of two characters, the second of which has to be there. -/
def pair (first second : Char) (rest : List Char) : Scan :=
  match rest with
  | c :: tail =>
    if c = second then .ok ⟨.operator, [first, second], tail⟩
    else .error (0, .incompleteOperator first)
  | [] => .error (0, .incompleteOperator first)

/-- `=` or `==`. -/
def equals (rest : List Char) : Lexeme :=
  match rest with
  | '=' :: tail => ⟨.operator, ['=', '='], tail⟩
  | _ => ⟨.operator, ['='], rest⟩

/-- **One lexeme.** The lexeme that begins with `first`, which is not white space.  A `-` before
a digit is the sign of a number, and a `-` at the end of the text is nothing. -/
def lexeme (first : Char) (rest : List Char) : Scan :=
  if first = '\'' then character rest
  else if first = '"' then string rest
  else if first.isDigit then number [] first rest
  else if isNameStart first then .ok (name first rest)
  else if first = '&' then pair '&' '&' rest
  else if first = '|' then pair '|' '|' rest
  else if first = '!' then pair '!' '=' rest
  else if first = '=' then .ok (equals rest)
  else if first = '-' then
    match rest with
    | digit :: tail =>
      if digit.isDigit then number ['-'] digit tail else .ok ⟨.operator, ['-'], rest⟩
    | [] => .error (0, .danglingMinus)
  else if isMark first then .ok ⟨.operator, [first], rest⟩
  else .error (0, .unexpectedCharacter first)

/-! ## §3 Every lexeme is the beginning of its text -/

/-- A lexeme is a nonempty beginning of `input`, and its rest is the remainder. -/
structure Lexeme.Begins (l : Lexeme) (input : List Char) : Prop where
  /-- The lexeme has at least one character. -/
  text_ne_nil : l.text ≠ []
  /-- Nothing of the input is lost. -/
  text_append_rest : l.text ++ l.rest = input

theorem number_begins {sign : List Char} {first : Char} {rest : List Char} {l : Lexeme}
    (h : number sign first rest = .ok l) : l.Begins (sign ++ first :: rest) := by
  have split : rest.takeWhile Char.isDigit ++ rest.dropWhile Char.isDigit = rest :=
    List.takeWhile_append_dropWhile
  revert h
  unfold number
  split
  · simp
  · split
    · rename_i tail htail
      have tailSplit : tail.takeWhile Char.isDigit ++ tail.dropWhile Char.isDigit = tail :=
        List.takeWhile_append_dropWhile
      split
      · rintro ⟨⟩
        refine ⟨by simp, ?_⟩
        simp only [List.append_assoc, List.cons_append, List.nil_append, tailSplit]
        rw [← htail, split]
      · simp
    · rintro ⟨⟩
      exact ⟨by simp, by simp only [List.append_assoc, List.cons_append, List.nil_append, split]⟩

theorem name_begins (first : Char) (rest : List Char) : (name first rest).Begins (first :: rest) :=
  ⟨by simp [name], by simp [name]⟩

theorem closeCharacter_begins {lead rest : List Char} {l : Lexeme}
    (h : closeCharacter lead rest = .ok l) : l.Begins (lead ++ rest) := by
  revert h
  unfold closeCharacter
  split
  · rintro ⟨⟩; exact ⟨by simp, by simp⟩
  · simp

theorem character_begins {rest : List Char} {l : Lexeme} (h : character rest = .ok l) :
    l.Begins ('\'' :: rest) := by
  revert h
  unfold character
  split
  · simp
  · split
    · exact closeCharacter_begins
    · simp
  · simp
  · split
    · simp
    · exact closeCharacter_begins
  · simp

theorem stringBody_append {pos : Nat} {rest body tail : List Char}
    (h : stringBody pos rest = .ok (body, tail)) : body ++ tail = rest := by
  fun_induction stringBody pos rest generalizing body tail with
  | case1 =>
    obtain ⟨rfl, rfl⟩ : ['"'] = body ∧ _ = tail := by simpa using h
    rfl
  | case2 pos letter r _ b t hb ih =>
    obtain ⟨rfl, rfl⟩ : '\\' :: letter :: b = body ∧ t = tail := by simpa using h
    simp [ih hb]
  | case7 pos c r _ _ _ _ b t hb ih =>
    obtain ⟨rfl, rfl⟩ : c :: b = body ∧ t = tail := by simpa using h
    simp [ih hb]
  | _ => simp at h

theorem string_begins {rest : List Char} {l : Lexeme} (h : string rest = .ok l) :
    l.Begins ('"' :: rest) := by
  revert h
  unfold string
  split
  · rename_i body tail hb
    rintro ⟨⟩
    exact ⟨by simp, by simp [stringBody_append hb]⟩
  · simp

theorem pair_begins {first second : Char} {rest : List Char} {l : Lexeme}
    (h : pair first second rest = .ok l) : l.Begins (first :: rest) := by
  revert h
  unfold pair
  split
  · split
    · rintro ⟨⟩; exact ⟨by simp, by simp_all⟩
    · simp
  · simp

theorem equals_begins (rest : List Char) : (equals rest).Begins ('=' :: rest) := by
  unfold equals
  split <;> exact ⟨by simp, by simp⟩

/-- The operators that have to have a second character. -/
def pairs : List (Char × Char) := [('&', '&'), ('|', '|'), ('!', '=')]

/-- What a `-` stands for: the sign of a number before a digit, and an operator before anything
else. -/
def minus (rest : List Char) : Scan :=
  match rest with
  | digit :: tail =>
    if digit.isDigit then number ['-'] digit tail else .ok ⟨.operator, ['-'], rest⟩
  | [] => .error (0, .danglingMinus)

theorem minus_digit {digit : Char} {tail : List Char} (h : digit.isDigit) :
    minus (digit :: tail) = number ['-'] digit tail :=
  if_pos h

theorem minus_other {c : Char} {tail : List Char} (h : ¬ c.isDigit) :
    minus (c :: tail) = .ok ⟨.operator, ['-'], c :: tail⟩ :=
  if_neg h

theorem minus_begins {rest : List Char} {l : Lexeme} (h : minus rest = .ok l) :
    l.Begins ('-' :: rest) := by
  cases rest with
  | nil => cases h
  | cons digit tail =>
    by_cases hdigit : digit.isDigit
    · rw [minus_digit hdigit] at h
      exact number_begins h
    · rw [minus_other hdigit] at h
      cases h
      exact ⟨by simp, by simp⟩

/-- **Branches.** What scans a lexeme, going by its first character. -/
inductive Branch (first : Char) : (List Char → Scan) → Prop where
  | character : first = '\'' → Branch first character
  | string : first = '"' → Branch first string
  | number : first.isDigit → Branch first (number [] first)
  | name : isNameStart first → Branch first fun rest => .ok (name first rest)
  | pair {second : Char} : (first, second) ∈ pairs → Branch first (pair first second)
  | equals : first = '=' → Branch first fun rest => .ok (equals rest)
  | minus : first = '-' → Branch first minus
  | mark : isMark first → first ≠ '=' → first ≠ '-' →
      Branch first fun rest => .ok ⟨.operator, [first], rest⟩
  /-- A fault at the first character. -/
  | nothing (fault : Fault) : Branch first fun _ => .error (0, fault)

/-- The first character decides. -/
theorem lexeme_branch (first : Char) : Branch first (lexeme first) := by
  delta lexeme
  by_cases hfirst : first = '\''
  · simp only [if_pos hfirst]
    exact .character hfirst
  simp only [if_neg hfirst]
  by_cases hfirst : first = '"'
  · simp only [if_pos hfirst]
    exact .string hfirst
  simp only [if_neg hfirst]
  by_cases hdigit : first.isDigit
  · simp only [if_pos hdigit]
    exact .number hdigit
  simp only [if_neg hdigit]
  by_cases hstart : isNameStart first
  · simp only [if_pos hstart]
    exact .name hstart
  simp only [if_neg hstart]
  by_cases hfirst : first = '&'
  · subst hfirst
    exact .pair (by decide)
  simp only [if_neg hfirst]
  by_cases hfirst : first = '|'
  · subst hfirst
    exact .pair (by decide)
  simp only [if_neg hfirst]
  by_cases hfirst : first = '!'
  · subst hfirst
    exact .pair (by decide)
  simp only [if_neg hfirst]
  by_cases hequals : first = '='
  · simp only [if_pos hequals]
    exact .equals hequals
  simp only [if_neg hequals]
  by_cases hminus : first = '-'
  · simp only [if_pos hminus]
    exact .minus hminus
  simp only [if_neg hminus]
  by_cases hmark : isMark first
  · simp only [if_pos hmark]
    exact .mark hmark hequals hminus
  · simp only [if_neg hmark]
    exact .nothing _

/-- A lexeme and what follows it are the text it was taken from. -/
theorem lexeme_begins {first : Char} {rest : List Char} {l : Lexeme}
    (h : lexeme first rest = .ok l) : l.Begins (first :: rest) := by
  have branch := lexeme_branch first
  generalize lexeme first = scan at branch h
  cases branch with
  | character hf => rw [hf]; exact character_begins h
  | string hf => rw [hf]; exact string_begins h
  | number => exact number_begins h
  | name => cases h; exact name_begins first rest
  | pair => exact pair_begins h
  | equals hf => cases h; rw [hf]; exact equals_begins rest
  | minus hf => rw [hf]; exact minus_begins h
  | mark => cases h; exact ⟨by simp, by simp⟩
  | nothing => cases h

/-- What follows a lexeme is shorter than the text it was taken from. -/
theorem Lexeme.Begins.rest_length {l : Lexeme} {input : List Char} (h : l.Begins input) :
    l.rest.length < input.length := by
  have whole := congrArg List.length h.text_append_rest
  have some := List.length_pos_iff.2 h.text_ne_nil
  rw [List.length_append] at whole
  omega

/-! ## §4 Whole texts -/

/-- The tokens of a text that starts at byte `start`. -/
def scanFrom (start : Nat) : List Char → Except LexError (List Token)
  | [] => .ok []
  | c :: rest =>
    if isBlank c then scanFrom (start + c.utf8Size) rest
    else
      -- The fault of a lexeme counts from its start, that of the text from the start of the text.
      match _scanned : lexeme c rest with
      | .error (distance, fault) => .error ⟨start + distance, fault⟩
      | .ok l =>
        match scanFrom (start + width l.text) l.rest with
        | .ok tokens => .ok (⟨l.kind, String.ofList l.text, start⟩ :: tokens)
        | .error e => .error e
termination_by cs => cs.length
decreasing_by
  · simp
  · exact (lexeme_begins _scanned).rest_length

/-- **Tokenizing.** The tokens of a text, or its first fault. -/
def scan (text : String) : Except LexError (List Token) := scanFrom 0 text.toList

end DynImp.Token
