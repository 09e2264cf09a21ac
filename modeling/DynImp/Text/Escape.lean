/-!
# Escapes in literals

The seven escapes of character and string literals.  A backslash is followed by one
of `b n r t ' " \`; the first four stand for a control character and the last three
for themselves.
-/

namespace DynImp.Text

/-- **Escape letters.** The characters that may follow a backslash. -/
def isEscapeLetter (c : Char) : Bool :=
  c = 'b' ∨ c = 'n' ∨ c = 'r' ∨ c = 't' ∨ c = '\'' ∨ c = '"' ∨ c = '\\'

/-- What a backslash and this letter stand for.  A letter without a meaning of its own
stands for itself. -/
def escapeValue (letter : Char) : Char :=
  if letter = 'b' then '\x08'
  else if letter = 'n' then '\n'
  else if letter = 'r' then '\r'
  else if letter = 't' then '\t'
  else letter

/-- **Decoding.** Every escape is replaced by what it stands for.  A backslash with nothing
after it stands for itself. -/
def unescape : List Char → List Char
  | [] => []
  | ['\\'] => ['\\']
  | '\\' :: letter :: rest => escapeValue letter :: unescape rest
  | c :: rest => c :: unescape rest

end DynImp.Text
