import DynImp.Text.Unprintable

/-!
# Quoted text

How a character or a text is shown between quotes.  A few characters have short
escapes, the enclosing quote and the backslash are escaped by a backslash, and
everything a reader could not see on its own is shown by its number in braces.
The other quote is left as it is.
-/

namespace DynImp.Text

/-- **Code point text.** The number of a character in lower-case hexadecimal, without padding. -/
def codePointText (c : Char) : List Char := Nat.toDigits 16 c.toNat

/-- The characters that stand for `c` between two copies of `quote`. -/
def quoteChar (quote c : Char) : List Char :=
  if c = '\x00' then ['\\', '0']
  else if c = '\t' then ['\\', 't']
  else if c = '\r' then ['\\', 'r']
  else if c = '\n' then ['\\', 'n']
  else if c = '\\' ∨ c = quote then ['\\', c]
  else if isUnprintable c ∨ isAttaching c ∨ isFiller c then
    ['\\', 'u', '\x7b'] ++ codePointText c ++ ['\x7d']
  else [c]

/-- **Quoting.** A text between two copies of `quote`. -/
def quoted (quote : Char) (text : List Char) : List Char :=
  quote :: (text.flatMap (quoteChar quote) ++ [quote])

/-- A character in single quotes. -/
def quotedChar (c : Char) : String := String.ofList (quoted '\'' [c])

/-- A text in double quotes. -/
def quotedString (s : String) : String := String.ofList (quoted '"' s.toList)

end DynImp.Text
