import ColumnStats.Text.Unprintable

/-!
# Quoted text

Text between double quotes, on one line and with glyphs only: quotes and backslashes get a
backslash, NUL, tab, line feed and carriage return their letters, and every other unprintable
character its code point in hexadecimal between braces.

* `quoteChar_of_glyph`: a character with a glyph, neither quote nor backslash, stands for itself.
-/

namespace ColumnStats.Text

/-- The code point in lower-case hexadecimal, between braces. -/
def codePoint (c : Char) : List Char :=
  '\\' :: 'u' :: '\x7b' :: Nat.toDigits 16 c.toNat ++ ['\x7d']

/-- How one character is written between quotes. -/
def quoteChar (c : Char) : List Char :=
  if c = '"' ∨ c = '\\' then ['\\', c]
  else if c = '\x00' then ['\\', '0']
  else if c = '\t' then ['\\', 't']
  else if c = '\n' then ['\\', 'n']
  else if c = '\r' then ['\\', 'r']
  else if isUnprintable c then codePoint c
  else [c]

/-- The text between quotes. -/
def quote (text : String) : String :=
  String.ofList ('"' :: text.toList.flatMap quoteChar ++ ['"'])

/-- The quoted items between square brackets, parted by a comma and a space. -/
def quoteList (items : List String) : String :=
  "[" ++ ", ".intercalate (items.map quote) ++ "]"

theorem quoteChar_of_glyph {c : Char} (h : isUnprintable c = false) (quotation : c ≠ '"')
    (backslash : c ≠ '\\') : quoteChar c = [c] := by
  have ne {d : Char} (control : isUnprintable d) : c ≠ d := fun e => by simp [e, control] at h
  have nul : c ≠ '\x00' := ne (by decide +kernel)
  have tab : c ≠ '\t' := ne (by decide +kernel)
  have feed : c ≠ '\n' := ne (by decide +kernel)
  have carriage : c ≠ '\r' := ne (by decide +kernel)
  simp [quoteChar, quotation, backslash, h, nul, tab, feed, carriage]

end ColumnStats.Text
