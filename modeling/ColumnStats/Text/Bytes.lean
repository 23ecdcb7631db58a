/-!
# Text as bytes

Texts are stored in UTF-8.

* `encode`: the bytes of a text;
* `decode?`: the text of bytes, if they are one.
-/

namespace ColumnStats.Text

/-- The bytes of a text. -/
def encode (text : String) : List UInt8 := text.toUTF8.data.toList

/-- The text of bytes, if they are UTF-8. -/
def decode? (bytes : List UInt8) : Option String := String.fromUTF8? ⟨bytes.toArray⟩

end ColumnStats.Text
