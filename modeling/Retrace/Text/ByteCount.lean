/-!
# Retrace — the bytes of a text

Texts are lists of characters, and here and there it matters how many bytes
they fill in UTF-8.
-/

namespace Retrace.Text

/-- The number of bytes that characters fill. -/
def byteCount : List Char → Nat
  | [] => 0
  | c :: rest => c.utf8Size + byteCount rest

end Retrace.Text
