import Bytelink.Text.Numeral
import Bytelink.Text.Printable

/-!
# Characters shown in a message

A character is shown between single quotes. Six characters have an escape of their own, a character
that is not printable is shown by its code point, and every other one stands for itself.
-/
namespace Bytelink.Text

/-- A character in single quotes, as messages name it. -/
def quotedChar (c : Char) : Text :=
  let inner : Text := match c with
    | '\x00' => "\\0"
    | '\t' => "\\t"
    | '\n' => "\\n"
    | '\r' => "\\r"
    | '\'' => "\\'"
    | '\\' => "\\\\"
    | c => if isPrintable c then [c] else ("\\u\x7b" : Text) ++ hexadecimal c.toNat ++ ['\x7d']
  '\'' :: inner ++ ['\'']

end Bytelink.Text
