import SlotC.Text.Printable

/-! Quoted text in dumps: between double quotes, with escapes for what cannot be shown.
-/

namespace SlotC.Text

/-- A character inside double quotes: a short escape if it has one, itself if it can be
shown, and else its code point in hexadecimal.
-/
def escaped (c : Char) : String :=
  match c with
  | '"' => "\\\""
  | '\\' => "\\\\"
  | '\n' => "\\n"
  | '\r' => "\\r"
  | '\t' => "\\t"
  | '\x00' => "\\0"
  | _ =>
    if isPrintable c then c.toString
    else "\\u\x7b" ++ String.ofList (Nat.toDigits 16 c.toNat) ++ "\x7d"

/-- A text between double quotes. -/
def quoted (text : String) : String :=
  "\"" ++ String.join (text.toList.map escaped) ++ "\""

end SlotC.Text
