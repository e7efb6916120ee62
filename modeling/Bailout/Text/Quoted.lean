import Bailout.Text.Combining
import Bailout.Text.Hex
import Bailout.Text.Invisible
import Bailout.Text.Reserved

/-!
# Quoted text

A string shown between double quotes. Quotes, backslashes and the characters that leave no mark of
their own on a page are escaped.
-/

namespace Bailout.Text

/-- Whether a character leaves no mark of its own: it is invisible, it is drawn upon the character
before it, or no common character has its code point. -/
def isUnmarked (c : Char) : Bool :=
  invisible.covers c.toNat || combining.covers c.toNat || reserved.covers c.toNat

def quotedChar (c : Char) : String :=
  match c with
  | '"' => "\\\""
  | '\\' => "\\\\"
  | '\n' => "\\n"
  | '\r' => "\\r"
  | '\t' => "\\t"
  | '\x00' => "\\0"
  | c =>
    if isUnmarked c then "\\u\x7b" ++ String.ofList (Nat.toDigits 16 c.toNat) ++ "\x7d"
    else c.toString

def quoted (s : String) : String :=
  "\"" ++ String.join (s.toList.map quotedChar) ++ "\""

end Bailout.Text
