/-!
# Hexadecimal text

Addresses and machine words are shown in lower-case hexadecimal behind `0x`; a negative word is
shown by its two's complement.
-/

namespace Bailout.Text

def hex (n : Nat) : String := "0x" ++ String.ofList (Nat.toDigits 16 n)

def hexWord (w : Int64) : String := hex w.toUInt64.toNat

end Bailout.Text
