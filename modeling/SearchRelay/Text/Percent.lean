import SearchRelay.Text.Hex
import SearchRelay.Text.Utf8

/-!
Percent form: a character that may not stand for itself is written as its bytes, each one a percent
sign with two capital digits. If the percent sign itself is always written so, decoding gives the
bytes of the text back.
-/

namespace SearchRelay.Text

def percentByte (byte : UInt8) : List Char := '%' :: (hexByte byte).map Char.toUpper

def percentEncode (isEncoded : Char → Bool) (text : List Char) : List Char :=
  text.flatMap fun c => if isEncoded c then (String.utf8EncodeChar c).flatMap percentByte else [c]

/-- The bytes of a text in which bytes may be written in percent form. A percent sign without two
digits stands for itself. -/
def percentDecode : List Char → Bytes
  | '%' :: a :: b :: rest =>
    match hexValue? a, hexValue? b with
    | some high, some low => UInt8.ofNat (high * 16 + low) :: percentDecode rest
    | _, _ => 0x25 :: percentDecode (a :: b :: rest)
  | c :: rest => String.utf8EncodeChar c ++ percentDecode rest
  | [] => []

end SearchRelay.Text
