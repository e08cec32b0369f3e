import PacketLog.Text.Quoted
import PacketLog.Text.Utf8

/-!
# Line — Bytes

Bytes are shown as the text they spell, when they spell one without control characters, and in
hexadecimal otherwise.  Where the end has been cut off, the cut may have gone through a
character; what is left of that character is passed over.
-/

namespace PacketLog.Line

/-- The text that bytes are shown as. -/
def shownText? (bs : List UInt8) (truncated : Bool) : Option (List Char) :=
  let text? : Option (List Char) :=
    match Text.Utf8.decode bs with
    | (cs, .ended)     => some cs
    | (cs, .cut)       => if truncated then some cs else none
    | (_, .malformed)  => none
  text?.filter fun cs => !cs.any Text.isControl

/-- Bytes in hexadecimal, marked as such. -/
def markedHex (bs : List UInt8) : List Char := ['h', 'e', 'x', ':'] ++ Text.hexBytes bs

end PacketLog.Line
