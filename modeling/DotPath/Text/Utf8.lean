import DotPath.Text.Basic

/-!
# Texts as octets

What has to look at octets whether or not they are UTF-8 reads them as a text too: one character for
each octet, the one with its number. ASCII reads the same either way.
-/

namespace DotPath.Text

/-- The text that octets encode in UTF-8, if they encode one. -/
def ofUtf8? (octets : ByteArray) : Option Text :=
  (String.fromUTF8? octets).map String.toList

/-- The octets of a text in UTF-8. -/
def toUtf8 (t : Text) : ByteArray :=
  (String.ofList t).toUTF8

/-- Octets as characters, one by one. -/
def ofOctets (octets : ByteArray) : Text :=
  octets.data.toList.map Char.ofUInt8

/-- The octets that stand as characters in a text. -/
def toOctets (t : Text) : ByteArray :=
  (t.map Char.toUInt8).toByteArray

/-- Whether the octets that stand as characters in a text are UTF-8. -/
def isUtf8 (t : Text) : Bool :=
  (ofUtf8? t.toOctets).isSome

end DotPath.Text
