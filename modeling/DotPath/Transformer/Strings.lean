import DotPath.Text.Alphanumeric
import DotPath.Text.CaseMapping
import DotPath.Transformer.Argument
import DotPath.Transformer.Basic

/-!
# Transformers of strings

Case, words, trimming, replacing, octets, inserting and padding. A value that is no string is left
as it is.
-/

namespace DotPath

namespace Text

/-! ## Words -/

/--
Whether a new word starts at `c`: at an uppercase letter after a lowercase one or a number, and at
the last letter of a run of capitals that goes on in lowercase.
-/
def startsWord (previous : Option Char) (c : Char) (rest : Text) : Bool :=
  match previous with
  | none => false
  | some p =>
    isUppercase c &&
      (isLowercase p || isNumeric p || (isUppercase p && rest.head?.any isLowercase))

/-- A word, given its letters from the last to the first, in front of others. -/
def consWord (letters : Text) (others : List Text) : List Text :=
  if letters.isEmpty then others else letters.reverse :: others

/--
The words of a text, `letters` being those of the word that is open, from the last to the first.
-/
def wordsFrom (previous : Option Char) (letters : Text) : Text → List Text
  | [] => consWord letters []
  | c :: rest =>
    if !isAlphanumeric c then consWord letters (wordsFrom (some c) [] rest)
    else if startsWord previous c rest then consWord letters (wordsFrom (some c) [c] rest)
    else wordsFrom (some c) (c :: letters) rest

/-- The words of a text: runs of letters and numbers, divided further where the case changes. -/
def words (t : Text) : List Text :=
  wordsFrom none [] t

/-- A word with its first letter in uppercase and the others in lowercase. -/
def capitalize : Text → Text
  | [] => []
  | c :: rest => upperOf c ++ rest.flatMap lowerOf

/-- The text with the first letter after every blank in uppercase and the others in lowercase. -/
def titleFrom (first : Bool) : Text → Text
  | [] => []
  | c :: rest =>
    if isBlank c then c :: titleFrom true rest
    else (if first then upperOf c else lowerOf c) ++ titleFrom false rest

/-- Words in lowercase with a separator between them. -/
def joinWords (separator : Text) (t : Text) : Text :=
  List.intercalate separator ((words t).map toLower)

/-- Words joined, all but the first capitalized. -/
def camelCase (t : Text) : Text :=
  match words t with
  | [] => []
  | first :: rest => toLower first ++ rest.flatMap capitalize

/-! ## Octets -/

/-- The octets of the UTF-8 form. -/
def octets (t : Text) : List Nat :=
  (t.flatMap String.utf8EncodeChar).map UInt8.toNat

/-- An octet in two hexadecimal digits. -/
def hexOctet (n : Nat) : Text :=
  [Nat.digitChar (n / 16), Nat.digitChar (n % 16)]

/-- An octet in eight binary digits. -/
def binaryOctet (n : Nat) : Text :=
  [7, 6, 5, 4, 3, 2, 1, 0].map fun i => Nat.digitChar ((n >>> i) % 2)

/-! ## Padding -/

/-- The first `n` characters of a text repeated without end. -/
def cycle (n : Nat) (t : Text) : Text :=
  ((List.replicate (n / t.length + 1) t).flatten).take n

/-- The octets that these characters take, without writing them. -/
def cycleSize (n : Nat) (t : Text) : Nat :=
  n / t.length * t.byteLength + byteLength (t.take (n % t.length))

end Text

namespace Transformer

open Json

/-- Puts a string into uppercase. -/
def uppercase : Transformer := .withoutArgument (mapString Text.toUpper)

/-- Puts a string into lowercase. -/
def lowercase : Transformer := .withoutArgument (mapString Text.toLower)

/-- Puts the first letter after every blank into uppercase and the others into lowercase. -/
def titleCase : Transformer := .withoutArgument (mapString (Text.titleFrom true))

/-- Joins the words of a string by underscores. -/
def snakeCase : Transformer := .withoutArgument (mapString (Text.joinWords ['_']))

/-- Joins the words of a string by hyphens. -/
def kebabCase : Transformer := .withoutArgument (mapString (Text.joinWords ['-']))

/-- Joins the words of a string, all but the first capitalized. -/
def camelCase : Transformer := .withoutArgument (mapString Text.camelCase)

/-- Removes blanks at both ends of a string. -/
def trimBlanks : Transformer := .withoutArgument (mapString Text.trimBlank)

/-- Turns the characters of a string around. -/
def reverseText : Transformer := .withoutArgument (mapString List.reverse)

/-- Replaces a text that the argument gives, in the way `f` does it. -/
def replaceBy (f : Text → Text → Text → Text) : Transformer := .withArgument fun json argument =>
  let arguments? := do
    match ← Argument.fields? ["target".toList, "replacement".toList] argument with
    | [target, replacement] =>
      let target ← Argument.decodeD [] Argument.text? target
      let replacement ← Argument.decodeD [] Argument.text? replacement
      return (target, replacement)
    | _ => none
  match arguments? with
  | none => json
  | some (target, replacement) =>
    if target.isEmpty then json else mapString (f target replacement) json

/-- Replaces the first occurrence of a text. -/
def replaceOnce : Transformer := replaceBy Text.replaceFirst

/-- Replaces every occurrence of a text. -/
def replaceEvery : Transformer := replaceBy Text.replaceAll

/-- The octets of a string in hexadecimal. -/
def hexOctets : Transformer :=
  .withoutArgument (mapString fun t => (Text.octets t).flatMap Text.hexOctet)

/-- The octets of a string in binary. -/
def binaryOctets : Transformer :=
  .withoutArgument (mapString fun t => (Text.octets t).flatMap Text.binaryOctet)

/-- Inserts a text before the character at a position, or at the end. -/
def insertText : Transformer := .withArgument fun json argument =>
  let arguments? := do
    match ← Argument.fields? ["index".toList, "insert".toList] argument with
    | [index, insert] =>
      let index ← Argument.decodeD 0 Argument.nat? index
      let insert ← Argument.decodeD [] Argument.text? insert
      return (index, insert)
    | _ => none
  match arguments? with
  | none => json
  | some (index, insert) => mapString (fun t => t.take index ++ insert ++ t.drop index) json

/-- The number of words of a string that blanks separate. -/
def wordCount : Transformer := .withoutArgument fun json =>
  let s := Selection.document json
  if s.kind == .string then Text.ofNat (Text.countWords s.text) else json

/-- The length up to which an argument tells to fill, and the text to fill with. -/
def padArguments? (argument : Text) : Option (Nat × Text) := do
  match ← Argument.fields? ["length".toList, "padding".toList] argument with
  | [length, padding] =>
    let length ← Argument.decodeD 0 Argument.nat? length
    let padding ← Argument.decodeD [' '] Argument.text? padding
    return (length, padding)
  | _ => none

/--
Fills a string up to a length, `place` putting the filling and the string together. This is the text
that is made where there is room for the filling.
-/
def padBy (place : Text → Text → Text) : Transformer := .withArgument fun json argument =>
  match padArguments? argument with
  | none => json
  | some (length, padding) =>
    if padding.isEmpty then json
    else mapString (fun t => place (Text.cycle (length - t.length) padding) t) json

/-- The octets of the filling that a string gets; none for other values and with other arguments. -/
def fillingSize (json argument : Text) : Nat :=
  match padArguments? argument with
  | none => 0
  | some (length, padding) =>
    let s := Selection.document json
    if s.kind == .string then Text.cycleSize (length - s.text.length) padding else 0

/-- Filling up aborts if there is no room for the filling. -/
def paddingAborts : Aborts := fun memory _ json argument =>
  !memory.grants (fillingSize json argument)

/-- Fills a string up on the left. -/
def padLeft : Transformer := padBy fun filling t => filling ++ t

/-- Fills a string up on the right. -/
def padRight : Transformer := padBy fun filling t => t ++ filling

end Transformer

end DotPath
