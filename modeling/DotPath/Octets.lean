import DotPath.Environment
import DotPath.Json.WellFormed
import DotPath.Text.Utf8

/-!
# Documents given as octets

Octets that are no UTF-8 hold no document: nothing is selected in them, and they are not valid.
-/

namespace DotPath.Octets

/-- Whether octets hold a well-formed document of at most the default depth. -/
def valid (octets : ByteArray) : Bool :=
  (Text.ofUtf8? octets).any Json.valid

/-- The document that octets hold. -/
def document (octets : ByteArray) : Selection :=
  (Text.ofUtf8? octets).elim .missing .document

/-- Follows a path from the document that octets hold. -/
def get (env : Environment) (octets : ByteArray) (path : Text) : Selection :=
  (Text.ofUtf8? octets).elim .missing fun json => env.get json path

/-- Follows several paths from the document that octets hold. -/
def getMany (env : Environment) (octets : ByteArray) (paths : List Text) : List Selection :=
  (Text.ofUtf8? octets).elim (paths.map fun _ => .missing) fun json => env.shared.getMany json paths

end DotPath.Octets
