import DotPath.Evaluator.Basic
import DotPath.Memory

/-!
# Transformers

A transformer maps a JSON text and an argument to a JSON text. Some transformers follow paths of
their own; the way to follow a path is given to them, so that a transformer is a plain function.

A few built-in transformers can abort the program before they have made their text. What a
transformer makes, and whether it aborts, are kept apart: the first does not depend on the machine.
-/

namespace DotPath

/-- A way to follow paths: the text of a path gives a route, or is refused. -/
abbrev Follow := Text → Except PathError Route

/-- A function from a JSON text and an argument to a JSON text, given a way to follow paths. -/
abbrev Transformer := Follow → Text → Text → Text

/-- Whether following a path, given as text, from a selection aborts the program. -/
abbrev FollowAborts := Text → Selection → Bool

/--
Whether a transformer aborts the program on a JSON text with an argument, in a memory and given
where following paths aborts.
-/
abbrev Aborts := Memory → FollowAborts → Text → Text → Bool

namespace Transformer

/-- A transformer that follows no paths. -/
def withArgument (f : Text → Text → Text) : Transformer :=
  fun _ => f

/-- A transformer that follows no paths and takes no argument. -/
def withoutArgument (f : Text → Text) : Transformer :=
  fun _ json _ => f json

/--
Applies a function to the text of a JSON string, and quotes the result. Other values stay as they
are.
-/
def mapString (f : Text → Text) (json : Text) : Text :=
  let s := Selection.document json
  if s.kind == .string then Json.Quoted.encode (f s.text) else json

/--
Applies a function to an object, or to every element of an array that is an object. Other values,
and other elements, stay as they are.
-/
def mapObjects (f : Selection → Text) (json : Text) : Text :=
  let s := Selection.document json
  if s.isObject then f s
  else if s.isArray then
    Json.composeArray (s.array.map fun e => if e.isObject then f e else e.raw)
  else json

end Transformer

end DotPath
