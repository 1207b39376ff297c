import DotPath.Text.Basic

/-!
# Plain components

A backslash in a component makes the character after it stand for itself. `escapeComponent` writes a
key so that it is read back as one plain component, `unescapeComponent` reads such a component.
-/

namespace DotPath

/-- The characters that have a meaning of their own in a path. -/
def pathMarks : Text :=
  ['.', '|', '*', '?', '\\', '#', '@', '!', '\x7b', '\x7d', '[', ']', '(', ')', '"', ',', '=',
   '<', '>', '%', '&', '~', ':']

/-- A key with a backslash before every character that has a meaning of its own. -/
def escapeComponent (key : Text) : Text :=
  key.flatMap fun c => if pathMarks.contains c then ['\\', c] else [c]

/-- The key that a component stands for. A backslash at the end stands for itself. -/
def unescapeComponent : Text → Text
  | '\\' :: c :: rest => c :: unescapeComponent rest
  | c :: rest => c :: unescapeComponent rest
  | [] => []

end DotPath
