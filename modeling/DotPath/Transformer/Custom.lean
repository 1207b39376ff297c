import DotPath.Transformer.Basic

/-!
# Transformers made to order

Small transformers that a user may register: fixed texts, the argument itself, the input with
something around or in front of it, and the result of a path that the argument gives.
-/

namespace DotPath.Transformer

/-- Gives a fixed text. -/
def constant (t : Text) : Transformer :=
  .withoutArgument fun _ => t

/-- Gives the argument. -/
def argument : Transformer :=
  .withArgument fun _ argument => argument

/-- Gives an array of the input and of the argument as a string. -/
def pairWithArgument : Transformer :=
  .withArgument fun json argument => Json.composeArray [json, Json.Quoted.encode argument]

/-- Gives the input with a fixed text in front of it. -/
def prepend (t : Text) : Transformer :=
  .withoutArgument fun json => t ++ json

/-- Gives the result of the path in the argument; nothing if the argument is no path. -/
def atArgument : Transformer := fun follow json argument =>
  match follow argument with
  | .ok route => (route.eval json).raw
  | .error _ => []

end DotPath.Transformer
