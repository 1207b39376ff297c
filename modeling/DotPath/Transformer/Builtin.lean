import DotPath.Transformer.Arrays
import DotPath.Transformer.Objects
import DotPath.Transformer.Strings
import DotPath.Transformer.Structure

/-!
# Built-in transformers

The transformers that every registry knows, each with its name and perhaps further names.
-/

namespace DotPath

/-- A built-in transformer and the names it is known by. -/
structure Builtin where
  name : Text
  aliases : List Text
  transformer : Transformer
  aborts : Aborts

namespace Builtin

/-- Every name of a built-in transformer. -/
def names (b : Builtin) : List Text :=
  b.name :: b.aliases

/-- A built-in transformer with one name that never aborts. -/
def named (name : String) (transformer : Transformer) : Builtin :=
  ⟨name.toList, [], transformer, fun _ _ _ _ => false⟩

/-- A built-in transformer with one name. -/
def aborting (name : String) (transformer : Transformer) (aborts : Aborts) : Builtin :=
  ⟨name.toList, [], transformer, aborts⟩

open Transformer

/-- The built-in transformers. -/
def all : List Builtin :=
  [ named "pretty" prettyPrint,
    ⟨"minify".toList, ["ugly".toList], .withoutArgument Json.minify,
      fun _ _ _ _ => false⟩,
    named "valid" validity,
    named "this" unchanged,
    named "reverse" reverseItems,
    named "flatten" flattenArray,
    named "join" joinObjects,
    named "keys" keyList,
    named "values" valueList,
    named "group" groupColumns,
    aborting "search" searchValues searchAborts,
    named "tostr" toStringLiteral,
    named "fromstr" fromStringLiteral,
    named "upper" Transformer.uppercase,
    named "lower" Transformer.lowercase,
    named "title" titleCase,
    named "snake" snakeCase,
    named "camel" Transformer.camelCase,
    named "kebab" kebabCase,
    named "trim" trimBlanks,
    named "flip" reverseText,
    named "replace" replaceOnce,
    named "replaceAll" replaceEvery,
    named "hex" hexOctets,
    named "bin" binaryOctets,
    named "insertAt" insertText,
    named "wc" wordCount,
    aborting "padLeft" padLeft paddingAborts,
    aborting "padRight" padRight paddingAborts,
    named "project" projectMembers,
    named "default" fillDefaults,
    aborting "filter" filterElements filterAborts,
    aborting "pluck" pluckPath pluckAborts,
    named "first" firstElement,
    named "last" lastElement,
    named "count" elementCount,
    named "sum" total,
    named "min" least,
    named "max" greatest,
    named "avg" mean,
    named "coerce" convert ]

/-- The text that a built-in transformer makes, unless it aborts. -/
def output? (b : Builtin) (memory : Memory) (follow : Follow) (aborts : FollowAborts)
    (json argument : Text) : Option Text :=
  if b.aborts memory aborts json argument then none else some (b.transformer follow json argument)

/-- The built-in transformer with a name. -/
def find? (name : Text) : Option Builtin :=
  all.find? fun b => b.names.contains name

end Builtin

end DotPath
