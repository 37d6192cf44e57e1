import DataBinding.Error
import DataBinding.Text.Blank
import DataBinding.Text.UpperCase

/-!
# Attributes

An attribute `target.command` asks for a binding of the target by the command; a name without a point is a target alone.
The target names a property of the element: some attributes have a property of another spelling, all others are turned
from `kebab-case` or `snake_case` to `camelCase`.
-/

namespace DataBinding

/-- An attribute, split into its target and its command. -/
structure Attribute where
  rawName : String
  rawValue : String
  target : String
  command : Option String
  deriving DecidableEq

namespace Attribute

/-- Whether a character may stand in a target or a command. -/
def isPlain (c : Char) : Bool := c != '.' && !Text.isBlank c

/-- Tries the pattern of a target, a point and a command, where both have one such character or more. -/
def captures? (cs : List Char) : Option (List Char × List Char) :=
  match cs.span isPlain with
  | (target, '.' :: command) =>
    if target.isEmpty || command.isEmpty || !command.all isPlain then none else some (target, command)
  | _ => none

/-- The target and the command of a name. Only a name without a point has no command. -/
def split? (name : List Char) : Option (List Char × Option (List Char)) :=
  if name.isEmpty || name.any Text.isBlank then none
  else match captures? name with
    | some (target, command) => some (target, some command)
    | none => if name.contains '.' then none else some (name, none)

/-- Splits the name without its blank ends. -/
def parse (rawName rawValue : String) : Except CompileError Attribute :=
  match split? (Text.trimBlanks rawName.toList) with
  | none => .error (.invalidAttribute rawName)
  | some (target, command) =>
    .ok { rawName, rawValue, target := String.ofList target, command := command.map String.ofList }

end Attribute

namespace PropertyName

/-- The property of an attribute that has one of another spelling. -/
def ofAttribute? : String → Option String
  | "class" => some "className"
  | "for" => some "htmlFor"
  | "textcontent" => some "textContent"
  | "innerhtml" => some "innerHTML"
  | "readonly" => some "readOnly"
  | "tabindex" => some "tabIndex"
  | "maxlength" => some "maxLength"
  | "minlength" => some "minLength"
  | "colspan" => some "colSpan"
  | "rowspan" => some "rowSpan"
  | "contenteditable" => some "contentEditable"
  | "scrolltop" => some "scrollTop"
  | "scrollleft" => some "scrollLeft"
  | _ => none

def isSeparator (c : Char) : Bool := c == '-' || c == '_'

/-- Goes on in camel case. `out` is what was written so far, and `raise` says whether a separator came last, apart from
those in front of everything. -/
def camelFrom (out : List Char) (raise : Bool) : List Char → List Char
  | [] => out
  | c :: cs =>
    if isSeparator c then camelFrom out (!out.isEmpty) cs
    else if raise then camelFrom (out ++ Text.upperCase c) false cs
    else camelFrom (out ++ [c]) false cs

/-- Drops the separators and raises the character after each, except at the front. -/
def camelCase (name : String) : String := String.ofList (camelFrom [] false name.toList)

/-- The property that an attribute's target names. -/
def ofTarget (target : String) : String := (ofAttribute? target).getD (camelCase target)

end PropertyName

end DataBinding
