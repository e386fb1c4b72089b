import TypedRecords.Text.Blank

/-!
# Field directives

Directive text is a list of items between commas, each `skip` or `rename(<name>)`, with white space around
every part. An item is read on its own; a text is faulty at its first item that is malformed or repeats a
directive already given.
-/

namespace TypedRecords

inductive Directive
  | skip
  | rename (name : String)
  deriving DecidableEq, Repr

inductive Malformed
  | empty
  | skipArguments
  | renameForm
  | emptyName
  | nameCharacter
  | unknown
  deriving DecidableEq, Repr

def Malformed.text : Malformed → String
  | .empty => "empty directive"
  | .skipArguments => "skip takes no arguments"
  | .renameForm => "expected rename(<name>)"
  | .emptyName => "empty property name"
  | .nameCharacter => "invalid character in property name"
  | .unknown => "unknown directive"

def isNameChar (c : Char) : Bool := !isBlank c && c != '(' && c != ')' && c != ','

def splitCommas : List Char → List (List Char)
  | [] => [[]]
  | c :: cs =>
    if c = ',' then [] :: splitCommas cs
    else
      match splitCommas cs with
      | [] => [[c]]
      | item :: items => (c :: item) :: items

def readName : List Char → Except Malformed String
  | '(' :: rest =>
    if rest.getLast? = some ')' then
      let name := trim rest.dropLast
      if name = [] then .error .emptyName
      else if name.all isNameChar then .ok (String.ofList name)
      else .error .nameCharacter
    else .error .renameForm
  | _ => .error .renameForm

/-- The directive that an item without white space at its ends stands for. -/
def Directive.read (item : List Char) : Except Malformed Directive :=
  let word := trimEnd (item.takeWhile (· ≠ '('))
  let arguments := item.dropWhile (· ≠ '(')
  if item = [] then .error .empty
  else if word = ['s', 'k', 'i', 'p'] then if arguments = [] then .ok .skip else .error .skipArguments
  else if word = ['r', 'e', 'n', 'a', 'm', 'e'] then (readName arguments).map .rename
  else .error .unknown

structure Directives where
  rename : Option String
  skip : Bool
  deriving DecidableEq, Repr

inductive DirectiveFault
  | malformed (reason : Malformed)
  | repeated (item : String)
  deriving DecidableEq, Repr

namespace Directives

def none : Directives := ⟨.none, false⟩

def add (ds : Directives) (item : List Char) : Except DirectiveFault Directives :=
  match Directive.read item with
  | .error reason => .error (.malformed reason)
  | .ok .skip => if ds.skip then .error (.repeated (String.ofList item)) else .ok { ds with skip := true }
  | .ok (.rename name) =>
    if ds.rename.isSome then .error (.repeated (String.ofList item)) else .ok { ds with rename := some name }

def items (text : String) : List (List Char) := (splitCommas text.toList).map trim

def read (text : String) : Except DirectiveFault Directives := (items text).foldlM add none

end Directives

end TypedRecords
