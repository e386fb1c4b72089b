import TypedRecords.RecordType
import TypedRecords.Number.Layout
import TypedRecords.Text.Quoted

/-!
# Values and declarations shown

Texts for messages that show a value or a declaration by the names of its parts. Setters and hooks are not
shown.
-/

namespace TypedRecords

def shownBool (b : Bool) : String := if b then "true" else "false"

def shownOption (text : α → String) : Option α → String
  | none => "None"
  | some a => "Some(" ++ text a ++ ")"

namespace Value

mutual
def shown : Value → String
  | .null => "Null"
  | .bool b => "Bool(" ++ shownBool b ++ ")"
  | .int k n => k.name.capitalize ++ "(" ++ toString n.val ++ ")"
  | .single x => "F32(" ++ Layout.pointed.text x ++ ")"
  | .double x => "F64(" ++ Layout.pointed.text x ++ ")"
  | .string s => "String(" ++ quoted s ++ ")"
  | .datetime text => "DateTime(" ++ quoted text ++ ")"
  | .array items => "Array([" ++ ", ".intercalate (shownAll items) ++ "])"

def shownAll : List Value → List String
  | [] => []
  | v :: vs => v.shown :: shownAll vs
end

end Value

def Kind.shown : Kind → String
  | .bool => "Bool"
  | .int t => t.name.capitalize
  | .single => "F32"
  | .double => "F64"
  | .string => "String"
  | .datetime => "DateTime"
  | .duration => "Duration"
  | .list k => "List(" ++ k.shown ++ ")"
  | .custom name => "Custom(" ++ quoted name ++ ")"

def FieldType.shown (t : FieldType) : String :=
  "FieldType \x7b kind: " ++ t.kind.shown ++ ", optional: " ++ shownBool t.optional ++ " \x7d"

def FieldDecl.shown (d : FieldDecl R) : String :=
  "FieldDecl \x7b field: " ++ quoted d.field ++ ", directive: " ++ shownOption quoted d.directive ++
    ", ty: " ++ shownOption (·.type.shown) d.slot ++ " \x7d"

def Declaration.shown : Declaration R → String
  | .fields decls => "Fields([" ++ ", ".intercalate (decls.map (·.shown)) ++ "])"
  | .selfDecoding _ => "SelfDecoding"

end TypedRecords
