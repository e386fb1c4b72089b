import TypedRecords.RecordType

/-!
# Declarations derived from attributes

The declaration that the attributes of a type definition ask for. The attributes of the type come first, then
its shape, then its fields from left to right; the first thing that is not understood is reported. What a
rename says is checked only when the schema is built.
-/

namespace TypedRecords.Derive

inductive Literal
  | text (s : String)
  | other
  deriving DecidableEq, Repr

structure Item where
  word : String
  value : Option Literal
  deriving DecidableEq, Repr

/-- An attribute of another name, or one whose items are missing, assigned or listed. -/
inductive Attribute
  | foreign
  | bare
  | assigned
  | items (items : List Item)
  deriving DecidableEq, Repr

structure FieldDef where
  name : String
  type : String
  attributes : List Attribute

inductive Shape
  | named (fields : List FieldDef)
  | tuple
  | unit
  | notStruct

/-- Default types and values of parameters play no part. -/
inductive Parameter
  | type (name : String) (bounds : List String)
  | const (name type : String)

structure Definition where
  name : String
  shape : Shape
  attributes : List Attribute
  parameters : List Parameter
  conditions : List String

inductive AttributeFault
  | unknownTypeItem
  | unknownFieldItem
  | notStruct
  | tuple
  | unit
  | noEquals
  | noText
  | duplicateRename
  | noComma
  | noItems
  | noParentheses
  deriving DecidableEq, Repr

def AttributeFault.message : AttributeFault → String
  | .unknownTypeItem => "unknown struct attribute (expected 'unmarshal')"
  | .unknownFieldItem => "unknown field attribute (expected 'rename' or 'skip')"
  | .notStruct => "Record only supports structs"
  | .tuple => "Record only supports structs with named fields"
  | .unit => "Record needs named fields or #[prop(unmarshal)]"
  | .noEquals => "expected `=`"
  | .noText => "expected string literal"
  | .duplicateRename => "duplicate rename"
  | .noComma => "expected `,`"
  | .noItems => "expected attribute arguments in parentheses: #[prop(...)]"
  | .noParentheses => "expected parentheses: #[prop(...)]"

def Attribute.read : Attribute → Except AttributeFault (List Item)
  | .foreign => .ok []
  | .bare => .error .noItems
  | .assigned => .error .noParentheses
  | .items list => .ok list

def foldItems (step : α → Item → Except AttributeFault α) (a : α) (attributes : List Attribute) :
    Except AttributeFault α :=
  attributes.foldlM (fun a attr => attr.read.bind (List.foldlM step a)) a

def typeItem (_ : Bool) (item : Item) : Except AttributeFault Bool :=
  if item.word ≠ "unmarshal" then .error .unknownTypeItem
  else if item.value.isSome then .error .noComma
  else .ok true

structure FieldItems where
  rename : Option String
  skip : Bool
  deriving DecidableEq, Repr

def fieldItem (seen : FieldItems) (item : Item) : Except AttributeFault FieldItems :=
  if item.word = "rename" then
    match item.value with
    | none => .error .noEquals
    | some .other => .error .noText
    | some (.text name) =>
      if seen.rename.isSome then .error .duplicateRename else .ok { seen with rename := some name }
  else if item.word = "skip" then
    if item.value.isSome then .error .noComma else .ok { seen with skip := true }
  else .error .unknownFieldItem

def plainName (name : String) : String :=
  match name.toList with
  | 'r' :: '#' :: rest => String.ofList rest
  | _ => name

def withoutBlanks (text : String) : String := String.ofList (text.toList.filter (!isBlank ·))

/-- A derived field declaration. It assigns the struct field `sets` a value of type `type`. -/
structure DerivedField where
  field : String
  sets : String
  type : String
  skipped : Bool
  rename : Option String
  deriving DecidableEq, Repr

inductive Derived
  | selfDecoding
  | fields (fields : List DerivedField)
  deriving DecidableEq, Repr

def FieldDef.derive (f : FieldDef) : Except AttributeFault DerivedField :=
  (foldItems fieldItem ⟨none, false⟩ f.attributes).map fun seen =>
    ⟨plainName f.name, f.name, withoutBlanks f.type, seen.skip, seen.rename⟩

namespace Definition

def derive (d : Definition) : Except AttributeFault Derived :=
  match foldItems typeItem false d.attributes with
  | .error fault => .error fault
  | .ok true => .ok .selfDecoding
  | .ok false =>
    match d.shape with
    | .named fields => (fields.mapM FieldDef.derive).map .fields
    | .tuple => .error .tuple
    | .unit => .error .unit
    | .notStruct => .error .notStruct

end Definition

def DerivedField.declare (f : DerivedField) (slot : Slot R) : FieldDecl R :=
  let first : FieldDecl R := if f.skipped then .skipped f.field else .ofSlot f.field slot
  match f.rename with
  | some property => first.rename property
  | none => first

/-! ## Headers -/

namespace Parameter

def name : Parameter → String
  | .type name _ => name
  | .const name _ => name

def declared : Parameter → String
  | .type name [] => name
  | .type name bounds => name ++ ":" ++ "+".intercalate bounds
  | .const name t => "const" ++ name ++ ":" ++ t

end Parameter

def bracketed (parts : List String) : String :=
  if parts.isEmpty then "" else "<" ++ ",".intercalate parts ++ ">"

/-- The text before the body of the derived instance, without white space. -/
def Definition.header (d : Definition) : String :=
  withoutBlanks <|
    "impl" ++ bracketed (d.parameters.map (·.declared)) ++ "::propdecode::Recordfor" ++ d.name ++
      bracketed (d.parameters.map (·.name)) ++
      (if d.conditions.isEmpty then "" else "where" ++ ",".intercalate d.conditions)

end TypedRecords.Derive
