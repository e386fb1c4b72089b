import TypedRecords.Record
import TypedRecords.Shown

/-!
# Record types of a process inventory

Sample record types about processes and network adapters: plain, renamed, skipped and colliding fields, and
one type that decodes itself.
-/

namespace TypedRecords

/-! ## Types that are not built in -/

inductive Catalog.Custom
  | percent
  deriving DecidableEq

instance : CustomTypes where
  Name := Catalog.Custom
  El
    | .percent => Between 0 100
  conversion
    | .percent => ⟨⟨.custom "percent", false⟩, coerceBetween 0 100 (.custom "percent")⟩
  default
    | .percent => ⟨0, by decide⟩

@[match_pattern]
abbrev Target.percent : Target := .custom .percent

namespace Catalog

def switch : Conversion Bool where
  type := ⟨.custom "switch", false⟩
  coerce
    | .bool on => .ok on
    | v => v.mismatch (.custom "switch")

def span : Conversion (Between 0 255 × Between 0 255) where
  type := ⟨.custom "span", false⟩
  coerce
    | .array [v, w] => do
      let low ← coerceBetween 0 255 (.int (.fixed .u8)) v
      let high ← coerceBetween 0 255 (.int (.fixed .u8)) w
      return (low, high)
    | v => v.mismatch (.custom "span")

def stamp : Conversion Timestamp where
  type := ⟨.custom "stamp", false⟩
  coerce
    | .null => coerceText Timestamp.read .datetime (.datetime "")
    | v => coerceText Timestamp.read .datetime v

/-- A gauge is described as optional, but null is none. -/
def gauge : Conversion (Between 0 255) := ⟨⟨.int (.fixed .u8), true⟩, coerceBetween 0 255 (.int (.fixed .u8))⟩

def reading (c : Conversion α) : RecordType (Option α) :=
  ⟨"Reading", none, .fields [.ofSlot "value" (c.slot fun x _ => some x)]⟩

/-! ## Record types -/

def field (name : String) (τ : Target) : FieldSpec := ⟨name, .typed τ none none, []⟩

def preset (name : String) (τ : Target) (v : Value) : FieldSpec := ⟨name, .typed τ none (some v), []⟩

def skipped (name : String) : FieldSpec := ⟨name, .skipped, []⟩

def renamed (property : String) (s : FieldSpec) : FieldSpec := { s with chain := s.chain ++ [.rename property] }

def withTexts (fields : List String) (t : RecordType Record) : RecordType Record :=
  { t with fresh := fields.foldl (fun r f => r.put f (.typed .string "")) t.fresh }

def u8 : Target := .int (.fixed .u8)
def u16 : Target := .int (.fixed .u16)
def u32 : Target := .int (.fixed .u32)
def u64 : Target := .int (.fixed .u64)

def process : RecordType Record := .ofFields "Process"
  [field "Name" .string, field "ProcessId" u32, field "Description" (.option .string),
   field "CreationDate" (.option .utc), field "TerminationDate" (.option .utc), field "KernelModeTime" u64,
   field "HandleCount" u32]

def miniProcess : RecordType Record := .ofFields "MiniProcess"
  [field "Name" .string, field "ProcessId" (.int .isize), field "CreationDate" .datetime,
   field "KernelModeTime" (.int .usize)]

def taggedProcess : RecordType Record := withTexts ["user_field"] <| .ofFields "TaggedProcess"
  [renamed "Name" (field "name" .string), renamed "ProcessId" (field "pid" u32), skipped "user_field"]

def presetOptionals : RecordType Record := .ofFields "PresetOptionals"
  [preset "Description" (.option .string) (.string "preset"), preset "Count" u16 (.int .u16 ⟨7, by decide⟩)]

def adapter : RecordType Record := .ofFields "Adapter"
  [field "IPAddress" (.option (.list .string)), field "DefaultIPGateway" (.option (.list .string)),
   field "MTU" u32, field "LoadPercentage" .double]

def mixed : RecordType Record := .ofFields "Mixed"
  [field "flag" .bool, renamed "Level" (field "level" .single), field "type" .string, field "uptime" .duration,
   renamed "Share" (field "share" .percent), field "matrix" (.list (.list (.option (.int (.fixed .i16)))))]

def collision : RecordType Record := .ofFields "Collision"
  [renamed "ProcessId" (field "pid" u32), renamed "processid" (field "other_pid" u32)]

def skipCollision : RecordType Record := withTexts ["shadow"] <| .ofFields "SkipCollision"
  [renamed "Name" (field "name" .string), renamed "NAME" (skipped "shadow")]

def emptyRename : RecordType Record := .ofFields "EmptyRename" [renamed "" (field "pid" u32)]

def commaRename : RecordType Record := .ofFields "CommaRename" [field "ok" u8, renamed "A,B" (field "pid" u32)]

def generic (name : String) (τ : Target) : RecordType Record :=
  .ofFields ("Generic<" ++ name ++ ">") [renamed "Value" (field "value" τ)]

def emptyType : RecordType Record := .ofFields "Empty" []

def manual : RecordType Record := .ofFields "Manual"
  [renamed "ProcessId" (field "pid" u32), renamed "Caption" (field "label" (.option .string))]

/-! ## A process that decodes itself -/

def hex32 (n : Int) : String := "0x" ++ String.ofList (Nat.toDigits 16 (n % 4294967296).toNat)

def incorrect (property : String) (got : Option Value) : Fault :=
  .text ("incorrect " ++ property ++ " value (" ++ shownOption Value.shown got ++ ")")

def processHook : Hook Record := fun r =>
  .ask "ProcessId" fun
    | .error fault => .answer (.error fault)
    | .ok (some (.int .i32 pid)) => .ask "Name" fun
      | .error fault => .answer (.error fault)
      | .ok (some (.string name)) =>
        .answer <| .ok <|
          (r.put "hex_pid" (.typed .string (hex32 pid.val))).put "cool_process_name"
            (.typed .string ("-=" ++ name ++ "=-"))
      | .ok got => .answer (.error (incorrect "Name" got))
    | .ok got => .answer (.error (incorrect "ProcessId" got))

def selfMadeProcess : RecordType Record := withTexts ["hex_pid", "cool_process_name"]
  ⟨"SelfMadeProcess", .empty, .selfDecoding processHook⟩

def all : List (RecordType Record) :=
  [process, miniProcess, taggedProcess, presetOptionals, adapter, mixed, collision, skipCollision, emptyRename,
   commaRename, generic "u8" u8, generic "option<list<u16>>" (.option (.list u16)), emptyType, manual,
   selfMadeProcess]

def find? (name : String) : Option (RecordType Record) := all.find? fun t => t.name == name

end Catalog

end TypedRecords
