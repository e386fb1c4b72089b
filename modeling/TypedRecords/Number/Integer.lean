/-!
# Integer kinds

The integer kinds of dynamic values, the integer types a field may have, and the integers each holds. A
machine word has 64 bits.
-/

namespace TypedRecords

abbrev Between (lo hi : Int) := {n : Int // lo ≤ n ∧ n ≤ hi}

inductive IntKind
  | i8 | i16 | i32 | i64 | u8 | u16 | u32 | u64
  deriving DecidableEq, Repr

def IntKind.name : IntKind → String
  | .i8 => "i8"
  | .i16 => "i16"
  | .i32 => "i32"
  | .i64 => "i64"
  | .u8 => "u8"
  | .u16 => "u16"
  | .u32 => "u32"
  | .u64 => "u64"

def IntKind.lo : IntKind → Int
  | .i8 => -128
  | .i16 => -32768
  | .i32 => -2147483648
  | .i64 => -9223372036854775808
  | .u8 | .u16 | .u32 | .u64 => 0

def IntKind.hi : IntKind → Int
  | .i8 => 127
  | .i16 => 32767
  | .i32 => 2147483647
  | .i64 => 9223372036854775807
  | .u8 => 255
  | .u16 => 65535
  | .u32 => 4294967295
  | .u64 => 18446744073709551615

abbrev IntKind.El (k : IntKind) := Between k.lo k.hi

inductive IntType
  | fixed (k : IntKind)
  | isize
  | usize
  deriving DecidableEq, Repr

/-- The kind of fixed width that holds the same integers. -/
def IntType.range : IntType → IntKind
  | .fixed k => k
  | .isize => .i64
  | .usize => .u64

def IntType.name : IntType → String
  | .fixed k => k.name
  | .isize => "isize"
  | .usize => "usize"

abbrev IntType.El (t : IntType) := t.range.El

theorem IntKind.zero_mem (k : IntKind) : k.lo ≤ 0 ∧ 0 ≤ k.hi := by cases k <;> decide

end TypedRecords
