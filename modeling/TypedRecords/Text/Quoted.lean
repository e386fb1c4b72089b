import TypedRecords.Text.ExtendingMark
import TypedRecords.Text.Ignorable
import TypedRecords.Text.Unprintable

/-!
# Quoted texts

A text between double quotes, with escapes for the quote, the backslash, and every character that cannot be
seen on its own.
-/

namespace TypedRecords

def escapeCode (c : Char) : List Char :=
  ['\\', 'u', '\x7b'] ++ Nat.toDigits 16 c.toNat ++ ['\x7d']

def escapeChar (c : Char) : List Char :=
  if c = '\x00' then ['\\', '0']
  else if c = '\t' then ['\\', 't']
  else if c = '\n' then ['\\', 'n']
  else if c = '\r' then ['\\', 'r']
  else if c = '"' ∨ c = '\\' then ['\\', c]
  else if isExtendingMark c || isUnprintable c || isIgnorable c then escapeCode c
  else [c]

def quoted (s : String) : String :=
  String.ofList ('"' :: s.toList.flatMap escapeChar ++ ['"'])

example : quoted "a\"\n\u0301" = "\"a\\\"\\n\\u\x7b301\x7d\"" := by decide +kernel

end TypedRecords
