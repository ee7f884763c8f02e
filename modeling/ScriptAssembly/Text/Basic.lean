import ScriptAssembly.Text.CodePoint
/-
Numerals, quoted strings, and the diagnostic form of values.

Natural numbers and integers are written in decimal without leading zeros,
words of memory in lowercase hexadecimal; both can be padded to a width.

A string is written between double quotes. Null, tab, carriage return, line
feed, the double quote and the backslash have an escape of two characters. Any
other character that has no visible form, and any mark that would attach to
the character before it, is written by its code point in braces. Every other
character stands for itself.

A structure is its name and its fields in braces, `Name { field: value }`; a
tagged value is `Name(value)`; a list is in square brackets.
-/
namespace ScriptAssembly.Text

/-! ## Numerals -/

/-- The decimal numeral of a natural number. -/
def decimal (n : Nat) : String := n.repr

/-- The decimal numeral of an integer, with a minus sign below zero. -/
def signedDecimal (z : Int) : String :=
  if z < 0 then "-" ++ decimal z.natAbs else decimal z.natAbs

/-- The hexadecimal digits of a natural number, most significant first. -/
def hexDigits (n : Nat) : List Char := Nat.toDigits 16 n

/-- The text with copies of `c` in front of it until it is `width` long. -/
def padStart (width : Nat) (c : Char) (s : String) : String :=
  String.ofList (s.toList.leftpad width c)

/-- Sixteen hexadecimal digits of a 64-bit word. -/
def hex64 (w : UInt64) : String :=
  padStart 16 '0' (String.ofList (hexDigits w.toNat))

/-! ## Quoted strings -/

namespace Quoted

/-- A character written by its code point: `\u`, then the hexadecimal digits in braces. -/
def codePoint (c : Char) : List Char :=
  '\\' :: 'u' :: '\x7b' :: (hexDigits c.toNat ++ ['\x7d'])

/-- How one character is written between the quotes. -/
def encodeChar (c : Char) : List Char :=
  if c = '\x00' then ['\\', '0']
  else if c = '\t' then ['\\', 't']
  else if c = '\r' then ['\\', 'r']
  else if c = '\n' then ['\\', 'n']
  else if c = '"' then ['\\', '"']
  else if c = '\\' then ['\\', '\\']
  else if isExtendingMark c || !isPrintable c then codePoint c
  else [c]

/-- The characters between the quotes. -/
def encode (s : List Char) : List Char := s.flatMap encodeChar

end Quoted

/-- A string between double quotes. -/
def quote (s : String) : String :=
  String.ofList ('"' :: (Quoted.encode s.toList ++ ['"']))

/-! ## Structured values -/

/-- Items with a comma and a space between them. -/
def commaSeparated (items : List String) : String := ", ".intercalate items

/-- A list of texts in square brackets. -/
def bracketed (items : List String) : String := "[" ++ commaSeparated items ++ "]"

/-- A value in parentheses behind the name of its case. -/
def tagged (name value : String) : String := name ++ "(" ++ value ++ ")"

/-- Named fields in braces behind the name of their structure. -/
def braced (name : String) (fields : List (String × String)) : String :=
  name ++ " \x7b " ++ commaSeparated (fields.map fun f => f.1 ++ ": " ++ f.2) ++ " \x7d"

end ScriptAssembly.Text
