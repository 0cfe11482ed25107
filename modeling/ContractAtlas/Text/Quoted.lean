/-
Quoted text inside messages.

Text is set in single quotes, or in double quotes when it holds a single
quote and no double one.  Backslashes, the quote itself and characters that
cannot be printed are escaped.
-/

import ContractAtlas.Text.Printable

namespace ContractAtlas.Text

def paddedHex (width : Nat) (value : Nat) : List Char :=
  let digits := Nat.toDigits 16 value
  List.replicate (width - digits.length) '0' ++ digits

def escapeChar (quote : Char) (c : Char) : List Char :=
  if c = quote ∨ c = '\\' then ['\\', c]
  else if c = '\n' then ['\\', 'n']
  else if c = '\r' then ['\\', 'r']
  else if c = '\t' then ['\\', 't']
  else if isPrintable c then [c]
  else if c.toNat < 0x100 then '\\' :: 'x' :: paddedHex 2 c.toNat
  else if c.toNat < 0x10000 then '\\' :: 'u' :: paddedHex 4 c.toNat
  else '\\' :: 'U' :: paddedHex 8 c.toNat

def quoted (text : String) : String :=
  let quote := if text.contains '\'' && !text.contains '"' then '"' else '\''
  String.ofList
    (quote :: text.toList.flatMap (escapeChar quote) ++ [quote])

end ContractAtlas.Text
