import RangeIndex.Text.Visible

/-! Text as it is shown inside a message: between double quotes, with every character that could
end the quotation, break the line or go unseen written as an escape. -/
namespace RangeIndex.Text

/-- One character inside quotes. The common controls, the quote and the backslash have two-letter
escapes; other hidden or combining characters are written by their number. -/
def escapeChar (c : Char) : List Char :=
  if c = '\u0000' then ['\\', '0']
  else if c = '\t' then ['\\', 't']
  else if c = '\n' then ['\\', 'n']
  else if c = '\r' then ['\\', 'r']
  else if c = '"' then ['\\', '"']
  else if c = '\\' then ['\\', '\\']
  else if isCombining c || isHidden c then
    ['\\', 'u', '\x7b'] ++ Nat.toDigits 16 c.toNat ++ ['\x7d']
  else [c]

/-- A text between quotes. -/
def quoted (text : String) : String :=
  String.ofList ('"' :: text.toList.flatMap escapeChar ++ ['"'])

end RangeIndex.Text
