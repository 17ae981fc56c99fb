import FormGuard.Unicode.Printable

/-! Texts in quotes, with escapes for what cannot be shown. -/
namespace FormGuard.Text

def hexDigit (n : Nat) : Char :=
  if n < 10 then Char.ofNat (48 + n) else Char.ofNat (87 + n)

/-- A number in so many hexadecimal digits, the leading ones first. -/
def hexDigits (n : Nat) : Nat → List Char
  | 0 => []
  | count + 1 => hexDigits (n / 16) count ++ [hexDigit (n % 16)]

/-- A character between quotes. -/
def quotedChar (quote c : Char) : List Char :=
  if c == quote || c == '\\' then ['\\', c]
  else if c == '\n' then ['\\', 'n']
  else if c == '\r' then ['\\', 'r']
  else if c == '\t' then ['\\', 't']
  else if Unicode.isPrintable c then [c]
  else if c.toNat < 0x100 then '\\' :: 'x' :: hexDigits c.toNat 2
  else if c.toNat < 0x10000 then '\\' :: 'u' :: hexDigits c.toNat 4
  else '\\' :: 'U' :: hexDigits c.toNat 8

/-- Single quotes, unless the text holds one and no double quote. -/
def quoteFor (text : List Char) : Char :=
  if text.contains '\'' && !text.contains '"' then '"' else '\''

def quoted (s : String) : String :=
  let quote := quoteFor s.toList
  String.ofList (quote :: s.toList.flatMap (quotedChar quote) ++ [quote])

end FormGuard.Text
