import FormGuard.Text.Integer
import FormGuard.Value

/-! What a plain scalar of a YAML document means: a truth value, a number, nothing, or text. -/
namespace FormGuard.Yaml

/-- Why a text has no value. -/
inductive Fault where
  | malformed
  /-- A whole number has more digits than are read. -/
  | oversized
  deriving DecidableEq

def trueWords : List String :=
  ["yes", "Yes", "YES", "true", "True", "TRUE", "on", "On", "ON"]

def falseWords : List String :=
  ["no", "No", "NO", "false", "False", "FALSE", "off", "Off", "OFF"]

def nullWords : List String := ["", "~", "null", "Null", "NULL"]

def isSign (c : Char) : Bool := c == '+' || c == '-'

/-- A sign, when there is one, and what follows. -/
def unsigned : List Char → Bool × List Char
  | '-' :: rest => (true, rest)
  | '+' :: rest => (false, rest)
  | text => (false, text)

def hexValue (c : Char) : Nat :=
  if c.isDigit then c.toNat - 48 else (if c.isUpper then c.toNat + 32 else c.toNat) - 87

def isHex (c : Char) : Bool :=
  c.isDigit || ('a' ≤ c && c ≤ 'f') || ('A' ≤ c && c ≤ 'F')

/-- The number that digits spell in a base; underscores only separate. -/
def digits (base : Nat) (text : List Char) : Nat :=
  (text.filter (· != '_')).foldl (fun n c => base * n + hexValue c) 0

/-- Decimal digits and underscores, a digit first. -/
def isDigitRun : List Char → Bool
  | c :: rest => c.isDigit && rest.all fun d => d.isDigit || d == '_'
  | [] => false

/-- One or two digits below sixty. -/
def isSixtieth : List Char → Bool
  | [c] => c.isDigit
  | [c, d] => '0' ≤ c && c ≤ '5' && d.isDigit
  | _ => false

/-- The parts of a text between colons. -/
def colonParts : List Char → List (List Char)
  | [] => [[]]
  | c :: rest =>
    if c == ':' then [] :: colonParts rest
    else
      match colonParts rest with
      | [] => [[c]]
      | part :: others => (c :: part) :: others

/-- The number of a decimal run, if it is not too long. -/
def decimal (run : List Char) : Except Fault Nat :=
  if (run.filter (· != '_')).length ≤ Text.maxDigits then .ok (digits 10 run) else .error .oversized

/-- The magnitude of a whole number: binary, octal, hexadecimal, decimal or in sixtieths. -/
def wholeNumber? (text : List Char) : Option (Except Fault Nat) :=
  match text with
  | ['0'] => some (.ok 0)
  | '0' :: 'b' :: c :: rest =>
    if (c :: rest).all (fun d => d == '0' || d == '1' || d == '_') then
      some (.ok (digits 2 (c :: rest)))
    else none
  | '0' :: 'x' :: c :: rest =>
    if (c :: rest).all (fun d => isHex d || d == '_') then some (.ok (digits 16 (c :: rest)))
    else none
  | '0' :: c :: rest =>
    if (c :: rest).all (fun d => ('0' ≤ d && d ≤ '7') || d == '_') then
      some (.ok (digits 8 (c :: rest)))
    else none
  | text =>
    match colonParts text with
    | first :: others =>
      if isDigitRun first && first.head? != some '0' && others.all isSixtieth then
        some ((others.foldl fun n part => 60 * n + digits 10 part) <$> decimal first)
      else none
    | [] => none

def int? (text : List Char) : Option (Except Fault Int) :=
  let (negative, rest) := unsigned text
  (wholeNumber? rest).map fun found => found.map fun n => if negative then -(n : Int) else n

/-- The exponent of a decimal fraction, which has a sign; without one it is zero. -/
def exponent? (text : List Char) : Option Int :=
  match text with
  | [] => some 0
  | e :: s :: c :: rest =>
    if (e == 'e' || e == 'E') && isSign s && (c :: rest).all Char.isDigit then
      let n := digits 10 (c :: rest)
      some (if s == '-' then -(n : Int) else n)
    else none
  | _ => none

/-- A decimal fraction with whole digits before the point. -/
def fraction? (negative : Bool) (whole text : List Char) : Option Double :=
  let behind := text.takeWhile fun c => c.isDigit || c == '_'
  (exponent? (text.dropWhile fun c => c.isDigit || c == '_')).map fun e =>
    let places := (behind.filter (· != '_')).length
    Double.ofDecimal negative (digits 10 (whole ++ behind)) (e - places)

def infinityWords : List String := [".inf", ".Inf", ".INF"]

def undefinedWords : List String := [".nan", ".NaN", ".NAN"]

/-- A number with a point, or one of the words for what is no finite number. -/
def float? (text : List Char) : Option Double :=
  let (negative, rest) := unsigned text
  if undefinedWords.contains (String.ofList text) then some .nan
  else if infinityWords.contains (String.ofList rest) then some (.infinite negative)
  else
    let whole := rest.takeWhile (· != '.')
    match rest.dropWhile (· != '.') with
    | '.' :: behind =>
      if whole.isEmpty then
        if rest.length == text.length && (behind.head?.map Char.isDigit).getD false then
          fraction? false [] behind
        else none
      else if isDigitRun whole then fraction? negative whole behind
      else
        match colonParts whole with
        | first :: second :: others =>
          if isDigitRun first && (second :: others).all isSixtieth
              && behind.all (fun c => c.isDigit || c == '_') then
            let minutes := (second :: others).foldl (fun n part => 60 * n + digits 10 part)
              (digits 10 first)
            let places := (behind.filter (· != '_')).length
            some (Double.ofDecimal negative (minutes * Nat.pow 10 places + digits 10 behind)
              (-(places : Int)))
          else none
        | _ => none
    | _ => none

/-- The value of a plain scalar. -/
def scalar (s : String) : Except Fault Value :=
  if nullWords.contains s then .ok .null
  else if trueWords.contains s then .ok (.bool true)
  else if falseWords.contains s then .ok (.bool false)
  else
    match float? s.toList with
    | some d => .ok (.float d)
    | none =>
      match int? s.toList with
      | some i => i.map .int
      | none => .ok (.text s)

end FormGuard.Yaml
