import FormGuard.Yaml.Cursor

/-! The texts of scalars: plain, in quotes, and in blocks of lines. -/
namespace FormGuard.Yaml

/-- White space inside a scalar: the spaces of one line, or the line breaks crossed, folded. A single
break is a space; of more, all but the first stay. -/
structure Gap where
  text : List Char
  crossed : Bool
  after : Cursor

/-- Folds line breaks: the first one disappears before others. -/
def fold (first : Char) (others : List Char) : List Char :=
  if first != '\n' then first :: others
  else if others.isEmpty then [' ']
  else others

/-- Goes over blank lines and indentation. A document marker ends the walk with nothing. -/
def blankLines (tabs : Bool) (breaks : List Char) (column : Nat) :
    List Char → Option (List Char × Cursor)
  | [] => some (breaks.reverse, ⟨[], column⟩)
  | c :: rest =>
    if (⟨c :: rest, column⟩ : Cursor).hasMarker then none
    else
      match lineBreak? c with
      | some b => blankLines tabs (b :: breaks) 0 rest
      | none =>
        if c == ' ' || (tabs && c == '\t') then blankLines tabs breaks (column + 1) rest
        else some (breaks.reverse, ⟨c :: rest, column⟩)

/-- The white space at a place; tabs count as such between quotes only. -/
def gap (tabs : Bool) (place : Cursor) : Option Gap :=
  let spaces := place.rest.takeWhile fun c => c == ' ' || (tabs && c == '\t')
  let place := place.forward spaces.length
  match place.rest with
  | c :: rest =>
    match lineBreak? c with
    | none => some ⟨spaces, false, place⟩
    | some first =>
      (blankLines tabs [] 0 rest).map fun (others, after) => ⟨fold first others, true, after⟩
  | [] => some ⟨spaces, false, place⟩

/-! Plain scalars. -/

def isFlowSign (c : Char) : Bool := [',', '[', ']', '\x7b', '\x7d'].contains c

/-- Whether a colon before this text ends a key. -/
def endsKey (flow : Bool) (text : List Char) : Bool :=
  startsBlank text || (flow && (text.head?.map isFlowSign).getD false)

/-- The signs that begin something else than a plain scalar. -/
def isIndicator (c : Char) : Bool :=
  ['-', '?', ':', ',', '[', ']', '\x7b', '\x7d', '#', '&', '*', '!', '|', '>', '\'', '"', '%', '@',
    '\x60'].contains c

/-- Whether a plain scalar begins here. -/
def startsPlain (flow : Bool) (text : List Char) : Bool :=
  match text with
  | [] => false
  | c :: rest =>
    if isBlank c then false
    else if isIndicator c then
      !startsBlank rest && (c == '-' || (!flow && (c == '?' || c == ':')))
    else true

/-- The characters of a plain scalar up to white space. -/
def plainWord (flow : Bool) : List Char → List Char
  | [] => []
  | c :: rest =>
    if isBlank c || (c == ':' && endsKey flow rest) || (flow && (isFlowSign c || c == '?')) then []
    else c :: plainWord flow rest

/-- A scalar as written: its text, whether it runs over several lines, and the place behind. -/
structure Written where
  text : List Char
  crossed : Bool
  after : Cursor

/-- Goes on with a plain scalar while words follow; outside flow collections each line has to begin
at column `least` or behind. -/
def plainWords (flow : Bool) (least : Nat) : Nat → Written → Written
  | 0, done => done
  | fuel + 1, done =>
    match gap false done.after with
    | none => done
    | some g =>
      let word := plainWord flow g.after.rest
      if g.text.isEmpty || word.isEmpty || g.after.rest.head? == some '#'
          || (!flow && g.after.column < least) then done
      else
        plainWords flow least fuel
          ⟨done.text ++ g.text ++ word, done.crossed || g.crossed, g.after.forward word.length⟩

/-- The plain scalar at a place. -/
def plainText (flow : Bool) (least : Nat) (place : Cursor) : Written :=
  let word := plainWord flow place.rest
  plainWords flow least place.rest.length ⟨word, false, place.forward word.length⟩

/-! Scalars in quotes. -/

def escaped? (c : Char) : Option Char :=
  [('0', '\x00'), ('a', '\x07'), ('b', '\x08'), ('t', '\t'), ('\t', '\t'), ('n', '\n'),
    ('v', '\x0b'), ('f', '\x0c'), ('r', '\r'), ('e', '\x1b'), (' ', ' '), ('"', '"'),
    ('\\', '\\'), ('/', '/'), ('N', '\x85'), ('_', '\xa0'), ('L', '\u2028'),
    ('P', '\u2029')].lookup c

/-- How many hexadecimal digits follow a letter. -/
def codeLength? (c : Char) : Option Nat := [('x', 2), ('u', 4), ('U', 8)].lookup c

def hexCode (digits : List Char) : Option Char :=
  digits.foldl (fun code? d => do
    let code ← code?
    let n := d.toNat
    if d.isDigit then some (16 * code + (n - 48))
    else if 'a' ≤ d && d ≤ 'f' then some (16 * code + (n - 87))
    else if 'A' ≤ d && d ≤ 'F' then some (16 * code + (n - 55))
    else none) (some 0) |>.bind fun code =>
      if h : code.isValidChar then some (Char.ofNatAux code h) else none

/-- What a backslash and the text behind it stand for. -/
def escape? (place : Cursor) : Option (List Char × Bool × Cursor) :=
  match place.rest with
  | [] => none
  | c :: rest =>
    match escaped? c, codeLength? c, lineBreak? c with
    | some d, _, _ => some ([d], false, place.forward 1)
    | _, some n, _ =>
      if rest.length < n then none
      else (hexCode (rest.take n)).map fun d => ([d], false, place.forward (n + 1))
    | _, _, some _ => (blankLines true [] 0 rest).map fun (breaks, after) => (breaks, true, after)
    | _, _, _ => none

/-- Goes on with a scalar in quotes up to the closing one. -/
def quotedText (double : Bool) : Nat → Written → Option Written
  | 0, _ => none
  | fuel + 1, done =>
    match done.after.rest with
    | [] => none
    | c :: rest =>
      if c == ' ' || c == '\t' || isBreak c then do
        let g ← gap true done.after
        quotedText double fuel ⟨done.text ++ g.text, done.crossed || g.crossed, g.after⟩
      else if double && c == '"' then some { done with after := done.after.forward 1 }
      else if !double && c == '\'' then
        if rest.head? == some '\'' then
          quotedText double fuel ⟨done.text ++ ['\''], done.crossed, done.after.forward 2⟩
        else some { done with after := done.after.forward 1 }
      else if double && c == '\\' then do
        let (text, crossed, after) ← escape? (done.after.forward 1)
        quotedText double fuel ⟨done.text ++ text, done.crossed || crossed, after⟩
      else quotedText double fuel ⟨done.text ++ [c], done.crossed, done.after.forward 1⟩

/-- The scalar whose opening quote is here. -/
def quoted? (double : Bool) (place : Cursor) : Option Written :=
  quotedText double (place.rest.length + 1) ⟨[], false, place.forward 1⟩

/-! Scalars in blocks of lines. -/

/-- What the line that opens a block says: folded or not, which line breaks to keep at the end, and
the indentation where it is given. -/
structure BlockStyle where
  folded : Bool
  /-- Nothing keeps one line break, `false` none and `true` all. -/
  keep : Option Bool
  increment : Option Nat

/-- The signs behind the opening one. -/
def blockStyle? (folded : Bool) (text : List Char) : Option (BlockStyle × List Char) :=
  let keepOf (c : Char) : Option Bool :=
    if c == '+' then some true else if c == '-' then some false else none
  let step (c : Char) : Option Nat :=
    if '1' ≤ c && c ≤ '9' then some (c.toNat - 48) else none
  match text with
  | c :: d :: rest =>
    match keepOf c, step d, step c, keepOf d with
    | some k, some n, _, _ => some (⟨folded, some k, some n⟩, rest)
    | some k, none, _, _ => some (⟨folded, some k, none⟩, d :: rest)
    | none, _, some n, some k => some (⟨folded, some k, some n⟩, rest)
    | none, _, some n, none => some (⟨folded, none, some n⟩, d :: rest)
    | _, _, _, _ => some (⟨folded, none, none⟩, c :: d :: rest)
  | [c] =>
    match keepOf c, step c with
    | some k, _ => some (⟨folded, some k, none⟩, [])
    | none, some n => some (⟨folded, none, some n⟩, [])
    | none, none => some (⟨folded, none, none⟩, [c])
  | [] => some (⟨folded, none, none⟩, [])

/-- The text behind the opening line, which may end in a comment. -/
def afterHeader? (text : List Char) : Option (List Char) :=
  match text.dropWhile (· == ' ') with
  | [] => some []
  | c :: rest =>
    if isBreak c then some rest
    else if c == '#' then some ((rest.dropWhile fun d => !isBreak d).drop 1)
    else none

/-- The widest indentation before the first line with text. -/
def leadingIndent (column widest : Nat) : List Char → Nat
  | [] => max widest column
  | c :: rest =>
    if c == ' ' then leadingIndent (column + 1) (max widest (column + 1)) rest
    else if isBreak c then leadingIndent 0 widest rest
    else widest

/-- Goes over blank lines and at most `indent` spaces of the next line. -/
def blockBreaks (indent : Nat) (breaks : List Char) (column : Nat) :
    List Char → List Char × Cursor
  | [] => (breaks.reverse, ⟨[], column⟩)
  | c :: rest =>
    if c == ' ' && column < indent then blockBreaks indent breaks (column + 1) rest
    else
      match lineBreak? c with
      | some b => blockBreaks indent (b :: breaks) 0 rest
      | none => (breaks.reverse, ⟨c :: rest, column⟩)

def startsWhite (text : List Char) : Bool :=
  match text with
  | c :: _ => c == ' ' || c == '\t'
  | [] => false

/-- The lines of a block: text, then the last line break and the blank lines behind it. -/
def blockLines (folded : Bool) (indent : Nat) :
    Nat → List Char → List Char → Cursor → List Char × List Char × List Char × Cursor
  | 0, done, breaks, place => (done, [], breaks, place)
  | fuel + 1, done, breaks, place =>
    if place.column != indent || place.rest.isEmpty then (done, [], breaks, place)
    else
      let line := place.rest.takeWhile fun c => !isBreak c
      let done := done ++ breaks ++ line
      match place.rest.dropWhile fun c => !isBreak c with
      | [] => (done, [], [], ⟨[], 0⟩)
      | b :: rest =>
        let last := (lineBreak? b).getD '\n'
        let (breaks, next) := blockBreaks indent [] 0 rest
        if next.column != indent || next.rest.isEmpty then (done, [last], breaks, next)
        else if folded && last == '\n' && !startsWhite place.rest && !startsWhite next.rest then
          blockLines folded indent fuel (if breaks.isEmpty then done ++ [' '] else done) breaks next
        else blockLines folded indent fuel (done ++ [last]) breaks next

/-- The block whose opening sign is here, inside a collection at column `parent`. -/
def block? (folded : Bool) (least : Nat) (place : Cursor) : Option Written := do
  let (style, text) ← blockStyle? folded (place.rest.drop 1)
  let text ← afterHeader? text
  let least := max least 1
  let indent := match style.increment with
    | some n => least + n - 1
    | none => max least (leadingIndent 0 0 text)
  let (breaks, start) := blockBreaks indent [] 0 text
  let (done, last, tail, after) := blockLines folded indent (text.length + 1) [] breaks start
  let ending := match style.keep with
    | some false => []
    | none => last
    | some true => last ++ tail
  return ⟨done ++ ending, true, after⟩

end FormGuard.Yaml
