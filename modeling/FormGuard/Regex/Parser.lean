import FormGuard.Regex.Syntax
import FormGuard.Text.Integer

/-! Reading the written form of a regular expression. -/
namespace FormGuard.Regex

/-- A character, or a backslash with the character it escapes. -/
inductive Token where
  | plain (c : Char)
  | escaped (c : Char)
  /-- A backslash that ends the text; it may not even be looked at. -/
  | dangling
  deriving DecidableEq

namespace Token

def ofText : List Char → List Token
  | [] => []
  | ['\\'] => [.dangling]
  | '\\' :: c :: rest => .escaped c :: ofText rest
  | c :: rest => .plain c :: ofText rest

end Token

/-- The switches of an expression or of a part of it. -/
structure Flags where
  ignoreCase : Bool
  multiline : Bool
  dotAll : Bool
  verbose : Bool
  /-- ASCII matching is asked for. -/
  ascii : Bool
  /-- Unicode matching is asked for by name; it is also what holds without `ascii`. -/
  every : Bool
  /-- Repetitions are ruled out. -/
  template : Bool
  deriving DecidableEq

namespace Flags

def none : Flags := ⟨false, false, false, false, false, false, false⟩

def letters : List Char := ['i', 'L', 'm', 's', 'x', 'a', 't', 'u']

def set (flags : Flags) (value : Bool) : Char → Flags
  | 'i' => { flags with ignoreCase := value }
  | 'm' => { flags with multiline := value }
  | 's' => { flags with dotAll := value }
  | 'x' => { flags with verbose := value }
  | 'a' => { flags with ascii := value }
  | 'u' => { flags with every := value }
  | 't' => { flags with template := value }
  | _ => flags

/-- Switches letters on and others off; asking for a script drops the one in force. -/
def combine (flags : Flags) (on off : List Char) : Flags :=
  let flags := if on.contains 'a' || on.contains 'u'
    then { flags with ascii := false, every := false } else flags
  off.foldl (fun f c => f.set false c) (on.foldl (fun f c => f.set true c) flags)

def script (flags : Flags) : Script := if flags.ascii then .ascii else .every

def folding (flags : Flags) : Folding :=
  if flags.ignoreCase then (if flags.ascii then .ascii else .every) else .exact

end Flags

/-- The least and the most characters an expression takes; no most is no bound. -/
structure Width where
  least : Nat
  most : Option Nat

namespace Width

def exactly (n : Nat) : Width := ⟨n, some n⟩

def add (v w : Width) : Width :=
  ⟨v.least + w.least, match v.most, w.most with | some a, some b => some (a + b) | _, _ => none⟩

def either (v w : Width) : Width :=
  ⟨min v.least w.least, match v.most, w.most with | some a, some b => some (max a b) | _, _ => none⟩

def times (w : Width) (least : Nat) (most : Option Nat) : Width :=
  ⟨w.least * least,
    match w.most, most with
    | some 0, _ | _, some 0 => some 0
    | some a, some b => some (a * b)
    | _, _ => none⟩

end Width

/-- The width of an expression, given those of the groups so far. -/
def Expr.width (groups : List (Option Width)) : Expr → Width
  | .empty | .place _ | .ahead _ _ | .behind _ _ _ => .exactly 0
  | .single _ | .any _ => .exactly 1
  | .seq first second => (first.width groups).add (second.width groups)
  | .alt left right => (left.width groups).either (right.width groups)
  | .group _ body | .atomic body => body.width groups
  | .rounds least most _ body => (body.width groups).times least most
  | .reference index _ => (groups[index - 1]?.join).getD (.exactly 0)
  | .choice _ present absent => (present.width groups).either (absent.width groups)

structure ParseState where
  rest : List Token
  flags : Flags
  /-- Widths of the groups in the order they were opened; none while a group is open. -/
  groups : List (Option Width)
  names : List (List Char × Nat)
  /-- Inside a look behind, how many groups there were where it began. -/
  behindFrom : Option Nat
  /-- Groups that a condition refers to by number. -/
  conditions : List Nat
  /-- Some look behind has no fixed width, or one that is too large. -/
  looseBehind : Bool
  repeats : Bool

abbrev Parser := StateT ParseState (Except Fault)

namespace Parser

def malformed {α : Type} : Parser α := throw .malformed

def peek : Parser (Option Token) := do return (← get).rest.head?

/-- Moves past a token; the one that comes into view must be whole. -/
def take : Parser (Option Token) := do
  match (← get).rest with
  | [] => return none
  | t :: rest =>
    if rest.head? == some .dangling then malformed
    modify fun s => { s with rest }
    return some t

def accept (c : Char) : Parser Bool := do
  if (← peek) == some (.plain c) then
    let _ ← take
    return true
  return false

def expect (c : Char) : Parser Unit := do
  unless ← accept c do malformed

/-- Up to `count` plain characters of a kind. -/
def takeWhile (kind : Char → Bool) : Nat → Parser (List Char)
  | 0 => return []
  | count + 1 => do
    match ← peek with
    | some (.plain c) =>
      if kind c then
        let _ ← take
        return c :: (← takeWhile kind count)
      return []
    | _ => return []

/-- All plain characters of a kind. -/
def takeAll (kind : Char → Bool) : Parser (List Char) := do
  takeWhile kind (← get).rest.length

/-- A name up to its terminator, at most `count` characters long. -/
def nameUntil (terminator : Char) : Nat → Parser (List Char)
  | 0 => malformed
  | count + 1 => do
    match ← take with
    | some (.plain c) => if c == terminator then return [] else return c :: (← nameUntil terminator count)
    | _ => malformed

def name (terminator : Char) : Parser (List Char) := do
  let chars ← nameUntil terminator ((← get).rest.length + 1)
  if chars.isEmpty then malformed
  return chars

end Parser

open FormGuard.Regex.Parser

def isIdentifier : List Char → Bool
  | [] => false
  | c :: rest => Unicode.isWord c && !Unicode.isDigit c && rest.all Unicode.isWord

def isOctal (c : Char) : Bool := '0' ≤ c && c ≤ '7'

def isHex (c : Char) : Bool :=
  c.isDigit || ('a' ≤ c && c ≤ 'f') || ('A' ≤ c && c ≤ 'F')

def digitCode (c : Char) : Nat :=
  if c.isDigit then c.toNat - 48
  else if 'a' ≤ c then c.toNat - 87
  else c.toNat - 55

def numeral (base : Nat) (digits : List Char) : Nat :=
  digits.foldl (fun n c => n * base + digitCode c) 0

/-- Escapes that stand for a control character or for the backslash. -/
def controlEscape? : Char → Option Nat
  | 'a' => some 7
  | 'f' => some 12
  | 'n' => some 10
  | 'r' => some 13
  | 't' => some 9
  | 'v' => some 11
  | '\\' => some 92
  | _ => none

def categoryEscape? (flags : Flags) : Char → Option ClassItem
  | 'd' => some (.category .digit flags.script false)
  | 'D' => some (.category .digit flags.script true)
  | 's' => some (.category .space flags.script false)
  | 'S' => some (.category .space flags.script true)
  | 'w' => some (.category .word flags.script false)
  | 'W' => some (.category .word flags.script true)
  | _ => none

def placeEscape? (flags : Flags) : Char → Option Place
  | 'A' => some .textStart
  | 'Z' => some .textEnd
  | 'b' => some (.wordEdge flags.script false)
  | 'B' => some (.wordEdge flags.script true)
  | _ => none

/-- Exactly so many hexadecimal digits. -/
def hexEscape (count : Nat) : Parser Nat := do
  let digits ← takeWhile isHex count
  if digits.length != count then malformed
  return numeral 16 digits

/-- The code point of an escape other than a category, a place or a number. -/
def codeEscape (c : Char) : Parser Nat := do
  match controlEscape? c with
  | some n => return n
  | none =>
    match c with
    | 'x' => hexEscape 2
    | 'u' => hexEscape 4
    | 'U' =>
      let n ← hexEscape 8
      if 0x10ffff < n then malformed
      return n
    | c => if c.isAlphanum then malformed else return c.toNat

/-- A backslash and a digit inside a class: up to three octal digits. -/
def octalEscape (c : Char) : Parser Nat := do
  let n := numeral 8 (c :: (← takeWhile isOctal 2))
  if 0o377 < n then malformed
  return n

/-- One side of a range, or a class member of its own. -/
def classAtom (flags : Flags) : Token → Parser ClassItem
  | .plain c => return .range c.toNat c.toNat
  | .escaped 'b' => return .range 8 8
  | .escaped c => do
    match categoryEscape? flags c with
    | some item => return item
    | none =>
      let n ← if isOctal c then octalEscape c else codeEscape c
      return .range n n
  | .dangling => malformed

/-- The members of a class up to its closing bracket, which is a member where none came before. -/
def classItems (flags : Flags) : Nat → List ClassItem → Parser (List ClassItem)
  | 0, _ => malformed
  | fuel + 1, items => do
    match ← take with
    | none => malformed
    | some t =>
      if t == .plain ']' && !items.isEmpty then return items
      let low ← classAtom flags t
      if ← accept '-' then
        match ← take with
        | none => malformed
        | some (.plain ']') => return items ++ [low, .range 45 45]
        | some t' =>
          let high ← classAtom flags t'
          match low, high with
          | .range a _, .range b _ =>
            if b < a then malformed
            classItems flags fuel (items ++ [.range a b])
          | _, _ => malformed
      else classItems flags fuel (items ++ [low])

def bracketClass (flags : Flags) : Parser Expr := do
  let negated ← accept '^'
  let items ← classItems flags ((← get).rest.length + 1) []
  return .single ⟨negated, items.eraseDups, flags.folding⟩

/-- Whether a reference may name the group: it is closed, and inside a look behind it was closed
before that began. -/
def checkReference (index : Nat) : Parser Unit := do
  let s ← get
  let closed := match s.groups[index - 1]? with
    | some (some _) => index != 0
    | _ => false
  match s.behindFrom with
  | none => return
  | some from_ => unless closed && index < from_ do malformed

def groupReference (flags : Flags) (index : Nat) : Parser Expr := do
  match (← get).groups[index - 1]? with
  | some (some _) =>
    checkReference index
    return .reference index flags.folding
  | _ => malformed

/-- A backslash and a digit outside a class: a group, or a code point in octal. -/
def numberEscape (flags : Flags) (c : Char) : Parser Expr := do
  let literal (n : Nat) : Expr := .single (.single flags.folding n)
  if c == '0' then
    return literal (numeral 8 (← takeWhile isOctal 2))
  match ← takeWhile Char.isDigit 1 with
  | [d] =>
    if isOctal c && isOctal d then
      match ← takeWhile isOctal 1 with
      | [e] =>
        let n := numeral 8 [c, d, e]
        if 0o377 < n then malformed
        return literal n
      | _ => groupReference flags (numeral 10 [c, d])
    else groupReference flags (numeral 10 [c, d])
  | _ => groupReference flags (digitCode c)

def escape (flags : Flags) (c : Char) : Parser Expr := do
  match placeEscape? flags c, categoryEscape? flags c with
  | some p, _ => return .place p
  | none, some item => return .single ⟨false, [item], flags.folding⟩
  | none, none =>
    if c.isDigit then numberEscape flags c
    else return .single (.single flags.folding (← codeEscape c))

/-- What a repetition sign may follow. -/
inductive Standing where
  | piece
  | place
  | repetition
  deriving DecidableEq

/-- The largest count that is read. -/
def countLimit : Nat := Nat.pow 2 32 - 1

def count? (digits : List Char) : Parser (Option Nat) := do
  if digits.isEmpty then return none
  if Text.maxDigits < digits.length then throw .conflict
  let n := numeral 10 digits
  if countLimit ≤ n then throw .tooLarge
  return some n

/-- The bounds after a brace; nothing when the brace stands for itself. -/
def braceBounds : Parser (Option (Nat × Option Nat)) := do
  if (← peek) == some (.plain '}') then return none
  let low ← takeAll Char.isDigit
  let high ← if ← accept ',' then takeAll Char.isDigit else pure low
  unless ← accept '}' do return none
  let least ← count? low
  let most ← count? high
  match most with
  | some m => if m < least.getD 0 then malformed
  | none => pure ()
  return some (least.getD 0, most)

/-- The letters of a switch group, and the first character that is none of them. -/
def flagLetters : Nat → Parser (List Char × Char)
  | 0 => malformed
  | fuel + 1 => do
    match ← take with
    | some (.plain c) =>
      if Flags.letters.contains c then
        let (more, stop) ← flagLetters fuel
        return (c :: more, stop)
      else return ([], c)
    | _ => malformed

/-- The switches a group turns on and off; nothing off and `none` for the whole expression. -/
def switches (first : Char) : Parser (List Char × Option (List Char)) := do
  let fuel := (← get).rest.length + 1
  let (on, stop) ← if first == '-' then pure ([], '-') else do
    let (more, stop) ← flagLetters fuel
    pure (first :: more, stop)
  if on.contains 'L' || (on.contains 'a' && on.contains 'u') then malformed
  if stop == ')' then return (on, none)
  if on.contains 't' then malformed
  if stop == ':' then return (on, some [])
  if stop != '-' then malformed
  let (off, stop) ← flagLetters fuel
  if off.isEmpty || stop != ':' then malformed
  if off.any fun c => ['a', 'u', 'L', 't'].contains c || on.contains c then malformed
  return (on, some off)

/-- Skips a comment up to its closing parenthesis. -/
def comment : Nat → Parser Unit
  | 0 => malformed
  | fuel + 1 => do
    match ← take with
    | none => malformed
    | some t => unless t == .plain ')' do comment fuel

/-- Skips to the end of a line. -/
def lineComment : Nat → Parser Unit
  | 0 => return
  | fuel + 1 => do
    match ← take with
    | none => return
    | some t => unless t == .plain '\n' do lineComment fuel

/-- What a parenthesis turns out to be. -/
inductive Opening where
  | comment
  | switches (on : List Char)
  | reference (index : Nat)
  | capture (name : Option (List Char))
  | plain (on off : List Char)
  | atomic
  | look (behind negated : Bool)
  | choice (index : Nat)

/-- The group a condition names. -/
def condition : Parser Nat := do
  let chars ← name ')'
  let index ← if isIdentifier chars then
    match (← get).names.lookup chars with
    | some index => pure index
    | none => malformed
  else match Text.integer? chars with
    | some (.ofNat (n + 1)) => do
      modify fun s => { s with conditions := (n + 1) :: s.conditions }
      pure (n + 1)
    | _ => malformed
  checkReference index
  return index

/-- Reads what follows an opening parenthesis. -/
def opening : Parser Opening := do
  unless ← accept '?' do return .capture none
  match ← take with
  | some (.plain 'P') =>
    if ← accept '<' then
      let chars ← name '>'
      unless isIdentifier chars do malformed
      return .capture (some chars)
    else if ← accept '=' then
      let chars ← name ')'
      unless isIdentifier chars do malformed
      match (← get).names.lookup chars with
      | some index => return .reference index
      | none => malformed
    else malformed
  | some (.plain ':') => return .plain [] []
  | some (.plain '#') => do
    comment ((← get).rest.length + 1)
    return .comment
  | some (.plain '=') => return .look false false
  | some (.plain '!') => return .look false true
  | some (.plain '<') =>
    match ← take with
    | some (.plain '=') => return .look true false
    | some (.plain '!') => return .look true true
    | _ => malformed
  | some (.plain '(') => return .choice (← condition)
  | some (.plain '>') => return .atomic
  | some (.plain c) =>
    if c == '-' || Flags.letters.contains c then
      match ← switches c with
      | (on, none) => return .switches on
      | (on, some off) => return .plain on off
    else malformed
  | _ => malformed

def openGroup (name : Option (List Char)) : Parser Nat := do
  let s ← get
  let index := s.groups.length + 1
  match name with
  | some chars =>
    if (s.names.lookup chars).isSome then malformed
    set { s with groups := s.groups ++ [none], names := (chars, index) :: s.names }
  | none => set { s with groups := s.groups ++ [none] }
  return index

def closeGroup (index : Nat) (body : Expr) : Parser Unit :=
  modify fun s => { s with groups := s.groups.set (index - 1) (some (body.width s.groups)) }

def literal (flags : Flags) (c : Char) : Expr := .single (.single flags.folding c.toNat)

/-- How eager a repetition is, by the sign behind it: at most one. -/
def eagerness : Parser Greed := do
  if ← accept '?' then return .lazy
  if ← accept '+' then return .possessive
  return .greedy

/-- Puts a repetition on the last piece. -/
def repeatLast (least : Nat) (most : Option Nat) :
    List (Expr × Standing) → Parser (List (Expr × Standing))
  | (body, .piece) :: items => do
    let greed ← eagerness
    modify fun s => { s with repeats := true }
    return (.rounds least most greed body, .repetition) :: items
  | _ => malformed

def standing : Expr → Standing
  | .place _ => .place
  | _ => .piece

/-- The pieces of a sequence, the last one first, as one expression. -/
def joined : List (Expr × Standing) → Expr
  | [] => .empty
  | [(e, _)] => e
  | (e, _) :: items => .seq (joined items) e

mutual

/-- Branches up to the closing parenthesis. `top` holds outside every group, `first` for the first
branch there: only at its beginning the whole expression can be switched. -/
def alternatives : Nat → Flags → Bool → Bool → Parser Expr
  | 0, _, _, _ => malformed
  | fuel + 1, flags, top, first => do
    let left ← sequence fuel flags first []
    if ← accept '|' then
      let whole := (← get).flags
      return .alt left (← alternatives fuel (if top then whole else flags) top false)
    return left

/-- One branch; `items` holds the pieces so far, the last one first. -/
def sequence : Nat → Flags → Bool → List (Expr × Standing) → Parser Expr
  | 0, _, _, _ => malformed
  | fuel + 1, flags, first, items => do
    let some t ← peek | return joined items
    if t == .plain '|' || t == .plain ')' then return joined items
    let _ ← take
    match t with
    | .dangling => malformed
    | .escaped c =>
      let e ← escape flags c
      sequence fuel flags first ((e, standing e) :: items)
    | .plain c =>
      if flags.verbose && Unicode.isAsciiSpace c then sequence fuel flags first items
      else if flags.verbose && c == '#' then
        lineComment (← get).rest.length
        sequence fuel flags first items
      else match c with
        | '.' => sequence fuel flags first ((.any flags.dotAll, .piece) :: items)
        | '^' =>
          let p := if flags.multiline then Place.lineStart else .textStart
          sequence fuel flags first ((.place p, .place) :: items)
        | '$' =>
          let p := if flags.multiline then Place.lineEnd else .lastLineEnd
          sequence fuel flags first ((.place p, .place) :: items)
        | '[' =>
          let e ← bracketClass flags
          sequence fuel flags first ((e, .piece) :: items)
        | '*' => sequence fuel flags first (← repeatLast 0 none items)
        | '+' => sequence fuel flags first (← repeatLast 1 none items)
        | '?' => sequence fuel flags first (← repeatLast 0 (some 1) items)
        | '{' =>
          let here := (← get).rest
          match ← braceBounds with
          | some (least, most) => sequence fuel flags first (← repeatLast least most items)
          | none =>
            modify fun s => { s with rest := here }
            sequence fuel flags first ((literal flags '{', .piece) :: items)
        | '(' =>
          match ← opening with
          | .comment => sequence fuel flags first items
          | .switches on =>
            unless first && items.isEmpty do malformed
            modify fun s => { s with flags := on.foldl (fun f c => f.set true c) s.flags }
            sequence fuel (← get).flags first items
          | .reference index =>
            let e ← groupReference flags index
            sequence fuel flags first ((e, .piece) :: items)
          | .capture name =>
            let index ← openGroup name
            let body ← alternatives fuel flags false false
            expect ')'
            closeGroup index body
            sequence fuel flags first ((.group index body, .piece) :: items)
          | .plain on off =>
            let body ← alternatives fuel (flags.combine on off) false false
            expect ')'
            sequence fuel flags first ((body, .piece) :: items)
          | .atomic =>
            let body ← alternatives fuel flags false false
            expect ')'
            sequence fuel flags first ((.atomic body, .piece) :: items)
          | .look false negated =>
            let body ← alternatives fuel flags false false
            expect ')'
            sequence fuel flags first ((.ahead negated body, .piece) :: items)
          | .look true negated =>
            let outer := (← get).behindFrom
            modify fun s => { s with behindFrom := some (outer.getD (s.groups.length + 1)) }
            let body ← alternatives fuel flags false false
            modify fun s => { s with behindFrom := outer }
            expect ')'
            let width := body.width (← get).groups
            if width.most != some width.least || countLimit < width.least then
              modify fun s => { s with looseBehind := true }
            sequence fuel flags first ((.behind negated width.least body, .piece) :: items)
          | .choice index =>
            let present ← sequence fuel flags false []
            let absent ← if ← accept '|' then sequence fuel flags false [] else pure Expr.empty
            expect ')'
            sequence fuel flags first ((.choice index present absent, .piece) :: items)
        | c => sequence fuel flags first ((literal flags c, .piece) :: items)

end

/-- An expression with the switches in force for the whole of it. -/
structure Program where
  expr : Expr
  flags : Flags
  deriving DecidableEq

/-- Reads an expression. Every step takes a token or enters a group, which bounds the fuel. -/
def parse (flags : Flags) (text : List Char) : Except Fault Program := do
  let tokens := Token.ofText text
  if tokens.head? == some .dangling then throw .malformed
  let (expr, s) ← (alternatives (3 * tokens.length + 3) flags true true).run
    ⟨tokens, flags, [], [], none, [], false, false⟩
  if s.flags.ascii && s.flags.every then throw .conflict
  unless s.rest.isEmpty do throw .malformed
  if s.conditions.any fun index => s.groups.length < index then throw .malformed
  if s.looseBehind || (s.flags.template && s.repeats) then throw .malformed
  return ⟨expr, s.flags⟩

end FormGuard.Regex
