import FormGuard.Proofs.Pattern.Browser
import FormGuard.Proofs.Script.Grammar
import FormGuard.Proofs.Script.Literal

/-! Reading a condition from behind its opening parenthesis up to the closing one, as operands and the
operators between them. Strings, templates, regular expressions, comments and what stands in brackets
are skipped as parts of operands. -/
namespace FormGuard.Script

/-- The operators between operands, and how they are written. -/
def marks : List (List Char × Mark) :=
  [([','], .comma), (['?'], .ask), ([':'], .colon), (['='], .assign none),
    (['&', '&'], .link .both), (['|', '|'], .link .either), (['?', '?'], .link .otherwise),
    (['&', '&', '='], .assign (some .both)), (['|', '|', '='], .assign (some .either)),
    (['?', '?', '='], .assign (some .otherwise))]

/-- Operators that bind tighter, as far as they are not to be mistaken for others. -/
def tight : List (List Char) :=
  [['!'], ['<'], ['>'], ['+'], ['-'], ['*'], ['%'], ['&'], ['|'], ['^'], ['=', '='], ['!', '='],
    ['<', '='], ['>', '='], ['=', '=', '='], ['!', '=', '='], ['<', '<'], ['>', '>'],
    ['>', '>', '>'], ['+', '+'], ['-', '-'], ['*', '*'], ['?', '.']]

/-- What does not stand in a condition that is true or false: the end of a statement, functions, and
assignments that calculate. -/
def refused : List (List Char) :=
  [[';'], ['=', '>'], ['+', '='], ['-', '='], ['*', '='], ['%', '='], ['&', '='], ['|', '='],
    ['^', '='], ['<', '<', '='], ['>', '>', '='], ['>', '>', '>', '='], ['*', '*', '=']]

def isOperator (p : List Char) : Bool := (marks.map (·.1) ++ tight ++ refused).contains p

/-- The code that asks whether the flag of a key is not set. -/
def flagCode (key : List Char) : List Char :=
  [' ', '!', 'e', 'r', 'r', 'F', 'l', 'a', 'g', '[', '\''] ++ key ++ ['\'', ']']

def isBlank (c : Char) : Bool := c.isWhitespace || isLineEnd c

/-- What a reader is inside of. -/
inductive Inside where
  /-- Code, with an operator that is being read. -/
  | code (pending : List Char)
  /-- Behind a slash, before it is known what it begins. -/
  | slash
  /-- A string or a template; a backslash or a dollar sign is held until the next character. -/
  | quoted (quote : Char) (held : Option Char)
  | regex (escaped inClass : Bool)
  | line
  | block (star : Bool)

/-- No operator is being read. -/
def Inside.isRested : Inside → Bool
  | .code pending => pending.isEmpty
  | _ => true

structure Reader where
  inside : Inside
  /-- What closes the open brackets, the last one first; a backquote for a gap in a template. -/
  closers : List Char
  /-- All that has been read, backwards. -/
  prior : List Char
  /-- The operand that is being read, backwards. -/
  operand : List Char
  /-- What has been read before, backwards. -/
  items : List Item

namespace Reader

def start : Reader := ⟨.code [], [], [], [], []⟩

/-- A character of the operand, and what follows it. -/
def push (r : Reader) (c : Char) (next : Inside) : Reader :=
  { r with inside := next, operand := c :: r.operand }

/-- Ends the operand, which has to be more than blanks. -/
def cut (r : Reader) : Option Reader :=
  if r.operand.all isBlank then none
  else some { r with operand := [], items := .operand r.operand.reverse :: r.items }

/-- Takes an operator that has been read. -/
def settle (r : Reader) (pending : List Char) : Option Reader :=
  match marks.lookup pending with
  | some m => do
    let r ← r.cut
    return { r with items := .mark m :: r.items }
  | none =>
    if refused.contains pending then none
    else some { r with operand := pending.reverse ++ r.operand }

/-- In front of a digit, `?.` is a question mark and a point. -/
def settleBefore (r : Reader) (pending : List Char) (c : Char) : Option Reader :=
  if pending == ['?', '.'] && c.isDigit then do
    let r ← r.settle ['?']
    return { r with operand := '.' :: r.operand }
  else r.settle pending

def closer? : Char → Option Char
  | '(' => some ')'
  | '[' => some ']'
  | '\x7b' => some '\x7d'
  | _ => none

/-- A character of code that is no operator. -/
def plainStep (r : Reader) (c : Char) : Option Reader :=
  if c == '\'' || c == '"' || c == '`' then some (r.push c (.quoted c none))
  else if c == '/' then some { r with inside := .slash }
  else if c == ')' || c == ']' || c == '\x7d' then
    match r.closers with
    | [] => none
    | d :: rest =>
      if d == c then some { r.push c (.code []) with closers := rest }
      else if d == '`' && c == '\x7d' then
        some { r.push c (.quoted '`' none) with closers := rest }
      else none
  else some { r.push c (.code []) with closers := (closer? c).toList ++ r.closers }

/-- A character of code. Operators are read to their full length, outside of brackets; the old marks
for comments around a script are not read. -/
def codeStep (r : Reader) (pending : List Char) (c : Char) : Option Reader :=
  if c == '-' && ['-', '!', '<'].isPrefixOf r.prior then none
  else if r.closers.isEmpty && isOperator (pending ++ [c]) then
    some { r with inside := .code (pending ++ [c]) }
  else do
    let r ← r.settleBefore pending c
    if r.closers.isEmpty && isOperator [c] then return { r with inside := .code [c] }
    else r.plainStep c

def quotedStep (r : Reader) (quote : Char) (held : Option Char) (c : Char) : Option Reader :=
  if held == some '\\' then some (r.push c (.quoted quote none))
  else if c == quote then some (r.push c (.code []))
  else if quote == '`' && held == some '$' && c == '\x7b' then
    some { r.push c (.code []) with closers := '`' :: r.closers }
  else if quote != '`' && (c == '\n' || c == '\r') then none
  else some (r.push c (.quoted quote (if c == '\\' || c == '$' then some c else none)))

def regexStep (r : Reader) (escaped inClass : Bool) (c : Char) : Option Reader :=
  if isLineEnd c then none
  else if escaped then some (r.push c (.regex false inClass))
  else if c == '\\' then some (r.push c (.regex true inClass))
  else if c == '/' && !inClass then some (r.push c (.code []))
  else some (r.push c (.regex false (c == '[' || inClass && c != ']')))

/-- A character behind a slash. Whether a slash begins a regular expression or divides is told by what
stands in front of it. -/
def slashStep (expects : List Char → Bool) (r : Reader) (c : Char) : Option Reader :=
  if c == '/' then some (r.push ' ' .line)
  else if c == '*' then some (r.push ' ' (.block false))
  else if expects r.prior then (r.push '/' .slash).regexStep false false c
  else if c == '=' && r.closers.isEmpty then none
  else (r.push '/' .slash).codeStep [] c

def advance (expects : List Char → Bool) (r : Reader) (c : Char) : Option Reader :=
  match r.inside with
  | .code pending => r.codeStep pending c
  | .slash => r.slashStep expects c
  | .quoted quote held => r.quotedStep quote held c
  | .regex escaped inClass => r.regexStep escaped inClass c
  | .line => some { r with inside := if isLineEnd c then .code [] else .line }
  | .block star => some { r with inside := if star && c == '/' then .code [] else .block (c == '*') }

def step (expects : List Char → Bool) (r : Reader) (c : Char) : Option Reader :=
  (r.advance expects c).map fun next => { next with prior := c :: next.prior }

/-- The parenthesis that closes the condition. -/
def closes (r : Reader) (c : Char) : Bool :=
  match r.inside with
  | .code _ => r.closers.isEmpty && c == ')'
  | _ => false

def finish (r : Reader) : Option (List Item) :=
  match r.inside with
  | .code pending => do
    let r ← r.settle pending
    let r ← r.cut
    return r.items.reverse
  | _ => none

/-- Reads a condition to its end: its items, and what follows the closing parenthesis. -/
def read (expects : List Char → Bool) (r : Reader) : List Char → Option (List Item × List Char)
  | [] => none
  | c :: rest =>
    if r.closes c then r.finish.map fun items => (items, rest)
    else do read expects (← r.step expects c) rest

/-- Reads a part of a condition, in which it does not end. -/
def run (expects : List Char → Bool) (r : Reader) : List Char → Option Reader
  | [] => some r
  | c :: rest => if r.closes c then none else do run expects (← r.step expects c) rest

variable {expects : List Char → Bool} {r t : Reader} {u v : List Char} {c : Char} {ts : List Item}

theorem run_cons (hc : r.closes c = false) (h : r.step expects c = some t) :
    r.run expects (c :: u) = t.run expects u := by
  rw [run, hc, h]
  rfl

theorem read_cons (hc : r.closes c = false) (h : r.step expects c = some t) :
    r.read expects (c :: u) = t.read expects u := by
  rw [read, hc, h]
  rfl

theorem run_cons_eq_some : r.run expects (c :: u) = some t ↔
    r.closes c = false ∧ ∃ s : Reader, r.step expects c = some s ∧ s.run expects u = some t := by
  rw [run]
  cases r.closes c with
  | true => simp
  | false => simp [Option.bind_eq_some_iff]

theorem read_append (h : r.run expects u = some t) : r.read expects (u ++ v) = t.read expects v := by
  induction u generalizing r with
  | nil =>
    cases h
    rfl
  | cons c u ih =>
    obtain ⟨hc, s, hs, h⟩ := run_cons_eq_some.mp h
    rw [List.cons_append, read_cons hc hs, ih h]

/-- A condition that ends where the text ends was read up to the last character. -/
theorem exists_run_of_read (h : r.read expects (u ++ [c]) = some (ts, [])) :
    ∃ t, r.run expects u = some t ∧ t.closes c = true ∧ t.finish = some ts := by
  induction u generalizing r with
  | nil =>
    rw [List.nil_append, read] at h
    split at h
    · rename_i hc
      obtain ⟨items, hi, h⟩ := Option.map_eq_some_iff.mp h
      cases h
      exact ⟨r, rfl, hc, hi⟩
    · obtain ⟨s, _, h⟩ := Option.bind_eq_some_iff.mp h
      cases h
  | cons d u ih =>
    rw [List.cons_append, read] at h
    split at h
    · obtain ⟨items, _, h⟩ := Option.map_eq_some_iff.mp h
      simp at h
    · rename_i hd
      obtain ⟨s, hs, h⟩ := Option.bind_eq_some_iff.mp h
      rw [run, if_neg hd, hs]
      exact ih h

theorem isOperator_append_blank (p : List Char) : isOperator (p ++ [' ']) = false := by
  have hall : ∀ q ∈ marks.map (·.1) ++ tight ++ refused, ' ' ∉ q := by decide
  rw [isOperator, Bool.eq_false_iff, Ne, List.contains_iff_mem]
  exact fun h => hall _ h (by simp)

theorem rested_quotedStep {quote : Char} {held : Option Char} (h : r.quotedStep quote held c = some t) :
    t.inside.isRested = true := by
  unfold quotedStep at h
  split_ifs at h <;> (cases h; rfl)

theorem rested_regexStep {escaped inClass : Bool} (h : r.regexStep escaped inClass c = some t) :
    t.inside.isRested = true := by
  unfold regexStep at h
  split_ifs at h <;> (cases h; rfl)

/-- A blank in code ends the operator in front of it. -/
theorem codeStep_blank (r : Reader) (pending : List Char) :
    r.codeStep pending ' ' = (r.settle pending).map (·.push ' ' (.code [])) := by
  have hminus : (' ' == '-' && ['-', '!', '<'].isPrefixOf r.prior) = false := rfl
  have hdigit : (pending == ['?', '.'] && ' '.isDigit) = false := Bool.and_false _
  have hblank : isOperator [' '] = false := isOperator_append_blank []
  rw [codeStep, hminus, isOperator_append_blank, Bool.and_false, settleBefore, hdigit]
  cases r.settle pending with
  | none => rfl
  | some s =>
    change (if (s.closers.isEmpty && isOperator [' ']) = true then _ else s.plainStep ' ') = _
    rw [hblank, Bool.and_false]
    rfl

theorem rested_codeStep_blank {pending : List Char} (h : r.codeStep pending ' ' = some t) :
    t.inside.isRested = true := by
  rw [codeStep_blank] at h
  obtain ⟨s, _, rfl⟩ := Option.map_eq_some_iff.mp h
  rfl

theorem rested_slashStep_blank (h : r.slashStep expects ' ' = some t) : t.inside.isRested = true := by
  unfold slashStep at h
  rw [if_neg (by decide), if_neg (by decide)] at h
  split at h
  · exact rested_regexStep h
  · have hno : (' ' == '=' && r.closers.isEmpty) = false := rfl
    rw [hno] at h
    exact rested_codeStep_blank h

theorem isRested_ite {p : Bool} {next : Inside} (h : next.isRested = true) :
    (if p then .code [] else next : Inside).isRested = true := by
  cases p
  · exact h
  · rfl

theorem rested_step_blank (h : r.step expects ' ' = some t) : t.inside.isRested = true := by
  obtain ⟨s, hs, rfl⟩ := Option.map_eq_some_iff.mp h
  change s.inside.isRested = true
  unfold advance at hs
  split at hs
  · exact rested_codeStep_blank hs
  · exact rested_slashStep_blank hs
  · exact rested_quotedStep hs
  · exact rested_regexStep hs
  · cases hs
    dsimp only
    exact isRested_ite rfl
  · cases hs
    dsimp only
    exact isRested_ite rfl

/-- What can close the condition, after a blank, is code outside of brackets. -/
theorem rested_of_run_blank (h : r.run expects (u ++ [' ']) = some t) (hc : t.closes ')' = true) :
    t.inside = .code [] ∧ t.closers = [] := by
  obtain ⟨s, hs⟩ : ∃ s : Reader, s.step expects ' ' = some t := by
    induction u generalizing r with
    | nil =>
      obtain ⟨_, s, hs, h⟩ := run_cons_eq_some.mp h
      cases h
      exact ⟨r, hs⟩
    | cons d u ih =>
      obtain ⟨_, s, _, h⟩ := run_cons_eq_some.mp h
      exact ih h
  have hrested := rested_step_blank hs
  unfold closes at hc
  split at hc
  case h_2 => cases hc
  case h_1 pending heq =>
    rw [heq] at hrested
    rw [heq, List.isEmpty_iff.mp hrested]
    exact ⟨rfl, by simpa using hc⟩

/-! The guard of a key, behind an expression. -/

section
variable {closers prior operand : List Char} {items : List Item} {held : Option Char}

theorem step_verbatim (hc : isVerbatim c = true) (hheld : held ≠ some '\\') :
    ∃ next, next ≠ some '\\' ∧ step expects ⟨.quoted '\'' held, closers, prior, operand, items⟩ c =
      some ⟨.quoted '\'' next, closers, c :: prior, c :: operand, items⟩ := by
  obtain ⟨⟨⟨hb, hq⟩, hn⟩, hr⟩ : ((c ≠ '\\' ∧ c ≠ '\'') ∧ c ≠ '\n') ∧ c ≠ '\r' := by
    simpa [isVerbatim] using hc
  refine ⟨if c == '\\' || c == '$' then some c else none, ?_, ?_⟩
  · split
    · simpa using hb
    · rintro ⟨⟩
  · simp [step, advance, quotedStep, push, hheld, hq, hn, hr]

theorem step_quote (hheld : held ≠ some '\\') :
    step expects ⟨.quoted '\'' held, closers, prior, operand, items⟩ '\'' =
      some ⟨.code [], closers, '\'' :: prior, '\'' :: operand, items⟩ := by
  simp [step, advance, quotedStep, push, hheld]

theorem run_verbatim {key : List Char} (hkey : ∀ c ∈ key, isVerbatim c = true)
    (hheld : held ≠ some '\\') : ∃ next, next ≠ some '\\' ∧
      run expects ⟨.quoted '\'' held, closers, prior, operand, items⟩ key =
        some ⟨.quoted '\'' next, closers, key.reverse ++ prior, key.reverse ++ operand, items⟩ := by
  induction key generalizing held prior operand with
  | nil => exact ⟨held, hheld, rfl⟩
  | cons c key ih =>
    obtain ⟨hc, hrest⟩ := List.forall_mem_cons.mp hkey
    obtain ⟨held', hheld', hstep⟩ := step_verbatim hc hheld
    obtain ⟨next, hnext, hrun⟩ := ih hrest hheld'
    refine ⟨next, hnext, ?_⟩
    rw [run_cons rfl hstep, hrun, List.reverse_cons, List.append_assoc, List.append_assoc]
    rfl

theorem settleBefore_nil (r : Reader) (c : Char) : r.settleBefore [] c = some r := rfl

/-- A character that is no operator and opens and closes nothing. -/
def isPlain (c : Char) : Bool :=
  !isOperator [c] && !(['\'', '"', '`', '/', '(', ')', '[', ']', '\x7b', '\x7d'].contains c)

theorem plainStep_of_isPlain (h : isPlain c = true) (r : Reader) :
    r.plainStep c = some (r.push c (.code [])) := by
  have hno : ∀ d ∈ ['\'', '"', '`', '/', '(', ')', '[', ']', '\x7b', '\x7d'], c ≠ d := by
    rintro d hd rfl
    simp [isPlain, hd] at h
  simp only [List.forall_mem_cons] at hno
  have hcloser : closer? c = none := by
    unfold closer?
    split <;> simp_all
  simp [plainStep, hno, hcloser, push]

theorem step_plain (h : isPlain c = true) :
    step expects ⟨.code [], [], prior, operand, items⟩ c =
      some ⟨.code [], [], c :: prior, c :: operand, items⟩ := by
  obtain ⟨hop, _⟩ := Bool.and_eq_true_iff.mp h
  rw [Bool.not_eq_true'] at hop
  have hminus : (c == '-' && ['-', '!', '<'].isPrefixOf prior) = false := by
    rw [Bool.and_eq_false_iff]
    refine Or.inl (beq_false_of_ne ?_)
    rintro rfl
    revert hop
    decide
  change (codeStep _ [] c).map _ = _
  rw [codeStep, hminus, List.nil_append, hop, Bool.and_false, settleBefore_nil]
  change (plainStep _ c).map _ = _
  rw [plainStep_of_isPlain h]
  rfl

theorem run_plain (h : ∀ c ∈ u, isPlain c = true) :
    run expects ⟨.code [], [], prior, operand, items⟩ u =
      some ⟨.code [], [], u.reverse ++ prior, u.reverse ++ operand, items⟩ := by
  induction u generalizing prior operand with
  | nil => rfl
  | cons c u ih =>
    obtain ⟨hc, hrest⟩ := List.forall_mem_cons.mp h
    have hclose : c ≠ ')' := by
      rintro rfl
      cases hc
    rw [run_cons (by simpa [closes] using hclose) (step_plain hc), ih hrest, List.reverse_cons,
      List.append_assoc, List.append_assoc]
    rfl

/-- Behind a blank, a conjunction has ended the operand in front of it. -/
theorem step_both (hsolid : operand.all isBlank = false) :
    step expects ⟨.code ['&', '&'], [], prior, operand, items⟩ ' ' =
      some ⟨.code [], [], ' ' :: prior, [' '],
        .mark (.link .both) :: .operand operand.reverse :: items⟩ := by
  have hsettle : settle ⟨.code ['&', '&'], [], prior, operand, items⟩ ['&', '&'] =
      some ⟨.code ['&', '&'], [], prior, [],
        .mark (.link .both) :: .operand operand.reverse :: items⟩ := by
    change (cut _ >>= fun r => some { r with items := .mark (.link .both) :: r.items }) = _
    rw [cut, hsolid]
    rfl
  change (codeStep _ ['&', '&'] ' ').map _ = _
  rw [codeStep_blank, hsettle]
  rfl

theorem run_and : run expects ⟨.code [], [], prior, operand, items⟩ ['&', '&'] =
    some ⟨.code ['&', '&'], [], '&' :: '&' :: prior, operand, items⟩ := rfl

theorem run_not : run expects ⟨.code [], [], prior, operand, items⟩ ['!', 'e'] =
    some ⟨.code [], [], 'e' :: '!' :: prior, 'e' :: '!' :: operand, items⟩ := rfl

theorem run_open : run expects ⟨.code [], [], prior, operand, items⟩ ['[', '\''] =
    some ⟨.quoted '\'' none, [']'], '\'' :: '[' :: prior, '\'' :: '[' :: operand, items⟩ := rfl

theorem read_close (after : List Char) :
    read expects ⟨.code [], [']'], prior, operand, items⟩ (']' :: ')' :: after) =
      some ((.operand (']' :: operand).reverse :: items).reverse, after) := rfl

end

theorem flagCode_append (key after : List Char) : flagCode key ++ ')' :: after =
    ' ' :: (['!', 'e'] ++ (['r', 'r', 'F', 'l', 'a', 'g'] ++
      (['[', '\''] ++ (key ++ '\'' :: ']' :: ')' :: after)))) := by
  simp [flagCode]

theorem read_guard {key : List Char} (hkey : ∀ c ∈ key, isVerbatim c = true)
    (ht : t.inside = .code []) (hc : t.closers = []) (hts : t.finish = some ts) (after : List Char) :
    t.read expects (['&', '&'] ++ (flagCode key ++ ')' :: after)) =
      some (ts ++ conjunct (flagCode key), after) := by
  obtain ⟨_, _, prior, operand, items⟩ := t
  subst ht hc
  have hcut : (cut ⟨.code [], [], prior, operand, items⟩ >>= fun r => some r.items.reverse) =
      some ts := hts
  have hsolid : operand.all isBlank = false := by
    by_contra hno
    rw [cut, if_pos (by simpa using hno)] at hcut
    cases hcut
  rw [cut, hsolid] at hcut
  obtain rfl : (.operand operand.reverse :: items).reverse = ts := Option.some.inj hcut
  have hplain : ∀ c ∈ ['r', 'r', 'F', 'l', 'a', 'g'], isPlain c = true := List.all_eq_true.mp rfl
  have hheld : none ≠ some '\\' := nofun
  obtain ⟨next, hnext, hrun⟩ := run_verbatim hkey hheld
  rw [flagCode_append, read_append run_and, read_cons rfl (step_both hsolid), read_append run_not,
    read_append (run_plain hplain), read_append run_open, read_append hrun,
    read_cons rfl (step_quote hnext), read_close]
  simp [conjunct, flagCode]

end Reader

end FormGuard.Script
