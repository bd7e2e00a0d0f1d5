/-
ManifestLint.PN.Token — the tokens of PN, the parenthesized notation of trees.

A token is a terminal of the grammar with the characters that spell it and the
point where they start. `scan` cuts a source text into tokens: at each place the
longest piece is taken, blanks and comments are dropped, and the first place
where no piece starts ends the scan.

Pieces are found by length (`piece` says how many characters follow the first
one), so no character is lost or made up. The main statements: what a piece takes and
leaves is the text (`cons_take_drop`), a scan of no text is empty, and one step of a
scan is one piece (`scanFrom_cons`).
-/

namespace ManifestLint.PN

/-! ## 1. Points -/

/-- A place in a source text, counted from one. Columns count characters. -/
structure Point where
  line : Nat
  column : Nat
  deriving DecidableEq, Repr

namespace Point

/-- The first place of a text. -/
def start : Point := ⟨1, 1⟩

/-- The place after a character; only a line feed ends a line. -/
def after (p : Point) (c : Char) : Point :=
  if c = '\n' then ⟨p.line + 1, 1⟩ else ⟨p.line, p.column + 1⟩

/-- The place after a text. -/
def afterAll (p : Point) (cs : List Char) : Point := cs.foldl after p

@[simp] theorem afterAll_nil (p : Point) : p.afterAll [] = p := rfl

@[simp] theorem afterAll_cons (p : Point) (c : Char) (cs : List Char) :
    p.afterAll (c :: cs) = (p.after c).afterAll cs := rfl

theorem afterAll_append (p : Point) (a b : List Char) :
    p.afterAll (a ++ b) = (p.afterAll a).afterAll b := by
  simp [afterAll]

end Point

/-! ## 2. Terminals and tokens -/

/-- The terminals of the grammar, in the order of their names. -/
inductive Terminal where
  | endOfText | falseWord | leftParen | leftBracket | nilWord | rightParen | rightBracket | number
  | string | symbol | trueWord
  deriving DecidableEq, Repr

namespace Terminal

/-- What error messages call a terminal. -/
def name : Terminal → String
  | .endOfText => "$END"
  | .falseWord => "FALSE"
  | .leftParen => "LPAR"
  | .leftBracket => "LSQB"
  | .nilWord => "NIL"
  | .rightParen => "RPAR"
  | .rightBracket => "RSQB"
  | .number => "SIGNED_NUMBER"
  | .string => "STRING"
  | .symbol => "SYMBOL"
  | .trueWord => "TRUE"

/-- Every terminal, in the order of the names. -/
def all : List Terminal :=
  [.endOfText, .falseWord, .leftParen, .leftBracket, .nilWord, .rightParen, .rightBracket, .number,
    .string, .symbol, .trueWord]

theorem mem_all (t : Terminal) : t ∈ all := by
  cases t <;> decide

end Terminal

/-- A terminal as it stands in a source text. -/
structure Token where
  terminal : Terminal
  text : List Char
  point : Point
  deriving DecidableEq, Repr

/-! ## 3. Character classes -/

/-- Blanks between tokens. -/
def isBlank (c : Char) : Bool :=
  c = ' ' || c = '\t' || c = '\x0c' || c = '\r' || c = '\n'

/-- Letters that start a symbol. -/
def isSymbolStart (c : Char) : Bool := 'a' ≤ c && c ≤ 'z'

/-- ASCII decimal digits. -/
def isDigit (c : Char) : Bool := '0' ≤ c && c ≤ '9'

/-- Characters that go on with a symbol. -/
def isSymbolChar (c : Char) : Bool := isSymbolStart c || isDigit c || c = '-'

/-- Signs of numbers and exponents. -/
def isSign (c : Char) : Bool := c = '+' || c = '-'

/-- Letters that start an exponent. -/
def isExponentMark (c : Char) : Bool := c = 'e' || c = 'E'

/-! ## 4. Lengths of pieces -/

/-- How many characters at the front belong to a class. -/
def countWhile (p : Char → Bool) (cs : List Char) : Nat := (cs.takeWhile p).length

/-- The length of a string after its opening quote, closing quote included: up to the first quote
that an even number of backslashes stands before. `odd` says whether the number of backslashes
just read is odd. A string ends on the line that it starts on. -/
def stringLength (odd : Bool) : List Char → Option Nat
  | [] => none
  | c :: cs =>
    if c = '\n' then none
    else if c = '"' && !odd then some 1
    else (stringLength (c = '\\' && !odd) cs).map (· + 1)

/-- The length of an exponent: its mark, perhaps a sign, and digits. Zero if there is none. -/
def exponentLength : List Char → Nat
  | [] => 0
  | e :: cs =>
    let signs := if cs.head?.any isSign then 1 else 0
    let digits := countWhile isDigit (cs.drop signs)
    if isExponentMark e && digits ≠ 0 then 1 + signs + digits else 0

/-- The length of a number without a sign: digits with perhaps a point among them, then perhaps an
exponent. -/
def unsignedLength (cs : List Char) : Option Nat :=
  let whole := countWhile isDigit cs
  match cs.drop whole with
  | '.' :: rest =>
    let fraction := countWhile isDigit rest
    if whole = 0 && fraction = 0 then none
    else some (whole + 1 + fraction + exponentLength (rest.drop fraction))
  | rest => if whole = 0 then none else some (whole + exponentLength rest)

/-- How many characters of a number follow its first one. -/
def numberLength (c : Char) (cs : List Char) : Option Nat :=
  if isSign c then unsignedLength cs else (unsignedLength (c :: cs)).map (· - 1)

/-- The terminal of a word: three words are not symbols. -/
def wordTerminal (word : List Char) : Terminal :=
  if word = ['t', 'r', 'u', 'e'] then .trueWord
  else if word = ['f', 'a', 'l', 's', 'e'] then .falseWord
  else if word = ['n', 'i', 'l'] then .nilWord
  else .symbol

/-- The piece that starts with `c`: its terminal, none for blanks and comments, and how many
characters follow the first one. -/
def piece (c : Char) (cs : List Char) : Option (Option Terminal × Nat) :=
  if isBlank c then some (none, countWhile isBlank cs)
  else if c = ';' then some (none, countWhile (· ≠ '\n') cs)
  else if c = '(' then some (some .leftParen, 0)
  else if c = ')' then some (some .rightParen, 0)
  else if c = '[' then some (some .leftBracket, 0)
  else if c = ']' then some (some .rightBracket, 0)
  else if c = '"' then (stringLength false cs).map fun n => (some .string, n)
  else if isSymbolStart c then
    let n := countWhile isSymbolChar cs
    some (some (wordTerminal (c :: cs.take n)), n)
  else (numberLength c cs).map fun n => (some .number, n)

/-! ## 5. Scanning -/

/-- The place where a scan stops short of the end, with the text from there on. -/
structure Stuck where
  point : Point
  rest : List Char
  deriving DecidableEq, Repr

/-- The tokens of a text, up to its end or to where the scan is stuck. -/
structure Scan where
  tokens : List Token
  stuck : Option Stuck
  deriving DecidableEq, Repr

namespace Scan

/-- The scan of nothing. -/
def done : Scan := ⟨[], none⟩

/-- A scan with one more piece in front: a token, unless the piece is dropped. -/
def cons (terminal : Option Terminal) (text : List Char) (point : Point) (later : Scan) : Scan :=
  match terminal with
  | some t => ⟨⟨t, text, point⟩ :: later.tokens, later.stuck⟩
  | none => later

end Scan

/-- Scans a text that starts at `p`. -/
def scanFrom (p : Point) : List Char → Scan
  | [] => .done
  | c :: cs =>
    match piece c cs with
    | none => ⟨[], some ⟨p, c :: cs⟩⟩
    | some (terminal, n) =>
      .cons terminal (c :: cs.take n) p (scanFrom (p.afterAll (c :: cs.take n)) (cs.drop n))
termination_by cs => cs.length
decreasing_by simp only [List.length_cons, List.length_drop]; omega

/-- Scans a whole source text. -/
def scan (source : List Char) : Scan := scanFrom .start source

/-! ## 6. Laws -/

/-- A piece and what is left make up the text. -/
theorem cons_take_drop (c : Char) (cs : List Char) (n : Nat) :
    (c :: cs.take n) ++ cs.drop n = c :: cs := by
  simp

@[simp] theorem scanFrom_nil (p : Point) : scanFrom p [] = .done := by
  simp [scanFrom]

/-- One step of a scan is one piece. -/
theorem scanFrom_cons (p : Point) (c : Char) (cs : List Char) :
    scanFrom p (c :: cs) =
      match piece c cs with
      | none => ⟨[], some ⟨p, c :: cs⟩⟩
      | some (terminal, n) =>
        .cons terminal (c :: cs.take n) p (scanFrom (p.afterAll (c :: cs.take n)) (cs.drop n)) := by
  rw [scanFrom]

/-- A string's closing quote is inside the text. -/
theorem stringLength_le {odd : Bool} {cs : List Char} {n : Nat} (h : stringLength odd cs = some n) :
    n ≤ cs.length := by
  induction cs generalizing odd n with
  | nil => simp [stringLength] at h
  | cons c cs ih =>
    simp only [stringLength] at h
    split at h
    · contradiction
    · split at h
      · simp_all
      · obtain ⟨m, hm, rfl⟩ := Option.map_eq_some_iff.mp h
        have := ih hm
        simp; omega

end ManifestLint.PN
