/-
ManifestLint.Proofs.Spelling — lexemes written down, and scanned again.

Every lexeme but a float has a spelling: strings escape whatever is not a plain printable
character by its number, integers are written in decimal. A space is set after each, so
no two of them run together.

The main statements: an escaped text decodes to itself (`decode_encode`), a spelling
followed by a space is one piece (`exists_piece`), and spelled lexemes are
scanned as tokens that mean them (`scanFrom_spellings`).
-/
import ManifestLint.Proofs.Lexeme
import Mathlib

namespace ManifestLint.PN

/-! ## 1. Strings -/

namespace StringLiteral

/-- Holds of the code points that stand for themselves in a spelled string: printable ASCII but
the quote and the backslash. -/
def isPlain (p : CodePoint) : Bool :=
  0x20 ≤ p.val && p.val < 0x7F && p.val ≠ 0x22 && p.val ≠ 0x5C

/-- A code point as itself or by its number. -/
def encodePoint (p : CodePoint) : List Char :=
  if isPlain p then [Char.ofNat p.val] else '\\' :: 'U' :: hexDigits 8 p.val

/-- A text between quotes. -/
def encode (t : Text) : List Char := t.flatMap encodePoint

theorem hexValue_hexDigit {d : Nat} (h : d < 16) : hexValue (hexDigit d) = some d := by
  have key : ∀ d < 16, hexValue (hexDigit d) = some d := by decide
  exact key d h

/-- Hexadecimal digits are read back, as far as they reach. -/
theorem hexNumber_hexDigits (width n : Nat) :
    hexNumber (hexDigits width n) = some (n % 16 ^ width) := by
  induction width generalizing n with
  | zero =>
    rw [Nat.pow_zero, Nat.mod_one]
    rfl
  | succ width ih =>
    have hdigit := hexValue_hexDigit (Nat.mod_lt n (by decide : 0 < 16))
    have hinit := ih (n / 16)
    unfold hexNumber at hinit ⊢
    rw [hexDigits, List.foldl_append, hinit, List.foldl_cons, List.foldl_nil, hdigit,
      Nat.pow_succ', Nat.mod_mul]
    exact congrArg some (by omega)

/-- An escape by number means that code point. -/
theorem hexEscape_hexDigits (p : CodePoint) (rest : List Char) :
    hexEscape 8 (hexDigits 8 p.val ++ rest) = some ([p], 9) := by
  have hlen := length_hexDigits 8 p.val
  have hsmall : p.val % 16 ^ 8 = p.val := Nat.mod_eq_of_lt (by omega)
  have hnumber : hexNumber (hexDigits 8 p.val) = some p.val := by
    rw [hexNumber_hexDigits, hsmall]
  have hpoint : codePoint p.val = some p := by
    unfold codePoint
    rw [dif_pos p.isLt]
  unfold hexEscape
  rw [List.take_left' hlen, if_pos hlen, hnumber]
  simp [hpoint]

/-- A plain code point is that of its character. -/
theorem ofChar_of_isPlain {p : CodePoint} (h : isPlain p = true) :
    CodePoint.ofChar (Char.ofNat p.val) = p := by
  simp only [isPlain, Bool.and_eq_true, decide_eq_true_eq] at h
  have hvalid : p.val.isValidChar := Or.inl (by omega)
  apply Fin.ext
  rw [CodePoint.val_ofChar]
  unfold Char.ofNat
  rw [dif_pos hvalid]
  rfl

/-- A plain character is neither a quote nor a backslash nor a control character. -/
theorem plain_char {p : CodePoint} (h : isPlain p = true) :
    Char.ofNat p.val ≠ '"' ∧ Char.ofNat p.val ≠ '\\' ∧ isRefused (Char.ofNat p.val) = false := by
  have hpoint := congrArg Fin.val (ofChar_of_isPlain h)
  rw [CodePoint.val_ofChar] at hpoint
  simp only [isPlain, Bool.and_eq_true, decide_eq_true_eq] at h
  obtain ⟨⟨⟨hlow, hhigh⟩, hquote⟩, hbackslash⟩ := h
  refine ⟨?_, ?_, ?_⟩
  · intro hc
    rw [hc] at hpoint
    exact hquote hpoint.symm
  · intro hc
    rw [hc] at hpoint
    exact hbackslash hpoint.symm
  · unfold isRefused
    simp only [Bool.or_eq_false_iff, decide_eq_false_iff_not]
    refine ⟨⟨?_, ?_⟩, ?_⟩
    all_goals
      intro hc
      rw [hc] at hpoint
      have : p.val < 0x20 := by rw [← hpoint]; decide
      omega

theorem decode_encodePoint (p : CodePoint) (rest : List Char) :
    decode (encodePoint p ++ rest) = (decode rest).map (p :: ·) := by
  unfold encodePoint
  split
  · rename_i h
    obtain ⟨-, hbackslash, hrefused⟩ := plain_char h
    rw [List.singleton_append, decode_cons_of_plain _ _ hbackslash hrefused, ofChar_of_isPlain h]
  · have hescape : escape ('U' :: (hexDigits 8 p.val ++ rest)) = some ([p], 9) := by
      rw [← hexEscape_hexDigits p rest]
      simp [escape]
    have hdrop : ('U' :: (hexDigits 8 p.val ++ rest)).drop 9 = rest := by
      rw [List.drop_succ_cons, List.drop_left' (length_hexDigits 8 p.val)]
    rw [List.cons_append, List.cons_append, decode_backslash, hescape, Option.bind_some, hdrop]
    rfl

/-- An escaped text decodes to itself. -/
theorem decode_encode (t : Text) : decode (encode t) = some t := by
  induction t with
  | nil => exact decode_nil
  | cons p t ih =>
    rw [encode, List.flatMap_cons, decode_encodePoint, ← encode, ih]
    rfl

/-- Characters that a string goes on with, whatever stands before them. -/
def isQuiet (c : Char) : Bool := c ≠ '\n' && c ≠ '"' && c ≠ '\\'

theorem stringLength_cons_of_isQuiet {odd : Bool} {c : Char} (hc : isQuiet c = true)
    (cs : List Char) : stringLength odd (c :: cs) = (stringLength false cs).map (· + 1) := by
  simp only [isQuiet, Bool.and_eq_true, decide_eq_true_eq] at hc
  obtain ⟨⟨hline, hquote⟩, hbackslash⟩ := hc
  simp [stringLength, hline, hquote, hbackslash]

/-- Quiet characters only make a string longer. -/
theorem stringLength_append_of_isQuiet {cs : List Char} (h : ∀ c ∈ cs, isQuiet c = true)
    (rest : List Char) :
    stringLength false (cs ++ rest) = (stringLength false rest).map (· + cs.length) := by
  induction cs with
  | nil => simp
  | cons c cs ih =>
    rw [List.forall_mem_cons] at h
    rw [List.cons_append, stringLength_cons_of_isQuiet h.1, ih h.2, Option.map_map]
    rfl

theorem isQuiet_of_mem_hexDigits {width n : Nat} : ∀ c ∈ hexDigits width n, isQuiet c = true := by
  have key : ∀ d < 16, isQuiet (hexDigit d) = true := by decide
  induction width generalizing n with
  | zero => simp [hexDigits]
  | succ width ih =>
    rw [hexDigits, List.forall_mem_append]
    refine ⟨ih, ?_⟩
    rw [List.forall_mem_singleton]
    exact key _ (Nat.mod_lt n (by decide))

theorem stringLength_encodePoint (p : CodePoint) (rest : List Char) :
    stringLength false (encodePoint p ++ rest) =
      (stringLength false rest).map (· + (encodePoint p).length) := by
  unfold encodePoint
  split
  · rename_i h
    obtain ⟨hquote, hbackslash, hrefused⟩ := plain_char h
    have hquiet : isQuiet (Char.ofNat p.val) = true := by
      simp only [isRefused, Bool.or_eq_false_iff, decide_eq_false_iff_not] at hrefused
      simp [isQuiet, hquote, hbackslash, hrefused.1.2]
    rw [List.singleton_append, stringLength_cons_of_isQuiet hquiet]
    rfl
  · have hopen : ∀ cs, stringLength false ('\\' :: 'U' :: cs) =
        (stringLength false cs).map (· + 2) := by
      intro cs
      simp [stringLength, Option.map_map, Function.comp_def]
    rw [List.cons_append, List.cons_append, hopen,
      stringLength_append_of_isQuiet isQuiet_of_mem_hexDigits, Option.map_map]
    rfl

/-- The closing quote is the first quote after an escaped text. -/
theorem stringLength_encode (t : Text) (rest : List Char) :
    stringLength false (encode t ++ '"' :: rest) = some ((encode t).length + 1) := by
  induction t with
  | nil => simp [encode, stringLength]
  | cons p t ih =>
    rw [encode, List.flatMap_cons, ← encode, List.append_assoc, stringLength_encodePoint, ih,
      Option.map_some, List.length_append]
    exact congrArg some (by omega)

end StringLiteral

/-! ## 2. Integers -/

theorem isSign_of_isDigit {c : Char} (h : isDigit c = true) : isSign c = false := by
  have hne : ∀ d : Char, isDigit d = false → c ≠ d := by
    rintro d hd rfl
    rw [h] at hd
    cases hd
  simp [isSign, hne '+' rfl, hne '-' rfl]

namespace Numeral

/-- The decimal digits of an integer, after a minus sign if it is negative. -/
def decimal (n : Int) : List Char :=
  if n < 0 then '-' :: Nat.toDigits 10 n.natAbs else Nat.toDigits 10 n.natAbs

theorem isDigit_of_mem_toDigits (n : Nat) : ∀ c ∈ Nat.toDigits 10 n, isDigit c = true := by
  intro c hc
  have h := Nat.isDigit_of_mem_toDigits (by decide) (by decide) hc
  simpa [Char.isDigit, isDigit, Char.le_def] using h

theorem natural_toDigits (n : Nat) : natural (Nat.toDigits 10 n) = n := by
  have h : ∀ cs init, cs.foldl (fun acc c => acc * 10 + (c.toNat - '0'.toNat)) init =
      Nat.ofDigitChars 10 cs init := by
    intro cs init
    rw [Nat.ofDigitChars_eq_foldl]
    simp only [Nat.mul_comm]
  rw [natural, h, Nat.ofDigitChars_ten_toDigits]

/-- The first digit is no sign. -/
theorem unsigned_toDigits (n : Nat) :
    unsigned (Nat.toDigits 10 n) = Nat.toDigits 10 n ∧
      isNegative (Nat.toDigits 10 n) = false := by
  have hdigits := isDigit_of_mem_toDigits n
  cases hcs : Nat.toDigits 10 n with
  | nil => exact ⟨rfl, rfl⟩
  | cons c cs =>
    rw [hcs] at hdigits
    have hsign := isSign_of_isDigit (hdigits c List.mem_cons_self)
    refine ⟨by simp [unsigned, hsign], ?_⟩
    simp only [isSign, Bool.or_eq_false_iff, decide_eq_false_iff_not] at hsign
    simp [isNegative, hsign.2]

/-- A decimal with few enough digits is read as its integer. -/
theorem integer_decimal {n : Int} (h : n.natAbs < 10 ^ digitLimit) :
    integer (decimal n) = .ok n := by
  have hlen : (Nat.toDigits 10 n.natAbs).length ≤ digitLimit :=
    (Nat.length_toDigits_le_iff (by decide) (by decide)).mpr h
  obtain ⟨hunsigned, hpositive⟩ := unsigned_toDigits n.natAbs
  unfold decimal
  split
  · have htail : unsigned ('-' :: Nat.toDigits 10 n.natAbs) = Nat.toDigits 10 n.natAbs := rfl
    have hminus : isNegative ('-' :: Nat.toDigits 10 n.natAbs) = true := rfl
    rw [integer_eq_ok _ (by rwa [htail]), signed, if_pos hminus, htail, natural_toDigits]
    exact congrArg Except.ok (by omega)
  · rw [integer_eq_ok _ (by rwa [hunsigned]), signed, hpositive, if_neg (by decide), hunsigned,
      natural_toDigits]
    exact congrArg Except.ok (by omega)

theorem isFloat_of_isDigit {cs : List Char} (h : ∀ c ∈ cs, isDigit c = true) :
    isFloat cs = false := by
  unfold isFloat
  rw [List.any_eq_false]
  intro c hc hmark
  have hdigit := h c hc
  simp only [isExponentMark, Bool.or_eq_true, decide_eq_true_eq] at hmark
  rcases hmark with rfl | rfl | rfl
  all_goals cases hdigit

/-- A decimal is no float. -/
theorem isFloat_decimal (n : Int) : isFloat (decimal n) = false := by
  have hdigits := isFloat_of_isDigit (isDigit_of_mem_toDigits n.natAbs)
  unfold decimal
  split
  · exact hdigits
  · exact hdigits

end Numeral

/-! ## 3. Pieces -/

theorem countWhile_append {p : Char → Bool} {cs : List Char} {c : Char}
    (h : ∀ d ∈ cs, p d = true) (hc : p c = false) (rest : List Char) :
    countWhile p (cs ++ c :: rest) = cs.length := by
  unfold countWhile
  rw [List.takeWhile_append_of_pos h, List.takeWhile_cons_of_neg (by simp [hc]), List.append_nil]

/-- The characters that start a blank, a comment, a bracket or a string. -/
def marks : List Char := [' ', '\t', '\x0c', '\r', '\n', ';', '(', ')', '[', ']', '"']

/-- What no mark starts is a word or a number. -/
theorem piece_of_not_mem_marks {c : Char} (hc : c ∉ marks) (cs : List Char) : piece c cs =
    if isSymbolStart c then
      some (some (wordTerminal (c :: cs.take (countWhile isSymbolChar cs))),
        countWhile isSymbolChar cs)
    else (numberLength c cs).map fun n => (some .number, n) := by
  simp only [marks, List.mem_cons, List.not_mem_nil, or_false, not_or] at hc
  simp [piece, isBlank, hc]

/-- A symbol's first letter starts no other piece. -/
theorem piece_of_isSymbolStart {c : Char} (hc : isSymbolStart c = true) (cs : List Char) :
    piece c cs = some (some (wordTerminal (c :: cs.take (countWhile isSymbolChar cs))),
      countWhile isSymbolChar cs) := by
  have hmarks : marks.all (fun d => !isSymbolStart d) = true := rfl
  have hmem : c ∉ marks := by
    intro h
    have hmark := List.all_eq_true.mp hmarks c h
    simp [hc] at hmark
  rw [piece_of_not_mem_marks hmem, if_pos hc]

/-- A word followed by a space is one piece. -/
theorem piece_word {c : Char} {cs : List Char} (hc : isSymbolStart c = true)
    (hcs : ∀ d ∈ cs, isSymbolChar d = true) (rest : List Char) :
    piece c (cs ++ ' ' :: rest) = some (some (wordTerminal (c :: cs)), cs.length) := by
  rw [piece_of_isSymbolStart hc, countWhile_append hcs rfl, List.take_left]

/-- Digits and the minus sign are no letters. -/
theorem isSymbolStart_of_isNumberStart {c : Char} (hc : isDigit c = true ∨ c = '-') :
    isSymbolStart c = false := by
  rcases hc with h | rfl
  · simp only [isDigit, Bool.and_eq_true, decide_eq_true_eq, Char.le_def,
      UInt32.le_iff_toNat_le] at h
    have hlow : ¬ 'a' ≤ c := by
      rw [Char.le_def, UInt32.le_iff_toNat_le]
      have h9 : ('9' : Char).val.toNat = 57 := rfl
      have ha : ('a' : Char).val.toNat = 97 := rfl
      omega
    simp [isSymbolStart, hlow]
  · rfl

/-- A digit or a minus sign starts a number, if anything. -/
theorem piece_of_isNumberStart {c : Char} (hc : isDigit c = true ∨ c = '-') (cs : List Char) :
    piece c cs = (numberLength c cs).map fun n => (some .number, n) := by
  have hmarks : marks.all (fun d => !isDigit d && d ≠ '-') = true := rfl
  have hmem : c ∉ marks := by
    intro h
    have hmark := List.all_eq_true.mp hmarks c h
    rcases hc with hdigit | hminus
    · simp [hdigit] at hmark
    · simp [hminus] at hmark
  rw [piece_of_not_mem_marks hmem, isSymbolStart_of_isNumberStart hc, if_neg (by decide)]

/-- Digits followed by a space are an unsigned number. -/
theorem unsignedLength_digits {cs : List Char} (h : ∀ c ∈ cs, isDigit c = true) (hne : cs ≠ [])
    (rest : List Char) : unsignedLength (cs ++ ' ' :: rest) = some cs.length := by
  have hcount : countWhile isDigit (cs ++ ' ' :: rest) = cs.length := countWhile_append h rfl rest
  have hexponent : exponentLength (' ' :: rest) = 0 := by simp [exponentLength, isExponentMark]
  have hlen : cs.length ≠ 0 := by simpa using hne
  have hdrop : (cs ++ ' ' :: rest).drop cs.length = ' ' :: rest := List.drop_left
  simp [unsignedLength, hcount, hdrop, hlen, hexponent]

/-- Digits followed by a space are one piece. -/
theorem piece_digits {c : Char} {cs : List Char} (h : ∀ d ∈ c :: cs, isDigit d = true)
    (rest : List Char) : piece c (cs ++ ' ' :: rest) = some (some .number, cs.length) := by
  have hc := h c List.mem_cons_self
  have hsign := isSign_of_isDigit hc
  have hlength := unsignedLength_digits h (List.cons_ne_nil c cs) rest
  rw [List.cons_append] at hlength
  rw [piece_of_isNumberStart (.inl hc), numberLength, hsign, if_neg (by decide), hlength]
  rfl

/-- A decimal followed by a space is one piece. -/
theorem piece_decimal (n : Int) : ∃ c cs, Numeral.decimal n = c :: cs ∧
    ∀ rest, piece c (cs ++ ' ' :: rest) = some (some .number, cs.length) := by
  have hdigits := Numeral.isDigit_of_mem_toDigits n.natAbs
  unfold Numeral.decimal
  split
  · refine ⟨'-', _, rfl, ?_⟩
    intro rest
    have hlength := unsignedLength_digits hdigits Nat.toDigits_ne_nil rest
    rw [piece_of_isNumberStart (.inr rfl), numberLength, if_pos (by rfl), hlength]
    rfl
  · cases hcs : Nat.toDigits 10 n.natAbs with
    | nil => exact absurd hcs Nat.toDigits_ne_nil
    | cons c cs =>
      rw [hcs] at hdigits
      exact ⟨c, cs, rfl, piece_digits hdigits⟩

/-! ## 4. Lexemes -/

/-- The spelling of a word that is a value. -/
def Constant.spelling : Constant → List Char
  | .yes => ['t', 'r', 'u', 'e']
  | .no => ['f', 'a', 'l', 's', 'e']
  | .nil => ['n', 'i', 'l']

/-- Holds of the words that are symbols. -/
def isSymbol (cs : List Char) : Bool :=
  cs.head?.any isSymbolStart && cs.tail.all isSymbolChar && wordTerminal cs = .symbol

namespace Lexeme

/-- The spelling of a lexeme. Floats are not spelled. -/
def spelling : Lexeme → List Char
  | leftParen => ['(']
  | rightParen => [')']
  | leftBracket => ['[']
  | rightBracket => [']']
  | word cs => cs
  | constant c => c.spelling
  | text t => '"' :: (StringLiteral.encode t ++ ['"'])
  | integer n => Numeral.decimal n
  | float _ => []

/-- Holds of the lexemes that have a spelling of their own. -/
def Spellable : Lexeme → Prop
  | word cs => isSymbol cs = true
  | integer n => n.natAbs < 10 ^ Numeral.digitLimit
  | float _ => False
  | _ => True

/-- A spelling followed by a space is one piece. -/
theorem exists_piece {l : Lexeme} (h : l.Spellable) : ∃ c cs, l.spelling = c :: cs ∧
    ∀ rest, piece c (cs ++ ' ' :: rest) = some (some l.terminal, cs.length) := by
  cases l with
  | leftParen | rightParen | leftBracket | rightBracket =>
    refine ⟨_, [], rfl, ?_⟩
    intro rest
    rfl
  | word cs =>
    simp only [Spellable, isSymbol, Bool.and_eq_true, List.all_eq_true, decide_eq_true_eq] at h
    obtain ⟨⟨hstart, hchars⟩, hsymbol⟩ := h
    cases cs with
    | nil => cases hstart
    | cons c cs =>
      refine ⟨c, cs, rfl, ?_⟩
      intro rest
      have hword := @piece_word c cs hstart hchars rest
      rw [hword, hsymbol]
      rfl
  | constant c =>
    cases c with
    | yes =>
      refine ⟨'t', ['r', 'u', 'e'], rfl, ?_⟩
      intro rest
      exact piece_word rfl (List.all_eq_true.mp rfl) rest
    | no =>
      refine ⟨'f', ['a', 'l', 's', 'e'], rfl, ?_⟩
      intro rest
      exact piece_word rfl (List.all_eq_true.mp rfl) rest
    | nil =>
      refine ⟨'n', ['i', 'l'], rfl, ?_⟩
      intro rest
      exact piece_word rfl (List.all_eq_true.mp rfl) rest
  | text t =>
    refine ⟨'"', _, rfl, ?_⟩
    intro rest
    have hlength := StringLiteral.stringLength_encode t (' ' :: rest)
    rw [List.append_assoc, List.singleton_append, List.length_append]
    simp [piece, isBlank, hlength, terminal]
  | integer n => exact piece_decimal n
  | float x => exact h.elim

/-- The token that a lexeme is spelled as means the lexeme. -/
theorem meaning_of_spelling {l : Lexeme} (h : l.Spellable) (p : Point) :
    (⟨l.terminal, l.spelling, p⟩ : Token).meaning = some l := by
  cases l with
  | leftParen | rightParen | leftBracket | rightBracket | word cs => rfl
  | constant c => cases c <;> rfl
  | text t =>
    have hcontent : StringLiteral.content ('"' :: (StringLiteral.encode t ++ ['"'])) =
        StringLiteral.encode t := StringLiteral.content_quoted _
    simp [Token.meaning, terminal, spelling, textMeaning, hcontent, StringLiteral.decode_encode]
  | integer n =>
    simp [Token.meaning, terminal, spelling, numberMeaning, Numeral.isFloat_decimal,
      Numeral.integer_decimal h]
  | float x => exact h.elim

end Lexeme

/-! ## 5. Rows of lexemes -/

/-- Lexemes spelled one after another, a space after each. -/
def spellings (ls : List Lexeme) : List Char := ls.flatMap fun l => l.spelling ++ [' ']

/-- Spelled lexemes start with no blank. -/
theorem countWhile_isBlank_spellings {ls : List Lexeme} (h : ∀ l ∈ ls, l.Spellable) :
    countWhile isBlank (spellings ls) = 0 := by
  cases ls with
  | nil => rfl
  | cons l ls =>
    obtain ⟨c, cs, hspelling, hpiece⟩ := Lexeme.exists_piece (h l List.mem_cons_self)
    have hblank : isBlank c = false := by
      by_contra hc
      have hnone := hpiece []
      simp [piece, Bool.not_eq_false _ ▸ hc] at hnone
    simp [spellings, hspelling, countWhile, hblank]

/-- Spelled lexemes are scanned to their end, as tokens that mean them. -/
theorem scanFrom_spellings {ls : List Lexeme} (h : ∀ l ∈ ls, l.Spellable) (p : Point) :
    ∃ ts, scanFrom p (spellings ls) = ⟨ts, none⟩ ∧ ts.map Token.meaning = ls.map some := by
  induction ls generalizing p with
  | nil => exact ⟨[], scanFrom_nil p, rfl⟩
  | cons l ls ih =>
    rw [List.forall_mem_cons] at h
    obtain ⟨hl, hls⟩ := h
    obtain ⟨c, cs, hspelling, hpiece⟩ := Lexeme.exists_piece hl
    have hchars : spellings (l :: ls) = c :: (cs ++ ' ' :: spellings ls) := by
      simp [spellings, hspelling]
    have hspace : ∀ q, scanFrom q (' ' :: spellings ls) =
        scanFrom (q.afterAll [' ']) (spellings ls) := by
      intro q
      rw [scanFrom_cons]
      simp [piece, isBlank, countWhile_isBlank_spellings hls, Scan.cons]
    obtain ⟨ts, hscan, hmeaning⟩ := ih hls ((p.afterAll (c :: cs)).afterAll [' '])
    refine ⟨⟨l.terminal, c :: cs, p⟩ :: ts, ?_, ?_⟩
    · rw [hchars, scanFrom_cons, hpiece]
      simp only [List.take_left, List.drop_left]
      rw [hspace, hscan]
      rfl
    · have htoken := Lexeme.meaning_of_spelling hl p
      rw [hspelling] at htoken
      rw [List.map_cons, List.map_cons, htoken, hmeaning]

end ManifestLint.PN
