/-
ManifestLint.Proofs.Terminals — the texts that each terminal stands for.

The scan computes how far a piece reaches. What a piece may look like is said here without
lengths: brackets and words are spelled out, numbers are composed of digits, a point and an
exponent, and a string ends at the first quote that an even number of backslashes stands before,
the backslashes counted from the quote to the left (`Terminal.Matches`).

The main statements: the scan reads strings to the left as well (`stringLength_eq_some_iff`);
every piece has the form of its terminal (`isPiece_of_piece`); and where the scan finds no piece,
none of any form starts (`not_isPiece_of_piece`).
-/
import ManifestLint.Proofs.Placement
import ManifestLint.Proofs.Spelling

namespace ManifestLint.PN

/-! ## 1. Strings -/

/-- How many backslashes a text ends with. -/
def backslashes (cs : List Char) : Nat := (cs.reverse.takeWhile (· = '\\')).length

@[simp] theorem backslashes_nil : backslashes [] = 0 := rfl

/-- One more backslash counts, any other character starts again. -/
theorem backslashes_snoc (cs : List Char) (c : Char) :
    backslashes (cs ++ [c]) = if c = '\\' then backslashes cs + 1 else 0 := by
  by_cases hc : c = '\\' <;> simp [backslashes, hc]

theorem backslashes_eq_zero {cs : List Char} (h : '\\' ∉ cs) : backslashes cs = 0 := by
  cases cs using List.reverseRecOn with
  | nil => rfl
  | append_singleton cs c =>
    rw [backslashes_snoc, if_neg]
    rintro rfl
    exact h (by simp)

/-- What may stand between two quotes after the text `before`: no line end, no quote but after an
odd number of backslashes, and an even number of them at the end. -/
structure IsStringBody (before body : List Char) : Prop where
  oneLine : '\n' ∉ body
  escaped : ∀ a b, body = a ++ '"' :: b → backslashes (before ++ a) % 2 = 1
  closed : backslashes (before ++ body) % 2 = 0

/-- A character that ends no string goes in front of the rest of the body. -/
theorem isStringBody_cons_iff {before body : List Char} {c : Char} :
    IsStringBody before (c :: body) ↔ c ≠ '\n' ∧ (c = '"' → backslashes before % 2 = 1) ∧
      IsStringBody (before ++ [c]) body := by
  constructor
  · intro h
    refine ⟨fun hc => h.oneLine (by simp [hc]), ?_, ?_, ?_, ?_⟩
    · rintro rfl
      simpa using h.escaped [] body rfl
    · exact fun hmem => h.oneLine (List.mem_cons_of_mem c hmem)
    · rintro a b rfl
      simpa using h.escaped (c :: a) b rfl
    · simpa using h.closed
  · intro h
    obtain ⟨hline, hquote, hbody⟩ := h
    refine ⟨?_, ?_, by simpa using hbody.closed⟩
    · simp only [List.mem_cons, not_or]
      exact ⟨hline.symm, hbody.oneLine⟩
    · intro a b hab
      cases a with
      | nil => simpa using hquote (List.cons.inj hab).1
      | cons d a =>
        obtain ⟨rfl, rfl⟩ := List.cons.inj hab
        simpa using hbody.escaped a b rfl

theorem isStringBody_nil_iff {before : List Char} :
    IsStringBody before [] ↔ backslashes before % 2 = 0 := by
  constructor
  · intro h
    simpa using h.closed
  · intro h
    exact ⟨by simp, by simp, by simpa using h⟩

section Bodies

variable {before body a b cs : List Char} {c : Char}

/-- What is left of a body goes on from what was taken. -/
theorem isStringBody_of_append (h : IsStringBody before (a ++ b)) :
    IsStringBody (before ++ a) b where
  oneLine := fun hb => h.oneLine (List.mem_append_right a hb)
  escaped := by
    rintro u v rfl
    simpa using h.escaped (a ++ u) v (by simp)
  closed := by simpa using h.closed

/-- Of what stands before a body, only the parity of its last backslashes matters. -/
theorem isStringBody_of_parity (h : IsStringBody a body)
    (hab : backslashes a % 2 = backslashes b % 2) : IsStringBody b body := by
  induction body generalizing a b with
  | nil =>
    rw [isStringBody_nil_iff] at h ⊢
    rwa [← hab]
  | cons c body ih =>
    obtain ⟨hline, hquote, hbody⟩ := isStringBody_cons_iff.mp h
    refine isStringBody_cons_iff.mpr ⟨hline, fun hc => hab ▸ hquote hc, ih hbody ?_⟩
    rw [backslashes_snoc, backslashes_snoc]
    split <;> omega

/-- A body that starts with no backslash starts with no quote either. -/
theorem isStringBody_of_plain (h : IsStringBody [] (c :: cs)) (hc : c ≠ '\\') :
    c ≠ '"' ∧ IsStringBody [] cs := by
  obtain ⟨-, hquote, hbody⟩ := isStringBody_cons_iff.mp h
  refine ⟨fun heq => absurd (hquote heq) (by decide), isStringBody_of_parity hbody ?_⟩
  rw [backslashes_snoc, if_neg hc]
  rfl

/-- No body is a backslash alone. -/
theorem ne_nil_of_backslash (h : IsStringBody [] ('\\' :: cs)) : cs ≠ [] := by
  rintro rfl
  have hparity := (isStringBody_nil_iff.mp (isStringBody_cons_iff.mp h).2.2)
  cases hparity

end Bodies

/-- A string goes on after a character that is no line end, and no quote after an even number of
backslashes. -/
theorem stringLength_backslashes {before cs : List Char} {c : Char} (hline : c ≠ '\n') :
    stringLength (backslashes before % 2 = 1) (c :: cs) =
      if c = '"' ∧ backslashes before % 2 = 0 then some 1
      else (stringLength (backslashes (before ++ [c]) % 2 = 1) cs).map (· + 1) := by
  have hparity : (decide (c = '\\') && !decide (backslashes before % 2 = 1)) =
      decide (backslashes (before ++ [c]) % 2 = 1) := by
    rw [backslashes_snoc]
    by_cases hc : c = '\\'
    · simp only [hc, if_true, decide_true, Bool.true_and, ← decide_not, decide_eq_decide]
      omega
    · simp [hc]
  have heven : ¬ backslashes before % 2 = 1 ↔ backslashes before % 2 = 0 := by omega
  rw [stringLength, if_neg hline, hparity]
  simp only [Bool.and_eq_true, decide_eq_true_eq, Bool.not_eq_true', decide_eq_false_iff_not, heven]

/-- A string ends at the first quote after an even number of backslashes. -/
theorem stringLength_eq_some_iff {before cs : List Char} {n : Nat} :
    stringLength (backslashes before % 2 = 1) cs = some n ↔
      ∃ body rest, cs = body ++ '"' :: rest ∧ n = body.length + 1 ∧ IsStringBody before body := by
  induction cs generalizing before n with
  | nil => simp [stringLength]
  | cons c cs ih =>
    by_cases hline : c = '\n'
    · simp only [stringLength, hline, if_true, reduceCtorEq, false_iff]
      rintro ⟨body, rest, hcs, -, hbody⟩
      cases body with
      | nil => cases hcs
      | cons d body =>
        obtain ⟨rfl, -⟩ := List.cons.inj hcs
        exact hbody.oneLine List.mem_cons_self
    rw [stringLength_backslashes hline]
    split
    · rename_i hquote
      obtain ⟨rfl, heven⟩ := hquote
      constructor
      · intro h
        cases h
        exact ⟨[], cs, rfl, rfl, isStringBody_nil_iff.mpr heven⟩
      · rintro ⟨body, rest, hcs, rfl, hbody⟩
        cases body with
        | nil => rfl
        | cons d body =>
          -- the quote would have to be escaped
          obtain ⟨rfl, -⟩ := List.cons.inj hcs
          have hodd := (isStringBody_cons_iff.mp hbody).2.1 rfl
          omega
    · rename_i hquote
      rw [Option.map_eq_some_iff]
      constructor
      · rintro ⟨m, hm, rfl⟩
        obtain ⟨body, rest, rfl, rfl, hbody⟩ := ih.mp hm
        refine ⟨c :: body, rest, rfl, rfl, isStringBody_cons_iff.mpr ⟨hline, ?_, hbody⟩⟩
        rintro rfl
        by_contra hne
        exact hquote ⟨rfl, by omega⟩
      · rintro ⟨body, rest, hcs, rfl, hbody⟩
        cases body with
        | nil =>
          obtain ⟨rfl, rfl⟩ := List.cons.inj hcs
          exact absurd ⟨rfl, isStringBody_nil_iff.mp hbody⟩ hquote
        | cons d body =>
          obtain ⟨rfl, rfl⟩ := List.cons.inj hcs
          have hrest := (isStringBody_cons_iff.mp hbody).2.2
          exact ⟨body.length + 1, ih.mpr ⟨body, rest, rfl, rfl, hrest⟩, rfl⟩

theorem stringLength_iff_isStringBody {cs : List Char} {n : Nat} :
    stringLength false cs = some n ↔
      ∃ body rest, cs = body ++ '"' :: rest ∧ n = body.length + 1 ∧ IsStringBody [] body :=
  @stringLength_eq_some_iff [] cs n

/-! ## 2. Numbers -/

/-- Digits, one at least. -/
def IsDigits (cs : List Char) : Prop := cs ≠ [] ∧ ∀ c ∈ cs, isDigit c = true

/-- One sign or none. -/
def IsSigns (cs : List Char) : Prop := cs.length ≤ 1 ∧ ∀ c ∈ cs, isSign c = true

/-- What a number has in front of its exponent: digits, or digits around a point, on one side of it
at least. -/
inductive IsMantissa : List Char → Prop where
  | whole {digits : List Char} (h : IsDigits digits) : IsMantissa digits
  | point {digits fraction : List Char} (hdigits : ∀ c ∈ digits, isDigit c = true)
      (hfraction : ∀ c ∈ fraction, isDigit c = true) (hne : digits ≠ [] ∨ fraction ≠ []) :
      IsMantissa (digits ++ '.' :: fraction)

/-- An exponent, or nothing. -/
inductive IsExponent : List Char → Prop where
  | none : IsExponent []
  | marked {mark : Char} {signs digits : List Char} (hmark : isExponentMark mark = true)
      (hsigns : IsSigns signs) (hdigits : IsDigits digits) :
      IsExponent (mark :: (signs ++ digits))

/-- A number without a sign. -/
def IsUnsigned (cs : List Char) : Prop :=
  ∃ mantissa exponent, cs = mantissa ++ exponent ∧ IsMantissa mantissa ∧ IsExponent exponent

/-- A number with one sign or none. -/
def IsNumber (cs : List Char) : Prop :=
  ∃ signs number, cs = signs ++ number ∧ IsSigns signs ∧ IsUnsigned number

section Numbers

variable {cs : List Char} {n : Nat}

theorem take_countWhile (p : Char → Bool) (cs : List Char) :
    cs.take (countWhile p cs) = cs.takeWhile p :=
  (List.prefix_iff_eq_take.mp (List.takeWhile_prefix p)).symm

/-- The characters that are counted belong to the class. -/
theorem forall_mem_take_countWhile (p : Char → Bool) (cs : List Char) :
    ∀ c ∈ cs.take (countWhile p cs), p c = true := by
  intro c hc
  rw [take_countWhile] at hc
  exact List.mem_takeWhile_imp hc

theorem isDigits_take (h : countWhile isDigit cs ≠ 0) :
    IsDigits (cs.take (countWhile isDigit cs)) := by
  refine ⟨?_, forall_mem_take_countWhile isDigit cs⟩
  rw [take_countWhile]
  intro hnil
  exact h (by rw [countWhile, hnil]; rfl)

/-- The sign that the scan looks for first. -/
theorem exists_signs (cs : List Char) : ∃ signs rest, cs = signs ++ rest ∧ IsSigns signs ∧
    (if cs.head?.any isSign then 1 else 0) = signs.length := by
  by_cases h : cs.head?.any isSign = true
  · cases cs with
    | nil => cases h
    | cons s rest =>
      have hs : isSign s = true := h
      exact ⟨[s], rest, rfl, ⟨by simp, by simpa using hs⟩, by simp [hs]⟩
  · exact ⟨[], cs, rfl, ⟨by simp, by simp⟩, by simp [h]⟩

/-- What the scan takes for an exponent is one. -/
theorem isExponent_take (cs : List Char) : IsExponent (cs.take (exponentLength cs)) := by
  cases cs with
  | nil => exact .none
  | cons e cs =>
    obtain ⟨signs, rest, rfl, hsigns, hlen⟩ := exists_signs cs
    simp only [exponentLength, hlen, List.drop_left]
    by_cases h : isExponentMark e = true ∧ countWhile isDigit rest ≠ 0
    · obtain ⟨hmark, hdigits⟩ := h
      rw [if_pos (by simp [hmark, hdigits]), Nat.add_assoc, Nat.add_comm, List.take_succ_cons,
        List.take_length_add_append]
      exact .marked hmark hsigns (isDigits_take hdigits)
    · rw [if_neg (by simpa using h)]
      exact .none

/-- What the scan takes for a number without a sign is one. -/
theorem isUnsigned_take (h : unsignedLength cs = some n) : IsUnsigned (cs.take n) := by
  have hdigits := forall_mem_take_countWhile isDigit cs
  by_cases hpoint : (cs.drop (countWhile isDigit cs)).head? = some '.'
  · obtain ⟨rest, hrest⟩ := List.head?_eq_some_iff.mp hpoint
    rw [unsignedLength_of_point hrest] at h
    split at h
    · cases h
    · rename_i hne
      cases h
      refine ⟨cs.take (countWhile isDigit cs) ++ '.' :: rest.take (countWhile isDigit rest),
        (rest.drop (countWhile isDigit rest)).take _, ?_, ?_, isExponent_take _⟩
      · rw [Nat.add_assoc, Nat.add_assoc, List.take_add, hrest, Nat.add_comm 1,
          List.take_succ_cons, List.take_add, List.append_assoc, List.cons_append]
      · refine .point hdigits (forall_mem_take_countWhile isDigit rest) ?_
        rcases not_and_or.mp hne with hwhole | hfraction
        · exact .inl (isDigits_take hwhole).1
        · exact .inr (isDigits_take hfraction).1
  · rw [unsignedLength_of_no_point hpoint] at h
    split at h
    · cases h
    · rename_i hne
      cases h
      exact ⟨_, _, List.take_add, .whole (isDigits_take hne), isExponent_take _⟩

/-- A number without a sign starts with a digit, or with a point and a digit. -/
theorem isSome_unsignedLength {rest : List Char} (h : IsUnsigned cs) :
    (unsignedLength (cs ++ rest)).isSome = true := by
  obtain ⟨mantissa, exponent, rfl, hmantissa, -⟩ := h
  have hcount : ∀ {ds : List Char} (us : List Char), ds ≠ [] → (∀ c ∈ ds, isDigit c = true) →
      countWhile isDigit (ds ++ us) ≠ 0 := by
    intro ds us hne hds
    cases ds with
    | nil => exact absurd rfl hne
    | cons d ds => simp [countWhile, hds d List.mem_cons_self]
  have hwhole : ∀ {cs : List Char}, countWhile isDigit cs ≠ 0 →
      (unsignedLength cs).isSome = true := by
    intro cs hne
    by_cases hpoint : (cs.drop (countWhile isDigit cs)).head? = some '.'
    · obtain ⟨rest, hrest⟩ := List.head?_eq_some_iff.mp hpoint
      rw [unsignedLength_of_point hrest, if_neg (by simp [hne])]
      rfl
    · rw [unsignedLength_of_no_point hpoint, if_neg hne]
      rfl
  rw [List.append_assoc]
  cases hmantissa with
  | whole h => exact hwhole (hcount _ h.1 h.2)
  | @point digits fraction hdigits hfraction hne =>
    cases digits with
    | cons d ds =>
      rw [List.append_assoc]
      exact hwhole (hcount _ (List.cons_ne_nil d ds) hdigits)
    | nil =>
      -- a point in front, so there is a digit after it
      have hfirst := hcount (exponent ++ rest) (hne.resolve_left (by simp)) hfraction
      have hzero : countWhile isDigit ('.' :: (fraction ++ (exponent ++ rest))) = 0 := rfl
      have hrest : ('.' :: (fraction ++ (exponent ++ rest))).drop
          (countWhile isDigit ('.' :: (fraction ++ (exponent ++ rest)))) =
            '.' :: (fraction ++ (exponent ++ rest)) := by
        rw [hzero, List.drop_zero]
      rw [List.nil_append, List.cons_append, unsignedLength_of_point hrest,
        if_neg (by simp [hfirst])]
      rfl

/-- A number without a sign starts with a digit or a point. -/
theorem exists_start_of_isUnsigned (h : IsUnsigned cs) :
    ∃ c us, cs = c :: us ∧ (isDigit c = true ∨ c = '.') := by
  obtain ⟨mantissa, exponent, rfl, hmantissa, -⟩ := h
  cases hmantissa with
  | whole h =>
    obtain ⟨c, us, rfl⟩ := List.exists_cons_of_ne_nil h.1
    exact ⟨c, _, rfl, .inl (h.2 c List.mem_cons_self)⟩
  | @point digits fraction hdigits _ _ =>
    cases digits with
    | nil => exact ⟨'.', _, rfl, .inr rfl⟩
    | cons c ds => exact ⟨c, _, rfl, .inl (hdigits c List.mem_cons_self)⟩

/-- What the scan takes for a number is one. -/
theorem isNumber_take {c : Char} (h : numberLength c cs = some n) : IsNumber (c :: cs.take n) := by
  unfold numberLength at h
  split at h
  · rename_i hsign
    exact ⟨[c], cs.take n, rfl, ⟨by simp, by simpa using hsign⟩, isUnsigned_take h⟩
  · obtain ⟨m, hm, rfl⟩ := Option.map_eq_some_iff.mp h
    have hunsigned := isUnsigned_take hm
    cases m with
    | zero =>
      obtain ⟨_, _, hnil, -⟩ := exists_start_of_isUnsigned hunsigned
      cases hnil
    | succ m => exact ⟨[], _, rfl, ⟨by simp, by simp⟩, hunsigned⟩

/-- A number starts with a sign, a digit or a point. -/
theorem isSome_numberLength {c : Char} {rest : List Char} (h : IsNumber (c :: cs)) :
    (isSign c = true ∨ isDigit c = true ∨ c = '.') ∧
      (numberLength c (cs ++ rest)).isSome = true := by
  obtain ⟨signs, number, heq, ⟨hlen, hsigns⟩, hnumber⟩ := h
  match signs, hlen with
  | [], _ =>
    obtain rfl : c :: cs = number := heq
    obtain ⟨_, _, hcons, hstart⟩ := exists_start_of_isUnsigned hnumber
    obtain ⟨rfl, rfl⟩ := List.cons.inj hcons
    have hsign : isSign c = false := by
      rcases hstart with hdigit | rfl
      · exact isSign_of_isDigit hdigit
      · rfl
    refine ⟨.inr hstart, ?_⟩
    rw [numberLength, hsign, if_neg (by decide), Option.isSome_map, ← List.cons_append]
    exact isSome_unsignedLength hnumber
  | [s], _ =>
    obtain ⟨rfl, rfl⟩ := List.cons.inj heq
    have hsign := hsigns c List.mem_cons_self
    rw [numberLength, if_pos hsign]
    exact ⟨.inl hsign, isSome_unsignedLength hnumber⟩

end Numbers

/-! ## 3. Pieces -/

/-- The terminals of brackets. -/
def brackets : List (Char × Terminal) :=
  [('(', .leftParen), (')', .rightParen), ('[', .leftBracket), (']', .rightBracket)]

/-- The pieces that may start with `c` before `cs`: what becomes of them, and how many characters
follow the first one. -/
inductive Piece (c : Char) (cs : List Char) : Option Terminal → Nat → Prop where
  | blank (h : isBlank c = true) : Piece c cs none (countWhile isBlank cs)
  | comment (h : c = ';') : Piece c cs none (countWhile (· ≠ '\n') cs)
  | bracket {t : Terminal} (h : (c, t) ∈ brackets) : Piece c cs (some t) 0
  | string {n : Nat} (h : c = '"') (hn : stringLength false cs = some n) :
      Piece c cs (some .string) n
  | word (h : isSymbolStart c = true) :
      Piece c cs (some (wordTerminal (c :: cs.take (countWhile isSymbolChar cs))))
        (countWhile isSymbolChar cs)
  | number {n : Nat} (h : c ∉ marks) (hs : isSymbolStart c = false)
      (hn : numberLength c cs = some n) : Piece c cs (some .number) n

/-- The scan cuts off those pieces. -/
theorem piece_eq_some_iff {c : Char} {cs : List Char} {x : Option Terminal} {n : Nat} :
    piece c cs = some (x, n) ↔ Piece c cs x n := by
  constructor
  · intro h
    by_cases hmarks : c ∈ marks
    · simp only [marks, List.mem_cons, List.not_mem_nil, or_false] at hmarks
      rcases hmarks with rfl | rfl | rfl | rfl | rfl | rfl | rfl | rfl | rfl | rfl | rfl
      case inr.inr.inr.inr.inr.inr.inr.inr.inr.inr =>
        obtain ⟨m, hm, heq⟩ := Option.map_eq_some_iff.mp h
        cases heq
        exact .string rfl hm
      case inr.inr.inr.inr.inr.inl => cases h; exact .comment rfl
      case inr.inr.inr.inr.inr.inr.inl => cases h; exact .bracket (by simp [brackets])
      case inr.inr.inr.inr.inr.inr.inr.inl => cases h; exact .bracket (by simp [brackets])
      case inr.inr.inr.inr.inr.inr.inr.inr.inl => cases h; exact .bracket (by simp [brackets])
      case inr.inr.inr.inr.inr.inr.inr.inr.inr.inl => cases h; exact .bracket (by simp [brackets])
      all_goals cases h; exact .blank rfl
    · rw [piece_of_not_mem_marks hmarks] at h
      split at h
      · rename_i hstart
        cases h
        exact .word hstart
      · rename_i hstart
        obtain ⟨m, hm, heq⟩ := Option.map_eq_some_iff.mp h
        cases heq
        exact .number hmarks (Bool.not_eq_true _ ▸ hstart) hm
  · intro h
    cases h with
    | blank h => simp [piece, h]
    | comment h => simp [piece, h, isBlank]
    | bracket h =>
      simp only [brackets, List.mem_cons, Prod.mk.injEq, List.not_mem_nil, or_false] at h
      rcases h with ⟨rfl, rfl⟩ | ⟨rfl, rfl⟩ | ⟨rfl, rfl⟩ | ⟨rfl, rfl⟩ <;> simp [piece, isBlank]
    | string h hn => simp [piece, h, hn, isBlank]
    | word h => exact piece_of_isSymbolStart h cs
    | number h hs hn => simp [piece_of_not_mem_marks h, hs, hn]

/-- The texts that each terminal stands for. -/
def Terminal.Matches : Terminal → List Char → Prop
  | .leftParen, cs => cs = ['(']
  | .rightParen, cs => cs = [')']
  | .leftBracket, cs => cs = ['[']
  | .rightBracket, cs => cs = [']']
  | .trueWord, cs => cs = Constant.yes.spelling
  | .falseWord, cs => cs = Constant.no.spelling
  | .nilWord, cs => cs = Constant.nil.spelling
  | .symbol, cs => isSymbol cs = true
  | .number, cs => IsNumber cs
  | .string, cs => ∃ body, cs = '"' :: (body ++ ['"']) ∧ IsStringBody [] body
  | .endOfText, _ => False

/-- The texts that pieces have: tokens those of their terminals, and dropped pieces are rows of
blanks, or comments up to the end of their line. -/
def IsPiece : Option Terminal → List Char → Prop
  | some t, cs => t.Matches cs
  | none, cs => (cs ≠ [] ∧ ∀ c ∈ cs, isBlank c = true) ∨ ∃ body, cs = ';' :: body ∧ '\n' ∉ body

/-- A word is what its terminal stands for. -/
theorem matches_wordTerminal {c : Char} {cs : List Char} (hc : isSymbolStart c = true)
    (hcs : ∀ d ∈ cs, isSymbolChar d = true) : (wordTerminal (c :: cs)).Matches (c :: cs) := by
  have hsymbol : wordTerminal (c :: cs) = .symbol → isSymbol (c :: cs) = true := by
    intro h
    simpa [isSymbol, hc, h] using hcs
  revert hsymbol
  unfold wordTerminal
  split
  · intro _
    assumption
  · split
    · intro _
      assumption
    · split
      · intro _
        assumption
      · intro hsymbol
        exact hsymbol rfl

/-- A piece has the form of its terminal. -/
theorem isPiece_of_piece {c : Char} {cs : List Char} {x : Option Terminal} {n : Nat}
    (hpiece : piece c cs = some (x, n)) : IsPiece x (c :: cs.take n) := by
  cases piece_eq_some_iff.mp hpiece with
  | blank h =>
    refine .inl ⟨List.cons_ne_nil _ _, ?_⟩
    rw [List.forall_mem_cons]
    exact ⟨h, forall_mem_take_countWhile isBlank cs⟩
  | comment h =>
    refine .inr ⟨_, by rw [h], ?_⟩
    intro hmem
    simpa using forall_mem_take_countWhile (· ≠ '\n') cs '\n' hmem
  | bracket h =>
    simp only [brackets, List.mem_cons, Prod.mk.injEq, List.not_mem_nil, or_false] at h
    rcases h with ⟨rfl, rfl⟩ | ⟨rfl, rfl⟩ | ⟨rfl, rfl⟩ | ⟨rfl, rfl⟩ <;> rfl
  | string h hn =>
    obtain ⟨body, rest, rfl, rfl, hbody⟩ := stringLength_iff_isStringBody.mp hn
    refine ⟨body, ?_, hbody⟩
    rw [h, List.take_length_add_append]
    rfl
  | word h => exact matches_wordTerminal h (forall_mem_take_countWhile isSymbolChar cs)
  | number _ _ hn => exact isNumber_take hn

/-- No mark starts a number. -/
theorem not_mem_marks_of_start {c : Char} (h : isSign c = true ∨ isDigit c = true ∨ c = '.') :
    c ∉ marks := by
  intro hmem
  have hmarks : ∀ d ∈ marks, isSign d = false ∧ isDigit d = false ∧ d ≠ '.' := by
    simp only [marks, List.forall_mem_cons, List.not_mem_nil, false_imp_iff, implies_true,
      and_true]
    decide
  obtain ⟨hsign, hdigit, hpoint⟩ := hmarks c hmem
  rw [hsign, hdigit] at h
  simp [hpoint] at h

section Starts

variable {c : Char} {cs : List Char} {n : Nat}

/-- Where a number starts, and no word, the scan finds one. -/
theorem exists_piece_of_isNumber (hletter : isSymbolStart c = false)
    (h : IsNumber (c :: cs.take n)) : ∃ m, Piece c cs (some .number) m := by
  obtain ⟨hstart, hlength⟩ := @isSome_numberLength _ _ (cs.drop n) h
  rw [List.take_append_drop] at hlength
  obtain ⟨m, hm⟩ := Option.isSome_iff_exists.mp hlength
  exact ⟨m, .number (not_mem_marks_of_start hstart) hletter hm⟩

/-- Where a string starts, the scan finds one. -/
theorem exists_piece_of_isStringBody {body : List Char} (hbody : IsStringBody [] body)
    (h : c :: cs.take n = '"' :: (body ++ ['"'])) : ∃ m, Piece c cs (some .string) m := by
  obtain ⟨hquote, htake⟩ := List.cons.inj h
  have hcs : cs = body ++ '"' :: cs.drop n := by
    conv => lhs; rw [← List.take_append_drop n cs, htake]
    simp
  exact ⟨_, .string hquote (stringLength_iff_isStringBody.mpr ⟨body, _, hcs, rfl, hbody⟩)⟩

/-- Where the scan finds no piece, no text that a terminal stands for starts. -/
theorem not_isPiece_of_piece (hpiece : piece c cs = none) (x : Option Terminal) (n : Nat) :
    ¬ IsPiece x (c :: cs.take n) := by
  have hnone : ∀ {y m}, ¬ Piece c cs y m := by
    intro y m h
    rw [piece_eq_some_iff.mpr h] at hpiece
    cases hpiece
  have hletter : isSymbolStart c = false := by
    by_contra h
    exact hnone (.word (by simpa using h))
  have hbracket : ∀ {b : Char} {t : Terminal}, (b, t) ∈ brackets → c :: cs.take n ≠ [b] := by
    intro b t hb heq
    exact hnone (.bracket ((List.cons.inj heq).1 ▸ hb))
  intro h
  cases x with
  | none =>
    rcases h with ⟨-, hblank⟩ | ⟨body, hbody, -⟩
    · exact hnone (.blank (hblank c List.mem_cons_self))
    · exact hnone (.comment (List.cons.inj hbody).1)
  | some x =>
    cases x with
    | endOfText => exact h
    | leftParen => exact hbracket (t := .leftParen) (by simp [brackets]) h
    | rightParen => exact hbracket (t := .rightParen) (by simp [brackets]) h
    | leftBracket => exact hbracket (t := .leftBracket) (by simp [brackets]) h
    | rightBracket => exact hbracket (t := .rightBracket) (by simp [brackets]) h
    | trueWord | falseWord | nilWord =>
      rw [(List.cons.inj h).1] at hletter
      cases hletter
    | symbol =>
      have hsymbol : isSymbol (c :: cs.take n) = true := h
      simp [isSymbol, hletter] at hsymbol
    | number =>
      obtain ⟨m, hm⟩ := exists_piece_of_isNumber hletter h
      exact hnone hm
    | string =>
      obtain ⟨body, heq, hbody⟩ := h
      obtain ⟨m, hm⟩ := exists_piece_of_isStringBody hbody heq
      exact hnone hm

end Starts

/-- A token has the form of its terminal. -/
theorem matches_of_mem_scan {source : List Char} {t : Token} (h : t ∈ (scan source).tokens) :
    t.terminal.Matches t.text := by
  obtain ⟨ts, us, htokens⟩ := List.append_of_mem h
  have hscan : scanFrom .start source = ⟨ts ++ t :: us, (scan source).stuck⟩ := by
    rw [← htokens]
    rfl
  obtain ⟨-, c, rest, n, -, -, htext, hpiece, -⟩ := scanFrom_eq_append hscan
  rw [htext]
  exact isPiece_of_piece hpiece

end ManifestLint.PN
