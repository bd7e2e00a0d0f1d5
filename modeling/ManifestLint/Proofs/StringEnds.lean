/-
ManifestLint.Proofs.StringEnds — the scan and the decoder agree on where a string ends.

Two readings of a backslash meet here. The scan ends a string at the first quote that an even
number of backslashes stands before, counted from the quote to the left. The decoder goes from left
to right, takes one escape after another, and knows of no quote to look for. That both come to the
same end rests on one fact about every place that the decoder reaches: what is left of the
string from there on is the body of a string by itself (`isStringBody_of_reaches`), since an
escape takes the character after its backslash, and whatever else it takes does not end with a
backslash (`exists_of_escape`).

The main statements: a decoder that is run on the whole text ends at the quote where the scan does
(`decodeQuoted_append`), what fails to decode is a refused character or an escape that means nothing
(`decode_eq_none_iff`), a string set between pieces is one token there (`scanFrom_between`), and
all of it said of a text (`strings_end_alike`).
-/
import ManifestLint.Proofs.Faults
import ManifestLint.Proofs.Layout

namespace ManifestLint.PN

namespace StringLiteral

/-! ## 1. What escapes take -/

/-- The letters of escapes by number, and how many hexadecimal digits each takes. -/
def hexLetters : List (Char × Nat) := [('x', 2), ('u', 4), ('U', 8)]

/-- The character after a backslash says what escape it is: one of no meaning, one of that character
alone, one of digits or of a name after a letter, or one of octal digits. -/
theorem escape_cases (c : Char) :
    (c = '\x00' ∧ ∀ cs, escape (c :: cs) = none) ∨
    (∃ m, ∀ cs, escape (c :: cs) = some (m, 1)) ∨
    (∃ width, (c, width) ∈ hexLetters ∧ ∀ cs, escape (c :: cs) = hexEscape width cs) ∨
    (c = 'N' ∧ ∀ cs, escape (c :: cs) = nameEscape cs) ∨
    (isOctal c = true ∧ ∀ cs, escape (c :: cs) = octalEscape (c :: cs)) := by
  by_cases hsingle : c ∈ ['\n', '\r', 'a', 'b', 'f', 'n', 'r', 't', 'v', '\\', '\'', '"']
  · right; left
    simp only [List.mem_cons, List.not_mem_nil, or_false] at hsingle
    rcases hsingle with rfl | rfl | rfl | rfl | rfl | rfl | rfl | rfl | rfl | rfl | rfl | rfl
    all_goals exact ⟨_, fun cs => rfl⟩
  by_cases hnul : c = '\x00'
  · subst hnul
    exact .inl ⟨rfl, fun cs => rfl⟩
  by_cases hletter : c ∈ ['x', 'u', 'U']
  · right; right; left
    simp only [List.mem_cons, List.not_mem_nil, or_false] at hletter
    rcases hletter with rfl | rfl | rfl
    · exact ⟨2, by decide, fun cs => rfl⟩
    · exact ⟨4, by decide, fun cs => rfl⟩
    · exact ⟨8, by decide, fun cs => rfl⟩
  by_cases hname : c = 'N'
  · subst hname
    exact .inr (.inr (.inr (.inl ⟨rfl, fun cs => rfl⟩)))
  simp only [List.mem_cons, List.not_mem_nil, or_false, not_or] at hsingle hletter
  by_cases hoctal : isOctal c = true
  · refine .inr (.inr (.inr (.inr ⟨hoctal, fun cs => ?_⟩)))
    simp [escape, hsingle, hnul, hletter, hname, hoctal]
  · refine .inr (.inl ⟨[CodePoint.ofChar '\\', CodePoint.ofChar c], fun cs => ?_⟩)
    simp [escape, hsingle, hnul, hletter, hname, hoctal]

/-- A number has hexadecimal digits alone. -/
theorem isSome_hexValue_of_hexNumber {cs : List Char} {n : Nat} (h : hexNumber cs = some n) :
    ∀ c ∈ cs, (hexValue c).isSome = true := by
  induction cs using List.reverseRecOn generalizing n with
  | nil => simp
  | append_singleton cs c ih =>
    unfold hexNumber at h ih
    rw [List.foldl_append, List.foldl_cons, List.foldl_nil] at h
    obtain ⟨m, hm, h⟩ := Option.bind_eq_some_iff.mp h
    obtain ⟨d, hd, -⟩ := Option.bind_eq_some_iff.mp h
    rw [List.forall_mem_append, List.forall_mem_singleton, hd]
    exact ⟨ih hm, rfl⟩

theorem codePoint_eq_some_iff {n : Nat} {p : CodePoint} : codePoint n = some p ↔ p.val = n := by
  unfold codePoint
  split
  · rw [Option.some.injEq, Fin.ext_iff, eq_comm]
  · rename_i hn
    simp only [reduceCtorEq, false_iff]
    rintro rfl
    exact hn p.isLt

/-- An escape by number means the code point whose number the digits after the letter are. -/
theorem hexEscape_eq_some_iff {width n : Nat} {cs : List Char} {m : Text} :
    hexEscape width cs = some (m, n) ↔ ∃ digits rest p, cs = digits ++ rest ∧
      digits.length = width ∧ hexNumber digits = some p.val ∧ m = [p] ∧ n = width + 1 := by
  simp only [hexEscape, Option.bind_eq_bind, Option.pure_def]
  constructor
  · intro h
    split at h
    · rename_i hlength
      obtain ⟨k, hk, h⟩ := Option.bind_eq_some_iff.mp h
      obtain ⟨p, hp, h⟩ := Option.bind_eq_some_iff.mp h
      cases h
      obtain rfl := codePoint_eq_some_iff.mp hp
      exact ⟨cs.take width, cs.drop width, p, (List.take_append_drop width cs).symm, hlength, hk,
        rfl, rfl⟩
    · cases h
  · rintro ⟨digits, rest, p, rfl, rfl, hdigits, rfl, rfl⟩
    rw [List.take_left, if_pos rfl, hdigits, Option.bind_some, codePoint_eq_some_iff.mpr rfl]
    rfl

/-- An escape by name means the code point whose name stands between the braces. -/
theorem nameEscape_eq_some_iff {n : Nat} {cs : List Char} {m : Text} :
    nameEscape cs = some (m, n) ↔ ∃ name rest p, cs = '\x7b' :: (name ++ '\x7d' :: rest) ∧
      '\x7d' ∉ name ∧ Text.ofCharacterName name = some p ∧ m = [p] ∧ n = name.length + 3 := by
  have hmem : ∀ {name : List Char}, '\x7d' ∉ name ↔ ∀ c ∈ name, decide (c ≠ '\x7d') = true := by
    intro name
    simp only [decide_eq_true_eq]
    exact ⟨fun h c hc heq => h (heq ▸ hc), fun h hname => h _ hname rfl⟩
  constructor
  · intro h
    unfold nameEscape at h
    split at h
    · rename_i cs
      dsimp only at h
      split at h
      · rename_i hlength
        obtain ⟨p, hp, h⟩ := Option.bind_eq_some_iff.mp h
        cases h
        have hname : '\x7d' ∉ cs.takeWhile (· ≠ '\x7d') := by
          refine hmem.mpr ?_
          intro c hc
          exact List.mem_takeWhile_imp (p := (· ≠ '\x7d')) hc
        obtain ⟨d, rest, hrest⟩ := List.exists_cons_of_length_pos
          (show 0 < (cs.drop (countWhile (· ≠ '\x7d') cs)).length by
            rw [List.length_drop]
            exact Nat.sub_pos_of_lt hlength)
        have hd : d = '\x7d' := by
          have := not_of_head?_drop_countWhile (p := (· ≠ '\x7d')) cs d (by rw [hrest]; rfl)
          simpa using this
        subst hd
        refine ⟨_, rest, p, ?_, hname, hp, rfl, rfl⟩
        rw [← hrest, ← take_countWhile, List.take_append_drop]
      · cases h
    · cases h
  · rintro ⟨name, rest, p, rfl, hname, hp, rfl, rfl⟩
    have htake : (name ++ '\x7d' :: rest).takeWhile (· ≠ '\x7d') = name := by
      rw [List.takeWhile_append_of_pos (hmem.mp hname), List.takeWhile_cons_of_neg (by simp),
        List.append_nil]
    have hlength : name.length < (name ++ '\x7d' :: rest).length := by simp
    simp only [nameEscape, htake, if_pos hlength, hp]
    rfl

/-- Octal digits make a small number. -/
theorem octalNumber_lt {cs : List Char} (h : ∀ c ∈ cs, isOctal c = true) :
    octalNumber cs < 8 ^ cs.length := by
  induction cs using List.reverseRecOn with
  | nil => decide
  | append_singleton cs c ih =>
    rw [List.forall_mem_append, List.forall_mem_singleton] at h
    have hcs := ih h.1
    have hc : c.toNat - '0'.toNat < 8 := by
      have hdigit := h.2
      simp only [isOctal, Bool.and_eq_true, decide_eq_true_eq, Char.le_def,
        UInt32.le_iff_toNat_le] at hdigit
      have h7 : ('7' : Char).val.toNat = 55 := rfl
      have h0 : ('0' : Char).toNat = 48 := rfl
      have hval : c.toNat = c.val.toNat := rfl
      omega
    unfold octalNumber at hcs ⊢
    rw [List.foldl_append, List.foldl_cons, List.foldl_nil, List.length_append, List.length_cons,
      List.length_nil, Nat.pow_succ]
    omega

/-- An escape by octal digits always means a code point: that of up to three digits. -/
theorem octalEscape_eq {c : Char} (hc : isOctal c = true) (cs : List Char) :
    ∃ p, octalEscape (c :: cs) = some ([p], ((cs.take 2).takeWhile isOctal).length + 1) := by
  have hdigits : ((c :: cs).take 3).takeWhile isOctal = c :: (cs.take 2).takeWhile isOctal := by
    rw [List.take_succ_cons, List.takeWhile_cons_of_pos hc]
  have hoctal : ∀ d ∈ c :: (cs.take 2).takeWhile isOctal, isOctal d = true :=
    List.forall_mem_cons.mpr ⟨hc, fun d hd => List.mem_takeWhile_imp hd⟩
  have hlength : ((cs.take 2).takeWhile isOctal).length ≤ 2 :=
    (List.takeWhile_prefix _).length_le.trans (List.length_take_le 2 cs)
  have hsmall : octalNumber (c :: (cs.take 2).takeWhile isOctal) < 0x110000 := by
    refine (octalNumber_lt hoctal).trans_le ?_
    refine (Nat.pow_le_pow_right (by decide) (Nat.succ_le_succ hlength)).trans ?_
    decide
  have hpoint : codePoint (octalNumber (c :: (cs.take 2).takeWhile isOctal)) =
      some ⟨_, hsmall⟩ := codePoint_eq_some_iff.mpr rfl
  refine ⟨⟨_, hsmall⟩, ?_⟩
  unfold octalEscape
  rw [hdigits]
  dsimp only
  rw [hpoint]
  rfl

/-! ## 2. Escapes before a quote -/

/-- No character has a quote in its name: the names are looked at byte by byte. -/
theorem quote_not_mem_of_ofCharacterName {name : List Char} {p : CodePoint}
    (h : Text.ofCharacterName name = some p) : '"' ∉ name := by
  have key : (Text.characterNames.all fun entry =>
      entry.2.toByteArray.data.toList.all (· != 34)) = true := by decide +kernel
  obtain ⟨entry, hfind, -⟩ := Option.map_eq_some_iff.mp h
  have hbytes := List.all_eq_true.mp key entry (List.mem_of_find?_eq_some hfind)
  have hname := List.find?_some hfind
  rw [beq_iff_eq] at hname
  rw [hname, List.all_eq_true] at hbytes
  intro hquote
  have hupper : '"' ∈ name.map Char.toUpper := List.mem_map.mpr ⟨'"', hquote, by decide⟩
  have hmem : (34 : UInt8) ∈ (String.ofList (name.map Char.toUpper)).toByteArray.data.toList := by
    rw [String.toByteArray_ofList, List.utf8Encode, List.toList_data_toByteArray, List.mem_flatMap]
    exact ⟨'"', hupper, by decide⟩
  cases hbytes 34 hmem

section Quotes

variable {cs own rest : List Char} (after : List Char)

/-- What has no quote is there before the first quote of a text. -/
theorem exists_append_of_not_mem (h : cs ++ '"' :: after = own ++ rest) (hown : '"' ∉ own) :
    ∃ rest', cs = own ++ rest' := by
  rcases List.append_eq_append_iff.mp h with ⟨us, hus, hrest⟩ | ⟨us, hus, -⟩
  · cases us with
    | nil => exact ⟨[], by simpa using hus.symm⟩
    | cons d us =>
      obtain ⟨rfl, -⟩ := List.cons.inj hrest
      exact absurd (by simp [hus]) hown
  · exact ⟨us, hus⟩

theorem hexEscape_append (width : Nat) (cs : List Char) :
    hexEscape width (cs ++ '"' :: after) = hexEscape width cs := by
  refine Option.ext ?_
  rintro ⟨m, n⟩
  rw [hexEscape_eq_some_iff, hexEscape_eq_some_iff]
  constructor
  · rintro ⟨digits, rest, p, hcs, hlength, hdigits, others⟩
    have hquote : '"' ∉ digits := by
      intro hmem
      cases isSome_hexValue_of_hexNumber hdigits '"' hmem
    obtain ⟨rest', rfl⟩ := exists_append_of_not_mem after hcs hquote
    exact ⟨digits, rest', p, rfl, hlength, hdigits, others⟩
  · rintro ⟨digits, rest, p, rfl, others⟩
    exact ⟨digits, rest ++ '"' :: after, p, List.append_assoc _ _ _, others⟩

theorem nameEscape_append (cs : List Char) :
    nameEscape (cs ++ '"' :: after) = nameEscape cs := by
  refine Option.ext ?_
  rintro ⟨m, n⟩
  rw [nameEscape_eq_some_iff, nameEscape_eq_some_iff]
  constructor
  · rintro ⟨name, rest, p, hcs, hname, hp, others⟩
    have hquote : '"' ∉ '\x7b' :: (name ++ ['\x7d']) := by
      simp [quote_not_mem_of_ofCharacterName hp]
    have hcs' : cs ++ '"' :: after = '\x7b' :: (name ++ ['\x7d']) ++ rest := by simp [hcs]
    obtain ⟨rest', rfl⟩ := exists_append_of_not_mem after hcs' hquote
    exact ⟨name, rest', p, by simp, hname, hp, others⟩
  · rintro ⟨name, rest, p, rfl, others⟩
    exact ⟨name, rest ++ '"' :: after, p, by simp, others⟩

theorem octalEscape_append (c : Char) (cs : List Char) :
    octalEscape (c :: (cs ++ '"' :: after)) = octalEscape (c :: cs) := by
  have hquote : isOctal '"' = false := rfl
  unfold octalEscape
  match cs with
  | [] => simp [List.takeWhile_cons, hquote]
  | [d] => simp [List.takeWhile_cons, hquote]
  | d :: e :: cs => rfl

/-- An escape does not look behind a quote that follows its first character. -/
theorem escape_append (hcs : cs ≠ []) : escape (cs ++ '"' :: after) = escape cs := by
  obtain ⟨c, cs, rfl⟩ := List.exists_cons_of_ne_nil hcs
  rw [List.cons_append]
  rcases escape_cases c with ⟨-, h⟩ | ⟨m, h⟩ | ⟨width, -, h⟩ | ⟨-, h⟩ | ⟨-, h⟩
  · rw [h, h]
  · rw [h, h]
  · rw [h, h, hexEscape_append]
  · rw [h, h, nameEscape_append]
  · rw [h, h, octalEscape_append]

end Quotes

/-! ## 3. Going over the body of a string -/

/-- An escape takes its first character, and more that does not end with a backslash. -/
theorem exists_of_escape {c : Char} {cs : List Char} {m : Text} {n : Nat}
    (h : escape (c :: cs) = some (m, n)) :
    ∃ own rest, cs = own ++ rest ∧ n = own.length + 1 ∧ backslashes own = 0 := by
  rcases escape_cases c with ⟨-, heq⟩ | ⟨k, heq⟩ | ⟨width, -, heq⟩ | ⟨-, heq⟩ | ⟨hc, heq⟩
  · rw [heq] at h
    cases h
  · rw [heq] at h
    cases h
    exact ⟨[], cs, rfl, rfl, rfl⟩
  · rw [heq, hexEscape_eq_some_iff] at h
    obtain ⟨digits, rest, p, rfl, rfl, hdigits, -, rfl⟩ := h
    refine ⟨digits, rest, rfl, rfl, backslashes_eq_zero ?_⟩
    intro hmem
    cases isSome_hexValue_of_hexNumber hdigits '\\' hmem
  · rw [heq, nameEscape_eq_some_iff] at h
    obtain ⟨name, rest, p, rfl, -, -, -, rfl⟩ := h
    refine ⟨'\x7b' :: (name ++ ['\x7d']), rest, by simp, by simp, ?_⟩
    rw [← List.cons_append, backslashes_snoc, if_neg (by decide)]
  · obtain ⟨p, hp⟩ := octalEscape_eq hc cs
    rw [heq, hp] at h
    cases h
    refine ⟨(cs.take 2).takeWhile isOctal, cs.drop ((cs.take 2).takeWhile isOctal).length, ?_, rfl,
      backslashes_eq_zero ?_⟩
    · have hprefix : (cs.take 2).takeWhile isOctal <+: cs :=
        (List.takeWhile_prefix _).trans (List.take_prefix 2 cs)
      conv => lhs; rw [← List.take_append_drop ((cs.take 2).takeWhile isOctal).length cs]
      rw [← List.prefix_iff_eq_take.mp hprefix]
    · intro hmem
      cases List.mem_takeWhile_imp hmem

/-- What is left after an escape is the body of a string. -/
theorem isStringBody_of_escape {cs : List Char} {m : Text} {n : Nat}
    (h : IsStringBody [] ('\\' :: cs)) (hescape : escape cs = some (m, n)) :
    n ≤ cs.length ∧ IsStringBody [] (cs.drop n) := by
  cases cs with
  | nil => exact absurd rfl (ne_nil_of_backslash h)
  | cons c cs =>
    obtain ⟨own, rest, rfl, rfl, hown⟩ := exists_of_escape hescape
    have hparity : backslashes ('\\' :: c :: own) % 2 = 0 := by
      cases own using List.reverseRecOn with
      | nil =>
        have hsnoc : backslashes (['\\'] ++ [c]) = if c = '\\' then 2 else 0 := backslashes_snoc _ _
        rw [show '\\' :: c :: [] = ['\\'] ++ [c] from rfl, hsnoc]
        split <;> rfl
      | append_singleton own d =>
        have hd : d ≠ '\\' := by
          rintro rfl
          rw [backslashes_snoc] at hown
          cases hown
        rw [← List.cons_append, ← List.cons_append, backslashes_snoc, if_neg hd]
    have hrest : IsStringBody [] (('\\' :: c :: own) ++ rest) := h
    refine ⟨by simp, ?_⟩
    rw [List.drop_succ_cons, List.drop_left]
    exact isStringBody_of_parity (isStringBody_of_append hrest) hparity

/-- Decodes a text escape by escape up to the first quote that no escape takes: what it means up to
there, and what follows the quote. -/
def decodeQuoted : List Char → Option (Text × List Char)
  | [] => none
  | c :: cs =>
    if c = '"' then some ([], cs)
    else if c = '\\' then
      match escape cs with
      | none => none
      | some (meaning, n) => (decodeQuoted (cs.drop n)).map fun r => (meaning ++ r.1, r.2)
    else if isRefused c then none
    else (decodeQuoted cs).map fun r => (CodePoint.ofChar c :: r.1, r.2)
termination_by cs => cs.length
decreasing_by all_goals simp only [List.length_cons, List.length_drop]; omega

/-- A decoder that knows of no end stops at the quote where the scan ends the string. -/
theorem decodeQuoted_append {body : List Char} (h : IsStringBody [] body) (after : List Char) :
    decodeQuoted (body ++ '"' :: after) = (decode body).map fun t => (t, after) := by
  fun_induction decode body with
  | case1 => simp [decodeQuoted]
  | case2 cs hescape =>
    rw [List.cons_append, decodeQuoted, if_neg (by decide), if_pos rfl,
      escape_append after (ne_nil_of_backslash h), hescape]
    rfl
  | case3 cs m n hescape ih =>
    obtain ⟨hle, hrest⟩ := isStringBody_of_escape h hescape
    rw [List.cons_append, decodeQuoted, if_neg (by decide), if_pos rfl,
      escape_append after (ne_nil_of_backslash h), hescape]
    dsimp only
    rw [List.drop_append_of_le_length hle, ih hrest, Option.map_map, Option.map_map]
    rfl
  | case4 c cs hc hrefused =>
    rw [List.cons_append, decodeQuoted, if_neg (isStringBody_of_plain h hc).1, if_neg hc,
      if_pos hrefused]
    rfl
  | case5 c cs hc hrefused ih =>
    obtain ⟨hquote, hrest⟩ := isStringBody_of_plain h hc
    rw [List.cons_append, decodeQuoted, if_neg hquote, if_neg hc, if_neg hrefused, ih hrest,
      Option.map_map, Option.map_map]
    rfl

/-- Two backslashes before a quote end the string. -/
example : decodeQuoted ['\\', '"', '\\', '\\', '"', '"'] =
    some ([CodePoint.ofChar '"', CodePoint.ofChar '\\'], ['"']) := by cbv

/-- The places that the decoder comes to, going over a text: it goes on behind a character that is
neither a backslash nor refused, and behind an escape. -/
inductive Reaches : List Char → List Char → Prop where
  | here {cs : List Char} : Reaches cs cs
  | plain {c : Char} {cs rest : List Char} (hc : c ≠ '\\') (hrefused : isRefused c = false)
      (h : Reaches cs rest) : Reaches (c :: cs) rest
  | escape {cs rest : List Char} {m : Text} {n : Nat} (hescape : escape cs = some (m, n))
      (h : Reaches (cs.drop n) rest) : Reaches ('\\' :: cs) rest

/-- From every place that the decoder comes to, what is left is the body of a string. -/
theorem isStringBody_of_reaches {body rest : List Char} (h : Reaches body rest)
    (hbody : IsStringBody [] body) : IsStringBody [] rest := by
  induction h with
  | here => exact hbody
  | plain hc _ _ ih => exact ih (isStringBody_of_plain hbody hc).2
  | escape hescape _ ih => exact ih (isStringBody_of_escape hbody hescape).2

/-! ## 4. What does not decode -/

/-- The beginnings of texts that the decoder does not go on with: a NUL, a carriage return, a NUL
behind a backslash, a letter for an escape by number without its digits or with too great a number,
and an escape by name that names nothing. -/
inductive Undecodable : List Char → Prop where
  | nul (rest : List Char) : Undecodable ('\x00' :: rest)
  | carriageReturn (rest : List Char) : Undecodable ('\r' :: rest)
  | escapedNul (rest : List Char) : Undecodable ('\\' :: '\x00' :: rest)
  | number {letter : Char} {width : Nat} {rest : List Char}
      (hletter : (letter, width) ∈ hexLetters)
      (h : ∀ digits later n, rest = digits ++ later → digits.length = width →
        hexNumber digits = some n → 0x110000 ≤ n) : Undecodable ('\\' :: letter :: rest)
  | name {rest : List Char}
      (h : ∀ name later, rest = '\x7b' :: (name ++ '\x7d' :: later) → '\x7d' ∉ name →
        Text.ofCharacterName name = none) : Undecodable ('\\' :: 'N' :: rest)

/-- An escape is missing exactly where the decoder does not go on. -/
theorem escape_eq_none_iff {c : Char} {cs : List Char} :
    escape (c :: cs) = none ↔ Undecodable ('\\' :: c :: cs) := by
  constructor
  · intro h
    rcases escape_cases c with ⟨rfl, -⟩ | ⟨m, heq⟩ | ⟨width, hc, heq⟩ | ⟨rfl, heq⟩ | ⟨hc, heq⟩
    · exact .escapedNul cs
    · rw [heq] at h
      cases h
    · rw [heq, Option.eq_none_iff_forall_ne_some] at h
      refine .number hc ?_
      intro digits later n hcs hlength hdigits
      by_contra hlt
      exact h _ (hexEscape_eq_some_iff.mpr
        ⟨digits, later, ⟨n, by omega⟩, hcs, hlength, hdigits, rfl, rfl⟩)
    · rw [heq, Option.eq_none_iff_forall_ne_some] at h
      refine .name ?_
      intro name later hcs hname
      rw [Option.eq_none_iff_forall_ne_some]
      intro p hp
      exact h _ (nameEscape_eq_some_iff.mpr ⟨name, later, p, hcs, hname, hp, rfl, rfl⟩)
    · obtain ⟨p, hp⟩ := octalEscape_eq hc cs
      rw [heq, hp] at h
      cases h
  · intro h
    cases h with
    | escapedNul => rfl
    | @number _ width _ hletter h =>
      have heq : escape (c :: cs) = hexEscape width cs := by
        simp only [hexLetters, List.mem_cons, Prod.mk.injEq, List.not_mem_nil, or_false] at hletter
        rcases hletter with ⟨rfl, rfl⟩ | ⟨rfl, rfl⟩ | ⟨rfl, rfl⟩ <;> rfl
      rw [heq, Option.eq_none_iff_forall_ne_some]
      rintro ⟨m, n⟩ hescape
      obtain ⟨digits, later, p, hcs, hlength, hdigits, -⟩ := hexEscape_eq_some_iff.mp hescape
      have hle := h digits later p.val hcs hlength hdigits
      have hlt := p.isLt
      omega
    | name h =>
      have heq : escape ('N' :: cs) = nameEscape cs := rfl
      rw [heq, Option.eq_none_iff_forall_ne_some]
      rintro ⟨m, n⟩ hescape
      obtain ⟨name, later, p, hcs, hname, hp, -⟩ := nameEscape_eq_some_iff.mp hescape
      rw [h name later hcs hname] at hp
      cases hp

theorem decode_eq_none_of_reaches {body rest : List Char} (h : Reaches body rest)
    (hrest : Undecodable rest) : decode body = none := by
  induction h with
  | here =>
    have hescape : ∀ {c : Char} {cs : List Char}, Undecodable ('\\' :: c :: cs) →
        decode ('\\' :: c :: cs) = none := by
      intro c cs h
      rw [decode_backslash, escape_eq_none_iff.mpr h]
      rfl
    cases hrest with
    | nul | carriageReturn => simp [decode, isRefused]
    | escapedNul rest => exact hescape (.escapedNul rest)
    | number hletter h => exact hescape (.number hletter h)
    | name h => exact hescape (.name h)
  | plain hc hrefused _ ih => rw [decode_cons_of_plain _ _ hc hrefused, ih hrest]; rfl
  | escape hescape _ ih => rw [decode_backslash, hescape, Option.bind_some, ih hrest]; rfl

/-- The body of a string does not decode exactly if the decoder comes to a place where it does not
go on. -/
theorem decode_eq_none_iff {body : List Char} (hbody : IsStringBody [] body) :
    decode body = none ↔ ∃ rest, Reaches body rest ∧ Undecodable rest := by
  constructor
  · intro h
    fun_induction decode body with
    | case1 => cases h
    | case2 cs hescape =>
      obtain ⟨c, cs, rfl⟩ := List.exists_cons_of_ne_nil (ne_nil_of_backslash hbody)
      exact ⟨_, .here, escape_eq_none_iff.mp hescape⟩
    | case3 cs m n hescape ih =>
      obtain ⟨rest, hreaches, hrest⟩ := ih (isStringBody_of_escape hbody hescape).2
        (Option.map_eq_none_iff.mp h)
      exact ⟨rest, .escape hescape hreaches, hrest⟩
    | case4 c cs hc hrefused =>
      have hline : c ≠ '\n' := (isStringBody_cons_iff.mp hbody).1
      have hcases : c = '\r' ∨ c = '\x00' := by simpa [isRefused, hline] using hrefused
      rcases hcases with rfl | rfl
      · exact ⟨_, .here, .carriageReturn cs⟩
      · exact ⟨_, .here, .nul cs⟩
    | case5 c cs hc hrefused ih =>
      obtain ⟨rest, hreaches, hrest⟩ := ih (isStringBody_of_plain hbody hc).2
        (Option.map_eq_none_iff.mp h)
      exact ⟨rest, .plain hc (Bool.not_eq_true _ ▸ hrefused) hreaches, hrest⟩
  · rintro ⟨rest, hreaches, hrest⟩
    exact decode_eq_none_of_reaches hreaches hrest

end StringLiteral

/-! ## 5. Strings between tokens -/

/-- A text between quotes. -/
def inQuotes (body : List Char) : List Char := '"' :: (body ++ ['"'])

/-- A scan finds the tokens of another one and one more: those before it are the same, and those
behind it the same but for their points. It is stuck where the other one is, if at all. -/
def OneMore (s : Scan) (t : Token) (s' : Scan) : Prop :=
  ∃ ts us us', s.tokens = ts ++ us ∧ s'.tokens = ts ++ t :: us' ∧
    us'.map Token.unplaced = us.map Token.unplaced ∧
    s'.stuck.map Stuck.rest = s.stuck.map Stuck.rest

theorem OneMore.cons {s s' : Scan} {t : Token} (h : OneMore s t s') (x : Option Terminal)
    (text : List Char) (p : Point) : OneMore (.cons x text p s) t (.cons x text p s') := by
  obtain ⟨ts, us, us', hs, hs', hus, hstuck⟩ := h
  cases x with
  | none => exact ⟨ts, us, us', hs, hs', hus, hstuck⟩
  | some x =>
    refine ⟨⟨x, text, p⟩ :: ts, us, us', ?_, ?_, hus, hstuck⟩
    · simp [Scan.cons, hs]
    · simp [Scan.cons, hs']

/-- Holds of the offsets, up to where the scan is stuck, that are inside of no token and of no
comment, nor at the end of a comment. -/
structure Between (source : List Char) (n : Nat) : Prop where
  outside : ¬ Inside source n
  offComments : ∀ s ∈ stretches 0 source, s.terminal = none → s.behind ≠ n
  reached : ∀ k, (scan source).stuck = some k → n + k.rest.length ≤ source.length

section Setting

variable {body : List Char}

/-- A scan from another point finds the same tokens. -/
theorem scanFrom_unplaced (p q : Point) (cs : List Char) :
    (scanFrom q cs).tokens.map Token.unplaced = (scanFrom p cs).tokens.map Token.unplaced ∧
      (scanFrom q cs).stuck.map Stuck.rest = (scanFrom p cs).stuck.map Stuck.rest := by
  fun_induction scanFrom p cs generalizing q with
  | case1 p => simp
  | case2 p c cs hpiece => simp [scanFrom_cons, hpiece]
  | case3 p c cs x n hpiece ih =>
    rw [scanFrom_cons, hpiece]
    dsimp only
    obtain ⟨htokens, hstuck⟩ := ih (q.afterAll (c :: cs.take n))
    cases x with
    | none => exact ⟨htokens, hstuck⟩
    | some x =>
      refine ⟨?_, hstuck⟩
      simp only [Scan.cons, List.map_cons, htokens]
      rfl

/-- A string is one token, whatever follows. -/
theorem scanFrom_string (hbody : IsStringBody [] body) (p : Point) (after : List Char) :
    scanFrom p (inQuotes body ++ after) =
      .cons (some .string) (inQuotes body) p (scanFrom (p.afterAll (inQuotes body)) after) := by
  have hlength : stringLength false ((body ++ ['"']) ++ after) = some (body ++ ['"']).length :=
    stringLength_iff_isStringBody.mpr ⟨body, after, by simp, by simp, hbody⟩
  have hpiece : piece '"' ((body ++ ['"']) ++ after) =
      some (some .string, (body ++ ['"']).length) := piece_eq_some_iff.mpr (.string rfl hlength)
  rw [inQuotes, List.cons_append, scanFrom_cons, hpiece]
  dsimp only
  rw [List.take_left, List.drop_left]

/-- A scan of the text `before ++ after` comes by the end of `before`, and not in a comment. -/
inductive Passes : List Char → List Char → List Char → Prop where
  | here (cs : List Char) : Passes cs [] cs
  | blank {c : Char} {cs before after : List Char} (hc : isBlank c = true)
      (h : Passes cs before after) : Passes (c :: cs) (c :: before) after
  | token {c : Char} {own rest before after : List Char} {t : Terminal}
      (hpiece : piece c (own ++ rest) = some (some t, own.length)) (h : Passes rest before after) :
      Passes (c :: (own ++ rest)) (c :: (own ++ before)) after
  | comment {own rest before after : List Char} (hown : '\n' ∉ own)
      (h : Passes ('\n' :: rest) ('\n' :: before) after) :
      Passes (';' :: (own ++ '\n' :: rest)) (';' :: (own ++ '\n' :: before)) after

theorem Passes.eq_append {cs before after : List Char} (h : Passes cs before after) :
    cs = before ++ after := by
  induction h with
  | here => rfl
  | blank _ _ ih => rw [ih, List.cons_append]
  | token _ _ ih => rw [ih, List.cons_append, List.append_assoc]
  | comment _ _ ih =>
    rw [ih]
    simp

/-- A scan that comes by a place behind a piece comes by it from the start of the piece, unless the
place is the end of a comment. -/
theorem passes_of_piece {c : Char} {own before after : List Char} {x : Option Terminal}
    (hc : isBlank c = false) (hpiece : piece c (own ++ (before ++ after)) = some (x, own.length))
    (h : Passes (before ++ after) before after) (hend : x = none → before ≠ []) :
    Passes (c :: (own ++ (before ++ after))) (c :: (own ++ before)) after := by
  cases x with
  | some t => exact .token hpiece h
  | none =>
    obtain ⟨rfl, hown, hline⟩ := comment_of_piece hpiece hc
    rw [List.take_left] at hown
    rw [List.drop_left] at hline
    cases before with
    | nil => exact absurd rfl (hend rfl)
    | cons d before =>
      obtain rfl := hline d rfl
      exact .comment hown h

/-- A scan comes by the offsets in between. -/
theorem passes_of_between (n : Nat) (cs : List Char) :
    ∀ p before after, cs = before ++ after →
      (∀ s ∈ stretches n cs, s.first < n + before.length → s.behind ≤ n + before.length) →
      (∀ s ∈ stretches n cs, s.terminal = none → s.behind ≠ n + before.length) →
      (∀ k, (scanFrom p cs).stuck = some k → before.length + k.rest.length ≤ cs.length) →
      Passes cs before after := by
  fun_induction stretches n cs with
  | case1 n =>
    intro p before after hcs
    obtain ⟨rfl, rfl⟩ := List.append_eq_nil_iff.mp hcs.symm
    exact fun _ _ _ => .here []
  | case2 n c cs hc ih =>
    intro p before after hcs houtside hcomments hreached
    cases before with
    | nil => exact hcs ▸ .here _
    | cons d before =>
      rw [List.cons_append, List.cons.injEq] at hcs
      obtain ⟨rfl, rfl⟩ := hcs
      have hoffset : n + (c :: before).length = n + 1 + before.length := by
        rw [List.length_cons]
        omega
      rw [hoffset] at houtside hcomments
      rw [scanFrom_blank hc] at hreached
      refine .blank hc (ih (p.after c) before after rfl houtside hcomments ?_)
      intro k hk
      have hlength := hreached k hk
      rw [List.length_cons, List.length_cons] at hlength
      omega
  | case3 n c cs hc hpiece =>
    intro p before after hcs _ _ hreached
    rw [scanFrom_cons, hpiece] at hreached
    have hlength := hreached _ rfl
    dsimp only at hlength
    obtain rfl : before = [] := List.eq_nil_of_length_eq_zero (by omega)
    exact hcs ▸ .here _
  | case4 n c cs hc x m hpiece ih =>
    intro p before after hcs houtside hcomments hreached
    cases before with
    | nil => exact hcs ▸ .here _
    | cons d before =>
      rw [List.cons_append, List.cons.injEq] at hcs
      obtain ⟨rfl, rfl⟩ := hcs
      rw [List.forall_mem_cons] at houtside hcomments
      obtain ⟨hout, houtside⟩ := houtside
      obtain ⟨hend, hcomments⟩ := hcomments
      rw [List.length_cons] at hout hend houtside hcomments
      -- the piece is as a whole in front of the offset
      obtain ⟨own, before, rfl, rfl⟩ : ∃ own later, before = own ++ later ∧ m = own.length := by
        refine ⟨before.take m, before.drop m, (List.take_append_drop m before).symm, ?_⟩
        have hle : m ≤ before.length := by
          dsimp only at hout
          omega
        rw [List.length_take, Nat.min_eq_left hle]
      rw [List.append_assoc] at hpiece hreached ih houtside hcomments ⊢
      rw [List.drop_left] at houtside hcomments ih
      have hoffset : n + ((own ++ before).length + 1) = n + 1 + own.length + before.length := by
        rw [List.length_append]
        omega
      rw [hoffset] at houtside hcomments hend
      rw [scanFrom_cons, hpiece] at hreached
      dsimp only at hreached
      rw [List.drop_left, List.take_left] at hreached
      have hlater : Passes (before ++ after) before after := by
        refine ih (p.afterAll (c :: own)) before after rfl houtside hcomments ?_
        intro k hk
        have hlength := hreached k (by cases x <;> exact hk)
        simp only [List.length_cons, List.length_append] at hlength ⊢
        omega
      refine passes_of_piece (Bool.not_eq_true _ ▸ hc) hpiece hlater ?_
      rintro rfl rfl
      exact hend rfl rfl

/-- A string that is set in between is one more token there. -/
theorem scanFrom_between (hbody : IsStringBody [] body) {cs before after : List Char}
    (h : Passes cs before after) (p : Point) :
    OneMore (scanFrom p cs) ⟨.string, inQuotes body, p.afterAll before⟩
      (scanFrom p (before ++ (inQuotes body ++ after))) := by
  induction h generalizing p with
  | here cs =>
    rw [List.nil_append, scanFrom_string hbody]
    obtain ⟨htokens, hstuck⟩ := scanFrom_unplaced p (p.afterAll (inQuotes body)) cs
    exact ⟨[], _, _, rfl, rfl, htokens, hstuck⟩
  | blank hc _ ih =>
    rw [List.cons_append, scanFrom_blank hc, scanFrom_blank hc]
    exact ih (p.after _)
  | @token c own rest before after t hpiece hpasses ih =>
    have hcut : piece c (own ++ before) = some (some t, own.length) := by
      have htake := piece_take hpiece (m := (own ++ before).length) (by simp)
      rwa [hpasses.eq_append, ← List.append_assoc, List.take_left] at htake
    have hpiece' : piece c (own ++ (before ++ (inQuotes body ++ after))) =
        some (some t, own.length) := by
      rw [← List.append_assoc]
      exact piece_append hcut rfl _
    have hpoint : p.afterAll (c :: (own ++ before)) = (p.afterAll (c :: own)).afterAll before :=
      p.afterAll_append (c :: own) before
    rw [scanFrom_cons, hpiece, List.cons_append, List.append_assoc, scanFrom_cons, hpiece', hpoint]
    dsimp only
    rw [List.take_left, List.drop_left, List.take_left, List.drop_left]
    exact (ih _).cons _ _ _
  | @comment own rest before after hown hpasses ih =>
    have hline : ∀ (ds : List Char), ∀ d ∈ ('\n' :: ds).head?, d = '\n' := by simp
    have hpoint : p.afterAll (';' :: (own ++ '\n' :: before)) =
        (p.afterAll (';' :: own)).afterAll ('\n' :: before) :=
      p.afterAll_append (';' :: own) ('\n' :: before)
    rw [List.cons_append, List.append_assoc, List.cons_append, scanFrom_comment hown (hline _),
      scanFrom_comment hown (hline _), hpoint]
    exact ih _

end Setting

/-! ## 6. Texts -/

/-- Every string token is a value of the text. -/
theorem string_mem_of_spells {ts : List Token} {vs : List Value} (h : Spells ts vs) {k : Token}
    (hk : k ∈ ts) (hterminal : k.terminal = .string) :
    .string k.point k.text ∈ innerOfAll vs := by
  have hne : ∀ {t : Token} {x : Terminal}, t.terminal = x → x ≠ .string → k ≠ t := by
    rintro t x ht hx rfl
    exact hx (ht.symm.trans hterminal)
  induction h with
  | nil => cases hk
  | string ht rest ih =>
    rcases List.mem_cons.mp hk with rfl | hk
    · simp [innerOfAll]
    · simp [innerOfAll, ih hk]
  | number ht rest ih =>
    have hk := (List.mem_cons.mp hk).resolve_left (hne ht (by decide))
    simp [innerOfAll, ih hk]
  | @constant t word ts vs ht rest ih =>
    have hk := (List.mem_cons.mp hk).resolve_left (hne ht (by cases word <;> decide))
    simp [innerOfAll, ih hk]
  | form hl hs hr body rest ihbody ih =>
    have hk := (List.mem_cons.mp hk).resolve_left (hne hl (by decide))
    have hk := (List.mem_cons.mp hk).resolve_left (hne hs (by decide))
    rcases List.mem_append.mp hk with hk | hk
    · simp [innerOfAll, Value.inner, ihbody hk]
    · have hk := (List.mem_cons.mp hk).resolve_left (hne hr (by decide))
      simp [innerOfAll, ih hk]
  | list hl hr body rest ihbody ih =>
    have hk := (List.mem_cons.mp hk).resolve_left (hne hl (by decide))
    rcases List.mem_append.mp hk with hk | hk
    · simp [innerOfAll, Value.inner, ihbody hk]
    · have hk := (List.mem_cons.mp hk).resolve_left (hne hr (by decide))
      simp [innerOfAll, ih hk]

section Texts

variable {source : List Char}

/-- A text with a string that does not decode makes no tree. -/
theorem read_ne_ok_of_decode {k : Token} (hk : k ∈ (scan source).tokens)
    (hterminal : k.terminal = .string)
    (hdecode : StringLiteral.decode (StringLiteral.content k.text) = none) (t : Tree) :
    read source ≠ .ok t := by
  intro h
  obtain ⟨v, hparse, htree⟩ := read_eq_ok_iff.mp h
  have hmem := string_mem_of_spells (parse_eq_ok_iff.mp hparse).2 hk hterminal
  rw [innerOfAll_singleton] at hmem
  have hsound := (wellFormed_of_tree v t htree).2 _ hmem
  simp [Value.Sound, hdecode] at hsound

/-- A text that is refused for an escape is refused at a string that does not decode. -/
theorem exists_string_of_badEscape {p : Point} {token : List Char}
    (h : read source = .error (.refused (.fault p (.badEscape token)))) :
    ∃ k ∈ (scan source).tokens, k.terminal = .string ∧ k.point = p ∧ k.text = token ∧
      StringLiteral.decode (StringLiteral.content token) = none := by
  cases hparse : parse source with
  | error m =>
    rw [read, hparse] at h
    cases h
  | ok v =>
    have htree := (read_eq_refused_iff hparse).mp h
    obtain ⟨u, hu, rfl, hbreaks⟩ := explained_of_stands v v _ .whole trivial p _ htree
    cases hbreaks with
    | badEscape hdecode =>
      rw [← innerOfAll_singleton] at hu
      obtain ⟨before, k, own, after, htokens, hspells, hpoint⟩ :=
        holds_of_spells (parse_eq_ok_iff.mp hparse).2 _ hu
      cases hspells with
      | string ht _ => exact ⟨k, by simp [htokens], ht, rfl, rfl, hdecode⟩

/-- What is said of a string token: where it stands, that the decoder goes over all between its
quotes and no further, for which reasons alone it does not decode, and where that is reported. -/
structure EndsAlike (source : List Char) (k : Token) (before body after : List Char) : Prop where
  source_eq : source = before ++ (inQuotes body ++ after)
  text_eq : k.text = inQuotes body
  point_eq : k.point = placeAfter before
  isStringBody : IsStringBody [] body
  onward : ∀ rest, StringLiteral.Reaches body rest → rest.head? ≠ some '"' ∧ rest ≠ ['\\']
  decodeQuoted_eq : StringLiteral.decodeQuoted (body ++ '"' :: after) =
    (StringLiteral.decode body).map fun t => (t, after)
  decode_iff : StringLiteral.decode body = none ↔
    ∃ rest, StringLiteral.Reaches body rest ∧ StringLiteral.Undecodable rest
  refused : StringLiteral.decode body = none →
    readText k.point k.text = .error (.fault k.point (.badEscape k.text)) ∧
      ∀ t, read source ≠ .ok t

/-- The scan and the decoder agree on every string of a text. -/
theorem exists_endsAlike {k : Token} (hk : k ∈ (scan source).tokens)
    (hterminal : k.terminal = .string) :
    ∃ before body after, EndsAlike source k before body after := by
  obtain ⟨before, after, hsource, -, hpoint⟩ := point_of_mem_scanFrom hk
  have hmatches := matches_of_mem_scan hk
  rw [hterminal] at hmatches
  obtain ⟨body, htext, hbody⟩ := hmatches
  have hcontent : StringLiteral.content k.text = body := by
    rw [htext]
    exact StringLiteral.content_quoted body
  refine ⟨before, body, after, ?_, htext, ?_, hbody, ?_,
    StringLiteral.decodeQuoted_append hbody after, StringLiteral.decode_eq_none_iff hbody, ?_⟩
  · rw [hsource, htext]
    rfl
  · rw [hpoint, Point.afterAll_start]
  · intro rest hreaches
    have hrest := StringLiteral.isStringBody_of_reaches hreaches hbody
    constructor
    · intro hhead
      obtain ⟨later, rfl⟩ := List.head?_eq_some_iff.mp hhead
      exact (isStringBody_of_plain hrest (by decide)).1 rfl
    · rintro rfl
      exact ne_nil_of_backslash hrest rfl
  · intro hdecode
    rw [← hcontent] at hdecode
    refine ⟨?_, read_ne_ok_of_decode hk hterminal hdecode⟩
    rw [readText, hdecode]

/-- An escaped text is the body of a string. -/
theorem isStringBody_encode (t : Text) : IsStringBody [] (StringLiteral.encode t) := by
  have hlength := StringLiteral.stringLength_encode t []
  obtain ⟨body, rest, happend, hbodyLength, hbody⟩ :=
    stringLength_iff_isStringBody.mp hlength
  obtain ⟨rfl, -⟩ := List.append_inj happend (by omega)
  exact hbody

/-- A string that is set between tokens is one more token of the text. -/
theorem oneMore_scan {body before after : List Char} (hbody : IsStringBody [] body)
    (hsource : source = before ++ after) (h : Between source before.length) :
    OneMore (scan source) ⟨.string, inQuotes body, placeAfter before⟩
      (scan (before ++ (inQuotes body ++ after))) := by
  have hpasses : Passes source before after := by
    refine passes_of_between 0 source .start before after hsource ?_ ?_ h.reached
    · rw [Nat.zero_add]
      intro s hs hfirst
      by_contra hbehind
      exact h.outside ⟨s, hs, hfirst, Nat.lt_of_not_le hbehind⟩
    · rw [Nat.zero_add]
      exact h.offComments
  rw [← Point.afterAll_start]
  exact scanFrom_between hbody hpasses .start

end Texts

end ManifestLint.PN
