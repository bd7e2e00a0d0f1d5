/-
ManifestLint.Proofs.Placement — where the tokens of a text stand.

A scan carries a point along; here a point is read off the text in front of it instead
(`placeAfter`): lines are counted by line feeds, columns by the characters since the last of
them. The scan never looks back and never further ahead than the longest piece reaches, so a
stretch of the text from one token to another one scans to the same tokens by itself.

The main statements: a token starts where its point says (`scanFrom_eq_append`), tokens come
in the order of their points (`pairwise_scanFrom`), and a row of tokens can be cut out of the
text (`exists_stretch`).
-/
import ManifestLint.PN.Token
import Mathlib.Data.List.Induction

namespace ManifestLint.PN

/-! ## 1. Points -/

/-- The place of the character after a text: one more than the line feeds in it, and one more than
the characters after the last of these. -/
def placeAfter (before : List Char) : Point :=
  ⟨1 + before.count '\n', 1 + (before.reverse.takeWhile (· ≠ '\n')).length⟩

namespace Point

/-- A point comes before another one on the same line or on a later one. -/
def Before (p q : Point) : Prop := p.line < q.line ∨ p.line = q.line ∧ p.column < q.column

theorem Before.trans {p q r : Point} (h : p.Before q) (h' : q.Before r) : p.Before r := by
  simp only [Before] at *
  omega

theorem before_after (p : Point) (c : Char) : p.Before (p.after c) := by
  unfold after Before
  split <;> simp

/-- A text that is not empty takes a point further. -/
theorem before_afterAll (p : Point) {cs : List Char} (h : cs ≠ []) : p.Before (p.afterAll cs) := by
  induction cs generalizing p with
  | nil => exact absurd rfl h
  | cons c cs ih =>
    rw [afterAll_cons]
    cases cs with
    | nil => exact before_after p c
    | cons d ds => exact (before_after p c).trans (ih _ (by simp))

/-- Going along a text from its start leads to the place after it. -/
theorem afterAll_start (cs : List Char) : start.afterAll cs = placeAfter cs := by
  induction cs using List.reverseRecOn with
  | nil => rfl
  | append_singleton cs c ih =>
    rw [afterAll_append, ih, afterAll_cons, afterAll_nil]
    by_cases hc : c = '\n'
    · simp [after, placeAfter, hc, Nat.add_assoc]
    · simp [after, placeAfter, hc, Nat.add_comm]

end Point

/-! ## 2. Pieces of a text that is cut off -/

section Cut

variable {cs : List Char} {m n : Nat}

theorem countWhile_take {p : Char → Bool} (h : countWhile p cs ≤ m) :
    countWhile p (cs.take m) = countWhile p cs := by
  induction cs generalizing m with
  | nil => rw [List.take_nil]
  | cons c cs ih =>
    simp only [countWhile] at h ih ⊢
    by_cases hc : p c = true
    · rw [List.takeWhile_cons_of_pos hc, List.length_cons] at h ⊢
      obtain ⟨k, rfl⟩ : ∃ k, m = k + 1 := ⟨m - 1, by omega⟩
      rw [List.take_succ_cons, List.takeWhile_cons_of_pos hc, List.length_cons, ih (by omega)]
    · rw [List.takeWhile_cons_of_neg hc]
      cases m with
      | zero => rfl
      | succ k => rw [List.take_succ_cons, List.takeWhile_cons_of_neg hc]

theorem stringLength_take {odd : Bool} (h : stringLength odd cs = some n) (hm : n ≤ m) :
    stringLength odd (cs.take m) = some n := by
  induction cs generalizing odd m n with
  | nil => cases h
  | cons c cs ih =>
    simp only [stringLength] at h
    split at h
    · cases h
    · rename_i hline
      split at h
      · rename_i hquote
        cases h
        obtain ⟨k, rfl⟩ : ∃ k, m = k + 1 := ⟨m - 1, by omega⟩
        simp [stringLength, hline, hquote]
      · rename_i hquote
        obtain ⟨l, hl, rfl⟩ := Option.map_eq_some_iff.mp h
        obtain ⟨k, rfl⟩ : ∃ k, m = k + 1 := ⟨m - 1, by omega⟩
        rw [List.take_succ_cons, stringLength, if_neg hline, if_neg hquote, ih hl (by omega)]
        rfl

/-- An exponent has a mark and a digit at least. -/
theorem two_le_exponentLength (h : exponentLength cs ≠ 0) : 2 ≤ exponentLength cs := by
  cases cs with
  | nil => exact absurd rfl h
  | cons e cs =>
    simp only [exponentLength] at h ⊢
    generalize countWhile isDigit (cs.drop _) = digits at h ⊢
    by_cases hdigits : digits = 0
    · simp [hdigits] at h
    · cases hmark : isExponentMark e with
      | false => simp [hmark] at h
      | true =>
        simp only [hdigits, ne_eq, not_false_eq_true, decide_true, Bool.and_true, if_true]
        omega

/-- An exponent is as long in a text that is cut off after it. -/
theorem exponentLength_take (h : exponentLength cs ≤ m) :
    exponentLength (cs.take m) = exponentLength cs := by
  cases cs with
  | nil => rw [List.take_nil]
  | cons e cs =>
    match m with
    | 0 =>
      rw [List.take_zero]
      exact (Nat.le_zero.mp h).symm
    | 1 =>
      -- there is room for the mark alone, so no exponent starts here
      have hzero : exponentLength (e :: cs) = 0 := by
        by_contra hne
        have := two_le_exponentLength hne
        omega
      rw [hzero]
      simp [exponentLength, countWhile]
    | m + 2 =>
      have hhead : (cs.take (m + 1)).head? = cs.head? := by cases cs <;> rfl
      rw [List.take_succ_cons]
      simp only [exponentLength, hhead] at h ⊢
      generalize hsigns : (if cs.head?.any isSign = true then 1 else 0) = signs at h ⊢
      have hle : signs ≤ 1 := by rw [← hsigns]; split <;> omega
      cases hmark : isExponentMark e with
      | false => simp
      | true =>
        have hroom : countWhile isDigit (cs.drop signs) ≤ m + 1 - signs := by
          by_cases hzero : countWhile isDigit (cs.drop signs) = 0
          · omega
          · simp only [hmark, hzero, ne_eq, not_false_eq_true, decide_true, Bool.and_true,
              if_true] at h
            omega
        rw [List.drop_take, countWhile_take hroom]

/-- The length of a number with a point after its whole part. -/
theorem unsignedLength_of_point {rest : List Char}
    (h : cs.drop (countWhile isDigit cs) = '.' :: rest) : unsignedLength cs =
      if countWhile isDigit cs = 0 ∧ countWhile isDigit rest = 0 then none
      else some (countWhile isDigit cs + 1 + countWhile isDigit rest +
        exponentLength (rest.drop (countWhile isDigit rest))) := by
  simp only [unsignedLength, h, Bool.and_eq_true, decide_eq_true_eq]

/-- The length of a number without a point. -/
theorem unsignedLength_of_no_point
    (h : (cs.drop (countWhile isDigit cs)).head? ≠ some '.') : unsignedLength cs =
      if countWhile isDigit cs = 0 then none
      else some (countWhile isDigit cs + exponentLength (cs.drop (countWhile isDigit cs))) := by
  simp only [unsignedLength]
  split
  · rename_i rest hrest
    rw [hrest] at h
    exact absurd rfl h
  · rfl

/-- A number is as long in a text that is cut off after it. -/
theorem unsignedLength_take (h : unsignedLength cs = some n) (hm : n ≤ m) :
    unsignedLength (cs.take m) = some n := by
  by_cases hpoint : (cs.drop (countWhile isDigit cs)).head? = some '.'
  · obtain ⟨rest, hrest⟩ := List.head?_eq_some_iff.mp hpoint
    rw [unsignedLength_of_point hrest] at h
    split at h
    · cases h
    · rename_i hdigits
      simp only [Option.some.injEq] at h
      have hwhole := @countWhile_take cs m isDigit (by omega)
      have hfraction := @countWhile_take rest (m - (countWhile isDigit cs + 1)) isDigit (by omega)
      have hcut : (cs.take m).drop (countWhile isDigit (cs.take m)) =
          '.' :: rest.take (m - (countWhile isDigit cs + 1)) := by
        obtain ⟨k, hk⟩ : ∃ k, m - countWhile isDigit cs = k + 1 :=
          ⟨m - (countWhile isDigit cs + 1), by omega⟩
        rw [hwhole, List.drop_take, hrest, hk, List.take_succ_cons]
        congr 2
        omega
      rw [unsignedLength_of_point hcut, hwhole, hfraction, if_neg hdigits, List.drop_take,
        exponentLength_take (by omega), h]
  · rw [unsignedLength_of_no_point hpoint] at h
    split at h
    · cases h
    · rename_i hdigits
      simp only [Option.some.injEq] at h
      have hwhole := @countWhile_take cs m isDigit (by omega)
      have hcut : (cs.take m).drop (countWhile isDigit (cs.take m)) =
          (cs.drop (countWhile isDigit cs)).take (m - countWhile isDigit cs) := by
        rw [hwhole, List.drop_take]
      have hno : ((cs.take m).drop (countWhile isDigit (cs.take m))).head? ≠ some '.' := by
        rw [hcut, List.head?_take]
        split
        · simp
        · exact hpoint
      rw [unsignedLength_of_no_point hno, hcut, hwhole, if_neg hdigits,
        exponentLength_take (by omega), h]

theorem numberLength_take {c : Char} (h : numberLength c cs = some n) (hm : n ≤ m) :
    numberLength c (cs.take m) = some n := by
  unfold numberLength at h ⊢
  split at h
  · rename_i hsign
    rw [if_pos hsign, unsignedLength_take h hm]
  · rename_i hsign
    obtain ⟨l, hl, rfl⟩ := Option.map_eq_some_iff.mp h
    have hcut : c :: cs.take m = (c :: cs).take (m + 1) := rfl
    rw [if_neg hsign, hcut, unsignedLength_take hl (by omega)]
    rfl

/-- The scan looks no further ahead than the piece reaches. -/
theorem piece_take {c : Char} {terminal : Option Terminal} (h : piece c cs = some (terminal, n))
    (hm : n ≤ m) : piece c (cs.take m) = some (terminal, n) := by
  unfold piece at h ⊢
  by_cases hblank : isBlank c = true
  · rw [if_pos hblank] at h ⊢
    cases h
    rw [countWhile_take hm]
  rw [if_neg hblank] at h ⊢
  by_cases hcomment : c = ';'
  · rw [if_pos hcomment] at h ⊢
    cases h
    rw [countWhile_take hm]
  rw [if_neg hcomment] at h ⊢
  -- a bracket is a piece whatever follows
  by_cases hopen : c = '('
  · rwa [if_pos hopen] at h ⊢
  rw [if_neg hopen] at h ⊢
  by_cases hclose : c = ')'
  · rwa [if_pos hclose] at h ⊢
  rw [if_neg hclose] at h ⊢
  by_cases hopen' : c = '['
  · rwa [if_pos hopen'] at h ⊢
  rw [if_neg hopen'] at h ⊢
  by_cases hclose' : c = ']'
  · rwa [if_pos hclose'] at h ⊢
  rw [if_neg hclose'] at h ⊢
  by_cases hquote : c = '"'
  · rw [if_pos hquote] at h ⊢
    obtain ⟨k, hk, heq⟩ := Option.map_eq_some_iff.mp h
    cases heq
    rw [stringLength_take hk hm]
    rfl
  rw [if_neg hquote] at h ⊢
  by_cases hletter : isSymbolStart c = true
  · rw [if_pos hletter] at h ⊢
    cases h
    dsimp only
    rw [countWhile_take hm, List.take_take, Nat.min_eq_left hm]
  · rw [if_neg hletter] at h ⊢
    obtain ⟨k, hk, heq⟩ := Option.map_eq_some_iff.mp h
    cases heq
    rw [numberLength_take hk hm]
    rfl

end Cut

/-! ## 3. Tokens in their text -/

/-- A token of a scan starts where its point says, and is a piece of the text there. -/
theorem scanFrom_eq_append {p : Point} {cs : List Char} {ts us : List Token} {t : Token}
    {stuck : Option Stuck} (h : scanFrom p cs = ⟨ts ++ t :: us, stuck⟩) :
    ∃ before c rest n, cs = before ++ c :: rest ∧ t.point = p.afterAll before ∧
      t.text = c :: rest.take n ∧ piece c rest = some (some t.terminal, n) ∧
      scanFrom (t.point.afterAll t.text) (rest.drop n) = ⟨us, stuck⟩ := by
  fun_induction scanFrom p cs generalizing ts with
  | case1 p => simp [Scan.done] at h
  | case2 p c cs hpiece => simp at h
  | case3 p c cs terminal n hpiece ih =>
    cases terminal with
    | none =>
      obtain ⟨before, d, rest, k, hcs, hpoint, others⟩ := ih h
      refine ⟨c :: cs.take n ++ before, d, rest, k, ?_, ?_, others⟩
      · rw [List.append_assoc, ← hcs, cons_take_drop]
      · rw [Point.afterAll_append, hpoint]
    | some terminal =>
      rw [Scan.cons, Scan.mk.injEq] at h
      obtain ⟨htokens, hstuck⟩ := h
      cases ts with
      | nil =>
        rw [List.nil_append, List.cons.injEq] at htokens
        obtain ⟨rfl, rfl⟩ := htokens
        rw [← hstuck]
        exact ⟨[], c, cs, n, rfl, rfl, rfl, hpiece, rfl⟩
      | cons u ts =>
        rw [List.cons_append, List.cons.injEq] at htokens
        obtain ⟨before, d, rest, k, hcs, hpoint, others⟩ := @ih ts (by
          rw [← htokens.2, ← hstuck])
        refine ⟨c :: cs.take n ++ before, d, rest, k, ?_, ?_, others⟩
        · rw [List.append_assoc, ← hcs, cons_take_drop]
        · rw [Point.afterAll_append, hpoint]

/-- The place where a scan is stuck is in the text. -/
theorem stuck_of_scanFrom {p : Point} {cs : List Char} {k : Stuck}
    (h : (scanFrom p cs).stuck = some k) :
    ∃ before, cs = before ++ k.rest ∧ k.point = p.afterAll before := by
  fun_induction scanFrom p cs with
  | case1 p => simp [Scan.done] at h
  | case2 p c cs hpiece =>
    cases h
    exact ⟨[], rfl, rfl⟩
  | case3 p c cs terminal n hpiece ih =>
    have hlater : (scanFrom (p.afterAll (c :: cs.take n)) (cs.drop n)).stuck = some k := by
      cases terminal <;> exact h
    obtain ⟨before, hcs, hpoint⟩ := ih hlater
    refine ⟨c :: cs.take n ++ before, ?_, ?_⟩
    · rw [List.append_assoc, ← hcs, cons_take_drop]
    · rw [Point.afterAll_append, hpoint]

/-- A token of a scan starts where its point says. -/
theorem point_of_mem_scanFrom {p : Point} {cs : List Char} {t : Token}
    (h : t ∈ (scanFrom p cs).tokens) :
    ∃ before after, cs = before ++ (t.text ++ after) ∧ t.text ≠ [] ∧
      t.point = p.afterAll before := by
  obtain ⟨ts, us, htokens⟩ := List.append_of_mem h
  have hscan : scanFrom p cs = ⟨ts ++ t :: us, (scanFrom p cs).stuck⟩ := by rw [← htokens]
  obtain ⟨before, c, rest, n, rfl, hpoint, htext, -, -⟩ := scanFrom_eq_append hscan
  refine ⟨before, rest.drop n, ?_, ?_, hpoint⟩
  · rw [htext, cons_take_drop]
  · rw [htext]
    exact List.cons_ne_nil _ _

/-- Tokens come in the order of their points. -/
theorem pairwise_scanFrom (p : Point) (cs : List Char) :
    (scanFrom p cs).tokens.Pairwise fun t u => t.point.Before u.point := by
  fun_induction scanFrom p cs with
  | case1 p => simp [Scan.done]
  | case2 p c cs hpiece => simp
  | case3 p c cs terminal n hpiece ih =>
    cases terminal with
    | none => exact ih
    | some terminal =>
      simp only [Scan.cons, List.pairwise_cons]
      refine ⟨?_, ih⟩
      intro u hu
      obtain ⟨before, after, -, -, hpoint⟩ := point_of_mem_scanFrom hu
      rw [hpoint, ← Point.afterAll_append]
      exact p.before_afterAll (by simp)

/-! ## 4. Stretches of a text -/

/-- A token without its place. -/
def Token.unplaced (t : Token) : Token := { t with point := .start }

/-- A piece with some of the text after it is the same piece by itself. -/
theorem scanFrom_cut {c : Char} {cs own rest : List Char} {terminal : Option Terminal} {n : Nat}
    (hpiece : piece c cs = some (terminal, n)) (hcs : cs.drop n = own ++ rest) (q : Point) :
    scanFrom q (c :: cs.take n ++ own) =
      .cons terminal (c :: cs.take n) q (scanFrom (q.afterAll (c :: cs.take n)) own) := by
  have hcut : cs.take n ++ own = cs.take (n + own.length) := by
    rw [List.take_add, hcs, List.take_left]
  have htake : (cs.take (n + own.length)).take n = cs.take n := by
    rw [List.take_take, Nat.min_eq_left (Nat.le_add_right n _)]
  have hdrop : (cs.take (n + own.length)).drop n = own := by
    rw [List.drop_take, hcs, Nat.add_sub_cancel_left, List.take_left]
  rw [List.cons_append, hcut, scanFrom_cons, piece_take hpiece (Nat.le_add_right n _)]
  dsimp only
  rw [htake, hdrop]

/-- The first tokens of a text can be cut off with their text: this scans to the same tokens,
wherever it stands. -/
theorem exists_scan_prefix {p : Point} {cs : List Char} {ts us : List Token}
    {stuck : Option Stuck} (h : scanFrom p cs = ⟨ts ++ us, stuck⟩) :
    ∃ own rest, cs = own ++ rest ∧ (ts = [] → own = []) ∧
      ∀ q, ∃ ts', scanFrom q own = ⟨ts', none⟩ ∧
        ts'.map Token.unplaced = ts.map Token.unplaced := by
  fun_induction scanFrom p cs generalizing ts with
  | case1 p =>
    obtain ⟨rfl, -⟩ : ts = [] ∧ us = [] := by simpa [Scan.done] using (congrArg Scan.tokens h).symm
    exact ⟨[], [], rfl, fun _ => rfl, fun q => ⟨[], scanFrom_nil q, rfl⟩⟩
  | case2 p c cs hpiece =>
    obtain ⟨rfl, -⟩ : ts = [] ∧ us = [] := by simpa using (congrArg Scan.tokens h).symm
    exact ⟨[], c :: cs, rfl, fun _ => rfl, fun q => ⟨[], scanFrom_nil q, rfl⟩⟩
  | case3 p c cs terminal n hpiece ih =>
    cases ts with
    | nil => exact ⟨[], c :: cs, rfl, fun _ => rfl, fun q => ⟨[], scanFrom_nil q, rfl⟩⟩
    | cons t ts =>
      cases terminal with
      | none =>
        -- a blank piece goes in front of the text of the tokens
        obtain ⟨own, rest, hcs, -, hown⟩ := ih h
        refine ⟨c :: cs.take n ++ own, rest, ?_, by simp, ?_⟩
        · rw [List.append_assoc, ← hcs, cons_take_drop]
        · intro q
          rw [scanFrom_cut hpiece hcs]
          exact hown _
      | some terminal =>
        rw [Scan.cons, List.cons_append, Scan.mk.injEq, List.cons.injEq] at h
        obtain ⟨⟨rfl, htokens⟩, hstuck⟩ := h
        obtain ⟨own, rest, hcs, -, hown⟩ := @ih ts (by rw [← htokens, ← hstuck])
        refine ⟨c :: cs.take n ++ own, rest, ?_, by simp, ?_⟩
        · rw [List.append_assoc, ← hcs, cons_take_drop]
        · intro q
          obtain ⟨ts', hscan, hmap⟩ := hown (q.afterAll (c :: cs.take n))
          rw [scanFrom_cut hpiece hcs, hscan]
          refine ⟨_, rfl, ?_⟩
          rw [List.map_cons, List.map_cons, hmap]
          rfl

/-- A row of tokens can be cut out of its text, from the first character of the first token to the
last one of the last token: the stretch scans to the same tokens, wherever it stands. -/
theorem exists_stretch {p : Point} {cs : List Char} {ts own us : List Token} {t : Token}
    {stuck : Option Stuck} (h : scanFrom p cs = ⟨ts ++ (t :: own) ++ us, stuck⟩) :
    ∃ before mid after, cs = before ++ (t.text ++ mid) ++ after ∧ t.point = p.afterAll before ∧
      (own = [] → mid = []) ∧
      ∀ q, ∃ ts', scanFrom q (t.text ++ mid) = ⟨ts', none⟩ ∧
        ts'.map Token.unplaced = (t :: own).map Token.unplaced := by
  rw [List.append_assoc, List.cons_append] at h
  obtain ⟨before, c, rest, n, rfl, hpoint, htext, hpiece, hlater⟩ := scanFrom_eq_append h
  obtain ⟨mid, after, hrest, hnil, hmid⟩ := exists_scan_prefix hlater
  refine ⟨before, mid, after, ?_, hpoint, hnil, ?_⟩
  · rw [htext, List.append_assoc, List.append_assoc, ← hrest, cons_take_drop]
  · intro q
    obtain ⟨ts', hscan, hmap⟩ := hmid (q.afterAll t.text)
    rw [htext] at hscan ⊢
    rw [scanFrom_cut hpiece hrest, hscan]
    refine ⟨_, rfl, ?_⟩
    rw [List.map_cons, List.map_cons, hmap, Token.unplaced, Token.unplaced, htext]

end ManifestLint.PN
