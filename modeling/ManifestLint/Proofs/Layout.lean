/-
ManifestLint.Proofs.Layout — blanks and comments between tokens.

A scan goes over its text from piece to piece. What is inserted between pieces are rows of blanks
and comments with their line ends (`Layout`); where it may not be inserted is inside of a token or
of a comment, which is said of offsets (`Inside`). At the end of a comment it may be: the comment
then goes on up to the first line end inserted, or else up to its own.

A token that reaches as far as it can still ends where it did when a blank, a comment or a string
follows, since none of these goes on with it (`piece_append`), and the scan has looked at nothing
behind the first such place. So the tokens stay what they are but for their points, and reading
follows them (`tree_moved`).

The main statements: a text with layout inserted scans to the same tokens (`scanFrom_relaid`), and
is read and checked alike (`read_inserted`).
-/
import ManifestLint.Proofs.Relocation
import ManifestLint.Proofs.Terminals

namespace ManifestLint.PN

/-! ## 1. Layout and where it may stand -/

/-- Rows of blanks and of comments, each up to a line end. -/
inductive Layout : List Char → Prop where
  | nil : Layout []
  | blank {c : Char} {cs : List Char} (hc : isBlank c = true) (rest : Layout cs) : Layout (c :: cs)
  | comment {body cs : List Char} (hbody : '\n' ∉ body) (rest : Layout cs) :
      Layout (';' :: (body ++ '\n' :: cs))

/-- A text that starts at offset `n` with `fill` inserted: in front of every character and at the
end, what `fill` has for the offset there. -/
def inserted (fill : Nat → List Char) : Nat → List Char → List Char
  | n, [] => fill n
  | n, c :: cs => fill n ++ c :: inserted fill (n + 1) cs

/-- A token or a comment of a text: the offset of its first character and the one behind its last
character. Comments have no terminal. -/
structure Stretch where
  terminal : Option Terminal
  first : Nat
  behind : Nat

/-- The tokens and comments of a text that starts at offset `n`, up to where the scan is stuck. -/
def stretches (n : Nat) : List Char → List Stretch
  | [] => []
  | c :: cs =>
    if isBlank c then stretches (n + 1) cs
    else match piece c cs with
      | none => []
      | some (x, m) => ⟨x, n, n + 1 + m⟩ :: stretches (n + 1 + m) (cs.drop m)
termination_by cs => cs.length
decreasing_by all_goals simp only [List.length_cons, List.length_drop]; omega

/-- Holds of the offsets between two characters of one token or of one comment. -/
def Inside (source : List Char) (n : Nat) : Prop :=
  ∃ s ∈ stretches 0 source, s.first < n ∧ n < s.behind

/-- Where nothing is inserted the text stays. -/
theorem inserted_append {fill : Nat → List Char} {n : Nat} {own : List Char} (rest : List Char)
    (h : ∀ k, n ≤ k → k < n + own.length → fill k = []) :
    inserted fill n (own ++ rest) = own ++ inserted fill (n + own.length) rest := by
  induction own generalizing n with
  | nil => rfl
  | cons c own ih =>
    rw [List.length_cons] at h
    have hlater : ∀ k, n + 1 ≤ k → k < n + 1 + own.length → fill k = [] :=
      fun k hk hk' => h k (by omega) (by omega)
    rw [List.cons_append, inserted, h n (Nat.le_refl n) (by omega), ih hlater, List.length_cons,
      Nat.add_right_comm, Nat.add_assoc n]
    rfl

/-! ## 2. Pieces that end before a separator -/

/-- The characters that blanks, comments and strings start with: none goes on with a token. -/
def isSeparator (c : Char) : Bool := isBlank c || c = ';' || c = '"'

/-- A separator goes on neither with a word nor with a number. -/
theorem of_isSeparator {d : Char} (h : isSeparator d = true) :
    isSymbolChar d = false ∧ isDigit d = false ∧ isSign d = false ∧ isExponentMark d = false ∧
      d ≠ '.' := by
  simp only [isSeparator, isBlank, Bool.or_eq_true, decide_eq_true_eq] at h
  rcases h with ((((((rfl | rfl) | rfl) | rfl) | rfl) | rfl) | rfl) <;> decide

section Separators

variable {cs w : List Char} {d : Char} {n : Nat}

theorem countWhile_le (p : Char → Bool) (cs : List Char) : countWhile p cs ≤ cs.length :=
  (List.takeWhile_prefix p).length_le

/-- What ends the count is no member of the class. -/
theorem not_of_head?_drop_countWhile {p : Char → Bool} (cs : List Char) :
    ∀ d ∈ (cs.drop (countWhile p cs)).head?, p d = false := by
  induction cs with
  | nil => simp
  | cons c cs ih =>
    by_cases hc : p c = true
    · rw [countWhile, List.takeWhile_cons_of_pos hc]
      exact ih
    · rw [countWhile, List.takeWhile_cons_of_neg hc]
      simpa using hc

theorem countWhile_append_of_not {p : Char → Bool} (hd : p d = false) :
    countWhile p (cs ++ d :: w) = countWhile p cs := by
  induction cs with
  | nil => simp [countWhile, hd]
  | cons c cs ih =>
    simp only [countWhile, List.cons_append, List.takeWhile_cons] at ih ⊢
    split
    · rw [List.length_cons, List.length_cons, ih]
    · rfl

theorem exponentLength_append (hd : isSeparator d = true) :
    exponentLength (cs ++ d :: w) = exponentLength cs := by
  obtain ⟨-, hdigit, hsign, hmark, -⟩ := of_isSeparator hd
  cases cs with
  | nil => simp [exponentLength, hmark]
  | cons e cs =>
    have hhead : (cs ++ d :: w).head?.any isSign = cs.head?.any isSign := by
      cases cs with
      | nil => exact hsign
      | cons c cs => rfl
    simp only [List.cons_append, exponentLength, hhead]
    obtain ⟨signs, rest, rfl, -, hlength⟩ := exists_signs cs
    rw [hlength, List.append_assoc, List.drop_left, List.drop_left,
      countWhile_append_of_not hdigit]

theorem unsignedLength_append (hd : isSeparator d = true) :
    unsignedLength (cs ++ d :: w) = unsignedLength cs := by
  obtain ⟨-, hdigit, -, -, hpoint⟩ := of_isSeparator hd
  have hwhole : countWhile isDigit (cs ++ d :: w) = countWhile isDigit cs :=
    countWhile_append_of_not hdigit
  have hdrop : (cs ++ d :: w).drop (countWhile isDigit cs) =
      cs.drop (countWhile isDigit cs) ++ d :: w :=
    List.drop_append_of_le_length (countWhile_le isDigit cs)
  by_cases h : (cs.drop (countWhile isDigit cs)).head? = some '.'
  · obtain ⟨rest, hrest⟩ := List.head?_eq_some_iff.mp h
    have hrest' : (cs ++ d :: w).drop (countWhile isDigit (cs ++ d :: w)) =
        '.' :: (rest ++ d :: w) := by
      rw [hwhole, hdrop, hrest, List.cons_append]
    rw [unsignedLength_of_point hrest, unsignedLength_of_point hrest', hwhole,
      countWhile_append_of_not hdigit, List.drop_append_of_le_length (countWhile_le isDigit rest),
      exponentLength_append hd]
  · have h' : ((cs ++ d :: w).drop (countWhile isDigit (cs ++ d :: w))).head? ≠ some '.' := by
      rw [hwhole, hdrop]
      cases hrest : cs.drop (countWhile isDigit cs) with
      | nil => simpa using hpoint
      | cons c rest =>
        rw [hrest] at h
        exact h
    rw [unsignedLength_of_no_point h, unsignedLength_of_no_point h', hwhole, hdrop,
      exponentLength_append hd]

theorem numberLength_append {c : Char} (hd : isSeparator d = true) :
    numberLength c (cs ++ d :: w) = numberLength c cs := by
  unfold numberLength
  rw [← List.cons_append, unsignedLength_append hd, unsignedLength_append hd]

/-- A token is the same before a separator as at the end of the text. -/
theorem piece_append {c : Char} {t : Terminal} (h : piece c cs = some (some t, n))
    (hd : isSeparator d = true) (w : List Char) :
    piece c (cs ++ d :: w) = some (some t, n) := by
  cases piece_eq_some_iff.mp h with
  | bracket hbracket => exact piece_eq_some_iff.mpr (.bracket hbracket)
  | string hquote hlength =>
    obtain ⟨body, rest, rfl, rfl, hbody⟩ := stringLength_iff_isStringBody.mp hlength
    refine piece_eq_some_iff.mpr (.string hquote ?_)
    rw [List.append_assoc, List.cons_append]
    exact stringLength_iff_isStringBody.mpr ⟨body, _, rfl, rfl, hbody⟩
  | word hletter =>
    rw [piece_of_isSymbolStart hletter, countWhile_append_of_not (of_isSeparator hd).1,
      List.take_append_of_le_length (countWhile_le isSymbolChar cs)]
  | number hmark hletter hlength =>
    refine piece_eq_some_iff.mpr (.number hmark hletter ?_)
    rw [numberLength_append hd, hlength]

theorem exponentLength_le (cs : List Char) : exponentLength cs ≤ cs.length := by
  cases cs with
  | nil => exact Nat.le_refl 0
  | cons e cs =>
    obtain ⟨signs, rest, rfl, -, hlength⟩ := exists_signs cs
    have hrest := countWhile_le isDigit rest
    simp only [exponentLength, hlength, List.drop_left, List.length_cons, List.length_append]
    split <;> omega

theorem unsignedLength_le (h : unsignedLength cs = some n) : n ≤ cs.length := by
  have hwhole := countWhile_le isDigit cs
  have hdrop := List.length_drop (l := cs) (i := countWhile isDigit cs)
  by_cases hpoint : (cs.drop (countWhile isDigit cs)).head? = some '.'
  · obtain ⟨rest, hrest⟩ := List.head?_eq_some_iff.mp hpoint
    have hfraction := countWhile_le isDigit rest
    have hexponent := exponentLength_le (rest.drop (countWhile isDigit rest))
    rw [hrest, List.length_cons] at hdrop
    rw [List.length_drop] at hexponent
    rw [unsignedLength_of_point hrest] at h
    split at h
    · cases h
    · cases h
      omega
  · have hexponent := exponentLength_le (cs.drop (countWhile isDigit cs))
    rw [unsignedLength_of_no_point hpoint] at h
    split at h
    · cases h
    · cases h
      omega

/-- A piece does not reach further than the text. -/
theorem piece_le {c : Char} {x : Option Terminal} (h : piece c cs = some (x, n)) :
    n ≤ cs.length := by
  cases piece_eq_some_iff.mp h with
  | blank => exact countWhile_le _ cs
  | comment => exact countWhile_le _ cs
  | bracket => exact Nat.zero_le _
  | string _ hlength => exact stringLength_le hlength
  | word => exact countWhile_le _ cs
  | number _ _ hlength =>
    unfold numberLength at hlength
    split at hlength
    · exact unsignedLength_le hlength
    · obtain ⟨m, hm, rfl⟩ := Option.map_eq_some_iff.mp hlength
      have hle := unsignedLength_le hm
      rw [List.length_cons] at hle
      omega

end Separators

/-! ## 3. Scanning layout -/

section Scanning

variable {p q : Point} {c : Char} {cs own y f : List Char}

/-- A scan may go over blanks one by one. -/
theorem scanFrom_blank (hc : isBlank c = true) (p : Point) (cs : List Char) :
    scanFrom p (c :: cs) = scanFrom (p.after c) cs := by
  have hpiece : ∀ {d : Char} (ds : List Char), isBlank d = true →
      piece d ds = some (none, countWhile isBlank ds) := fun ds hd => by rw [piece, if_pos hd]
  rw [scanFrom_cons, hpiece cs hc]
  dsimp only [Scan.cons]
  cases cs with
  | nil => rfl
  | cons d ds =>
    by_cases hd : isBlank d = true
    · have hcount : countWhile isBlank (d :: ds) = countWhile isBlank ds + 1 := by
        rw [countWhile, List.takeWhile_cons_of_pos hd, List.length_cons, countWhile]
      rw [scanFrom_cons (p.after c), hpiece ds hd, hcount, List.take_succ_cons,
        List.drop_succ_cons]
      rfl
    · have hcount : countWhile isBlank (d :: ds) = 0 := by
        rw [countWhile, List.takeWhile_cons_of_neg hd, List.length_nil]
      rw [hcount, List.take_zero, List.drop_zero]
      rfl

/-- A comment goes up to the line end. -/
theorem scanFrom_comment (hown : '\n' ∉ own) (hy : ∀ d ∈ y.head?, d = '\n') (p : Point) :
    scanFrom p (';' :: (own ++ y)) = scanFrom (p.afterAll (';' :: own)) y := by
  have hmem : ∀ d ∈ own, decide (d ≠ '\n') = true := by
    intro d hd
    rw [decide_eq_true_eq]
    rintro rfl
    exact hown hd
  have hcount : countWhile (· ≠ '\n') (own ++ y) = own.length := by
    cases y with
    | nil => rw [List.append_nil, countWhile, List.takeWhile_eq_self_iff.mpr hmem]
    | cons d y => exact countWhile_append hmem (by simp [hy d rfl]) y
  have hpiece : piece ';' (own ++ y) = some (none, own.length) := by
    rw [← hcount]
    rfl
  rw [scanFrom_cons, hpiece]
  dsimp only [Scan.cons]
  rw [List.take_left, List.drop_left]

/-- A scan goes over layout. -/
theorem scanFrom_layout (hf : Layout f) (p : Point) (y : List Char) :
    scanFrom p (f ++ y) = scanFrom (p.afterAll f) y := by
  induction hf generalizing p with
  | nil => rfl
  | blank hc rest ih => rw [List.cons_append, scanFrom_blank hc, ih, Point.afterAll_cons]
  | @comment body cs hbody rest ih =>
    have hline : ∀ d ∈ ('\n' :: (cs ++ y)).head?, d = '\n' := by simp
    rw [List.cons_append, List.append_assoc, List.cons_append, scanFrom_comment hbody hline,
      scanFrom_blank rfl, ih, ← List.cons_append, Point.afterAll_append, Point.afterAll_cons _ '\n']

/-- What is dropped and starts with no blank is a comment, up to a line end or the end. -/
theorem comment_of_piece {n : Nat} (hpiece : piece c cs = some (none, n))
    (hc : isBlank c = false) :
    c = ';' ∧ '\n' ∉ cs.take n ∧ ∀ d ∈ (cs.drop n).head?, d = '\n' := by
  cases piece_eq_some_iff.mp hpiece with
  | blank hblank =>
    rw [hblank] at hc
    cases hc
  | comment hcomment =>
    refine ⟨hcomment, ?_, ?_⟩
    · intro hmem
      simpa using forall_mem_take_countWhile (· ≠ '\n') cs '\n' hmem
    · intro d hd
      simpa using not_of_head?_drop_countWhile cs d hd

/-- Layout at the end of a comment may go on with it, up to a line end: the scan still goes over
both. -/
theorem scanFrom_comment_layout (hf : Layout f) (hown : '\n' ∉ own)
    (hy : ∀ d ∈ y.head?, d = '\n') (p : Point) :
    scanFrom p (';' :: (own ++ (f ++ y))) = scanFrom (p.afterAll (';' :: own)) (f ++ y) := by
  induction hf generalizing own with
  | nil => exact scanFrom_comment hown hy p
  | @blank c cs hc rest ih =>
    by_cases hline : c = '\n'
    · exact scanFrom_comment hown (by simp [hline]) p
    · have hlonger : '\n' ∉ own ++ [c] := by simp [hown, Ne.symm hline]
      have hscan := ih hlonger
      rw [List.append_assoc, List.singleton_append] at hscan
      rw [List.cons_append, hscan, scanFrom_blank hc, ← List.cons_append, Point.afterAll_append]
      rfl
  | @comment body cs hbody rest ih =>
    have hlonger : '\n' ∉ own ++ ';' :: body := by simp [hown, hbody]
    have hline : ∀ d ∈ ('\n' :: (cs ++ y)).head?, d = '\n' := by simp
    have hscan := scanFrom_comment hlonger hline p
    rw [List.append_assoc, List.cons_append] at hscan
    rw [List.cons_append, List.append_assoc, List.cons_append, hscan,
      scanFrom_comment hbody hline, ← List.cons_append, Point.afterAll_append]

end Scanning

/-! ## 4. Texts with layout inserted -/

/-- A text with layout inserted between its pieces and between its blanks. -/
inductive Relaid : List Char → List Char → Prop where
  | nil {f : List Char} (hf : Layout f) : Relaid [] f
  | blank {f cs cs' : List Char} {c : Char} (hf : Layout f) (hc : isBlank c = true)
      (rest : Relaid cs cs') : Relaid (c :: cs) (f ++ c :: cs')
  | piece {f cs cs' : List Char} {c : Char} {x : Option Terminal} {n : Nat} (hf : Layout f)
      (hc : isBlank c = false) (hpiece : piece c cs = some (x, n))
      (rest : Relaid (cs.drop n) cs') : Relaid (c :: cs) (f ++ c :: (cs.take n ++ cs'))

section Inserting

variable {fill : Nat → List Char}

/-- Layout at offsets that are inside of no token and of no comment is between the pieces. -/
theorem relaid_inserted (hfill : ∀ n, Layout (fill n)) (n : Nat) (cs : List Char) :
    ∀ p, (scanFrom p cs).stuck = none →
      (∀ s ∈ stretches n cs, ∀ k, s.first < k → k < s.behind → fill k = []) →
        Relaid cs (inserted fill n cs) := by
  fun_induction stretches n cs with
  | case1 n => exact fun _ _ _ => .nil (hfill n)
  | case2 n c cs hc ih =>
    intro p hstuck hempty
    rw [scanFrom_blank hc] at hstuck
    exact .blank (hfill n) hc (ih _ hstuck hempty)
  | case3 n c cs hc hpiece =>
    intro p hstuck
    rw [scanFrom_cons, hpiece] at hstuck
    cases hstuck
  | case4 n c cs hc x m hpiece ih =>
    intro p hstuck hempty
    rw [scanFrom_cons, hpiece] at hstuck
    rw [List.forall_mem_cons] at hempty
    obtain ⟨hself, hlater⟩ := hempty
    have hlength : (cs.take m).length = m := by
      rw [List.length_take, Nat.min_eq_left (piece_le hpiece)]
    have hinserted : inserted fill (n + 1) cs =
        cs.take m ++ inserted fill (n + 1 + m) (cs.drop m) := by
      conv => lhs; rw [← List.take_append_drop m cs]
      rw [inserted_append, hlength]
      intro k hk hk'
      rw [hlength] at hk'
      exact hself k hk hk'
    rw [inserted, hinserted]
    refine .piece (hfill n) (Bool.not_eq_true _ ▸ hc) hpiece ?_
    refine ih (p.afterAll (c :: cs.take m)) ?_ hlater
    cases x <;> exact hstuck

end Inserting

theorem Layout.cases_head {f : List Char} (hf : Layout f) :
    f = [] ∨ ∃ d w, f = d :: w ∧ isSeparator d = true := by
  cases hf with
  | nil => exact .inl rfl
  | blank hc rest => exact .inr ⟨_, _, rfl, by simp [isSeparator, hc]⟩
  | comment hbody rest => exact .inr ⟨_, _, rfl, rfl⟩

section Relaying

variable {cs cs' : List Char}

/-- Up to a place where a separator is inserted, nothing is changed. -/
theorem Relaid.eq_or_separator (h : Relaid cs cs') :
    cs' = cs ∨ ∃ u v d w, cs = u ++ v ∧ cs' = u ++ d :: w ∧ isSeparator d = true := by
  induction h with
  | nil hf =>
    rcases hf.cases_head with rfl | ⟨d, w, rfl, hd⟩
    · exact .inl rfl
    · exact .inr ⟨[], [], d, w, rfl, rfl, hd⟩
  | @blank f cs cs' c hf hc rest ih =>
    rcases hf.cases_head with rfl | ⟨d, w, rfl, hd⟩
    · rcases ih with rfl | ⟨u, v, d, w, rfl, rfl, hd⟩
      · exact .inl rfl
      · exact .inr ⟨c :: u, v, d, w, rfl, rfl, hd⟩
    · exact .inr ⟨[], c :: cs, d, w ++ c :: cs', rfl, rfl, hd⟩
  | @piece f cs cs' c x n hf hc hpiece rest ih =>
    rcases hf.cases_head with rfl | ⟨d, w, rfl, hd⟩
    · rcases ih with rfl | ⟨u, v, d, w, hrest, rfl, hd⟩
      · exact .inl (cons_take_drop c cs n)
      · refine .inr ⟨c :: (cs.take n ++ u), v, d, w, ?_, ?_, hd⟩
        · rw [List.cons_append, List.append_assoc, ← hrest, List.take_append_drop]
        · rw [List.cons_append, List.append_assoc]
          rfl
    · exact .inr ⟨[], c :: cs, d, w ++ c :: (cs.take n ++ cs'), rfl, rfl, hd⟩

/-- A token is the same before a text with layout inserted. -/
theorem piece_relaid {c : Char} {t : Terminal} {n : Nat} (hpiece : piece c cs = some (some t, n))
    (h : Relaid (cs.drop n) cs') : piece c (cs.take n ++ cs') = some (some t, n) := by
  rcases h.eq_or_separator with rfl | ⟨u, v, d, w, hrest, rfl, hd⟩
  · rw [List.take_append_drop, hpiece]
  · -- the separator ends the part that is unchanged, and the piece does not look behind its end
    have hcut : cs.take n ++ u = cs.take (n + u.length) := by
      rw [List.take_add, hrest, List.take_left]
    rw [← List.append_assoc, hcut]
    exact piece_append (piece_take hpiece (Nat.le_add_right n _)) hd w

/-- What follows a comment starts with a line end, behind layout. -/
theorem Relaid.exists_layout (h : Relaid cs cs') (hcs : ∀ d ∈ cs.head?, d = '\n') :
    ∃ f y, cs' = f ++ y ∧ Layout f ∧ ∀ d ∈ y.head?, d = '\n' := by
  cases h with
  | nil hf => exact ⟨_, [], (List.append_nil _).symm, hf, by simp⟩
  | blank hf hc rest => exact ⟨_, _, rfl, hf, by simpa using hcs⟩
  | piece hf hc hpiece rest =>
    rw [hcs _ rfl] at hc
    cases hc

/-- A text with layout inserted scans to the same tokens, and both scan to their ends. -/
theorem scanFrom_relaid (h : Relaid cs cs') (p q : Point) :
    ∃ ts ts', scanFrom p cs = ⟨ts, none⟩ ∧ scanFrom q cs' = ⟨ts', none⟩ ∧
      ts'.map Token.unplaced = ts.map Token.unplaced := by
  induction h generalizing p q with
  | @nil f hf =>
    have hlayout := scanFrom_layout hf q []
    rw [List.append_nil] at hlayout
    rw [hlayout, scanFrom_nil, scanFrom_nil]
    exact ⟨[], [], rfl, rfl, rfl⟩
  | @blank f cs cs' c hf hc rest ih =>
    rw [scanFrom_blank hc, scanFrom_layout hf, scanFrom_blank hc]
    exact ih _ _
  | @piece f cs cs' c x n hf hc hpiece rest ih =>
    rw [scanFrom_layout hf, scanFrom_cons, hpiece]
    dsimp only
    cases x with
    | none =>
      -- layout behind a comment may make it longer
      obtain ⟨rfl, hown, hline⟩ := comment_of_piece hpiece hc
      obtain ⟨g, y, rfl, hg, hy⟩ := rest.exists_layout hline
      rw [Scan.cons, scanFrom_comment_layout hg hown hy]
      exact ih _ _
    | some t =>
      have hlength : (cs.take n).length = n := by
        rw [List.length_take, Nat.min_eq_left (piece_le hpiece)]
      obtain ⟨ts, ts', hscan, hscan', hmap⟩ := ih (p.afterAll (c :: cs.take n))
        ((q.afterAll f).afterAll (c :: cs.take n))
      rw [scanFrom_cons, piece_relaid hpiece rest]
      dsimp only
      rw [List.take_left' hlength, List.drop_left' hlength, hscan, hscan']
      refine ⟨_, _, rfl, rfl, ?_⟩
      rw [List.map_cons, List.map_cons, hmap]
      rfl

end Relaying

/-! ## 5. Reading and checking -/

/-- A location at the first place of a text, if it is a line and a column. -/
def placeless : Location → Location
  | .point _ _ => Point.start.location
  | l => l

theorem follows_placeless : Follows placeless fun _ => .start := fun _ => rfl

theorem keepsFile_placeless (file : Option Text) : KeepsFile placeless file := by
  intro l
  cases l <;> rfl

/-- Results of reading that differ in places alone: trees that are equal without their locations,
or texts that are malformed both, or that are refused for the same reason. -/
inductive Alike : Except ReadError Tree → Except ReadError Tree → Prop where
  | tree {t t' : Tree} (h : t'.unlocated = t.unlocated) : Alike (.ok t) (.ok t')
  | malformed (m m' : Malformed) : Alike (.error (.malformed m)) (.error (.malformed m'))
  | refused {r r' : Refusal} (h : (ReadError.refused r').reason = (ReadError.refused r).reason) :
      Alike (.error (.refused r)) (.error (.refused r'))

theorem reason_moved (g : Point → Point) (r : Refusal) :
    (ReadError.refused (r.moved g)).reason = (ReadError.refused r).reason := by
  cases r <;> rfl

section Reading

variable {source source' : List Char}

/-- A text whose tokens are those of a text that parses parses as well. -/
theorem parse_of_tokens {v : Value} (hstuck : (scan source').stuck = none)
    (hmap : (scan source').tokens.map Token.unplaced = (scan source).tokens.map Token.unplaced)
    (h : parse source = .ok v) : ∃ v', parse source' = .ok v' ∧
      v'.moved (fun _ => .start) = v.moved fun _ => .start := by
  obtain ⟨-, hspells⟩ := parse_eq_ok_iff.mp h
  obtain ⟨vs, hvs, hvalues⟩ :=
    spells_of_moved (f := fun _ => .start) (g := fun _ => .start) hspells hmap
  obtain ⟨v', rfl, hv'⟩ := List.map_eq_singleton_iff.mp hvalues
  exact ⟨v', parse_eq_ok_iff.mpr ⟨hstuck, hvs⟩, hv'⟩

/-- Values that differ in their points alone make trees that differ in their locations alone, or
are refused for the same reason. -/
theorem tree_cases_of_moved {v v' : Value}
    (h : v'.moved (fun _ => .start) = v.moved fun _ => .start) :
    (∃ t t', v.tree = .ok t ∧ v'.tree = .ok t' ∧ t'.relocated placeless = t.relocated placeless) ∨
      ∃ r r', v.tree = .error r ∧ v'.tree = .error r' ∧
        (ReadError.refused r').reason = (ReadError.refused r).reason := by
  have hv := tree_moved follows_placeless v
  have hv' := tree_moved follows_placeless v'
  rw [Value.Moves, h] at hv'
  rw [Value.Moves, hv'] at hv
  cases htree : v.tree with
  | ok t =>
    cases htree' : v'.tree with
    | ok t' =>
      rw [htree, htree'] at hv
      exact .inl ⟨t, t', rfl, rfl, Except.ok.inj hv⟩
    | error r' =>
      rw [htree, htree'] at hv
      cases hv
  | error r =>
    cases htree' : v'.tree with
    | ok t' =>
      rw [htree, htree'] at hv
      cases hv
    | error r' =>
      rw [htree, htree'] at hv
      have hmoved := Except.error.inj hv
      exact .inr ⟨r, r', rfl, rfl, by rw [← reason_moved, hmoved, reason_moved]⟩

/-- Texts with the same tokens are read alike: trees differ in their locations alone. -/
theorem read_of_tokens (hstuck : (scan source).stuck = none)
    (hstuck' : (scan source').stuck = none)
    (hmap : (scan source').tokens.map Token.unplaced = (scan source).tokens.map Token.unplaced) :
    Alike (read source) (read source') ∧ ∀ t t', read source = .ok t → read source' = .ok t' →
      t'.relocated placeless = t.relocated placeless := by
  cases hparse : parse source with
  | error m =>
    cases hparse' : parse source' with
    | error m' =>
      rw [read, read, hparse, hparse']
      refine ⟨.malformed m m', ?_⟩
      rintro t t' ⟨⟩
    | ok v' =>
      obtain ⟨v, hv, -⟩ := parse_of_tokens hstuck hmap.symm hparse'
      rw [hparse] at hv
      cases hv
  | ok v =>
    obtain ⟨v', hparse', hmoved⟩ := parse_of_tokens hstuck' hmap hparse
    rw [read, read, hparse, hparse']
    dsimp only
    rcases tree_cases_of_moved hmoved with ⟨t, t', ht, ht', heq⟩ | ⟨r, r', hr, hr', heq⟩
    · rw [ht, ht']
      refine ⟨.tree ?_, ?_⟩
      · rw [← Tree.unlocated_relocated placeless, heq, Tree.unlocated_relocated]
      · rintro _ _ ⟨⟩ ⟨⟩
        exact heq
    · rw [hr, hr']
      refine ⟨.refused heq, ?_⟩
      rintro t t' ⟨⟩

/-- A pass over a tree with other places reports the same but for line and column. -/
theorem issues_of_relocated {t t' : Tree} (h : t'.relocated placeless = t.relocated placeless)
    (m : Mode) (s : Strictness) (file : Option Text) :
    (Report.issues s file (t'.reports m)).map Diagnostic.unplaced =
      (Report.issues s file (t.reports m)).map Diagnostic.unplaced := by
  rw [← Report.issues_relocated (keepsFile_placeless file), ← Tree.reports_relocated, h,
    Tree.reports_relocated, Report.issues_relocated (keepsFile_placeless file)]

end Reading

/-- Layout does not matter: a text that scans to its end and the same text with blanks and comments
inserted, at offsets that are inside of no token and of no comment, are read alike, and a pass of
a checker over their trees reports the same issues but for line and column. -/
theorem read_inserted {source : List Char} {fill : Nat → List Char}
    (hscan : (scan source).stuck = none) (hfill : ∀ n, Layout (fill n))
    (hinside : ∀ n, Inside source n → fill n = []) :
    Alike (read source) (read (inserted fill 0 source)) ∧
    ∀ t t', read source = .ok t → read (inserted fill 0 source) = .ok t' → ∀ c : Checker,
      ∃ d d', c.validate t = .ok d ∧ c.validate t' = .ok d' ∧
        d'.issues.map Diagnostic.unplaced = d.issues.map Diagnostic.unplaced := by
  have hempty : ∀ s ∈ stretches 0 source, ∀ k, s.first < k → k < s.behind → fill k = [] :=
    fun s hs k hfirst hbehind => hinside k ⟨s, hs, hfirst, hbehind⟩
  have hrelaid := relaid_inserted hfill 0 source .start hscan hempty
  obtain ⟨ts, ts', hts, hts', hmap⟩ := scanFrom_relaid hrelaid .start .start
  have hstuck' : (scan (inserted fill 0 source)).stuck = none := congrArg Scan.stuck hts'
  have htokens : (scan (inserted fill 0 source)).tokens.map Token.unplaced =
      (scan source).tokens.map Token.unplaced := by
    rw [scan, scan, hts, hts', hmap]
  obtain ⟨halike, hrelocated⟩ := read_of_tokens hscan hstuck' htokens
  refine ⟨halike, ?_⟩
  intro t t' ht ht' c
  exact ⟨_, _, c.validate_eq_ok t, c.validate_eq_ok t',
    issues_of_relocated (hrelocated t t' ht ht') c.mode c.strictness c.file⟩

/-- A comment between a word and the string that follows it at once. -/
theorem read_inserted_comment :
    (scan ['(', 'n', 'o', 't', '"', 'a', '"', ')']).stuck = none ∧
    (∀ n, Layout (if n = 4 then [';', 'c', '\n'] else [])) ∧
    (∀ n, Inside ['(', 'n', 'o', 't', '"', 'a', '"', ')'] n →
      (if n = 4 then [';', 'c', '\n'] else []) = []) ∧
    inserted (fun n => if n = 4 then [';', 'c', '\n'] else []) 0
        ['(', 'n', 'o', 't', '"', 'a', '"', ')'] =
      ['(', 'n', 'o', 't', ';', 'c', '\n', '"', 'a', '"', ')'] ∧
    Alike (read ['(', 'n', 'o', 't', '"', 'a', '"', ')'])
      (read ['(', 'n', 'o', 't', ';', 'c', '\n', '"', 'a', '"', ')']) := by
  have hscan : (scan ['(', 'n', 'o', 't', '"', 'a', '"', ')']).stuck = none := by cbv
  have hfill : ∀ n : Nat, Layout (if n = 4 then [';', 'c', '\n'] else []) := by
    intro n
    split
    · exact @Layout.comment ['c'] [] (by decide) .nil
    · exact .nil
  have hstretches : stretches 0 ['(', 'n', 'o', 't', '"', 'a', '"', ')'] =
      [⟨some .leftParen, 0, 1⟩, ⟨some .symbol, 1, 4⟩, ⟨some .string, 4, 7⟩,
        ⟨some .rightParen, 7, 8⟩] := by cbv
  have hinside : ∀ n, Inside ['(', 'n', 'o', 't', '"', 'a', '"', ')'] n →
      (if n = 4 then [';', 'c', '\n'] else []) = [] := by
    rintro n ⟨s, hs, hfirst, hbehind⟩
    rw [hstretches] at hs
    simp only [List.mem_cons, List.not_mem_nil, or_false] at hs
    have hn : n ≠ 4 := by
      rcases hs with rfl | rfl | rfl | rfl <;> dsimp only at hfirst hbehind <;> omega
    rw [if_neg hn]
  exact ⟨hscan, hfill, hinside, rfl, (read_inserted hscan hfill hinside).1⟩

end ManifestLint.PN
