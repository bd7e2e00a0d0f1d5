/-
ManifestLint.Proofs.ReadFailure — how reading fails, and what that does to a run.

Every error of the reader is about a place in the text: the scan or the grammar stops at one, and
a value that is refused starts at one. There is one exception, an integer with too many digits:
that is refused without a place, and a check that meets it has no diagnostics.

The main statements: a value is refused for what stands at one of the values inside of it
(`blames_of_tree`), so a text is read, or fails at a place in it, or holds too long an integer
(`read_cases`); and without such integers every source of a run is reported
(`report_all_or_unlocated`).
-/
import ManifestLint.CommandLine.Run
import ManifestLint.Proofs.SourceOrder

namespace ManifestLint

namespace PN

/-! ## 1. The first error of several results -/

section Results

variable {ε α : Type} {rs : List (Except ε α)} {e : ε}

theorem eq_error_of_map {β : Type} {x : Except ε α} {g : α → β} (h : x.map g = .error e) :
    x = .error e := by
  cases x <;> cases h
  rfl

theorem error_of_bind {β : Type} {x : Except ε α} {g : α → Except ε β} (h : x.bind g = .error e) :
    x = .error e ∨ ∃ a, x = .ok a ∧ g a = .error e := by
  cases x with
  | error e' =>
    cases h
    exact .inl rfl
  | ok a => exact .inr ⟨a, rfl, h⟩

theorem mem_of_firstError (h : firstError rs = some e) : .error e ∈ rs := by
  induction rs with
  | nil => cases h
  | cons r rs ih =>
    cases r with
    | error e' =>
      cases h
      exact List.mem_cons_self
    | ok a => exact List.mem_cons_of_mem _ (ih h)

theorem mem_of_allOk_eq_error (h : allOk rs = .error e) : .error e ∈ rs := by
  induction rs with
  | nil => cases h
  | cons r rs ih =>
    cases r with
    | error e' =>
      cases h
      exact List.mem_cons_self
    | ok a => exact List.mem_cons_of_mem _ (ih (eq_error_of_map h))

end Results

/-! ## 2. Values to blame -/

/-- Holds of numerals that are integers with too many digits. -/
def Numeral.TooLong (token : List Char) : Prop :=
  isFloat token = false ∧ digitLimit < (unsigned token).length

/-- The refusal is about one of the values: a fault is located where one starts, and of too many
digits there is an integer that has them. -/
def Refusal.Blames (vs : List Value) : Refusal → Prop
  | .fault p _ => ∃ v ∈ vs, v.point = p
  | .tooManyDigits n => ∃ p token, .number p token ∈ vs ∧ Numeral.TooLong token ∧
      (Numeral.unsigned token).length = n

theorem Refusal.Blames.mono {vs ws : List Value} {r : Refusal} (h : r.Blames vs)
    (hsub : ∀ v ∈ vs, v ∈ ws) : r.Blames ws := by
  cases r with
  | fault p f =>
    obtain ⟨v, hv, hp⟩ := h
    exact ⟨v, hsub v hv, hp⟩
  | tooManyDigits n =>
    obtain ⟨p, token, hmem, hlong⟩ := h
    exact ⟨p, token, hsub _ hmem, hlong⟩

/-- A value is refused for itself or for what is inside of it. -/
def Value.Blamed (v : Value) : Prop := ∀ r, v.tree = .error r → r.Blames v.subvalues

theorem blames_self (v : Value) (f : Fault) : (Refusal.fault v.point f).Blames v.subvalues :=
  ⟨v, self_mem_subvalues v, rfl⟩

theorem eq_badEscape_of_readText {p : Point} {token : List Char} {r : Refusal}
    (h : readText p token = .error r) :
    r = .fault p (.badEscape token) ∧
      StringLiteral.decode (StringLiteral.content token) = none := by
  unfold readText at h
  split at h <;> cases h
  exact ⟨rfl, by assumption⟩

theorem eq_notAllowed_of_check {a : TextArgument} {p : Point} {t : Text} {r : Refusal}
    (h : a.check p t = .error r) :
    r = .fault p (.notAllowed a.what a.allowed t) ∧ ¬ a.Allows t := by
  have hnot : ¬ a.Allows t := by
    intro hallows
    rw [TextArgument.check_eq_ok_iff.mpr ⟨rfl, hallows⟩] at h
    cases h
  unfold TextArgument.check at h
  split at h <;> cases h
  exact ⟨rfl, hnot⟩

/-- A number is refused for its digits alone. -/
theorem tooLong_of_readNumber {p : Point} {token : List Char} {r : Refusal}
    (h : readNumber p token = .error r) :
    Numeral.TooLong token ∧ r = .tooManyDigits (Numeral.unsigned token).length := by
  unfold readNumber at h
  split at h
  · cases h
  · rename_i hfloat
    simp only [Numeral.integer] at h
    by_cases hlen : (Numeral.unsigned token).length ≤ Numeral.digitLimit
    · simp [hlen] at h
    · simp only [hlen, if_false, Except.error.injEq] at h
      exact ⟨⟨by simpa using hfloat, by omega⟩, h.symm⟩

/-! ## 3. Forms that are refused -/

theorem eq_activityTail_of_fill {f : Form} {p : Point} {count : Nat} {trees : List Tree}
    {r : Refusal} (h : f.fill p count trees = .error r) : r = .fault p .activityTail := by
  unfold Form.fill at h
  split at h
  · cases h
  · cases h
  · cases h
  · split at h
    · cases h
    · dsimp only at h
      split at h <;> cases h
      rfl

section Forms

variable {p : Point} {v : Value} {vs : List Value} {r : Refusal}

/-- An expression is refused for what it is, or for not being of the kind wanted. -/
theorem blames_of_take {w : Wanted} (h : w.take v.reading = .error r) (hv : v.Blamed) :
    r.Blames v.subvalues := by
  rcases error_of_bind h with htree | ⟨t, -, hcheck⟩
  · exact hv r htree
  · rw [value_reading] at hcheck
    unfold Wanted.check at hcheck
    split at hcheck
    · cases hcheck
    · split at hcheck <;> cases hcheck
      exact blames_self v _

/-- An argument is refused for what it is or what is inside of it, or the form is that it stands
in. -/
theorem blames_of_meet {d : Demand} (h : d.meet p v.reading = .error r)
    (hv : ∀ u ∈ v.subvalues, u.Blamed) : (∃ why, r = .fault p why) ∨ r.Blames v.subvalues := by
  cases d with
  | expression w => exact .inr (blames_of_take (eq_error_of_map h) (hv v (self_mem_subvalues v)))
  | text a =>
    simp only [Demand.meet, value_reading] at h
    cases v with
    | string q token =>
      rcases error_of_bind (eq_error_of_map h) with htext | ⟨t, -, hcheck⟩
      · obtain ⟨rfl, -⟩ := eq_badEscape_of_readText htext
        exact .inr (blames_self _ _)
      · exact .inl ⟨_, (eq_notAllowed_of_check hcheck).1⟩
    | number | constant | form | list =>
      cases h
      exact .inr (blames_self _ _)
  | list a =>
    simp only [Demand.meet, value_reading] at h
    cases v with
    | list q us =>
      have hitems : (Value.list q us).reading.items = us.map Value.reading := by
        rw [Value.reading, readings_eq_map]
      have hmem := mem_of_allOk_eq_error (eq_error_of_map h)
      rw [hitems, List.map_map, List.mem_map] at hmem
      obtain ⟨u, hu, htake⟩ := hmem
      have hsub : ∀ w ∈ u.subvalues, w ∈ (Value.list q us).subvalues := by
        intro w hw
        exact List.mem_cons_of_mem _ (mem_inner_list hu hw)
      exact .inr ((blames_of_take htake (hv u (hsub u (self_mem_subvalues u)))).mono hsub)
    | string | number | constant | form =>
      cases h
      exact .inr (blames_self _ _)

/-- A form is refused for the number of its arguments, for one of them, or for its tail. -/
theorem error_of_build {f : Form} {k : Kind} (h : f.build k p (vs.map Value.reading) = .error r) :
    (f.takes vs.length = false ∧
      r = .fault p (.argumentCount f.word f.required f.most vs.length)) ∨
    f.takes vs.length = true ∧
      ((∃ (i : Nat) (d : Demand) (v : Value), (f.demands vs.length)[i]? = some d ∧
        vs[i]? = some v ∧ d.meet p v.reading = .error r) ∨
      ∃ xs, MetAll p (f.demands vs.length) vs xs ∧ f.assemble k p xs = .error r) := by
  have hmem : ∀ {e : Refusal},
      .error e ∈ (f.demands vs.length).zipWith (Demand.meet p) (vs.map Value.reading) →
      ∃ (i : Nat) (d : Demand) (v : Value), (f.demands vs.length)[i]? = some d ∧
        vs[i]? = some v ∧ d.meet p v.reading = .error e := by
    intro e he
    obtain ⟨i, hi⟩ := List.mem_iff_getElem?.mp he
    obtain ⟨d, reading, hd, hreading, hmeet⟩ := List.getElem?_zipWith_eq_some.mp hi
    rw [List.getElem?_map] at hreading
    obtain ⟨v, hv, rfl⟩ := Option.map_eq_some_iff.mp hreading
    exact ⟨i, d, v, hd, hv, hmeet⟩
  simp only [Form.build, List.length_map] at h
  cases htakes : f.takes vs.length with
  | false =>
    rw [htakes] at h
    cases h
    exact .inl ⟨rfl, rfl⟩
  | true =>
    refine .inr ⟨rfl, ?_⟩
    rw [htakes, if_pos rfl] at h
    split at h
    · rename_i e he
      cases h
      exact .inl (hmem ((f.order.arrange_perm _).mem_iff.mp (mem_of_firstError he)))
    · rcases error_of_bind h with hall | ⟨xs, hxs, hassemble⟩
      · exact .inl (hmem (mem_of_allOk_eq_error hall))
      · refine .inr ⟨xs, ?_, hassemble⟩
        exact (zipWith_meet_eq_iff (Form.length_demands htakes).symm).mp (allOk_eq_ok_iff.mp hxs)

/-- A form is refused for itself or for one of its arguments. -/
theorem blames_of_build {f : Form} {k : Kind} (h : f.build k p (vs.map Value.reading) = .error r)
    (hvs : ∀ u ∈ innerOfAll vs, u.Blamed) :
    (∃ why, r = .fault p why) ∨ r.Blames (innerOfAll vs) := by
  rcases error_of_build h with ⟨-, rfl⟩ | ⟨-, ⟨i, d, v, -, hv, hmeet⟩ | ⟨xs, -, hassemble⟩⟩
  · exact .inl ⟨_, rfl⟩
  · have hsub : ∀ u ∈ v.subvalues, u ∈ innerOfAll vs := by
      intro u hu
      exact mem_innerOfAll_iff.mpr ⟨v, List.mem_of_getElem? hv, hu⟩
    rcases blames_of_meet hmeet fun u hu => hvs u (hsub u hu) with hfault | hblames
    · exact .inl hfault
    · exact .inr (hblames.mono hsub)
  · exact .inl ⟨_, eq_activityTail_of_fill (eq_error_of_map hassemble)⟩

end Forms

/-- A value is refused for what stands at one of the values inside of it. -/
theorem blames_of_tree (v : Value) : v.Blamed := by
  induction v using nested_induction with | step v ih
  intro r h
  cases v with
  | string p token =>
    rw [tree_string] at h
    obtain ⟨rfl, -⟩ := eq_badEscape_of_readText (eq_error_of_map h)
    exact blames_self _ _
  | number p token =>
    rw [tree_number] at h
    obtain ⟨hlong, rfl⟩ := tooLong_of_readNumber h
    exact ⟨p, token, self_mem_subvalues _, hlong, rfl⟩
  | constant p word =>
    rw [tree_constant] at h
    cases h
  | list p items =>
    rw [tree_list] at h
    cases h
    exact blames_self _ _
  | form p word vs =>
    rw [tree_form] at h
    have hblames : (∃ why, r = .fault p why) ∨ r.Blames (innerOfAll vs) := by
      unfold readForm at h
      split at h
      · cases h
        exact .inl ⟨_, rfl⟩
      · split at h
        · cases h
          exact .inl ⟨_, rfl⟩
        · exact blames_of_build h ih
    rcases hblames with ⟨why, rfl⟩ | hblames
    · exact blames_self (.form p word vs) why
    · exact hblames.mono fun u hu => List.mem_cons_of_mem _ hu

/-! ## 4. Errors with a place -/

/-- Holds of the places of a text, the one after it included. -/
def Point.IsIn (p : Point) (source : List Char) : Prop :=
  ∃ before after, source = before ++ after ∧ p = placeAfter before

section Places

variable {source : List Char}

theorem isIn_start : Point.start.IsIn source := ⟨[], source, rfl, rfl⟩

theorem isIn_of_mem_scan {k : Token} (h : k ∈ (scan source).tokens) : k.point.IsIn source := by
  obtain ⟨before, after, hsource, -, hpoint⟩ := point_of_mem_scanFrom h
  rw [Point.afterAll_start] at hpoint
  exact ⟨before, k.text ++ after, hsource, hpoint⟩

theorem isIn_of_stuck {k : Stuck} (h : (scan source).stuck = some k) : k.point.IsIn source := by
  obtain ⟨before, hsource, hpoint⟩ := stuck_of_scanFrom h
  rw [Point.afterAll_start] at hpoint
  exact ⟨before, k.rest, hsource, hpoint⟩

/-- The grammar stops where the scan is stuck, at a token, or at the end, which is placed at the
last token. -/
theorem point_of_feed_error {stuck : Option Stuck} {s : State} {previous : Option Token}
    {ts : List Token} {m : Malformed} (h : feed source stuck s previous ts = .error m) :
    (∃ k, stuck = some k ∧ m.point = k.point) ∨ (∃ t ∈ ts, m.point = t.point) ∨
      m.point = (endToken previous).point := by
  induction ts generalizing s previous with
  | nil =>
    unfold feed at h
    split at h
    · cases h
      exact .inl ⟨_, rfl, rfl⟩
    · cases h
    · cases h
      exact .inr (.inr rfl)
  | cons t ts ih =>
    unfold feed at h
    split at h
    · rcases ih h with hstuck | ⟨u, hu, hpoint⟩ | hlast
      · exact .inl hstuck
      · exact .inr (.inl ⟨u, List.mem_cons_of_mem t hu, hpoint⟩)
      · exact .inr (.inl ⟨t, List.mem_cons_self, hlast⟩)
    · cases h
      exact .inr (.inl ⟨t, List.mem_cons_self, rfl⟩)

theorem isIn_of_parse_error {m : Malformed} (h : parse source = .error m) :
    m.point.IsIn source := by
  rcases point_of_feed_error h with ⟨k, hstuck, hpoint⟩ | ⟨t, ht, hpoint⟩ | hpoint
  · rw [hpoint]
    exact isIn_of_stuck hstuck
  · rw [hpoint]
    exact isIn_of_mem_scan ht
  · rw [hpoint]
    exact isIn_start

/-- A value inside of the one that a text spells starts at a place in the text. -/
theorem isIn_of_mem_subvalues {v w : Value} (hv : parse source = .ok v) (hw : w ∈ v.subvalues) :
    w.point.IsIn source := by
  rw [← innerOfAll_singleton] at hw
  obtain ⟨before, k, own, after, htokens, -, hpoint⟩ :=
    holds_of_spells (parse_eq_ok_iff.mp hv).2 w hw
  rw [← hpoint]
  exact isIn_of_mem_scan (by simp [htokens])

/-- The text holds an integer with too many digits. -/
def HoldsLongInteger (source : List Char) : Prop :=
  ∃ k ∈ (scan source).tokens, k.terminal = .number ∧ Numeral.TooLong k.text

/-- A number inside of the value that a text spells is a token of the text. -/
theorem holdsLongInteger_of_mem_subvalues {v : Value} {p : Point} {token : List Char}
    (hv : parse source = .ok v) (hmem : .number p token ∈ v.subvalues)
    (hlong : Numeral.TooLong token) : HoldsLongInteger source := by
  rw [← innerOfAll_singleton] at hmem
  obtain ⟨before, k, own, after, htokens, hspells, -⟩ :=
    holds_of_spells (parse_eq_ok_iff.mp hv).2 _ hmem
  have hk : k ∈ (scan source).tokens := by simp [htokens]
  cases hspells with
  | number ht _ => exact ⟨k, hk, ht, hlong⟩

/-- A text is read, or fails at a place in it, or is refused for an integer that it holds. -/
theorem read_cases (source : List Char) :
    (∃ t, read source = .ok t) ∨
      (∃ e p, read source = .error e ∧ e.point? = some p ∧ p.IsIn source) ∨
      (∃ n, read source = .error (.refused (.tooManyDigits n))) ∧ HoldsLongInteger source := by
  unfold read
  cases hv : parse source with
  | error m => exact .inr (.inl ⟨_, m.point, rfl, rfl, isIn_of_parse_error hv⟩)
  | ok v =>
    cases ht : v.tree with
    | ok t => exact .inl ⟨t, by simp [ht, Except.mapError]⟩
    | error r =>
      have hread : v.tree.mapError ReadError.refused = .error (.refused r) := by
        rw [ht]
        rfl
      have hblames := blames_of_tree v r ht
      cases r with
      | fault p why =>
        obtain ⟨w, hw, rfl⟩ := hblames
        exact .inr (.inl ⟨_, w.point, hread, rfl, isIn_of_mem_subvalues hv hw⟩)
      | tooManyDigits n =>
        obtain ⟨p, token, hmem, hlong, -⟩ := hblames
        exact .inr (.inr ⟨⟨n, hread⟩, holdsLongInteger_of_mem_subvalues hv hmem hlong⟩)

end Places

/-- A row of too many digits is refused without a place. -/
theorem read_digits {cs : List Char} (hdigits : ∀ c ∈ cs, isDigit c = true)
    (hlen : Numeral.digitLimit < cs.length) :
    read (cs ++ [' ']) = .error (.refused (.tooManyDigits cs.length)) := by
  cases cs with
  | nil => cases hlen
  | cons c cs =>
    have hscan : scan (c :: cs ++ [' ']) = ⟨[⟨.number, c :: cs, .start⟩], none⟩ := by
      rw [scan, List.cons_append, scanFrom_cons, piece_digits hdigits]
      simp only [List.take_left, List.drop_left]
      rw [scanFrom_cons]
      simp [piece, isBlank, countWhile, Scan.cons, Scan.done]
    have hparse : parse (c :: cs ++ [' ']) = .ok (.number .start (c :: cs)) := by
      rw [parse_eq_ok_iff, hscan]
      exact ⟨rfl, @Spells.number ⟨.number, c :: cs, .start⟩ _ _ rfl .nil⟩
    have hunsigned : Numeral.unsigned (c :: cs) = c :: cs := by
      simp [Numeral.unsigned, isSign_of_isDigit (hdigits c List.mem_cons_self)]
    have htree : (Value.number .start (c :: cs)).tree =
        .error (.tooManyDigits (c :: cs).length) := by
      rw [tree_number, readNumber, Numeral.isFloat_of_isDigit hdigits, Numeral.integer, hunsigned]
      simp only [Nat.not_le.mpr hlen, if_false]
      rfl
    rw [read, hparse]
    dsimp only
    rw [htree]
    rfl

end PN

namespace CommandLine

open PN

/-! ## 5. Runs -/

/-- The file can be decoded, and its text holds an integer with too many digits. -/
def FileHoldsLongInteger (content : Content) : Prop :=
  ∃ bytes cs, content = .ok bytes ∧ Text.Utf8.decode bytes = .ok cs ∧
    HoldsLongInteger (Text.Utf8.unifyNewlines cs)

/-- Only an integer with too many digits makes a source without diagnostics. -/
theorem error_of_sourceDiagnostic {file : Text} {e : SourceError} {failure : Failure}
    (h : sourceDiagnostic file e = .error failure) :
    ∃ n, e = .text (.refused (.tooManyDigits n)) := by
  unfold sourceDiagnostic at h
  split at h
  · cases h
  · exact ⟨_, rfl⟩
  · cases h

/-- A file is read by decoding it and reading the text. -/
theorem readSource_eq_ok_iff {bytes : List UInt8} {root : Tree} :
    readSource bytes = .ok root ↔ ∃ cs, Text.Utf8.decode bytes = .ok cs ∧
      read (Text.Utf8.unifyNewlines cs) = .ok root := by
  unfold readSource
  cases Text.Utf8.decode bytes with
  | error f => simp
  | ok cs => cases hread : read (Text.Utf8.unifyNewlines cs) <;> simp [hread, Except.mapError]

/-- An error in the text of a file is an error of reading the text that the file is decoded to. -/
theorem readSource_eq_text_iff {bytes : List UInt8} {e : ReadError} :
    readSource bytes = .error (.text e) ↔ ∃ cs, Text.Utf8.decode bytes = .ok cs ∧
      read (Text.Utf8.unifyNewlines cs) = .error e := by
  unfold readSource
  cases Text.Utf8.decode bytes with
  | error f => simp
  | ok cs => cases hread : read (Text.Utf8.unifyNewlines cs) <;> simp [hread, Except.mapError]

/-- A file that is refused for the digits of an integer holds such an integer. -/
theorem fileHoldsLongInteger_of_readSource {bytes : List UInt8} {n : Nat}
    (h : readSource bytes = .error (.text (.refused (.tooManyDigits n)))) :
    FileHoldsLongInteger (.ok bytes) := by
  obtain ⟨cs, hdecode, hread⟩ := readSource_eq_text_iff.mp h
  refine ⟨bytes, cs, rfl, hdecode, ?_⟩
  rcases read_cases (Text.Utf8.unifyNewlines cs) with ⟨t, ht⟩ | ⟨e, p, he, hp, -⟩ | ⟨-, hlong⟩
  · rw [hread] at ht
    cases ht
  · rw [hread] at he
    cases he
    cases hp
  · exact hlong

/-- A check has diagnostics, whatever the file holds, unless its text holds too long an integer. -/
theorem exists_diagnostics (s : Settings) (path : Path) (content : Content) :
    (∃ ds, (check s path content).diagnostics = .ok ds) ∨ path.holdsNull = true ∨
      FileHoldsLongInteger content := by
  cases hnull : path.holdsNull with
  | true => exact .inr (.inl rfl)
  | false =>
    cases content with
    | error f => exact .inl ⟨_, by simp only [check, hnull]; rfl⟩
    | ok bytes =>
      cases hread : readSource bytes with
      | ok root =>
        left
        simp only [check, hnull, hread, Checker.validate_eq_ok]
        exact ⟨_, rfl⟩
      | error e =>
        cases hd : sourceDiagnostic (Text.ofString path.shown) e with
        | ok d =>
          refine .inl ⟨[d], ?_⟩
          simp only [check, hnull, hread, hd]
          rfl
        | error failure =>
          obtain ⟨n, rfl⟩ := error_of_sourceDiagnostic hd
          exact .inr (.inr (fileHoldsLongInteger_of_readSource hread))

/-- A run finds in every source what the check of it finds. -/
theorem findings_checkAll {s : Settings} {found : Path × Content → List Diagnostic}
    {sources : List (Path × Content)}
    (h : ∀ file ∈ sources, (check s file.1 file.2).diagnostics = .ok (found file)) :
    (checkAll s sources).findings =
      .ok (sources.flatMap fun file => (found file).map (Finding.mk file.1)) := by
  induction sources with
  | nil => rfl
  | cons file sources ih =>
    rw [List.forall_mem_cons] at h
    simp only [checkAll, h.1, ih h.2, List.flatMap_cons]
    rfl

/-- Reading fails at a place in the text, and every source of a run is reported, but for integers
with too many digits: a text that holds one may be refused without a place, and the run breaks
off at its source. -/
theorem report_all_or_unlocated (source : List Char) (s : Settings)
    (sources : List (Path × Content)) :
    ((∃ t, read source = .ok t) ∨
      (∃ e p, read source = .error e ∧ e.point? = some p ∧ p.IsIn source) ∨
      (∃ n, read source = .error (.refused (.tooManyDigits n))) ∧ HoldsLongInteger source) ∧
    ((∃ found : Path × Content → List Diagnostic,
        (∀ file ∈ sources, (check s file.1 file.2).diagnostics = .ok (found file)) ∧
        (checkAll s sources).findings =
          .ok (sources.flatMap fun file => (found file).map (Finding.mk file.1)) ∧
        ∃ outcome, report s sources = .ok outcome) ∨
      ∃ file ∈ sources, file.1.holdsNull = true ∨ FileHoldsLongInteger file.2) := by
  refine ⟨read_cases source, ?_⟩
  by_cases hbad : ∃ file ∈ sources, file.1.holdsNull = true ∨ FileHoldsLongInteger file.2
  · exact .inr hbad
  · left
    let found (file : Path × Content) : List Diagnostic :=
      ((check s file.1 file.2).diagnostics.toOption).getD []
    have hfound : ∀ file ∈ sources, (check s file.1 file.2).diagnostics = .ok (found file) := by
      intro file hfile
      rcases exists_diagnostics s file.1 file.2 with ⟨ds, hds⟩ | hfails
      · simp only [found, hds]
        rfl
      · exact absurd ⟨file, hfile, hfails⟩ hbad
    have hfindings := findings_checkAll hfound
    obtain ⟨outcome, houtcome, -⟩ := exitCode_report s sources _ hfindings
    exact ⟨found, hfound, hfindings, outcome, houtcome⟩

/-- Nines, one more than an integer may have, are refused without a place. -/
theorem read_nines_unlocated : ¬ ∀ source, (∃ t, read source = .ok t) ∨
    ∃ e p, read source = .error e ∧ e.point? = some p := by
  intro h
  have hread : read (List.replicate 4301 '9' ++ [' ']) =
      .error (.refused (.tooManyDigits (List.replicate 4301 '9').length)) := by
    refine read_digits ?_ ?_
    · intro c hc
      rw [List.eq_of_mem_replicate hc]
      rfl
    · rw [List.length_replicate]
      decide
  rcases h (List.replicate 4301 '9' ++ [' ']) with ⟨t, ht⟩ | ⟨e, p, he, hp⟩
  · rw [hread] at ht
    cases ht
  · rw [hread] at he
    cases he
    cases hp

end CommandLine

end ManifestLint
