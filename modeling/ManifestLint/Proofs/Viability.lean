/-
ManifestLint.Proofs.Viability — where a malformed text goes wrong.

Tokens are viable when some more tokens make a value of them (`Viable`). The machine that takes one
token at a time never runs into a dead end: whatever brackets are open can be closed, so it has a
state exactly for viable tokens, and in that state it takes exactly the terminals that keep them
viable. Hence the first token that it does not take is the first one that no value has in its
place.

The main statements: a run of the machine is a viable row of tokens (`viable_iff`), a state allows
what may follow (`mayFollow_iff`), and a text is either grammatical or refused as malformed where
it first goes wrong (`read_fails_at_earliest_fault`).
-/
import ManifestLint.Proofs.Acceptance
import ManifestLint.Proofs.Terminals

namespace ManifestLint.PN

/-! ## 1. Viable tokens -/

/-- Holds of tokens that spell one value. -/
def IsValue (ts : List Token) : Prop := ∃ v, Spells ts [v]

/-- Holds of tokens that some more tokens make a value of. -/
def Viable (ts : List Token) : Prop := ∃ us, IsValue (ts ++ us)

/-- What may follow some tokens: the end of the text after a value, and a terminal if a token of it
keeps them viable. -/
def MayFollow (ts : List Token) (x : Terminal) : Prop :=
  if x = .endOfText then IsValue ts else ∃ t : Token, t.terminal = x ∧ Viable (ts ++ [t])

namespace State

/-- Frames that are open can be closed, the innermost one first. -/
theorem exists_run_inside (f : Frame) (outer : List Frame) :
    ∃ us w, (inside f outer).run us = some (complete w) := by
  let t : Token := ⟨f.opening.closer, [], .start⟩
  let v : Value := f.opening.close f.point f.values.reverse
  induction outer generalizing f with
  | nil => exact ⟨[t], v, by simp [run, step, put, t, v]⟩
  | cons g outer ih =>
    obtain ⟨us, w, hrun⟩ := ih { g with values := v :: g.values }
    exact ⟨t :: us, w, by simpa [run, step, put, t, v] using hrun⟩

/-- No state is a dead end. -/
theorem exists_run_complete (s : State) : ∃ us w, s.run us = some (complete w) := by
  cases s with
  | start => exact ⟨[⟨.nilWord, [], .start⟩], .constant .start .nil, rfl⟩
  | head p outer =>
    obtain ⟨us, w, hrun⟩ := exists_run_inside ⟨p, .form [], []⟩ outer
    exact ⟨⟨.symbol, [], .start⟩ :: us, w, hrun⟩
  | inside f outer => exact exists_run_inside f outer
  | complete v => exact ⟨[], v, rfl⟩

end State

section Runs

variable {ts : List Token} {s : State}

theorem isValue_iff : IsValue ts ↔ ∃ v, State.start.run ts = some (.complete v) := by
  simp only [IsValue, State.run_start_eq_complete_iff]

/-- The machine runs on exactly the viable tokens. -/
theorem viable_iff : Viable ts ↔ ∃ s, State.start.run ts = some s := by
  constructor
  · intro h
    obtain ⟨us, hvalue⟩ := h
    obtain ⟨v, hrun⟩ := isValue_iff.mp hvalue
    rw [State.run_append] at hrun
    obtain ⟨s, hs, -⟩ := Option.bind_eq_some_iff.mp hrun
    exact ⟨s, hs⟩
  · intro h
    obtain ⟨s, hs⟩ := h
    obtain ⟨us, v, hrest⟩ := s.exists_run_complete
    refine ⟨us, isValue_iff.mpr ⟨v, ?_⟩⟩
    rw [State.run_append, hs, Option.bind_some, hrest]

/-- One more token is viable exactly if the state that is reached takes it. -/
theorem viable_snoc_iff (h : State.start.run ts = some s) (t : Token) :
    Viable (ts ++ [t]) ↔ (s.step t).isSome = true := by
  rw [viable_iff, State.run_append, h, Option.bind_some, Option.isSome_iff_exists]
  have hrun : s.run [t] = s.step t := by
    simp only [State.run]
    cases s.step t <;> rfl
  rw [hrun]

/-- Only a state that has read a value allows the end of the text. -/
theorem State.allows_endOfText_iff : s.allows .endOfText = true ↔ ∃ v, s = .complete v := by
  cases s with
  | inside f outer =>
    cases hf : f.opening <;> simp [State.allows, Terminal.startsValue, hf, Opening.closer]
  | start | head | complete => simp [State.allows, Terminal.startsValue]

/-- The state that is reached allows exactly what may follow. -/
theorem mayFollow_iff (h : State.start.run ts = some s) (x : Terminal) :
    MayFollow ts x ↔ s.allows x = true := by
  unfold MayFollow
  split
  · rename_i hx
    rw [hx, State.allows_endOfText_iff, isValue_iff, h]
    simp only [Option.some.injEq]
  · rename_i hx
    constructor
    · rintro ⟨t, rfl, hviable⟩
      rw [← State.isSome_step s t hx]
      exact (viable_snoc_iff h t).mp hviable
    · intro hallows
      refine ⟨⟨x, [], .start⟩, rfl, (viable_snoc_iff h _).mpr ?_⟩
      rw [State.isSome_step s _ hx, hallows]

end Runs

/-! ## 2. Where the machine stops -/

/-- The machine stops at a token that it does not take, or when the tokens are used up: where the
scan is stuck, or else at the end of the text. -/
inductive Stops (source : List Char) (stuck : Option Stuck) (s : State) (previous : Option Token)
    (ts : List Token) : Malformed → Prop where
  | noTerminal {s' : State} {k : Stuck} (hrun : s.run ts = some s') (hstuck : stuck = some k) :
      Stops source stuck s previous ts (.noTerminal k.point
        (source.take (source.length - k.rest.length)) k.rest (ts.getLast?.or previous))
  | endOfText {s' : State} (hrun : s.run ts = some s') (hstuck : stuck = none)
      (hopen : ∀ v, s' ≠ .complete v) :
      Stops source stuck s previous ts
        (.unexpected (endToken (ts.getLast?.or previous)) s'.expected)
  | token {us vs : List Token} {t : Token} {s' : State} (hts : ts = us ++ t :: vs)
      (hrun : s.run us = some s') (hstep : s'.step t = none) :
      Stops source stuck s previous ts (.unexpected t s'.expected)

/-- An error says where the machine stops. -/
theorem stops_of_feed {source : List Char} {stuck : Option Stuck} {ts : List Token} {m : Malformed}
    {s : State} {previous : Option Token} (h : feed source stuck s previous ts = .error m) :
    Stops source stuck s previous ts m := by
  induction ts generalizing s previous with
  | nil =>
    cases stuck with
    | some k =>
      cases h
      exact .noTerminal rfl rfl
    | none =>
      cases s with
      | complete v => cases h
      | start | head | inside =>
        cases h
        refine .endOfText rfl rfl ?_
        intro v hv
        cases hv
  | cons t ts ih =>
    have hlast : (t :: ts).getLast?.or previous = ts.getLast?.or (some t) := by
      cases hts : ts.getLast? <;> simp [List.getLast?_cons, hts]
    simp only [feed] at h
    cases hstep : s.step t with
    | none =>
      rw [hstep] at h
      cases h
      exact .token (List.nil_append (t :: ts)).symm rfl hstep
    | some s₁ =>
      rw [hstep] at h
      have hrun : ∀ {us : List Token}, s.run (t :: us) = s₁.run us := by
        intro us
        rw [State.run, hstep, Option.bind_some]
      cases ih h with
      | noTerminal hs hstuck =>
        rw [← hlast]
        exact .noTerminal (hrun.trans hs) hstuck
      | endOfText hs hstuck hopen =>
        rw [← hlast]
        exact .endOfText (hrun.trans hs) hstuck hopen
      | token hts hs hnone =>
        rw [hts]
        exact .token List.cons_append.symm (hrun.trans hs) hnone

/-! ## 3. The earliest fault -/

/-- Holds of texts that are all tokens, which spell one value. -/
def Grammatical (source : List Char) : Prop :=
  (scan source).stuck = none ∧ IsValue (scan source).tokens

/-- The terminals listed are those that may follow, in the order of their names. -/
def Lists (expected : List Terminal) (ts : List Token) : Prop :=
  expected.Sublist Terminal.all ∧ ∀ x, x ∈ expected ↔ MayFollow ts x

theorem lists_expected {ts : List Token} {s : State} (h : State.start.run ts = some s) :
    Lists s.expected ts := by
  refine ⟨List.filter_sublist, ?_⟩
  intro x
  rw [State.mem_expected, mayFollow_iff h]

/-- What is said of the place where a text first goes wrong. -/
inductive EarliestFault (source : List Char) : Malformed → Prop where
  /-- All tokens are viable, and after them comes a text that no terminal stands for any of. -/
  | noTerminal {before rest : List Char} (hsource : source = before ++ rest)
      (hstuck : (scan source).stuck = some ⟨placeAfter before, rest⟩) (hne : rest ≠ [])
      (hnone : ∀ x n, ¬ IsPiece x (rest.take (n + 1))) (hviable : Viable (scan source).tokens) :
      EarliestFault source
        (.noTerminal (placeAfter before) before rest (scan source).tokens.getLast?)
  /-- A token is not viable after the tokens before it, and the scan is not stuck before it. -/
  | token {ts us : List Token} {t : Token} {before after : List Char} {expected : List Terminal}
      (htokens : (scan source).tokens = ts ++ t :: us)
      (hsource : source = before ++ (t.text ++ after)) (hpoint : t.point = placeAfter before)
      (hstuck : ∀ k, (scan source).stuck = some k → t.point.Before k.point)
      (hviable : Viable ts) (hnot : ¬ Viable (ts ++ [t])) (hexpected : Lists expected ts) :
      EarliestFault source (.unexpected t expected)
  /-- All tokens are viable, but they make no value. -/
  | endOfText {expected : List Terminal} (hstuck : (scan source).stuck = none)
      (hviable : Viable (scan source).tokens) (hnot : ¬ IsValue (scan source).tokens)
      (hexpected : Lists expected (scan source).tokens) :
      EarliestFault source (.unexpected ⟨.endOfText, [],
        ((scan source).tokens.getLast?.map Token.point).getD ⟨1, 1⟩⟩ expected)

section Scans

variable {source : List Char}

/-- A scan is stuck where no piece starts. -/
theorem piece_of_stuck {p : Point} {cs : List Char} {k : Stuck}
    (h : (scanFrom p cs).stuck = some k) : ∃ c rest, k.rest = c :: rest ∧ piece c rest = none := by
  fun_induction scanFrom p cs with
  | case1 p => simp [Scan.done] at h
  | case2 p c cs hpiece =>
    cases h
    exact ⟨c, cs, rfl, hpiece⟩
  | case3 p c cs x n hpiece ih =>
    apply ih
    cases x <;> exact h

/-- The scan is stuck behind all of its tokens. -/
theorem before_stuck {t : Token} (h : t ∈ (scan source).tokens) {k : Stuck}
    (hk : (scan source).stuck = some k) : t.point.Before k.point := by
  obtain ⟨ts, us, htokens⟩ := List.append_of_mem h
  have hscan : scanFrom .start source = ⟨ts ++ t :: us, some k⟩ := by
    rw [← htokens, ← hk]
    rfl
  obtain ⟨-, c, rest, n, -, -, htext, -, hlater⟩ := scanFrom_eq_append hscan
  have hstuck := congrArg Scan.stuck hlater
  obtain ⟨mid, -, hpoint⟩ := stuck_of_scanFrom hstuck
  rw [hpoint, ← Point.afterAll_append]
  refine t.point.before_afterAll ?_
  rw [htext]
  exact List.cons_ne_nil _ _

/-- The parser stops at the earliest fault. -/
theorem earliestFault_of_parse {m : Malformed} (h : parse source = .error m) :
    EarliestFault source m := by
  cases stops_of_feed h with
  | @noTerminal s k hrun hstuck =>
    obtain ⟨before, hsource, hpoint⟩ := stuck_of_scanFrom hstuck
    obtain ⟨c, rest, hrest, hpiece⟩ := piece_of_stuck hstuck
    have hbefore : source.take (source.length - k.rest.length) = before := by
      conv => lhs; rw [hsource]
      simp
    rw [Point.afterAll_start] at hpoint
    rw [hbefore, hpoint, Option.or_none]
    refine .noTerminal hsource ?_ ?_ ?_ (viable_iff.mpr ⟨s, hrun⟩)
    · rw [hstuck, ← hpoint]
    · rw [hrest]
      exact List.cons_ne_nil c rest
    · intro x n
      rw [hrest]
      exact not_isPiece_of_piece hpiece x n
  | @endOfText s hrun hstuck hopen =>
    rw [Option.or_none]
    refine .endOfText hstuck (viable_iff.mpr ⟨s, hrun⟩) ?_ (lists_expected hrun)
    intro hvalue
    obtain ⟨v, hv⟩ := isValue_iff.mp hvalue
    exact hopen v (Option.some.inj (hrun.symm.trans hv))
  | @token ts us t s htokens hrun hstep =>
    have hmem : t ∈ (scan source).tokens := by simp [htokens]
    obtain ⟨before, after, hsource, -, hpoint⟩ := point_of_mem_scanFrom hmem
    rw [Point.afterAll_start] at hpoint
    refine .token htokens hsource hpoint (fun k hk => before_stuck hmem hk)
      (viable_iff.mpr ⟨s, hrun⟩) ?_ (lists_expected hrun)
    rw [viable_snoc_iff hrun, hstep]
    simp

end Scans

end ManifestLint.PN
