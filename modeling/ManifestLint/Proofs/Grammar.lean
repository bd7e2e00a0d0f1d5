/-
ManifestLint.Proofs.Grammar — the grammar of PN as derivations.

`Spells` is the context-free grammar itself: which tokens spell which values. The machine
that takes one token at a time keeps frames for the brackets still open, so what it has
read is described by its state as well (`State.Read`): every open frame accounts for the
tokens since its bracket, and a complete value for all of them.

The main statements: a step keeps that description (`read_step`), hence so does a run;
tokens that spell values take the machine past those values (`run_of_spells`); and a text
parses to a value exactly when it scans to its end and its tokens spell that one value
(`parse_eq_ok_iff`).
-/
import ManifestLint.PN.Value

namespace ManifestLint.PN

/-! ## 1. Derivations -/

/-- The terminal of a word that is a value. -/
def Constant.terminal : Constant → Terminal
  | .yes => .trueWord
  | .no => .falseWord
  | .nil => .nilWord

/-- The grammar: tokens that spell a row of values, one after another. -/
inductive Spells : List Token → List Value → Prop where
  | nil : Spells [] []
  | string {t : Token} {ts : List Token} {vs : List Value} (ht : t.terminal = .string)
      (rest : Spells ts vs) : Spells (t :: ts) (.string t.point t.text :: vs)
  | number {t : Token} {ts : List Token} {vs : List Value} (ht : t.terminal = .number)
      (rest : Spells ts vs) : Spells (t :: ts) (.number t.point t.text :: vs)
  | constant {t : Token} {word : Constant} {ts : List Token} {vs : List Value}
      (ht : t.terminal = word.terminal) (rest : Spells ts vs) :
      Spells (t :: ts) (.constant t.point word :: vs)
  | form {l s r : Token} {inner ts : List Token} {arguments vs : List Value}
      (hl : l.terminal = .leftParen) (hs : s.terminal = .symbol) (hr : r.terminal = .rightParen)
      (body : Spells inner arguments) (rest : Spells ts vs) :
      Spells (l :: s :: (inner ++ r :: ts)) (.form l.point s.text arguments :: vs)
  | list {l r : Token} {inner ts : List Token} {items vs : List Value}
      (hl : l.terminal = .leftBracket) (hr : r.terminal = .rightBracket)
      (body : Spells inner items) (rest : Spells ts vs) :
      Spells (l :: (inner ++ r :: ts)) (.list l.point items :: vs)

namespace Spells

theorem append {ts us : List Token} {vs ws : List Value} (h : Spells ts vs) (h' : Spells us ws) :
    Spells (ts ++ us) (vs ++ ws) := by
  induction h with
  | nil => exact h'
  | string ht _ ih => exact .string ht ih
  | number ht _ ih => exact .number ht ih
  | constant ht _ ih => exact .constant ht ih
  | form hl hs hr body _ _ ih =>
    simpa only [List.cons_append, List.append_assoc] using Spells.form hl hs hr body ih
  | list hl hr body _ _ ih =>
    simpa only [List.cons_append, List.append_assoc] using Spells.list hl hr body ih

/-- What spells no value is no token. -/
theorem eq_nil {ts : List Token} (h : Spells ts []) : ts = [] := by
  cases h
  rfl

end Spells

/-! ## 2. Runs of the machine -/

namespace State

/-- Takes tokens one after another. -/
def run (s : State) : List Token → Option State
  | [] => some s
  | t :: ts => (s.step t).bind fun s' => s'.run ts

theorem run_append (s : State) (ts us : List Token) :
    s.run (ts ++ us) = (s.run ts).bind fun s' => s'.run us := by
  induction ts generalizing s with
  | nil => rfl
  | cons t ts ih =>
    simp only [List.cons_append, run]
    cases s.step t with
    | none => rfl
    | some s' => exact ih s'

end State

/-- Feeding succeeds when the scan came to its end and the run to a complete value. -/
theorem feed_eq_ok_iff {source : List Char} {stuck : Option Stuck} {v : Value} (ts : List Token)
    (s : State) (previous : Option Token) :
    feed source stuck s previous ts = .ok v ↔ stuck = none ∧ s.run ts = some (.complete v) := by
  induction ts generalizing s previous with
  | nil => cases stuck <;> cases s <;> simp [feed, State.run]
  | cons t ts ih =>
    simp only [feed, State.run]
    cases s.step t with
    | none => simp
    | some s' => exact ih s' (some t)

/-! ## 3. What a state has read -/

/-- The tokens read while these frames are open. -/
inductive Opened : List Frame → List Token → Prop where
  | nil : Opened [] []
  | form {outer : List Frame} {before inner : List Token} {l s : Token} {values : List Value}
      (below : Opened outer before) (hl : l.terminal = .leftParen) (hs : s.terminal = .symbol)
      (body : Spells inner values.reverse) :
      Opened (⟨l.point, .form s.text, values⟩ :: outer) (before ++ l :: s :: inner)
  | list {outer : List Frame} {before inner : List Token} {l : Token} {values : List Value}
      (below : Opened outer before) (hl : l.terminal = .leftBracket)
      (body : Spells inner values.reverse) :
      Opened (⟨l.point, .list, values⟩ :: outer) (before ++ l :: inner)

namespace State

/-- The tokens that lead from the start to a state. -/
def Read : State → List Token → Prop
  | start, ts => ts = []
  | head p outer, ts => ∃ before l, ts = before ++ [l] ∧ l.terminal = .leftParen ∧ l.point = p ∧
      Opened outer before
  | inside f outer, ts => Opened (f :: outer) ts
  | complete v, ts => Spells ts [v]

/-- A complete value goes on with what the open frames have read. -/
theorem read_put {outer : List Frame} {before ts : List Token} {v : Value}
    (below : Opened outer before) (h : Spells ts [v]) : (put v outer).Read (before ++ ts) := by
  cases below with
  | nil => exact h
  | form below hl hs body =>
    have hbody := body.append h
    rw [← List.reverse_cons] at hbody
    simpa [put, Read] using Opened.form below hl hs hbody
  | list below hl body =>
    have hbody := body.append h
    rw [← List.reverse_cons] at hbody
    simpa [put, Read] using Opened.list below hl hbody

/-- A token that starts a value is read. -/
theorem read_begin {outer : List Frame} {before : List Token} {t : Token} {s : State}
    (below : Opened outer before) (h : begin t outer = some s) : s.Read (before ++ [t]) := by
  unfold begin at h
  split at h
  case h_1 ht =>
    cases h
    exact ⟨before, t, rfl, ht, rfl, below⟩
  case h_2 ht =>
    cases h
    exact Opened.list below ht .nil
  case h_3 ht => cases h; exact read_put below (.string ht .nil)
  case h_4 ht => cases h; exact read_put below (.number ht .nil)
  case h_5 ht => cases h; exact read_put below (.constant ht .nil)
  case h_6 ht => cases h; exact read_put below (.constant ht .nil)
  case h_7 ht => cases h; exact read_put below (.constant ht .nil)
  case h_8 => cases h

/-- The token that closes a frame completes its value. -/
theorem read_close {f : Frame} {outer : List Frame} {ts : List Token} {t : Token}
    (h : Opened (f :: outer) ts) (ht : t.terminal = f.opening.closer) :
    (put (f.opening.close f.point f.values.reverse) outer).Read (ts ++ [t]) := by
  cases h with
  | form below hl hs body =>
    rw [List.append_assoc]
    exact read_put below (.form hl hs ht body .nil)
  | list below hl body =>
    rw [List.append_assoc]
    exact read_put below (.list hl ht body .nil)

/-- A step keeps the account of what was read. -/
theorem read_step {s s' : State} {ts : List Token} {t : Token} (h : s.Read ts)
    (hstep : s.step t = some s') : s'.Read (ts ++ [t]) := by
  cases s with
  | start =>
    cases h
    exact read_begin .nil hstep
  | head p outer =>
    obtain ⟨before, l, rfl, hl, rfl, below⟩ := h
    simp only [step] at hstep
    split at hstep
    · cases hstep
      simpa [Read] using Opened.form below hl ‹_› .nil
    · cases hstep
  | inside f outer =>
    simp only [step] at hstep
    split at hstep
    · cases hstep
      exact read_close h ‹_›
    · exact read_begin h hstep
  | complete v => simp [step] at hstep

/-- A run keeps the account of what was read. -/
theorem read_run {s s' : State} {ts us : List Token} (h : s.Read ts)
    (hrun : s.run us = some s') : s'.Read (ts ++ us) := by
  induction us generalizing s ts with
  | nil =>
    cases hrun
    simpa using h
  | cons u us ih =>
    obtain ⟨s₁, hstep, hrest⟩ := Option.bind_eq_some_iff.mp hrun
    simpa using ih (read_step h hstep) hrest

/-! ## 4. Derivations run -/

/-- Holds of a state that starts a value inside of `outer` on every token that starts one. -/
def Awaits (s : State) (outer : List Frame) : Prop :=
  ∀ t : Token, t.terminal.startsValue = true → s.step t = begin t outer

theorem awaits_start : Awaits start [] := fun _ _ => rfl

theorem awaits_inside (f : Frame) (outer : List Frame) : Awaits (inside f outer) (f :: outer) := by
  intro t ht
  have hne : t.terminal ≠ f.opening.closer := by
    intro h
    rw [h] at ht
    cases hf : f.opening <;> simp [hf, Opening.closer, Terminal.startsValue] at ht
  simp [step, hne]

variable {s : State} {outer : List Frame} {ts : List Token}

theorem run_string (ha : s.Awaits outer) {t : Token} (ht : t.terminal = .string) :
    s.run (t :: ts) = (put (.string t.point t.text) outer).run ts := by
  simp [run, ha t (by rw [ht]; rfl), begin, ht]

theorem run_number (ha : s.Awaits outer) {t : Token} (ht : t.terminal = .number) :
    s.run (t :: ts) = (put (.number t.point t.text) outer).run ts := by
  simp [run, ha t (by rw [ht]; rfl), begin, ht]

theorem run_constant (ha : s.Awaits outer) {t : Token} {word : Constant}
    (ht : t.terminal = word.terminal) :
    s.run (t :: ts) = (put (.constant t.point word) outer).run ts := by
  have hs : t.terminal.startsValue = true := by rw [ht]; cases word <;> rfl
  cases word <;> simp [run, ha t hs, begin, ht, Constant.terminal]

/-- A form runs as its body does inside of a fresh frame. -/
theorem run_form (ha : s.Awaits outer) {l w r : Token} {inner : List Token}
    {arguments : List Value} (hl : l.terminal = .leftParen) (hw : w.terminal = .symbol)
    (hr : r.terminal = .rightParen)
    (hbody : ∀ f outer, (inside f outer).run inner =
      some (inside { f with values := arguments.reverse ++ f.values } outer)) :
    s.run (l :: w :: (inner ++ r :: ts)) = (put (.form l.point w.text arguments) outer).run ts := by
  have hopen : s.step l = some (head l.point outer) := by
    rw [ha l (by rw [hl]; rfl)]
    simp [begin, hl]
  have hword : (head l.point outer).step w = some (inside ⟨l.point, .form w.text, []⟩ outer) := by
    simp [step, hw]
  have hclose : (inside ⟨l.point, .form w.text, arguments.reverse⟩ outer).step r =
      some (put (.form l.point w.text arguments) outer) := by
    simp [step, Opening.closer, hr, Opening.close]
  simp only [run, run_append, hopen, hword, hbody, List.append_nil, hclose, Option.bind_some]

/-- A list runs as its items do inside of a fresh frame. -/
theorem run_list (ha : s.Awaits outer) {l r : Token} {inner : List Token} {items : List Value}
    (hl : l.terminal = .leftBracket) (hr : r.terminal = .rightBracket)
    (hbody : ∀ f outer, (inside f outer).run inner =
      some (inside { f with values := items.reverse ++ f.values } outer)) :
    s.run (l :: (inner ++ r :: ts)) = (put (.list l.point items) outer).run ts := by
  have hopen : s.step l = some (inside ⟨l.point, .list, []⟩ outer) := by
    rw [ha l (by rw [hl]; rfl)]
    simp [begin, hl]
  have hclose : (inside ⟨l.point, .list, items.reverse⟩ outer).step r =
      some (put (.list l.point items) outer) := by
    simp [step, Opening.closer, hr, Opening.close]
  simp only [run, run_append, hopen, hbody, List.append_nil, hclose, Option.bind_some]

/-- Tokens that spell values take an open frame past those values. -/
theorem run_of_spells {vs : List Value} (h : Spells ts vs) (f : Frame) (outer : List Frame) :
    (inside f outer).run ts =
      some (inside { f with values := vs.reverse ++ f.values } outer) := by
  induction h generalizing f outer with
  | nil => rfl
  | string ht _ ih => rw [run_string (awaits_inside f outer) ht, put, ih]; simp
  | number ht _ ih => rw [run_number (awaits_inside f outer) ht, put, ih]; simp
  | constant ht _ ih => rw [run_constant (awaits_inside f outer) ht, put, ih]; simp
  | form hl hs hr _ _ ihb ih => rw [run_form (awaits_inside f outer) hl hs hr ihb, put, ih]; simp
  | list hl hr _ _ ihb ih => rw [run_list (awaits_inside f outer) hl hr ihb, put, ih]; simp

/-- Tokens that spell one value take the start to it. -/
theorem run_start_of_spells {v : Value} (h : Spells ts [v]) : start.run ts = some (complete v) := by
  cases h with
  | string ht rest => rw [run_string awaits_start ht, rest.eq_nil]; rfl
  | number ht rest => rw [run_number awaits_start ht, rest.eq_nil]; rfl
  | constant ht rest => rw [run_constant awaits_start ht, rest.eq_nil]; rfl
  | form hl hs hr body rest =>
    rw [run_form awaits_start hl hs hr (run_of_spells body), rest.eq_nil]
    rfl
  | list hl hr body rest =>
    rw [run_list awaits_start hl hr (run_of_spells body), rest.eq_nil]
    rfl

/-- The machine comes to a value exactly on the tokens that spell it. -/
theorem run_start_eq_complete_iff {v : Value} :
    start.run ts = some (complete v) ↔ Spells ts [v] := by
  constructor
  · intro h
    have hstart : start.Read [] := rfl
    exact read_run hstart h
  · exact run_start_of_spells

end State

/-- A text parses to a value exactly when it scans to its end and its tokens spell the value. -/
theorem parse_eq_ok_iff {source : List Char} {v : Value} :
    parse source = .ok v ↔ (scan source).stuck = none ∧ Spells (scan source).tokens [v] := by
  rw [parse, feed_eq_ok_iff, State.run_start_eq_complete_iff]

end ManifestLint.PN
