/-
ManifestLint.Proofs.Faithful — what a tree tells about the text that it was read from.

Trees that are equal but for their locations have the same lexemes, floats compared as
numbers. Since the tokens of a text mean the lexemes of its tree, two texts with equal trees
are the same but for layout and the spelling of strings and numbers.

The main statements: equal trees have the same lexemes (`same_lexemes_of_same`), and so the
texts that they were read from are alike, token by token (`alike_of_same_trees`).
-/
import ManifestLint.Proofs.Lexeme
import Mathlib

namespace ManifestLint.PN

/-! ## 1. Lexemes that are the same -/

namespace Lexeme

/-- Equality of lexemes, floats compared as numbers. -/
def Same : Lexeme → Lexeme → Prop
  | float x, float y => x.numericEq y = true
  | a, b => a = b

theorem terminal_of_same {a b : Lexeme} (h : a.Same b) : a.terminal = b.terminal := by
  unfold Same at h
  split at h
  · rfl
  · rw [h]

end Lexeme

/-- Rows of equal lexemes that are no floats. -/
theorem same_refl_of_ne_float {ls : List Lexeme} (h : ∀ x, Lexeme.float x ∉ ls) :
    List.Forall₂ Lexeme.Same ls ls := by
  rw [List.forall₂_same]
  intro l hl
  unfold Lexeme.Same
  split
  · exact absurd hl (h _)
  · rfl

section Spread

variable {ps qs : List (List Lexeme)}

theorem same_getLast? (h : List.Forall₂ (List.Forall₂ Lexeme.Same) ps qs) :
    List.Forall₂ Lexeme.Same (ps.getLast?.getD []) (qs.getLast?.getD []) := by
  induction h with
  | nil => exact .nil
  | @cons p q ps qs hpq hrest ih =>
    cases hrest with
    | nil => exact hpq
    | cons hpq' hrest =>
      rw [List.getLast?_cons_cons, List.getLast?_cons_cons]
      exact ih

/-- Parts with the same lexemes are written the same. -/
theorem same_spread (f : Form) (h : List.Forall₂ (List.Forall₂ Lexeme.Same) ps qs) :
    List.Forall₂ Lexeme.Same (f.spread ps) (f.spread qs) := by
  unfold Form.spread
  split
  · have hinit : List.Forall₂ (List.Forall₂ Lexeme.Same) ps.dropLast qs.dropLast := by
      rw [List.dropLast_eq_take, List.dropLast_eq_take, h.length_eq]
      exact List.forall₂_take _ h
    exact .cons rfl (List.rel_append (List.rel_flatten hinit) (.cons rfl (same_getLast? h)))
  · exact List.rel_flatten h

end Spread

/-! ## 2. Equal trees -/

/-- Equal heads over parts with the same lexemes have the same lexemes. -/
theorem same_lexemes_of_heads {h h' : Head} {ps qs : List (List Lexeme)} (hs : h.same h' = true)
    (hparts : List.Forall₂ (List.Forall₂ Lexeme.Same) ps qs) :
    List.Forall₂ Lexeme.Same (h.lexemes ps) (h'.lexemes qs) := by
  unfold Head.same at hs
  split at hs
  · exact .cons hs .nil
  · rename_i hfloat
    obtain rfl := of_decide_eq_true hs
    unfold Head.lexemes
    split
    · refine same_refl_of_ne_float ?_
      intro x hx
      cases h with
      | float y => exact hfloat y y rfl rfl
      | boolean b => cases b <;> simp [Head.literal?] at hx
      | _ => simp [Head.literal?] at hx
    · rename_i f _
      have htexts : List.Forall₂ Lexeme.Same (h.texts.map .text) (h.texts.map .text) :=
        same_refl_of_ne_float (by simp)
      have hclose : List.Forall₂ Lexeme.Same [.rightParen] [.rightParen] := .cons rfl .nil
      have hrest := List.rel_append htexts (List.rel_append (same_spread f hparts) hclose)
      exact .cons rfl (.cons rfl hrest)

mutual

/-- Equal trees have the same lexemes. -/
theorem same_lexemes_of_same :
    ∀ {t u : Tree}, t.same u = true → List.Forall₂ Lexeme.Same t.lexemes u.lexemes
  | .node h l ps, .node h' l' ps', hs => by
    simp only [Tree.same, Bool.and_eq_true] at hs
    obtain ⟨⟨hheads, -⟩, hparts⟩ := hs
    exact same_lexemes_of_heads hheads (same_lexemes_of_sameAll hparts)
  | .foreign _, .foreign _, _ => .nil
  | .node .., .foreign _, hs | .foreign _, .node .., hs => by simp [Tree.same] at hs

theorem same_lexemes_of_sameAll :
    ∀ {ts us : List Tree}, Tree.sameAll ts us = true →
      List.Forall₂ (List.Forall₂ Lexeme.Same) (Tree.lexemesOfParts ts) (Tree.lexemesOfParts us)
  | [], [], _ => .nil
  | t :: ts, u :: us, hs => by
    simp only [Tree.sameAll, Bool.and_eq_true] at hs
    exact .cons (same_lexemes_of_same hs.1) (same_lexemes_of_sameAll hs.2)
  | [], _ :: _, hs | _ :: _, [], hs => by simp [Tree.sameAll] at hs

end

/-! ## 3. Tokens that are alike -/

/-- Tokens of one terminal, which tells brackets and words that are values apart: symbols with
the same characters, strings that mean the same text, numbers of one sort with the same value. -/
def Token.Alike (t u : Token) : Prop :=
  t.terminal = u.terminal ∧
    match t.terminal with
    | .symbol => t.text = u.text
    | .string => ∃ x, StringLiteral.decode (StringLiteral.content t.text) = some x ∧
        StringLiteral.decode (StringLiteral.content u.text) = some x
    | .number => Numeral.isFloat t.text = Numeral.isFloat u.text ∧
        if Numeral.isFloat t.text then
          (Numeral.float t.text).numericEq (Numeral.float u.text) = true
        else ∃ n, Numeral.integer t.text = .ok n ∧ Numeral.integer u.text = .ok n
    | _ => True

/-- Tokens that mean the same are alike. -/
theorem alike_of_meaning {t u : Token} {a b : Lexeme} (ht : t.meaning = some a)
    (hu : u.meaning = some b) (h : a.Same b) : t.Alike u := by
  have hterminal : t.terminal = u.terminal := by
    rw [terminal_of_meaning ht, terminal_of_meaning hu, Lexeme.terminal_of_same h]
  refine ⟨hterminal, ?_⟩
  rw [terminal_of_meaning ht]
  cases a with
  | leftParen | rightParen | leftBracket | rightBracket => trivial
  | constant word => cases word <;> trivial
  | word symbol =>
    obtain rfl : Lexeme.word symbol = b := h
    exact (text_of_meaning ht).trans (text_of_meaning hu).symm
  | text x =>
    obtain rfl : Lexeme.text x = b := h
    exact ⟨x, decode_of_meaning ht, decode_of_meaning hu⟩
  | integer n =>
    obtain rfl : Lexeme.integer n = b := h
    obtain ⟨hf, hn⟩ := integer_of_meaning ht
    obtain ⟨hf', hn'⟩ := integer_of_meaning hu
    refine ⟨hf.trans hf'.symm, ?_⟩
    rw [if_neg (by simp [hf])]
    exact ⟨n, hn, hn'⟩
  | float x =>
    cases b with
    | float y =>
      obtain ⟨hf, hx⟩ := float_of_meaning ht
      obtain ⟨hf', hy⟩ := float_of_meaning hu
      refine ⟨hf.trans hf'.symm, ?_⟩
      rw [if_pos hf, hx, hy]
      exact h
    | _ => cases h

/-- Tokens that mean the same lexemes are alike one by one. -/
theorem alike_of_map_meaning {ls ls' : List Lexeme} (h : List.Forall₂ Lexeme.Same ls ls')
    {ts ts' : List Token} (hts : ts.map Token.meaning = ls.map some)
    (hts' : ts'.map Token.meaning = ls'.map some) : List.Forall₂ Token.Alike ts ts' := by
  induction h generalizing ts ts' with
  | nil =>
    rw [List.map_nil, List.map_eq_nil_iff] at hts hts'
    rw [hts, hts']
    exact .nil
  | cons hab _ ih =>
    rw [List.map_cons, List.map_eq_cons_iff] at hts hts'
    obtain ⟨t, rest, rfl, ht, hrest⟩ := hts
    obtain ⟨t', rest', rfl, ht', hrest'⟩ := hts'
    exact .cons (alike_of_meaning ht ht' hab) (ih hrest hrest')

/-! ## 4. Source texts -/

/-- The tokens of a text that is read mean the lexemes of its tree. -/
theorem map_meaning_of_read {source : List Char} {t : Tree} (h : read source = .ok t) :
    (scan source).tokens.map Token.meaning = t.lexemes.map some := by
  obtain ⟨v, hv, ht⟩ := read_eq_ok_iff.mp h
  have hspells := (parse_eq_ok_iff.mp hv).2
  rw [map_meaning_of_spells hspells, List.flatMap_singleton, lexemes_of_tree v t ht]

/-- Texts whose trees are equal but for locations have as many tokens, one like the other. -/
theorem alike_of_same_trees {source source' : List Char} {t t' : Tree}
    (h : read source = .ok t) (h' : read source' = .ok t')
    (hsame : t.unlocated.same t'.unlocated = true) :
    List.Forall₂ Token.Alike (scan source).tokens (scan source').tokens := by
  have hlexemes := same_lexemes_of_same hsame
  rw [Tree.lexemes_unlocated, Tree.lexemes_unlocated] at hlexemes
  exact alike_of_map_meaning hlexemes (map_meaning_of_read h) (map_meaning_of_read h')

/-- A comment, a line end, an escape and leading zeros make no difference. -/
theorem alike_respelled_array :
    List.Forall₂ Token.Alike (scan "(array \"a\" 10)".toList).tokens
      (scan "( array ;two\n\"\\x61\" +0010)".toList).tokens := by
  have h : read "(array \"a\" 10)".toList = .ok (.node .array (.point (some 1) (some 1))
      [.node (.string [97]) (.point (some 1) (some 8)) [],
        .node (.integer 10) (.point (some 1) (some 12)) []]) := by cbv
  have h' : read "( array ;two\n\"\\x61\" +0010)".toList =
      .ok (.node .array (.point (some 1) (some 1))
        [.node (.string [97]) (.point (some 2) (some 1)) [],
          .node (.integer 10) (.point (some 2) (some 8)) []]) := by cbv
  exact alike_of_same_trees h h' rfl

end ManifestLint.PN
