/-
ManifestLint.Proofs.Lexeme — the tokens of a text as its tree has them.

A lexeme is what a token means, whatever its spelling and its place. The lexemes of a tree
are laid out from the tree alone: the brackets, the symbol, the texts and the parts of
each node, what is absent left out (`Tree.lexemes`).

The main statements: tokens that spell values mean the lexemes of the values
(`map_meaning_of_spells`), and these are the lexemes of the tree that a value denotes
(`lexemes_of_tree`): a tree keeps all of a text but layout and the spelling of literals.
-/
import ManifestLint.Proofs.Acceptance

namespace ManifestLint.PN

/-! ## 1. The meaning of a token -/

/-- What a token means. -/
inductive Lexeme where
  | leftParen
  | rightParen
  | leftBracket
  | rightBracket
  | word (symbol : List Char)
  | constant (word : Constant)
  | text (value : Text)
  | integer (value : Int)
  | float (value : Binary64)
  deriving DecidableEq, Repr

/-- The terminal of the tokens that mean a lexeme. -/
def Lexeme.terminal : Lexeme → Terminal
  | .leftParen => .leftParen
  | .rightParen => .rightParen
  | .leftBracket => .leftBracket
  | .rightBracket => .rightBracket
  | .word _ => .symbol
  | .constant c => c.terminal
  | .text _ => .string
  | .integer _ | .float _ => .number

/-- The text that a string token means. -/
def textMeaning (token : List Char) : Option Lexeme :=
  (StringLiteral.decode (StringLiteral.content token)).map .text

/-- The number that a number token means. -/
def numberMeaning (token : List Char) : Option Lexeme :=
  if Numeral.isFloat token then some (.float (Numeral.float token))
  else match Numeral.integer token with
    | .ok n => some (.integer n)
    | .error _ => none

/-- What a token means, if it means anything. -/
def Token.meaning (t : Token) : Option Lexeme :=
  match t.terminal with
  | .leftParen => some .leftParen
  | .rightParen => some .rightParen
  | .leftBracket => some .leftBracket
  | .rightBracket => some .rightBracket
  | .symbol => some (.word t.text)
  | .trueWord => some (.constant .yes)
  | .falseWord => some (.constant .no)
  | .nilWord => some (.constant .nil)
  | .string => textMeaning t.text
  | .number => numberMeaning t.text
  | .endOfText => none

theorem meaning_of_constant {t : Token} {word : Constant} (ht : t.terminal = word.terminal) :
    t.meaning = some (.constant word) := by
  unfold Token.meaning
  rw [ht]
  cases word <;> rfl

theorem numberMeaning_eq_some_iff {token : List Char} {a : Lexeme} :
    numberMeaning token = some a ↔
      (Numeral.isFloat token = true ∧ a = .float (Numeral.float token)) ∨
        (Numeral.isFloat token = false ∧ ∃ n, Numeral.integer token = .ok n ∧ a = .integer n) := by
  unfold numberMeaning
  cases Numeral.isFloat token with
  | true => simp [eq_comm]
  | false => cases Numeral.integer token <;> simp [eq_comm]

theorem terminal_of_meaning {t : Token} {a : Lexeme} (h : t.meaning = some a) :
    t.terminal = a.terminal := by
  unfold Token.meaning at h
  cases ht : t.terminal <;> rw [ht] at h
  case string =>
    obtain ⟨x, -, rfl⟩ := Option.map_eq_some_iff.mp h
    rfl
  case number =>
    rcases numberMeaning_eq_some_iff.mp h with ⟨-, rfl⟩ | ⟨-, n, -, rfl⟩
    · rfl
    · rfl
  all_goals
    cases h
    try rfl

/-- A token that means a word is spelled like it. -/
theorem text_of_meaning {t : Token} {word : List Char} (h : t.meaning = some (.word word)) :
    t.text = word := by
  have hterminal := terminal_of_meaning h
  unfold Token.meaning at h
  rw [hterminal] at h
  exact Lexeme.word.inj (Option.some.inj h)

/-- A token that means a text decodes to it. -/
theorem decode_of_meaning {t : Token} {x : Text} (h : t.meaning = some (.text x)) :
    StringLiteral.decode (StringLiteral.content t.text) = some x := by
  have hterminal := terminal_of_meaning h
  unfold Token.meaning at h
  rw [hterminal] at h
  obtain ⟨y, hy, heq⟩ := Option.map_eq_some_iff.mp h
  rw [hy, Lexeme.text.inj heq]

/-- A token that means an integer is read as it. -/
theorem integer_of_meaning {t : Token} {n : Int} (h : t.meaning = some (.integer n)) :
    Numeral.isFloat t.text = false ∧ Numeral.integer t.text = .ok n := by
  have hterminal := terminal_of_meaning h
  unfold Token.meaning at h
  rw [hterminal] at h
  rcases numberMeaning_eq_some_iff.mp h with ⟨-, heq⟩ | ⟨hf, m, hm, heq⟩
  · cases heq
  · rw [Lexeme.integer.inj heq]
    exact ⟨hf, hm⟩

/-- A token that means a float is read as it. -/
theorem float_of_meaning {t : Token} {x : Binary64} (h : t.meaning = some (.float x)) :
    Numeral.isFloat t.text = true ∧ Numeral.float t.text = x := by
  have hterminal := terminal_of_meaning h
  unfold Token.meaning at h
  rw [hterminal] at h
  rcases numberMeaning_eq_some_iff.mp h with ⟨hf, heq⟩ | ⟨-, m, -, heq⟩
  · exact ⟨hf, (Lexeme.float.inj heq).symm⟩
  · cases heq

/-! ## 2. The lexemes of values -/

mutual

/-- What the tokens of a value mean. -/
def Value.lexemes : Value → List (Option Lexeme)
  | .string _ token => [textMeaning token]
  | .number _ token => [numberMeaning token]
  | .constant _ word => [some (.constant word)]
  | .form _ word arguments =>
    some .leftParen :: some (.word word) :: (lexemesOfAll arguments ++ [some .rightParen])
  | .list _ items => some .leftBracket :: (lexemesOfAll items ++ [some .rightBracket])

/-- What the tokens of a row of values mean. -/
def lexemesOfAll : List Value → List (Option Lexeme)
  | [] => []
  | v :: vs => v.lexemes ++ lexemesOfAll vs

end

theorem lexemesOfAll_eq_flatMap (vs : List Value) : lexemesOfAll vs = vs.flatMap Value.lexemes := by
  induction vs with
  | nil => rfl
  | cons v vs ih => rw [lexemesOfAll, ih, List.flatMap_cons]

/-- Tokens that spell values mean what the values do. -/
theorem map_meaning_of_spells {ts : List Token} {vs : List Value} (h : Spells ts vs) :
    ts.map Token.meaning = vs.flatMap Value.lexemes := by
  induction h with
  | nil => rfl
  | string ht _ ih => simp [ih, Token.meaning, ht, Value.lexemes]
  | number ht _ ih => simp [ih, Token.meaning, ht, Value.lexemes]
  | constant ht _ ih => simp [ih, meaning_of_constant ht, Value.lexemes]
  | form hl hs hr _ _ ihb ih =>
    simp [ihb, ih, Token.meaning, hl, hs, hr, Value.lexemes, lexemesOfAll_eq_flatMap]
  | list hl hr _ _ ihb ih =>
    simp [ihb, ih, Token.meaning, hl, hr, Value.lexemes, lexemesOfAll_eq_flatMap]

/-! ## 3. The lexemes of trees -/

/-- The parts of a form's node as they are written: all but the last one stand in brackets if the
form takes a list. -/
def Form.spread (f : Form) (parts : List (List Lexeme)) : List Lexeme :=
  if f.list.isSome then
    .leftBracket :: (parts.dropLast.flatten ++ .rightBracket :: parts.getLast?.getD [])
  else parts.flatten

/-- The list of a form as it is written, if the form takes one. -/
def Form.bracketed (f : Form) (items : List Lexeme) : List Lexeme :=
  f.list.toList.flatMap fun _ => .leftBracket :: (items ++ [.rightBracket])

end ManifestLint.PN

namespace ManifestLint

open PN

namespace Head

/-- The lexeme of a literal. -/
def literal? : Head → Option Lexeme
  | string t => some (.text t)
  | integer n => some (.integer n)
  | float x => some (.float x)
  | boolean true => some (.constant .yes)
  | boolean false => some (.constant .no)
  | undef => some (.constant .nil)
  | _ => none

/-- The lexemes of a node with this head, from those of its parts. -/
def lexemes (h : Head) (parts : List (List Lexeme)) : List Lexeme :=
  match Form.ofKind? h.kind with
  | none => h.literal?.toList
  | some f =>
    .leftParen :: .word f.word.toList :: (h.texts.map .text ++ (f.spread parts ++ [.rightParen]))

end Head

namespace Tree

mutual

/-- The lexemes that a tree is written with. -/
def lexemes : Tree → List Lexeme
  | node h _ ps => h.lexemes (lexemesOfParts ps)
  | foreign _ => []

/-- The lexemes of parts, one by one. -/
def lexemesOfParts : List Tree → List (List Lexeme)
  | [] => []
  | t :: ts => t.lexemes :: lexemesOfParts ts

end

theorem lexemesOfParts_eq_map (ts : List Tree) : lexemesOfParts ts = ts.map lexemes := by
  induction ts with
  | nil => rfl
  | cons t ts ih => rw [lexemesOfParts, ih, List.map_cons]

theorem lexemes_absent : absent.lexemes = [] := rfl

mutual

/-- A tree with all its locations taken away. -/
def unlocated : Tree → Tree
  | node h _ ps => node h .unknown (unlocatedAll ps)
  | foreign x => foreign x

/-- Parts with all their locations taken away. -/
def unlocatedAll : List Tree → List Tree
  | [] => []
  | t :: ts => t.unlocated :: unlocatedAll ts

end

mutual

/-- A tree is written alike wherever it stands. -/
theorem lexemes_unlocated : ∀ t : Tree, t.unlocated.lexemes = t.lexemes
  | node h _ ps => by
    rw [unlocated, lexemes, lexemes, lexemesOfParts_unlocatedAll ps]
  | foreign _ => rfl

theorem lexemesOfParts_unlocatedAll :
    ∀ ts : List Tree, lexemesOfParts (unlocatedAll ts) = lexemesOfParts ts
  | [] => rfl
  | t :: ts => by
    rw [unlocatedAll, lexemesOfParts, lexemesOfParts, lexemes_unlocated t,
      lexemesOfParts_unlocatedAll ts]

end

end Tree

end ManifestLint

namespace ManifestLint.PN

/-! ## 4. Reading keeps the lexemes -/

/-- A form with a list has one part after the list. -/
theorem last_of_list {k : Kind} {f : Form} (hf : Form.ofKind? k = some f) (hlist : f.list.isSome)
    {first more tail : List Tree} (hcount : first.length = f.expressions)
    (hroom : f.rest.Room more.length) (htail : f.rest.padded more = some tail) :
    ∃ t, first ++ tail = [t] := by
  cases k <;> cases hf <;> cases hlist
  case caseOption =>
    match more, hroom with
    | [], _ =>
      cases htail
      rw [List.append_nil]
      exact List.length_eq_one_iff.mp hcount
  all_goals
    obtain rfl := List.eq_nil_of_length_eq_zero hcount
    match more, hroom with
    | [], _ =>
      cases htail
      exact ⟨_, rfl⟩
    | [t], _ =>
      cases htail
      exact ⟨t, rfl⟩

/-- Padding adds no lexemes. -/
theorem lexemes_of_padded {r : Rest} {more tail : List Tree} (h : r.padded more = some tail) :
    tail.flatMap Tree.lexemes = more.flatMap Tree.lexemes :=
  Rest.flatMap_of_padded Tree.lexemes_absent h

/-- The parts of a form are written row by row. -/
theorem spread_eq {k : Kind} {f : Form} (hf : Form.ofKind? k = some f)
    {items first more tail : List Tree} (h : f.Divides items first more)
    (htail : f.rest.padded more = some tail) :
    f.spread ((items ++ first ++ tail).map Tree.lexemes) =
      f.bracketed (items.flatMap Tree.lexemes) ++
        (first.flatMap Tree.lexemes ++ more.flatMap Tree.lexemes) := by
  rw [← lexemes_of_padded htail, ← List.flatMap_append, Form.spread, Form.bracketed]
  cases hl : f.list with
  | none => simp [h.items_eq_nil hl, List.flatMap]
  | some a =>
    obtain ⟨t, ht⟩ := last_of_list hf (by rw [hl]; rfl) h.count h.room htail
    rw [List.append_assoc items, ht]
    simp [List.flatMap]

theorem lexemes_of_textsRead {as : List TextArgument} {vs : List Value} {ts : List Text}
    (h : TextsRead as vs ts) : vs.flatMap Value.lexemes = (ts.map Lexeme.text).map some := by
  refine textsRead_induction
    (P := fun _ vs ts => vs.flatMap Value.lexemes = (ts.map Lexeme.text).map some) rfl ?_ h
  intro a v t as vs ts hread ih
  obtain ⟨⟨p, token, rfl, ht⟩, -⟩ := hread
  rw [List.flatMap_cons, ih, Value.lexemes, textMeaning, ht]
  rfl

/-- Expressions have the lexemes of their trees if each of them does. -/
theorem lexemes_of_reads {w : Wanted} {vs : List Value} {ts : List Tree}
    (h : List.Forall₂ w.Reads vs ts)
    (ih : ∀ v ∈ vs, ∀ t, v.tree = .ok t → v.lexemes = t.lexemes.map some) :
    vs.flatMap Value.lexemes = (ts.flatMap Tree.lexemes).map some := by
  induction h with
  | nil => rfl
  | @cons v t _ _ hv _ ihs =>
    rw [List.forall_mem_cons] at ih
    rw [List.flatMap_cons, List.flatMap_cons, List.map_append, ih.1 t hv.1, ihs ih.2]

/-- A list has the lexemes of its items between brackets. -/
theorem lexemes_of_listRead {f : Form} {vs : List Value} {items : List Tree}
    (h : ListRead f.list vs items)
    (ih : ∀ v ∈ vs, ∀ u ∈ v.inner, ∀ t, u.tree = .ok t → u.lexemes = t.lexemes.map some) :
    vs.flatMap Value.lexemes = (f.bracketed (items.flatMap Tree.lexemes)).map some := by
  rw [Form.bracketed]
  cases hl : f.list with
  | none =>
    rw [hl] at h
    match vs, items, h with
    | [], [], _ => rfl
  | some a =>
    rw [hl] at h
    match vs, h with
    | [_], ⟨p, us, rfl, hus⟩ =>
      have hinner := ih _ List.mem_cons_self
      have hitems := lexemes_of_reads hus fun u hu =>
        hinner u (mem_inner_list hu (self_mem_subvalues u))
      simp [Value.lexemes, lexemesOfAll_eq_flatMap, hitems]

/-- The arguments of a form have the lexemes of the node's texts and parts. -/
theorem lexemes_of_arguments {k : Kind} {f : Form} (hf : Form.ofKind? k = some f) {p : Point}
    {word : List Char} {vs : List Value} {texts : List Text} {items first more tail : List Tree}
    (h : f.Reads vs texts items first more) (htail : f.rest.padded more = some tail)
    (ih : ∀ u ∈ (Value.form p word vs).inner, ∀ t, u.tree = .ok t →
      u.lexemes = t.lexemes.map some) :
    vs.flatMap Value.lexemes =
      (texts.map Lexeme.text ++ f.spread ((items ++ first ++ tail).map Tree.lexemes)).map some := by
  have harg : ∀ v ∈ vs, ∀ t, v.tree = .ok t → v.lexemes = t.lexemes.map some := by
    intro v hv
    exact ih v (mem_inner_form hv (self_mem_subvalues v))
  have hinner : ∀ v ∈ vs, ∀ u ∈ v.inner, ∀ t, u.tree = .ok t → u.lexemes = t.lexemes.map some := by
    intro v hv u hu
    exact ih u (mem_inner_form hv (List.mem_cons_of_mem v hu))
  rw [spread_eq hf (Form.divides_of_reads h) htail]
  obtain ⟨htexts, hlist, hcount, hfirst, hroom, hmore⟩ := h
  simp only [List.mem_append] at harg hinner
  have hlist' := lexemes_of_listRead hlist fun v hv => hinner v (by simp [hv])
  have hfirst' := lexemes_of_reads hfirst fun v hv => harg v (by simp [hv])
  have hmore' := lexemes_of_reads hmore fun v hv => harg v (by simp [hv])
  rw [List.flatMap_append, List.flatMap_append, List.flatMap_append, lexemes_of_textsRead htexts,
    hlist', hfirst', hmore']
  simp only [List.map_append, List.append_assoc]

/-- The tokens of a value mean the lexemes of the tree that it denotes. -/
theorem lexemes_of_tree (v : Value) : ∀ t, v.tree = .ok t → v.lexemes = t.lexemes.map some := by
  induction v using nested_induction with | step v ih
  intro t ht
  cases v with
  | string p token =>
    obtain ⟨x, hx, rfl⟩ := tree_string_eq_ok_iff.mp ht
    rw [Value.lexemes, textMeaning, hx]
    rfl
  | number p token =>
    have hmeaning : ∃ a, numberMeaning token = some a ∧ t.lexemes = [a] := by
      rcases tree_number_eq_ok_iff.mp ht with ⟨hf, rfl⟩ | ⟨hf, n, hn, rfl⟩
      · exact ⟨_, numberMeaning_eq_some_iff.mpr (.inl ⟨hf, rfl⟩), rfl⟩
      · exact ⟨_, numberMeaning_eq_some_iff.mpr (.inr ⟨hf, n, hn, rfl⟩), rfl⟩
    obtain ⟨a, ha, hlexemes⟩ := hmeaning
    rw [Value.lexemes, ha, hlexemes]
    rfl
  | constant p word =>
    obtain rfl := tree_constant_eq_ok_iff.mp ht
    cases word <;> rfl
  | list p items => exact absurd ht tree_list_ne_ok
  | form p word vs =>
    obtain ⟨h, f, items, first, more, tail, hf, rfl, hreads, htail, rfl⟩ :=
      tree_form_eq_ok_iff.mp ht
    rw [Value.lexemes, lexemesOfAll_eq_flatMap, lexemes_of_arguments hf hreads htail ih,
      Tree.lexemes, Tree.lexemesOfParts_eq_map, Head.lexemes, hf]
    simp

end ManifestLint.PN
