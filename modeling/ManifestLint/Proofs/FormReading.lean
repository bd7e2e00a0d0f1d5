/-
ManifestLint.Proofs.FormReading — a form that is read, taken apart.

Reading a form checks a count, meets a demand for each argument in an order of its own,
and assembles a node. When all of that succeeds the order no longer matters, and the
arguments fall into rows: the texts, the bracketed list, the expressions that the
signature requires, and those that may follow (`Form.Reads`).

The main statement: a form denotes exactly the nodes whose texts and parts its rows give
(`tree_form_eq_ok_iff`). Whatever is said of forms later on is said of the rows.
-/
import ManifestLint.PN.Reading
import Mathlib.Data.List.Forall2

namespace ManifestLint.PN

/-! ## 1. What arguments give -/

/-- Holds of the texts that an argument may be. -/
def TextArgument.Allows (a : TextArgument) (t : Text) : Prop :=
  a.allowed = [] ∨ ∃ s ∈ a.allowed, Text.ofString s = t

/-- The value is a string that means the text. -/
def Value.Says (v : Value) (t : Text) : Prop :=
  ∃ p token, v = .string p token ∧ StringLiteral.decode (StringLiteral.content token) = some t

/-- The value is a string that means an allowed text. -/
def TextArgument.Reads (a : TextArgument) (v : Value) (t : Text) : Prop := v.Says t ∧ a.Allows t

/-- Holds of the trees that are wanted. -/
def Wanted.Admits : Wanted → Tree → Prop
  | .any, _ => True
  | .only _ kind, t => t.kind? = some kind

/-- The value denotes a wanted tree. -/
def Wanted.Reads (w : Wanted) (v : Value) (t : Tree) : Prop := v.tree = .ok t ∧ w.Admits t

/-- The value is a list of wanted items. -/
def ListArgument.Reads (a : ListArgument) (v : Value) (ts : List Tree) : Prop :=
  ∃ p items, v = .list p items ∧ List.Forall₂ a.item.Reads items ts

/-- Text arguments read one by one. -/
def TextsRead : List TextArgument → List Value → List Text → Prop
  | [], [], [] => True
  | a :: as, v :: vs, t :: ts => a.Reads v t ∧ TextsRead as vs ts
  | _, _, _ => False

/-- The list argument read, if there is one. -/
def ListRead : Option ListArgument → List Value → List Tree → Prop
  | none, [], [] => True
  | some a, [v], ts => a.Reads v ts
  | _, _, _ => False

namespace Rest

/-- What is wanted of the expressions after the required ones. -/
def wanted : Rest → Wanted
  | many item => item
  | _ => .any

/-- Holds of the numbers of expressions that there is room for. -/
def Room : Rest → Nat → Prop
  | nothing, n => n = 0
  | perhaps, n => n ≤ 1
  | many _, _ => True
  | hashAndPerhaps, n => n ≤ 2

/-- The last parts of a node from the expressions after the required ones: single parts that are
left out are filled. -/
def padded : Rest → List Tree → Option (List Tree)
  | nothing, ts | many _, ts => some ts
  | perhaps, [] => some [Tree.absent]
  | perhaps, ts => some ts
  | hashAndPerhaps, [] => some [Tree.absent, Tree.absent]
  | hashAndPerhaps, [t] =>
    some (if t.kind? = some .hash then [t, Tree.absent] else [Tree.absent, t])
  | hashAndPerhaps, [t, u] => if t.kind? = some .hash then some [t, u] else none
  | hashAndPerhaps, _ => none

end Rest

/-- The arguments of a form, row by row: texts, items of the list, required expressions, and
expressions after those. -/
inductive Form.Reads (f : Form) :
    List Value → List Text → List Tree → List Tree → List Tree → Prop where
  | rows {tv lv fv mv : List Value} {texts : List Text} {items first more : List Tree}
      (htexts : TextsRead f.texts tv texts) (hlist : ListRead f.list lv items)
      (hcount : fv.length = f.expressions) (hfirst : List.Forall₂ Wanted.any.Reads fv first)
      (hroom : f.rest.Room mv.length) (hmore : List.Forall₂ f.rest.wanted.Reads mv more) :
      Form.Reads f (tv ++ lv ++ fv ++ mv) texts items first more

/-! ## 2. Results in any order -/

section Results

variable {ε α : Type}

/-- A value that is checked is handed on as it is. -/
theorem ite_ok_eq_ok_iff {c : Prop} [Decidable c] {a b : α} {e : ε} :
    (if c then Except.ok a else .error e) = .ok b ↔ b = a ∧ c := by
  by_cases h : c <;> simp [h, eq_comm]

theorem allOk_map_ok (xs : List α) : allOk (xs.map (Except.ok : α → Except ε α)) = .ok xs := by
  induction xs with
  | nil => rfl
  | cons x xs ih => simp [allOk, ih, Except.map]

theorem eq_map_of_allOk {rs : List (Except ε α)} {xs : List α} (h : allOk rs = .ok xs) :
    rs = xs.map .ok := by
  induction rs generalizing xs with
  | nil =>
    cases h
    rfl
  | cons r rs ih =>
    cases r with
    | error e => cases h
    | ok a =>
      simp only [allOk] at h
      cases hrs : allOk rs with
      | error e => rw [hrs] at h; cases h
      | ok ys =>
        rw [hrs] at h
        cases h
        rw [ih hrs]
        rfl

theorem allOk_eq_ok_iff {rs : List (Except ε α)} {xs : List α} :
    allOk rs = .ok xs ↔ rs = xs.map .ok :=
  ⟨eq_map_of_allOk, fun h => h ▸ allOk_map_ok xs⟩

theorem firstError_eq_none_iff {rs : List (Except ε α)} :
    firstError rs = none ↔ ∀ e, .error e ∉ rs := by
  induction rs with
  | nil => simp [firstError]
  | cons r rs ih =>
    cases r with
    | error e =>
      simp only [firstError, reduceCtorEq, false_iff]
      exact fun h => h e List.mem_cons_self
    | ok a => simp [firstError, ih]

/-- The order in which results are examined does not matter when all are well. -/
theorem firstError_arrange_eq_none_iff (o : Order) {rs : List (Except ε α)} :
    firstError (o.arrange rs) = none ↔ ∃ xs : List α, rs = xs.map .ok := by
  rw [firstError_eq_none_iff]
  have hmem : ∀ r, r ∈ o.arrange rs ↔ r ∈ rs := fun r => (o.arrange_perm rs).mem_iff
  simp only [hmem]
  constructor
  · intro h
    induction rs with
    | nil => exact ⟨[], rfl⟩
    | cons r rs ih =>
      obtain ⟨xs, rfl⟩ := ih (fun r => (o.arrange_perm rs).mem_iff)
        fun e he => h e (List.mem_cons_of_mem r he)
      cases r with
      | error e => exact absurd List.mem_cons_self (h e)
      | ok a => exact ⟨a :: xs, rfl⟩
  · rintro ⟨xs, rfl⟩ e he
    simp at he

end Results

/-! ## 3. Literals -/

theorem readText_eq_ok_iff {p : Point} {token : List Char} {t : Text} :
    readText p token = .ok t ↔ StringLiteral.decode (StringLiteral.content token) = some t := by
  unfold readText
  cases StringLiteral.decode (StringLiteral.content token) <;> simp

/-- A string denotes the text that it decodes to. -/
theorem tree_string_eq_ok_iff {p : Point} {token : List Char} {t : Tree} :
    (Value.string p token).tree = .ok t ↔
      ∃ x, StringLiteral.decode (StringLiteral.content token) = some x ∧
        t = literal p (.string x) := by
  simp only [tree_string, ← @readText_eq_ok_iff p]
  cases readText p token <;> simp [Except.map, eq_comm]

/-- A number denotes a float if it looks like one, else an integer of not too many digits. -/
theorem tree_number_eq_ok_iff {p : Point} {token : List Char} {t : Tree} :
    (Value.number p token).tree = .ok t ↔
      (Numeral.isFloat token = true ∧ t = literal p (.float (Numeral.float token))) ∨
        (Numeral.isFloat token = false ∧
          ∃ n, Numeral.integer token = .ok n ∧ t = literal p (.integer n)) := by
  rw [tree_number]
  unfold readNumber
  cases Numeral.isFloat token with
  | true => simp [eq_comm]
  | false => cases Numeral.integer token <;> simp [eq_comm]

/-- An integer that is read has few enough digits. -/
theorem length_of_integer_eq_ok {token : List Char} {n : Int} (h : Numeral.integer token = .ok n) :
    (Numeral.unsigned token).length ≤ Numeral.digitLimit := by
  by_contra hlen
  simp [Numeral.integer, hlen] at h

theorem tree_constant_eq_ok_iff {p : Point} {word : Constant} {t : Tree} :
    (Value.constant p word).tree = .ok t ↔ t = literal p word.head := by
  simp [tree_constant, eq_comm]

theorem tree_list_ne_ok {p : Point} {items : List Value} {t : Tree} :
    (Value.list p items).tree ≠ .ok t := by
  simp [tree_list]

/-! ## 4. Demands one by one -/

theorem TextArgument.check_eq_ok_iff {a : TextArgument} {p : Point} {t u : Text} :
    a.check p t = .ok u ↔ u = t ∧ a.Allows t := by
  rw [TextArgument.check, ite_ok_eq_ok_iff]
  simp [TextArgument.Allows]

theorem Wanted.check_eq_ok_iff {w : Wanted} {p : Point} {t u : Tree} :
    w.check p t = .ok u ↔ u = t ∧ w.Admits t := by
  cases w with
  | any => simp [Wanted.check, Wanted.Admits, eq_comm]
  | only what kind => exact ite_ok_eq_ok_iff

theorem Wanted.take_eq_ok_iff {w : Wanted} {v : Value} {t : Tree} :
    w.take v.reading = .ok t ↔ w.Reads v t := by
  simp only [Wanted.take, Wanted.Reads, Value.tree, value_reading]
  cases v.reading.tree with
  | error e => simp [Except.bind]
  | ok u =>
    simp only [Except.bind, Wanted.check_eq_ok_iff, Except.ok.injEq]
    constructor
    · intro h
      obtain ⟨rfl, h⟩ := h
      exact ⟨rfl, h⟩
    · intro h
      obtain ⟨rfl, h⟩ := h
      exact ⟨rfl, h⟩

theorem meet_text_eq_ok_iff {a : TextArgument} {p : Point} {v : Value} {x : Argument} :
    (Demand.text a).meet p v.reading = .ok x ↔ ∃ t, x = .text t ∧ a.Reads v t := by
  simp only [Demand.meet, value_reading, TextArgument.Reads, Value.Says]
  cases v with
  | string q token =>
    simp only [readText]
    cases hd : StringLiteral.decode (StringLiteral.content token) with
    | none => simp [Except.bind, Except.map, hd]
    | some t =>
      cases hc : a.check p t with
      | error e =>
        have hne : ¬ a.Allows t := fun h => by
          simp [TextArgument.check_eq_ok_iff.mpr ⟨rfl, h⟩] at hc
        simp [Except.bind, Except.map, hd, hc, hne]
      | ok u =>
        obtain ⟨rfl, ha⟩ := TextArgument.check_eq_ok_iff.mp hc
        simp [Except.bind, Except.map, hd, hc, ha, eq_comm]
  | number | constant | form | list => simp

theorem meet_expression_eq_ok_iff {w : Wanted} {p : Point} {v : Value} {x : Argument} :
    (Demand.expression w).meet p v.reading = .ok x ↔ ∃ t, x = .trees [t] ∧ w.Reads v t := by
  simp only [Demand.meet, ← Wanted.take_eq_ok_iff]
  cases w.take v.reading <;> simp [Except.map, eq_comm]

theorem meet_list_eq_ok_iff {a : ListArgument} {p : Point} {v : Value} {x : Argument} :
    (Demand.list a).meet p v.reading = .ok x ↔ ∃ ts, x = .trees ts ∧ a.Reads v ts := by
  have hitems : ∀ (vs : List Value) (ts : List Tree),
      allOk (vs.map fun v => a.item.take v.reading) = .ok ts ↔
        List.Forall₂ a.item.Reads vs ts := by
    intro vs ts
    rw [allOk_eq_ok_iff]
    induction vs generalizing ts with
    | nil => cases ts <;> simp
    | cons v vs ih => cases ts <;> simp [Wanted.take_eq_ok_iff, ih]
  simp only [Demand.meet, value_reading, ListArgument.Reads]
  cases v with
  | list q items =>
    simp only [Value.reading, readings_eq_map, List.map_map, Function.comp_def]
    cases hr : allOk (items.map fun v => a.item.take v.reading) with
    | error e =>
      have hne : ∀ ts, ¬ List.Forall₂ a.item.Reads items ts :=
        fun ts h => by simp [(hitems items ts).mpr h] at hr
      simp [Except.map, hne]
    | ok ts =>
      have huniq : ∀ us, List.Forall₂ a.item.Reads items us ↔ us = ts := by
        intro us
        rw [← hitems, hr]
        simp [eq_comm]
      simp [Except.map, huniq, eq_comm]
  | string | number | constant | form => simp

/-! ## 5. Demands row by row -/

/-- Values that meet demands one by one, with the arguments that they give. -/
def MetAll (p : Point) : List Demand → List Value → List Argument → Prop
  | [], [], [] => True
  | d :: ds, v :: vs, x :: xs => d.meet p v.reading = .ok x ∧ MetAll p ds vs xs
  | _, _, _ => False

section Demands

variable {p : Point}

theorem length_of_metAll : ∀ {ds : List Demand} {vs : List Value} {xs : List Argument},
    MetAll p ds vs xs → vs.length = ds.length
  | [], [], [], _ => rfl
  | _ :: _, _ :: _, _ :: _, h => congrArg (· + 1) (length_of_metAll h.2)
  | [], _ :: _, _, h | [], [], _ :: _, h => h.elim
  | _ :: _, [], _, h | _ :: _, _ :: _, [], h => h.elim

/-- As many values as demands meet them one by one when all results are well. -/
theorem zipWith_meet_eq_iff : ∀ {ds : List Demand} {vs : List Value} {xs : List Argument},
    vs.length = ds.length →
    (ds.zipWith (Demand.meet p) (vs.map Value.reading) = xs.map .ok ↔ MetAll p ds vs xs)
  | [], [], xs, _ => by cases xs <;> simp [MetAll]
  | [], _ :: _, _, h => by simp at h
  | _ :: _, [], _, h => by simp at h
  | d :: ds, v :: vs, xs, h => by
    have hlen : vs.length = ds.length := by simpa using h
    cases xs with
    | nil => simp [MetAll]
    | cons x xs => simp [MetAll, zipWith_meet_eq_iff hlen]

/-- Demands in two rows are met row by row. -/
theorem metAll_append_iff {ds es : List Demand} {vs : List Value} {xs : List Argument} :
    MetAll p (ds ++ es) vs xs ↔ ∃ vs₁ vs₂ xs₁ xs₂, vs = vs₁ ++ vs₂ ∧ xs = xs₁ ++ xs₂ ∧
      MetAll p ds vs₁ xs₁ ∧ MetAll p es vs₂ xs₂ := by
  constructor
  · intro h
    induction ds generalizing vs xs with
    | nil => exact ⟨[], vs, [], xs, rfl, rfl, trivial, h⟩
    | cons d ds ih =>
      match vs, xs, h with
      | v :: vs, x :: xs, ⟨hd, h⟩ =>
        obtain ⟨vs₁, vs₂, xs₁, xs₂, rfl, rfl, h₁, h₂⟩ := ih h
        exact ⟨v :: vs₁, vs₂, x :: xs₁, xs₂, rfl, rfl, ⟨hd, h₁⟩, h₂⟩
  · intro h
    obtain ⟨vs₁, vs₂, xs₁, xs₂, rfl, rfl, h₁, h₂⟩ := h
    induction ds generalizing vs₁ xs₁ with
    | nil =>
      match vs₁, xs₁, h₁ with
      | [], [], _ => exact h₂
    | cons d ds ih =>
      match vs₁, xs₁, h₁ with
      | v :: vs₁, x :: xs₁, ⟨hd, h₁⟩ => exact ⟨hd, ih vs₁ xs₁ h₁⟩

theorem metAll_texts_iff {as : List TextArgument} {vs : List Value} {xs : List Argument} :
    MetAll p (as.map .text) vs xs ↔ ∃ ts, xs = ts.map .text ∧ TextsRead as vs ts := by
  induction as generalizing vs xs with
  | nil =>
    constructor
    · intro h
      match vs, xs, h with
      | [], [], _ => exact ⟨[], rfl, trivial⟩
    · intro h
      obtain ⟨ts, rfl, h⟩ := h
      match vs, ts, h with
      | [], [], _ => trivial
  | cons a as ih =>
    constructor
    · intro h
      match vs, xs, h with
      | v :: vs, x :: xs, ⟨hx, h⟩ =>
        obtain ⟨t, rfl, ht⟩ := meet_text_eq_ok_iff.mp hx
        obtain ⟨ts, rfl, hts⟩ := ih.mp h
        exact ⟨t :: ts, rfl, ht, hts⟩
    · intro h
      obtain ⟨ts, rfl, h⟩ := h
      match vs, ts, h with
      | v :: vs, t :: ts, ⟨ht, hts⟩ =>
        exact ⟨meet_text_eq_ok_iff.mpr ⟨t, rfl, ht⟩, ih.mpr ⟨ts, rfl, hts⟩⟩

theorem metAll_list_iff {o : Option ListArgument} {vs : List Value} {xs : List Argument} :
    MetAll p (o.toList.map .list) vs xs ↔
      ∃ items, xs = o.toList.map (fun _ => .trees items) ∧ ListRead o vs items := by
  cases o with
  | none =>
    constructor
    · intro h
      match vs, xs, h with
      | [], [], _ => exact ⟨[], rfl, trivial⟩
    · intro h
      obtain ⟨items, rfl, h⟩ := h
      match vs, items, h with
      | [], [], _ => trivial
  | some a =>
    constructor
    · intro h
      match vs, xs, h with
      | [v], [x], ⟨hx, _⟩ =>
        obtain ⟨items, rfl, hitems⟩ := meet_list_eq_ok_iff.mp hx
        exact ⟨items, rfl, hitems⟩
      | _ :: _ :: _, _ :: _, ⟨_, h⟩ => exact h.elim
    · intro h
      obtain ⟨items, rfl, h⟩ := h
      match vs, h with
      | [v], h => exact ⟨meet_list_eq_ok_iff.mpr ⟨items, rfl, h⟩, trivial⟩

theorem metAll_expressions_iff {w : Wanted} {n : Nat} {vs : List Value} {xs : List Argument} :
    MetAll p (List.replicate n (.expression w)) vs xs ↔
      ∃ ts, xs = ts.map (fun t => .trees [t]) ∧ vs.length = n ∧ List.Forall₂ w.Reads vs ts := by
  induction n generalizing vs xs with
  | zero =>
    constructor
    · intro h
      match vs, xs, h with
      | [], [], _ => exact ⟨[], rfl, rfl, .nil⟩
    · intro h
      obtain ⟨ts, rfl, hlen, h⟩ := h
      cases h with
      | nil => trivial
      | cons => cases hlen
  | succ n ih =>
    rw [List.replicate_succ]
    constructor
    · intro h
      match vs, xs, h with
      | v :: vs, x :: xs, ⟨hx, h⟩ =>
        obtain ⟨t, rfl, ht⟩ := meet_expression_eq_ok_iff.mp hx
        obtain ⟨ts, rfl, hlen, hts⟩ := ih.mp h
        exact ⟨t :: ts, rfl, congrArg (· + 1) hlen, .cons ht hts⟩
    · intro h
      obtain ⟨ts, rfl, hlen, h⟩ := h
      cases h with
      | nil => cases hlen
      | cons ht hts =>
        exact ⟨meet_expression_eq_ok_iff.mpr ⟨_, rfl, ht⟩,
          ih.mpr ⟨_, rfl, Nat.succ.inj hlen, hts⟩⟩

end Demands

namespace Form

/-- The demands of a form with the wanted expressions named. -/
theorem demands_eq (f : Form) (count : Nat) :
    f.demands count = f.texts.map .text ++ f.list.toList.map .list ++
      List.replicate f.expressions (.expression .any) ++
      List.replicate (count - f.required) (.expression f.rest.wanted) := by
  rw [demands]
  cases f.rest <;> rfl

/-- A form takes its required arguments and as many more as there is room for. -/
theorem takes_iff (f : Form) (count : Nat) :
    f.takes count = true ↔ f.required ≤ count ∧ f.rest.Room (count - f.required) := by
  simp only [takes, most, Bool.and_eq_true, decide_eq_true_eq, and_congr_right_iff]
  intro h
  cases f.rest <;> simp [Rest.Room] <;> omega

/-- What the arguments of a form give, row by row. -/
def given (f : Form) (texts : List Text) (items singles : List Tree) : List Argument :=
  texts.map .text ++ f.list.toList.map (fun _ => .trees items) ++
    singles.map fun t => .trees [t]

/-- The arguments of a form meet its demands exactly when they can be read row by row. -/
theorem metAll_demands_iff (f : Form) {p : Point} {vs : List Value} {xs : List Argument} :
    f.takes vs.length = true ∧ MetAll p (f.demands vs.length) vs xs ↔
      ∃ texts items first more, f.Reads vs texts items first more ∧
        xs = f.given texts items (first ++ more) := by
  constructor
  · intro h
    obtain ⟨htakes, h⟩ := h
    obtain ⟨-, hroom⟩ := (takes_iff f vs.length).mp htakes
    rw [demands_eq] at h
    obtain ⟨v₃, mv, x₃, x₄, rfl, rfl, h, h₄⟩ := metAll_append_iff.mp h
    obtain ⟨v₂, fv, x₂, x₃, rfl, rfl, h, h₃⟩ := metAll_append_iff.mp h
    obtain ⟨tv, lv, x₁, x₂, rfl, rfl, h₁, h₂⟩ := metAll_append_iff.mp h
    obtain ⟨texts, rfl, htexts⟩ := metAll_texts_iff.mp h₁
    obtain ⟨items, rfl, hlist⟩ := metAll_list_iff.mp h₂
    obtain ⟨first, rfl, hcount, hfirst⟩ := metAll_expressions_iff.mp h₃
    obtain ⟨more, rfl, hmlen, hmore⟩ := metAll_expressions_iff.mp h₄
    rw [← hmlen] at hroom
    exact ⟨texts, items, first, more, .rows htexts hlist hcount hfirst hroom hmore,
      by simp [given]⟩
  · intro h
    obtain ⟨texts, items, first, more, ⟨htexts, hlist, hcount, hfirst, hroom, hmore⟩, rfl⟩ := h
    rename_i tv lv fv mv
    have h₁ := (metAll_texts_iff (p := p)).mpr ⟨texts, rfl, htexts⟩
    have h₂ := (metAll_list_iff (p := p)).mpr ⟨items, rfl, hlist⟩
    have h₃ := (metAll_expressions_iff (p := p)).mpr ⟨first, rfl, hcount, hfirst⟩
    have h₄ := (metAll_expressions_iff (p := p)).mpr ⟨more, rfl, rfl, hmore⟩
    have hlen : (tv ++ lv ++ fv ++ mv).length = f.required + mv.length := by
      have htv := length_of_metAll h₁
      have hlv := length_of_metAll h₂
      simp only [List.length_map] at htv hlv
      simp [required, htv, hlv, hcount, Nat.add_assoc]
    have hextra : (tv ++ lv ++ fv ++ mv).length - f.required = mv.length := by omega
    refine ⟨(takes_iff f _).mpr ⟨by omega, by rwa [hextra]⟩, ?_⟩
    rw [demands_eq, hextra, given, List.map_append, ← List.append_assoc]
    exact metAll_append_iff.mpr ⟨_, _, _, _, rfl, rfl,
      metAll_append_iff.mpr ⟨_, _, _, _, rfl, rfl,
        metAll_append_iff.mpr ⟨_, _, _, _, rfl, rfl, h₁, h₂⟩, h₃⟩, h₄⟩

/-! ## 6. The node of a form -/

/-- Filling pads the expressions after the required ones. Before them stands nothing where an
activity's tail is filled. -/
theorem fill_eq_ok_iff (f : Form) {p : Point} {items first more parts : List Tree} {count : Nat}
    (hcount : count = f.required + more.length)
    (hbefore : f.rest = .hashAndPerhaps → items ++ first = []) :
    f.fill p count (items ++ first ++ more) = .ok parts ↔
      ∃ tail, f.rest.padded more = some tail ∧ parts = items ++ first ++ tail := by
  unfold fill
  cases hrest : f.rest with
  | nothing => simp [Rest.padded, eq_comm]
  | many item => simp [Rest.padded, eq_comm]
  | perhaps =>
    cases more with
    | nil => simp [Rest.padded, hcount, eq_comm]
    | cons t ts => simp [Rest.padded, hcount, eq_comm]
  | hashAndPerhaps =>
    rw [hbefore hrest, List.nil_append]
    match more with
    | [] => simp [Rest.padded, eq_comm]
    | [t] => by_cases ht : t.kind? = some .hash <;> simp [Rest.padded, ht, eq_comm]
    | [t, u] => by_cases ht : t.kind? = some .hash <;> simp [Rest.padded, ht, eq_comm]
    | t :: u :: w :: ts => by_cases ht : t.kind? = some .hash <;> simp [Rest.padded, ht]

/-- An activity's tail is all that follows its texts. -/
theorem rows_of_hashAndPerhaps {f : Form} {k : Kind} (hf : ofKind? k = some f)
    (hrest : f.rest = .hashAndPerhaps) : f.list = none ∧ f.expressions = 0 := by
  cases k <;> cases hf <;> first | exact ⟨rfl, rfl⟩ | cases hrest

/-- As many texts as the form of a kind takes make a head of that kind. -/
theorem exists_ofTexts? {f : Form} {k : Kind} {texts : List Text} (hf : ofKind? k = some f)
    (hlen : texts.length = f.texts.length) : ∃ h, Head.ofTexts? k texts = some h := by
  match texts, hlen with
  | [], hlen => cases k <;> cases hf <;> first | exact ⟨_, rfl⟩ | cases hlen
  | [_], hlen => cases k <;> cases hf <;> first | exact ⟨_, rfl⟩ | cases hlen
  | [_, _], hlen => cases k <;> cases hf <;> first | exact ⟨_, rfl⟩ | cases hlen
  | _ :: _ :: _ :: _, hlen => cases k <;> cases hf <;> cases hlen

end Form

/-- What is read of texts is said of them one by one. -/
theorem textsRead_induction {P : List TextArgument → List Value → List Text → Prop}
    (nil : P [] [] [])
    (cons : ∀ a v t as vs ts, a.Reads v t → P as vs ts → P (a :: as) (v :: vs) (t :: ts)) :
    ∀ {as vs ts}, TextsRead as vs ts → P as vs ts
  | [], [], [], _ => nil
  | _ :: _, _ :: _, _ :: _, h => cons _ _ _ _ _ _ h.1 (textsRead_induction nil cons h.2)
  | [], _ :: _, _, h | [], [], _ :: _, h => h.elim
  | _ :: _, [], _, h | _ :: _, _ :: _, [], h => h.elim

theorem length_of_textsRead {as : List TextArgument} {vs : List Value} {ts : List Text}
    (h : TextsRead as vs ts) : ts.length = as.length := by
  refine textsRead_induction (P := fun as _ ts => ts.length = as.length) rfl ?_ h
  intro a v t as vs ts _ ih
  exact congrArg (· + 1) ih

theorem listRead_none {vs : List Value} {items : List Tree} (h : ListRead none vs items) :
    items = [] := by
  match vs, items, h with
  | [], [], _ => rfl

namespace Form

theorem length_demands {f : Form} {count : Nat} (h : f.takes count = true) :
    (f.demands count).length = count := by
  have hle := ((takes_iff f count).mp h).1
  simp only [required] at hle
  simp only [demands_eq, required, List.length_append, List.length_map, List.length_replicate]
  omega

/-- A form is built when its arguments meet its demands and the node can be assembled. -/
theorem build_eq_ok_iff (f : Form) {k : Kind} {p : Point} {vs : List Value} {t : Tree} :
    f.build k p (vs.map Value.reading) = .ok t ↔ f.takes vs.length = true ∧
      ∃ xs, MetAll p (f.demands vs.length) vs xs ∧ f.assemble k p xs = .ok t := by
  simp only [build, List.length_map]
  cases htakes : f.takes vs.length with
  | false => simp
  | true =>
    simp only [if_true, true_and]
    have hmet := fun xs => @zipWith_meet_eq_iff p _ vs xs (length_demands htakes).symm
    cases hfirst : firstError (f.order.arrange
        ((f.demands vs.length).zipWith (Demand.meet p) (vs.map Value.reading))) with
    | some e =>
      have hno : ¬ ∃ xs, MetAll p (f.demands vs.length) vs xs := by
        rintro ⟨xs, h⟩
        simp [(firstError_arrange_eq_none_iff f.order).mpr ⟨xs, (hmet xs).mpr h⟩] at hfirst
      constructor
      · intro h
        cases h
      · intro h
        obtain ⟨xs, h, -⟩ := h
        exact absurd ⟨xs, h⟩ hno
    | none =>
      obtain ⟨xs, hxs⟩ := (firstError_arrange_eq_none_iff f.order).mp hfirst
      simp only [hxs, allOk_map_ok, Except.bind]
      constructor
      · intro h
        exact ⟨xs, (hmet xs).mp hxs, h⟩
      · intro h
        obtain ⟨ys, hys, h⟩ := h
        have hy := (hmet ys).mpr hys
        rw [hxs] at hy
        rwa [List.map_injective_iff.mpr (fun _ _ => Except.ok.inj) hy]

variable {f : Form} {k : Kind} {vs : List Value} {texts : List Text}
  {items first more singles : List Tree}

theorem texts_given : (f.given texts items singles).flatMap Argument.texts = texts := by
  simp [given, List.flatMap_map, Argument.texts]

theorem parts_given (hlist : ListRead f.list vs items) :
    (f.given texts items singles).flatMap Argument.parts = items ++ singles := by
  have hitems : (f.list.toList.map fun _ => Argument.trees items).flatMap Argument.parts =
      items := by
    cases hl : f.list with
    | none =>
      rw [hl] at hlist
      simp [listRead_none hlist]
    | some a => simp [Argument.parts]
  simp only [given, List.flatMap_append, hitems]
  simp [List.flatMap_map, Argument.parts]

theorem length_given :
    (f.given texts items singles).length =
      texts.length + f.list.toList.length + singles.length := by
  simp [given, Nat.add_assoc]

/-- What the rows of a form assemble to. -/
theorem assemble_given_eq_ok_iff {p : Point} {t : Tree} (hf : ofKind? k = some f)
    (hreads : f.Reads vs texts items first more) :
    f.assemble k p (f.given texts items (first ++ more)) = .ok t ↔
      ∃ h tail, h.kind = k ∧ h.texts = texts ∧ f.rest.padded more = some tail ∧
        t = .node h p.location (items ++ first ++ tail) := by
  obtain ⟨htexts, hlist, hcount, hfirst, -, -⟩ := hreads
  have htlen := length_of_textsRead htexts
  have hlen : (f.given texts items (first ++ more)).length = f.required + more.length := by
    simp [length_given, required, htlen, ← hcount, hfirst.length_eq, Nat.add_assoc]
  have hbefore : f.rest = .hashAndPerhaps → items ++ first = [] := by
    intro hrest
    obtain ⟨hnone, hzero⟩ := rows_of_hashAndPerhaps hf hrest
    rw [hnone] at hlist
    rw [hzero] at hcount
    simp [listRead_none hlist, List.eq_nil_of_length_eq_zero (hfirst.length_eq ▸ hcount)]
  obtain ⟨h, hh⟩ := exists_ofTexts? hf htlen
  have hunique : ∀ h' : Head, h'.kind = k ∧ h'.texts = texts ↔ h' = h := by
    intro h'
    constructor
    · intro h
      obtain ⟨rfl, rfl⟩ := h
      have hlit : h'.isLiteral = false := by cases h' <;> first | rfl | cases hf
      exact Option.some.inj ((Head.ofTexts?_texts h' hlit).symm.trans hh)
    · rintro rfl
      exact ⟨Head.kind_of_ofTexts? hh, Head.texts_of_ofTexts? hh⟩
  simp only [assemble, texts_given, parts_given hlist, hh, Option.getD_some]
  rw [← List.append_assoc]
  constructor
  · intro hok
    cases hfill : f.fill p (f.given texts items (first ++ more)).length
        (items ++ first ++ more) with
    | error e =>
      rw [hfill] at hok
      cases hok
    | ok parts =>
      rw [hfill] at hok
      cases hok
      obtain ⟨tail, htail, rfl⟩ := (fill_eq_ok_iff f hlen hbefore).mp hfill
      obtain ⟨hk, ht⟩ := (hunique h).mpr rfl
      exact ⟨h, tail, hk, ht, htail, rfl⟩
  · intro h
    obtain ⟨h', tail, hk, ht, htail, rfl⟩ := h
    obtain rfl := (hunique h').mp ⟨hk, ht⟩
    rw [(fill_eq_ok_iff f hlen hbefore).mpr ⟨tail, htail, rfl⟩]
    rfl

end Form

/-- A form is read exactly when its symbol is that of a kind and its arguments can be read row by
row; it denotes the node of that kind with the texts and the parts that the rows give. -/
theorem tree_form_eq_ok_iff {p : Point} {word : List Char} {vs : List Value} {t : Tree} :
    (Value.form p word vs).tree = .ok t ↔
      ∃ h f items first more tail, Form.ofKind? h.kind = some f ∧ f.word.toList = word ∧
        f.Reads vs h.texts items first more ∧ f.rest.padded more = some tail ∧
        t = .node h p.location (items ++ first ++ tail) := by
  rw [tree_form]
  constructor
  · intro hok
    unfold readForm at hok
    split at hok
    · cases hok
    · rename_i k hk
      obtain ⟨f, hf, hword⟩ := (kindOfWord?_eq_some_iff word k).mp hk
      rw [hf] at hok
      obtain ⟨htakes, xs, hmet, hass⟩ := (Form.build_eq_ok_iff f).mp hok
      obtain ⟨texts, items, first, more, hreads, rfl⟩ := f.metAll_demands_iff.mp ⟨htakes, hmet⟩
      obtain ⟨h, tail, rfl, rfl, htail, rfl⟩ := (Form.assemble_given_eq_ok_iff hf hreads).mp hass
      exact ⟨h, f, items, first, more, tail, hf, hword, hreads, htail, rfl⟩
  · intro h
    obtain ⟨h, f, items, first, more, tail, hf, hword, hreads, htail, rfl⟩ := h
    have hk := (kindOfWord?_eq_some_iff word h.kind).mpr ⟨f, hf, hword⟩
    obtain ⟨htakes, hmet⟩ := (f.metAll_demands_iff (p := p)).mpr
      ⟨h.texts, items, first, more, hreads, rfl⟩
    have hass := (Form.assemble_given_eq_ok_iff (p := p) hf hreads).mpr
      ⟨h, tail, rfl, rfl, htail, rfl⟩
    unfold readForm
    simp only [hk, hf]
    exact (Form.build_eq_ok_iff f).mpr ⟨htakes, _, hmet, hass⟩

end ManifestLint.PN
