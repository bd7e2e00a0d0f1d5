/-
ManifestLint.PN.Reading — the tree that a value denotes.

Every value is read once, inside out. A reading keeps what each position may ask for:
the value itself, the tree that it is as an expression, and the trees of its items if it
is a list. A form then meets its demands argument by argument, in the order of
its signature; the first one that fails is the answer.

`read` goes from source text to tree. The main statements: a tree of a literal is the
literal (`tree_string` and the rest), a form is read from the readings of its arguments
(`tree_form`), and a form that is read has a number of arguments that its signature
takes (`takes_of_build`).
-/
import ManifestLint.PN.Fault
import ManifestLint.PN.StringLiteral

namespace ManifestLint.PN

/-! ## 1. Demands -/

/-- What a form asks of one argument. -/
inductive Demand where
  | text (argument : TextArgument)
  | expression (wanted : Wanted)
  | list (argument : ListArgument)

/-- What an argument gives to its form. -/
inductive Argument where
  | text (value : Text)
  | trees (trees : List Tree)

namespace Argument

/-- The text that an argument gives, if it gives one. -/
def texts : Argument → List Text
  | text t => [t]
  | trees _ => []

/-- The parts that an argument gives. -/
def parts : Argument → List Tree
  | text _ => []
  | trees ts => ts

end Argument

/-- What reading a value finds. -/
structure Reading where
  value : Value
  tree : Except Refusal Tree
  items : List Reading

/-- A node's location for a point of its source text. -/
def Point.location (p : Point) : Location := .point (some p.line) (some p.column)

/-- The first error among results. -/
def firstError {ε α : Type} : List (Except ε α) → Option ε
  | [] => none
  | .error e :: _ => some e
  | .ok _ :: rs => firstError rs

/-- All results, or the first error. -/
def allOk {ε α : Type} : List (Except ε α) → Except ε (List α)
  | [] => .ok []
  | .error e :: _ => .error e
  | .ok a :: rs => (allOk rs).map (a :: ·)

namespace Wanted

/-- Checks a tree, found at `p`, against what is wanted. -/
def check (w : Wanted) (p : Point) (t : Tree) : Except Refusal Tree :=
  match w with
  | any => .ok t
  | only what kind =>
    if t.kind? = some kind then .ok t else .error (.fault p (.notOfKind what kind))

/-- Reads an expression of the kind wanted. -/
def take (w : Wanted) (r : Reading) : Except Refusal Tree :=
  r.tree.bind (w.check r.value.point)

end Wanted

/-- Reads a string token at `p`. -/
def readText (p : Point) (token : List Char) : Except Refusal Text :=
  match StringLiteral.decode (StringLiteral.content token) with
  | some t => .ok t
  | none => .error (.fault p (.badEscape token))

/-- Checks a text against those that a form at `p` allows. -/
def TextArgument.check (a : TextArgument) (p : Point) (t : Text) : Except Refusal Text :=
  if a.allowed = [] || a.allowed.any (fun s => Text.ofString s = t) then .ok t
  else .error (.fault p (.notAllowed a.what a.allowed t))

namespace Demand

/-- Meets a demand of a form at `p`. -/
def meet (p : Point) (d : Demand) (r : Reading) : Except Refusal Argument :=
  match d with
  | text a =>
    match r.value with
    | .string q token => ((readText q token).bind (a.check p)).map .text
    | v => .error (.fault v.point (.notString a.what))
  | expression w => (w.take r).map fun t => .trees [t]
  | list a =>
    match r.value with
    | .list _ _ => (allOk (r.items.map a.item.take)).map .trees
    | v => .error (.fault v.point (.notList a.what))

end Demand

namespace Form

/-- What a form with `count` arguments asks of each of them. -/
def demands (f : Form) (count : Nat) : List Demand :=
  let more : Wanted := match f.rest with
    | .many item => item
    | _ => .any
  f.texts.map .text ++ f.list.toList.map .list ++
    List.replicate f.expressions (.expression .any) ++
    List.replicate (count - f.required) (.expression more)

/-- The parts of a node from the trees that `count` arguments give: single parts that are left out
are filled. -/
def fill (f : Form) (p : Point) (count : Nat) (trees : List Tree) : Except Refusal (List Tree) :=
  match f.rest with
  | .nothing | .many _ => .ok trees
  | .perhaps => .ok (if count = f.required then trees ++ [Tree.absent] else trees)
  | .hashAndPerhaps =>
    match trees with
    | [] => .ok [Tree.absent, Tree.absent]
    | t :: ts =>
      let (properties, rest) := if t.kind? = some .hash then (t, ts) else (Tree.absent, t :: ts)
      match rest with
      | [] => .ok [properties, Tree.absent]
      | [definition] => .ok [properties, definition]
      | _ => .error (.fault p .activityTail)

/-- The node that a form of the given kind makes of the arguments that met its demands. As many
texts as the signature names always make a head. -/
def assemble (f : Form) (k : Kind) (p : Point) (arguments : List Argument) :
    Except Refusal Tree :=
  let head := (Head.ofTexts? k (arguments.flatMap Argument.texts)).getD .undef
  (f.fill p arguments.length (arguments.flatMap Argument.parts)).map fun parts =>
    .node head p.location parts

/-- Reads the arguments of a form at `p`. -/
def build (f : Form) (k : Kind) (p : Point) (readings : List Reading) : Except Refusal Tree :=
  let count := readings.length
  if f.takes count then
    let results := (f.demands count).zipWith (Demand.meet p) readings
    match firstError (f.order.arrange results) with
    | some e => .error e
    | none => (allOk results).bind (f.assemble k p)
  else .error (.fault p (.argumentCount f.word f.required f.most count))

end Form

/-- Reads a form at `p` that starts with `word`. -/
def readForm (p : Point) (word : List Char) (readings : List Reading) : Except Refusal Tree :=
  match kindOfWord? word with
  | none => .error (.fault p (.unknownForm word))
  | some k =>
    match Form.ofKind? k with
    | none => .error (.fault p (.unknownForm word))
    | some f => f.build k p readings

/-! ## 2. Reading -/

/-- The node of a literal. -/
def literal (p : Point) (h : Head) : Tree := .node h p.location []

/-- Reads a number token at `p`. -/
def readNumber (p : Point) (token : List Char) : Except Refusal Tree :=
  if Numeral.isFloat token then .ok (literal p (.float (Numeral.float token)))
  else match Numeral.integer token with
    | .ok n => .ok (literal p (.integer n))
    | .error count => .error (.tooManyDigits count)

/-- The head of a word. -/
def Constant.head : Constant → Head
  | .yes => .boolean true
  | .no => .boolean false
  | .nil => .undef

mutual

/-- Reads a value. -/
def Value.reading : Value → Reading
  | .string p token => ⟨.string p token, (readText p token).map fun t => literal p (.string t), []⟩
  | .number p token => ⟨.number p token, readNumber p token, []⟩
  | .constant p word => ⟨.constant p word, .ok (literal p word.head), []⟩
  | .form p word arguments =>
    ⟨.form p word arguments, readForm p word (readings arguments), []⟩
  | .list p items => ⟨.list p items, .error (.fault p .listAsExpression), readings items⟩

/-- Reads values one by one. -/
def readings : List Value → List Reading
  | [] => []
  | v :: vs => v.reading :: readings vs

end

/-- The tree that a value denotes as an expression. -/
def Value.tree (v : Value) : Except Refusal Tree := v.reading.tree

/-- Reads a source text. -/
def read (source : List Char) : Except ReadError Tree :=
  match parse source with
  | .error m => .error (.malformed m)
  | .ok v => v.tree.mapError .refused

/-! ## 3. Laws -/

theorem readings_eq_map (vs : List Value) : readings vs = vs.map Value.reading := by
  induction vs with
  | nil => simp [readings]
  | cons v vs ih => simp [readings, ih]

@[simp] theorem value_reading (v : Value) : v.reading.value = v := by
  cases v <;> simp [Value.reading]

theorem tree_string (p : Point) (token : List Char) :
    (Value.string p token).tree = (readText p token).map fun t => literal p (.string t) := by
  simp [Value.tree, Value.reading]

theorem tree_number (p : Point) (token : List Char) :
    (Value.number p token).tree = readNumber p token := by
  simp [Value.tree, Value.reading]

theorem tree_constant (p : Point) (word : Constant) :
    (Value.constant p word).tree = .ok (literal p word.head) := by
  simp [Value.tree, Value.reading]

theorem tree_list (p : Point) (items : List Value) :
    (Value.list p items).tree = .error (.fault p .listAsExpression) := by
  simp [Value.tree, Value.reading]

/-- A form is read from the readings of its arguments. -/
theorem tree_form (p : Point) (word : List Char) (arguments : List Value) :
    (Value.form p word arguments).tree = readForm p word (arguments.map Value.reading) := by
  simp [Value.tree, Value.reading, readings_eq_map]

/-- A form that is read has a number of arguments that its signature takes. -/
theorem takes_of_build {f : Form} {k : Kind} {p : Point} {rs : List Reading} {t : Tree}
    (h : f.build k p rs = .ok t) : f.takes rs.length = true := by
  simp only [Form.build] at h
  split at h
  · assumption
  · cases h

end ManifestLint.PN
