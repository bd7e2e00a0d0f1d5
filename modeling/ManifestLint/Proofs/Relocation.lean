/-
ManifestLint.Proofs.Relocation — the same tree at other places.

Where something stands is kept, but nothing is decided by it. When the points of a value are moved,
reading moves the locations of the tree that it makes, or the point that it refuses, and does
nothing else otherwise; and when the locations of a tree are replaced, the rules report the same
about the same positions.

The main statements: the reports on a tree with other locations are those on the tree
(`reports_relocated`), so the issues differ in their spans alone (`issues_relocated`); reading a
moved value is moving what was read (`tree_moved`); and tokens at other points spell a moved value
(`spells_of_moved`).
-/
import ManifestLint.Proofs.Pass
import ManifestLint.Proofs.RoundTrip

namespace ManifestLint

/-! ## 1. Trees with other locations -/

namespace Tree

mutual

/-- A tree with the location of every node replaced. -/
def relocated (g : Location → Location) : Tree → Tree
  | node h l ps => node h (g l) (relocatedAll g ps)
  | foreign x => foreign x

/-- Parts with the location of every node replaced. -/
def relocatedAll (g : Location → Location) : List Tree → List Tree
  | [] => []
  | t :: ts => t.relocated g :: relocatedAll g ts

end

section Relocated

variable (g : Location → Location)

theorem relocatedAll_eq_map (ts : List Tree) : relocatedAll g ts = ts.map (relocated g) := by
  induction ts with
  | nil => rfl
  | cons t ts ih => rw [relocatedAll, ih, List.map_cons]

@[simp] theorem relocated_node (h : Head) (l : Location) (ps : List Tree) :
    (node h l ps).relocated g = node h (g l) (ps.map (relocated g)) := by
  rw [relocated, relocatedAll_eq_map]

@[simp] theorem relocated_foreign (x : Foreign) : (foreign x).relocated g = foreign x := rfl

@[simp] theorem relocated_absent : absent.relocated g = absent := rfl

@[simp] theorem head?_relocated (t : Tree) : (t.relocated g).head? = t.head? := by
  cases t <;> rfl

@[simp] theorem kind?_relocated (t : Tree) : (t.relocated g).kind? = t.kind? := by
  rw [kind?, head?_relocated, kind?]

@[simp] theorem isA_relocated (t : Tree) (a : Group) : (t.relocated g).isA a = t.isA a := by
  rw [isA, kind?_relocated, isA]

@[simp] theorem parts_relocated (t : Tree) :
    (t.relocated g).parts = t.parts.map (relocated g) := by
  cases t with
  | node h l ps => rw [relocated_node, parts_node, parts_node]
  | foreign x => rfl

@[simp] theorem part_relocated (t : Tree) (i : Nat) :
    (t.relocated g).part i = (t.part i).relocated g := by
  rw [part, parts_relocated, List.getElem?_map, part]
  cases t.parts[i]? <;> simp

@[simp] theorem label_relocated (t : Tree) : (t.relocated g).label = t.label := by
  cases t <;> rfl

@[simp] theorem aAn_relocated (t : Tree) : (t.relocated g).aAn = t.aAn := by
  cases t <;> rfl

/-- What has an effect has it anywhere. -/
@[simp] theorem isIdem_relocated (t : Tree) : (t.relocated g).isIdem = t.isIdem := by
  induction t using parts_induction with
  | foreign x => rfl
  | node h l ps ih =>
    have hall : (ps.map (relocated g)).all isIdem = ps.all isIdem := by
      rw [List.all_map, Bool.eq_iff_iff, List.all_eq_true, List.all_eq_true]
      exact forall₂_congr fun t ht => by rw [Function.comp, ih t ht]
    simp only [relocated_node, isIdem, areIdem_eq_all, hall]

/-- Locations that are taken away do not matter. -/
theorem unlocated_relocated (t : Tree) : (t.relocated g).unlocated = t.unlocated := by
  induction t using parts_induction with
  | foreign x => rfl
  | node h l ps ih =>
    rw [relocated_node, unlocated, unlocated, unlocatedAll_eq_map, unlocatedAll_eq_map,
      List.map_map]
    exact congrArg _ (List.map_congr_left ih)

theorem at?_relocated (t : Tree) (p : Position) :
    (t.relocated g).at? p = (t.at? p).map (relocated g) := by
  induction p generalizing t with
  | nil => rfl
  | cons i p ih =>
    rw [at?_cons, at?_cons, parts_relocated, List.getElem?_map]
    cases t.parts[i]? with
    | none => rfl
    | some u => exact ih u

end Relocated

end Tree

/-! ## 2. What rules report on them -/

/-- A place in a tree with the location of every node replaced. -/
def Occurrence.relocated (g : Location → Location) (o : Occurrence) : Occurrence :=
  ⟨o.position, o.tree.relocated g⟩

/-- A report about a tree with the location of every node replaced. -/
def Report.relocated (g : Location → Location) (r : Report) : Report :=
  { r with site := r.site.relocated g }

section Rules

variable (g : Location → Location)

@[simp] theorem Occurrence.part_relocated (o : Occurrence) (i : Nat) :
    (o.relocated g).part i = (o.part i).relocated g := by
  simp [Occurrence.relocated, Occurrence.part]

@[simp] theorem Occurrence.tree_relocated (o : Occurrence) :
    (o.relocated g).tree = o.tree.relocated g := rfl

namespace Tree

/-- A tree is a value or none wherever its nodes stand. -/
theorem valueReports_relocated (t : Tree) : ∀ p,
    (t.relocated g).valueReports p = (t.valueReports p).map (Report.relocated g) := by
  induction t using parts_induction with
  | foreign x =>
    intro p
    rw [relocated_foreign]
    rfl
  | node h l ps ih =>
    intro p
    rw [relocated_node]
    simp only [valueReports]
    by_cases hunary : h.kind.isUnary = true
    · rw [if_pos hunary, if_pos hunary]
      cases ps with
      | nil => rfl
      | cons t ts => exact ih t List.mem_cons_self _
    · rw [if_neg hunary, if_neg hunary]
      by_cases hvalue : h.kind.isNoValue = true
      · rw [if_pos hvalue, if_pos hvalue]
        simp [Report.relocated, Occurrence.relocated, aAnCapitalized, aAn_node]
      · rw [if_neg hvalue, if_neg hvalue]
        rfl

theorem variableTargetReports_relocated (o : Occurrence) (name : Text) :
    variableTargetReports (o.relocated g) name =
      (variableTargetReports o name).map (Report.relocated g) := by
  unfold variableTargetReports
  rw [List.map_append]
  congr 1 <;> split <;> rfl

theorem elementTargetReports_relocated {ps : List Tree}
    (h : ∀ t ∈ ps, ∀ p, (t.relocated g).targetReports p =
      (t.targetReports p).map (Report.relocated g)) (p : Position) (i : Nat) :
    elementTargetReports p i (ps.map (relocated g)) =
      (elementTargetReports p i ps).map (Report.relocated g) := by
  induction ps generalizing i with
  | nil => rfl
  | cons t ts ih =>
    obtain ⟨ht, hts⟩ := List.forall_mem_cons.mp h
    rw [List.map_cons, elementTargetReports, elementTargetReports, List.map_append, ht, ih hts]

/-- A tree can be assigned to or not wherever its nodes stand. -/
theorem targetReports_relocated (t : Tree) : ∀ p,
    (t.relocated g).targetReports p = (t.targetReports p).map (Report.relocated g) := by
  induction t using parts_induction with
  | foreign x =>
    intro p
    rw [relocated_foreign]
    rfl
  | node h l ps ih =>
    intro p
    rw [relocated_node]
    cases h with
    | var name =>
      rw [targetReports, targetReports, ← variableTargetReports_relocated]
      simp [Occurrence.relocated]
    | access => simp [targetReports, Report.relocated, Occurrence.relocated]
    | array =>
      rw [targetReports, targetReports]
      exact elementTargetReports_relocated g ih p 0
    | _ => rfl

end Tree

namespace Rule

theorem valueReports_relocated (o : Occurrence) :
    (o.relocated g).valueReports = o.valueReports.map (Report.relocated g) :=
  o.tree.valueReports_relocated g o.position

theorem assignmentReports_relocated (o : Occurrence) (operator : Text) :
    assignmentReports (o.relocated g) operator =
      (assignmentReports o operator).map (Report.relocated g) := by
  unfold assignmentReports
  split
  · rw [Occurrence.part_relocated]
    exact (o.part 0).tree.targetReports_relocated g _
  · rfl

theorem attrReports_relocated (parent : Option Occurrence) (o : Occurrence)
    (name operator : Text) :
    attrReports (parent.map (Occurrence.relocated g)) (o.relocated g) name operator =
      (attrReports parent o name operator).map (Report.relocated g) := by
  have hadmits : admitsAppend (parent.map (Occurrence.relocated g)) = admitsAppend parent := by
    cases parent <;> simp [admitsAppend]
  have hphrase : (parentTree (parent.map (Occurrence.relocated g))).aAn =
      (parentTree parent).aAn := by
    cases parent <;> simp [parentTree]
  rw [attrReports, attrReports, hadmits, hphrase]
  split <;> rfl

theorem splatReports_relocated (parent : Option Occurrence) (o : Occurrence) :
    splatReports (parent.map (Occurrence.relocated g)) (o.relocated g) =
      (splatReports parent o).map (Report.relocated g) := by
  unfold splatReports
  rw [Occurrence.part_relocated, valueReports_relocated, List.map_append]
  cases parent with
  | none => rfl
  | some p =>
    have hrefuses : refusesSplat (p.relocated g).tree = refusesSplat p.tree := by
      simp [refusesSplat]
    have hphrase : (p.relocated g).tree.aAn = p.tree.aAn := Tree.aAn_relocated g p.tree
    dsimp only [Option.map_some]
    rw [hrefuses, hphrase]
    split <;> rfl

theorem blockReports_relocated (o : Occurrence) :
    blockReports (o.relocated g) = (blockReports o).map (Report.relocated g) := by
  have hdead : ∀ (ts : List Tree) (i : Nat),
      deadStatement? i (ts.map (Tree.relocated g)) = deadStatement? i ts := by
    intro ts
    induction ts with
    | nil => exact fun _ => rfl
    | cons t ts ih =>
      intro i
      cases ts with
      | nil => rfl
      | cons u us =>
        have hus := ih (i + 1)
        rw [List.map_cons] at hus
        rw [List.map_cons, List.map_cons, deadStatement?, deadStatement?, Tree.isIdem_relocated,
          hus]
  rw [blockReports, blockReports, Occurrence.tree_relocated, Tree.parts_relocated, hdead]
  split
  · simp [Report.relocated]
  · rfl

theorem callReports_relocated (o : Occurrence) :
    callReports (o.relocated g) = (callReports o).map (Report.relocated g) := by
  have hcallable : isCallable ((o.part 0).relocated g).tree = isCallable (o.part 0).tree := by
    simp [isCallable]
  simp only [callReports, Occurrence.part_relocated, hcallable]
  split
  · rfl
  · simp [Report.relocated]

/-- A rule reports the same wherever nodes stand. -/
theorem reports_relocated (r : Rule) (parent : Option Occurrence) (o : Occurrence) :
    r.reports (parent.map (Occurrence.relocated g)) (o.relocated g) =
      (r.reports parent o).map (Report.relocated g) := by
  unfold reports
  rw [Occurrence.tree_relocated, Tree.head?_relocated]
  split
  · exact assignmentReports_relocated g o _
  · exact attrReports_relocated g parent o _ _
  · exact splatReports_relocated g parent o
  · exact blockReports_relocated g o
  · exact callReports_relocated g o
  · rw [binaryReports, binaryReports, Occurrence.part_relocated, Occurrence.part_relocated,
      valueReports_relocated, valueReports_relocated, List.map_append]
  · unfold activityReports
    split <;> rfl
  · rfl

end Rule

/-- A mode reports the same wherever nodes stand. -/
theorem Mode.reports_relocated (m : Mode) (parent : Option Occurrence) (o : Occurrence) :
    m.reports (parent.map (Occurrence.relocated g)) (o.relocated g) =
      (m.reports parent o).map (Report.relocated g) := by
  have hroutine : m.table.routineFor (o.relocated g).tree = m.table.routineFor o.tree := by
    rw [DispatchTable.routineFor, DispatchTable.routineFor, Occurrence.tree_relocated,
      Tree.kind?_relocated]
  rw [reports, reports, hroutine]
  cases m.table.routineFor o.tree with
  | none => rfl
  | some r => exact r.reports_relocated g parent o

namespace Tree

mutual

theorem positions_visitsAt_relocated {parent parent' : Option Occurrence} {p : Position} :
    ∀ t : Tree, ((t.relocated g).visitsAt parent' p).map (·.node.position) =
      (t.visitsAt parent p).map (·.node.position)
  | node h l ps => by
    have hparts := @positions_visitsOfParts_relocated ⟨p, node h l ps⟩
      ⟨p, node h (g l) (relocatedAll g ps)⟩ 0 rfl ps
    rw [relocated, visitsAt, visitsAt, List.map_cons, List.map_cons, hparts]
  | foreign _ => rfl

theorem positions_visitsOfParts_relocated {parent parent' : Occurrence} {i : Nat}
    (h : parent'.position = parent.position) :
    ∀ ts : List Tree, (visitsOfParts parent' i (relocatedAll g ts)).map (·.node.position) =
      (visitsOfParts parent i ts).map (·.node.position)
  | [] => rfl
  | t :: ts => by
    rw [relocatedAll, visitsOfParts, visitsOfParts, List.map_append, List.map_append, h,
      @positions_visitsAt_relocated (some parent) _ _ t,
      positions_visitsOfParts_relocated h ts]

end

/-- Nodes are at the same positions wherever they stand. -/
theorem positions_relocated (t : Tree) : (t.relocated g).positions = t.positions :=
  positions_visitsAt_relocated g t

theorem occurrenceAt_relocated (t : Tree) (p : Position) :
    (t.relocated g).occurrenceAt p = (t.occurrenceAt p).relocated g := by
  rw [occurrenceAt, at?_relocated, occurrenceAt, Occurrence.relocated]
  cases t.at? p <;> rfl

theorem parentAt_relocated (t : Tree) (p : Position) :
    (t.relocated g).parentAt p = (t.parentAt p).map (Occurrence.relocated g) := by
  unfold parentAt
  split
  · rfl
  · rw [occurrenceAt_relocated, Option.map_some]

/-- The rules report the same about the same positions. -/
theorem reports_relocated (m : Mode) (t : Tree) :
    (t.relocated g).reports m = (t.reports m).map (Report.relocated g) := by
  simp only [reports, positions_relocated, parentAt_relocated, occurrenceAt_relocated,
    Mode.reports_relocated, List.map_flatMap]

end Tree

end Rules

/-- A diagnostic with line and column taken away, and with what these were made from. -/
def Diagnostic.unplaced (d : Diagnostic) : Diagnostic :=
  { d with span := .ofFile d.span.file }

/-- Holds of replacements after which a span is in the same file. -/
def KeepsFile (g : Location → Location) (file : Option Text) : Prop :=
  ∀ l, (Span.ofLocation (g l) file).file = (Span.ofLocation l file).file

/-- Issues about nodes elsewhere in the same file differ in line and column alone. -/
theorem Report.issues_relocated {g : Location → Location} {file : Option Text}
    (hg : KeepsFile g file) (s : Strictness) (rs : List Report) :
    (issues s file (rs.map (relocated g))).map Diagnostic.unplaced =
      (issues s file rs).map Diagnostic.unplaced := by
  have hdiagnostic : ∀ r : Report, ((r.relocated g).diagnostic s file).unplaced =
      (r.diagnostic s file).unplaced := by
    intro r
    have hfile : (Span.ofLocation (r.site.tree.relocated g).location file).file =
        (Span.ofLocation r.site.tree.location file).file := by
      cases r.site.tree with
      | node h l ps =>
        rw [Tree.relocated_node]
        exact hg l
      | foreign x => rfl
    have hspan : (r.relocated g).diagnostic s file = { r.diagnostic s file with
        span := Span.ofLocation (r.site.tree.relocated g).location file } := rfl
    rw [hspan]
    simp only [Diagnostic.unplaced, diagnostic, hfile]
  rw [issues, issues, List.filter_map, List.map_map, List.map_map, List.map_map]
  exact List.map_congr_left fun r _ => hdiagnostic r

namespace PN

/-! ## 3. Values at other points -/

mutual

/-- A value with its points and those inside it moved. -/
def Value.moved (g : Point → Point) : Value → Value
  | .string p token => .string (g p) token
  | .number p token => .number (g p) token
  | .constant p word => .constant (g p) word
  | .form p word arguments => .form (g p) word (movedAll g arguments)
  | .list p items => .list (g p) (movedAll g items)

/-- Values with all their points moved. -/
def movedAll (g : Point → Point) : List Value → List Value
  | [] => []
  | v :: vs => v.moved g :: movedAll g vs

end

theorem movedAll_eq_map (g : Point → Point) (vs : List Value) :
    movedAll g vs = vs.map (Value.moved g) := by
  induction vs with
  | nil => rfl
  | cons v vs ih => rw [movedAll, ih, List.map_cons]

theorem Value.point_moved (g : Point → Point) (v : Value) : (v.moved g).point = g v.point := by
  cases v <;> rfl

/-- A refusal with its point moved. -/
def Refusal.moved (g : Point → Point) : Refusal → Refusal
  | .fault p why => .fault (g p) why
  | .tooManyDigits n => .tooManyDigits n

/-- A result with its value mapped, or with its refusal moved. -/
def carried {α β : Type} (g : Point → Point) (k : α → β) : Except Refusal α → Except Refusal β
  | .ok a => .ok (k a)
  | .error r => .error (r.moved g)

/-- What an argument gives, with the locations of its trees replaced. -/
def Argument.relocated (h : Location → Location) : Argument → Argument
  | .text t => .text t
  | .trees ts => .trees (ts.map (Tree.relocated h))

section Results

variable {α β γ δ : Type} {g : Point → Point}

theorem map_carried {f : α → β} {f' : γ → δ} {k : α → γ} {k' : β → δ} (x : Except Refusal α)
    (h : ∀ a, f' (k a) = k' (f a)) : (carried g k x).map f' = carried g k' (x.map f) := by
  cases x with
  | error r => rfl
  | ok a => exact congrArg Except.ok (h a)

theorem bind_carried {f : α → Except Refusal β} {f' : γ → Except Refusal δ} {k : α → γ}
    {k' : β → δ} (x : Except Refusal α) (h : ∀ a, f' (k a) = carried g k' (f a)) :
    (carried g k x).bind f' = carried g k' (x.bind f) := by
  cases x with
  | error r => rfl
  | ok a => exact h a

theorem firstError_carried {k : α → β} (rs : List (Except Refusal α)) :
    firstError (rs.map (carried g k)) = (firstError rs).map (Refusal.moved g) := by
  induction rs with
  | nil => rfl
  | cons r rs ih =>
    cases r with
    | error e => rfl
    | ok a => exact ih

theorem allOk_carried {k : α → β} (rs : List (Except Refusal α)) :
    allOk (rs.map (carried g k)) = carried g (List.map k) (allOk rs) := by
  induction rs with
  | nil => rfl
  | cons r rs ih =>
    cases r with
    | error e => rfl
    | ok a =>
      rw [List.map_cons, allOk]
      change (allOk (rs.map (carried g k))).map (k a :: ·) = _
      rw [ih]
      refine map_carried (allOk rs) ?_
      exact fun _ => rfl

theorem arrange_map (o : Order) (f : α → β) (xs : List α) :
    o.arrange (xs.map f) = (o.arrange xs).map f := by
  cases o with
  | written => rfl
  | secondFirst =>
    match xs with
    | [] | [_] | _ :: _ :: _ => rfl
  | last n => rw [Order.arrange, Order.arrange, List.map_append, List.map_drop, List.map_take]

end Results

/-! ## 4. Reading values at other points -/

/-- Locations are replaced as points are moved. -/
def Follows (h : Location → Location) (g : Point → Point) : Prop :=
  ∀ p : Point, h p.location = (g p).location

section Moved

variable {g : Point → Point} {h : Location → Location}

theorem literal_moved (hg : Follows h g) (p : Point) (head : Head) :
    (literal p head).relocated h = literal (g p) head := by
  rw [literal, Tree.relocated_node, hg p]
  rfl

theorem readText_moved (p : Point) (token : List Char) :
    readText (g p) token = carried g id (readText p token) := by
  unfold readText
  cases StringLiteral.decode (StringLiteral.content token) <;> rfl

theorem textCheck_moved (a : TextArgument) (p : Point) (t : Text) :
    a.check (g p) t = carried g id (a.check p t) := by
  unfold TextArgument.check
  split <;> rfl

theorem readNumber_moved (hg : Follows h g) (p : Point) (token : List Char) :
    readNumber (g p) token = carried g (Tree.relocated h) (readNumber p token) := by
  unfold readNumber
  cases Numeral.isFloat token with
  | true => simp only [if_true, carried, literal_moved hg]
  | false => cases Numeral.integer token <;> simp [carried, literal_moved hg, Refusal.moved]

theorem wantedCheck_moved (w : Wanted) (p : Point) (t : Tree) :
    w.check (g p) (t.relocated h) = carried g (Tree.relocated h) (w.check p t) := by
  cases w with
  | any => rfl
  | only what kind =>
    simp only [Wanted.check, Tree.kind?_relocated]
    split <;> rfl

/-- Moving the value moves what is read. -/
def Value.Moves (h : Location → Location) (g : Point → Point) (v : Value) : Prop :=
  (v.moved g).tree = carried g (Tree.relocated h) v.tree

theorem take_moved (w : Wanted) {v : Value} (hv : v.Moves h g) :
    w.take (v.moved g).reading = carried g (Tree.relocated h) (w.take v.reading) := by
  have htree : (v.moved g).reading.tree = carried g (Tree.relocated h) v.reading.tree := hv
  rw [Wanted.take, Wanted.take, htree, value_reading, value_reading, Value.point_moved]
  refine bind_carried v.reading.tree ?_
  exact wantedCheck_moved w v.point

/-- An argument that is moved with its form meets the same demand. -/
theorem meet_moved (d : Demand) (p : Point) {v : Value} (hv : ∀ u ∈ v.subvalues, u.Moves h g) :
    d.meet (g p) (v.moved g).reading =
      carried g (Argument.relocated h) (d.meet p v.reading) := by
  cases d with
  | expression w =>
    simp only [Demand.meet]
    rw [take_moved w (hv v (self_mem_subvalues v))]
    refine map_carried (w.take v.reading) ?_
    exact fun _ => rfl
  | text a =>
    simp only [Demand.meet, value_reading]
    cases v with
    | string q token =>
      have htext : (readText (g q) token).bind (a.check (g p)) =
          carried g id ((readText q token).bind (a.check p)) := by
        rw [readText_moved]
        refine bind_carried (readText q token) ?_
        exact textCheck_moved a p
      rw [Value.moved]
      dsimp only
      rw [htext]
      refine map_carried ((readText q token).bind (a.check p)) ?_
      exact fun _ => rfl
    | number | constant | form | list => rfl
  | list a =>
    simp only [Demand.meet, value_reading]
    cases v with
    | list q us =>
      have hitems : ((Value.list q us).moved g).reading.items =
          us.map fun u => (u.moved g).reading := by
        rw [Value.moved, movedAll_eq_map, Value.reading, readings_eq_map, List.map_map]
        rfl
      have htakes : ((us.map fun u => (u.moved g).reading).map a.item.take) =
          ((Value.list q us).reading.items.map a.item.take).map (carried g (Tree.relocated h)) := by
        rw [Value.reading, readings_eq_map, List.map_map, List.map_map, List.map_map]
        refine List.map_congr_left ?_
        intro u hu
        exact take_moved a.item (hv u (List.mem_cons_of_mem _
          (mem_inner_list hu (self_mem_subvalues u))))
      rw [hitems, htakes, allOk_carried]
      refine map_carried (allOk ((Value.list q us).reading.items.map a.item.take)) ?_
      exact fun _ => rfl
    | string | number | constant | form => rfl

theorem fill_moved (f : Form) (p : Point) (count : Nat) (ts : List Tree) :
    f.fill (g p) count (ts.map (Tree.relocated h)) =
      carried g (List.map (Tree.relocated h)) (f.fill p count ts) := by
  unfold Form.fill
  cases f.rest with
  | nothing | many => rfl
  | perhaps =>
    dsimp only
    split <;> simp [carried]
  | hashAndPerhaps =>
    match ts with
    | [] => rfl
    | [t] => by_cases ht : t.kind? = some .hash <;> simp [ht, carried]
    | [t, u] => by_cases ht : t.kind? = some .hash <;> simp [ht, carried, Refusal.moved]
    | [t, u, w] => by_cases ht : t.kind? = some .hash <;> simp [ht, carried, Refusal.moved]
    | t :: u :: w :: x :: ts =>
      by_cases ht : t.kind? = some .hash <;> simp [ht, carried, Refusal.moved]

theorem assemble_moved (hg : Follows h g) (f : Form) (k : Kind) (p : Point)
    (xs : List Argument) :
    f.assemble k (g p) (xs.map (Argument.relocated h)) =
      carried g (Tree.relocated h) (f.assemble k p xs) := by
  have htexts : (xs.map (Argument.relocated h)).flatMap Argument.texts =
      xs.flatMap Argument.texts := by
    rw [List.flatMap_map]
    exact List.flatMap_congr fun x _ => by cases x <;> rfl
  have hparts : (xs.map (Argument.relocated h)).flatMap Argument.parts =
      (xs.flatMap Argument.parts).map (Tree.relocated h) := by
    rw [List.flatMap_map, List.map_flatMap]
    exact List.flatMap_congr fun x _ => by cases x <;> rfl
  rw [Form.assemble, Form.assemble, htexts, hparts, List.length_map, fill_moved]
  refine map_carried (f.fill p xs.length (xs.flatMap Argument.parts)) ?_
  intro parts
  rw [Tree.relocated_node, hg p]

/-- A form is built of moved arguments as of the arguments themselves. -/
theorem build_moved (hg : Follows h g) (f : Form) (k : Kind) (p : Point) {vs : List Value}
    (hvs : ∀ u ∈ innerOfAll vs, u.Moves h g) :
    f.build k (g p) ((vs.map (Value.moved g)).map Value.reading) =
      carried g (Tree.relocated h) (f.build k p (vs.map Value.reading)) := by
  have hresults : (f.demands vs.length).zipWith (Demand.meet (g p))
      ((vs.map (Value.moved g)).map Value.reading) =
        ((f.demands vs.length).zipWith (Demand.meet p) (vs.map Value.reading)).map
          (carried g (Argument.relocated h)) := by
    rw [List.map_map, List.zipWith_map_right, List.zipWith_map_right,
      ← List.map_uncurry_zip_eq_zipWith, ← List.map_uncurry_zip_eq_zipWith, List.map_map]
    refine List.map_congr_left ?_
    rintro ⟨d, v⟩ hmem
    refine meet_moved d p ?_
    intro u hu
    exact hvs u (mem_innerOfAll_iff.mpr ⟨v, (List.of_mem_zip hmem).2, hu⟩)
  simp only [Form.build, List.length_map]
  rw [hresults, arrange_map, firstError_carried]
  split
  · cases firstError (f.order.arrange
        ((f.demands vs.length).zipWith (Demand.meet p) (vs.map Value.reading))) with
    | some e => rfl
    | none =>
      rw [allOk_carried]
      refine bind_carried (allOk _) ?_
      exact assemble_moved hg f k p
  · rfl

/-- Reading a value that is moved is moving what is read. -/
theorem tree_moved (hg : Follows h g) (v : Value) : v.Moves h g := by
  induction v using nested_induction with | step v ih
  unfold Value.Moves
  cases v with
  | string p token =>
    rw [Value.moved, tree_string, tree_string, readText_moved]
    refine map_carried (readText p token) ?_
    exact fun t => (literal_moved hg p (.string t)).symm
  | number p token =>
    rw [Value.moved, tree_number, tree_number, readNumber_moved hg]
  | constant p word =>
    rw [Value.moved, tree_constant, tree_constant, carried, literal_moved hg]
  | list p items =>
    rw [Value.moved, tree_list, tree_list]
    rfl
  | form p word vs =>
    rw [Value.moved, movedAll_eq_map, tree_form, tree_form]
    unfold readForm
    cases kindOfWord? word with
    | none => rfl
    | some k =>
      dsimp only
      cases Form.ofKind? k with
      | none => rfl
      | some f => exact build_moved hg f k p ih

end Moved

/-! ## 5. Tokens at other points -/

/-- A token with its point moved. -/
def Token.moved (g : Point → Point) (t : Token) : Token := { t with point := g t.point }

theorem moved_eq_iff {f g : Point → Point} {t u : Token} : t.moved f = u.moved g ↔
    t.terminal = u.terminal ∧ t.text = u.text ∧ f t.point = g u.point := by
  rw [Token.moved, Token.moved, Token.mk.injEq]

/-- Tokens that differ in their points alone, and not once moved, spell values that do. -/
theorem spells_of_moved {f g : Point → Point} {us : List Token} {vs : List Value}
    (h : Spells us vs) : ∀ {ts : List Token}, ts.map (Token.moved f) = us.map (Token.moved g) →
      ∃ ws, Spells ts ws ∧ ws.map (Value.moved f) = vs.map (Value.moved g) := by
  induction h with
  | nil =>
    intro ts hts
    rw [List.map_nil, List.map_eq_nil_iff] at hts
    rw [hts]
    exact ⟨[], .nil, rfl⟩
  | string ht rest ih =>
    intro ts hts
    obtain ⟨t, ts, rfl, hmoved, hmap⟩ := List.map_eq_cons_iff.mp hts
    obtain ⟨hterminal, htext, hpoint⟩ := moved_eq_iff.mp hmoved
    obtain ⟨ws, hws, hvalues⟩ := ih hmap
    refine ⟨_, .string (hterminal.trans ht) hws, ?_⟩
    rw [List.map_cons, List.map_cons, hvalues, Value.moved, Value.moved, htext, hpoint]
  | number ht rest ih =>
    intro ts hts
    obtain ⟨t, ts, rfl, hmoved, hmap⟩ := List.map_eq_cons_iff.mp hts
    obtain ⟨hterminal, htext, hpoint⟩ := moved_eq_iff.mp hmoved
    obtain ⟨ws, hws, hvalues⟩ := ih hmap
    refine ⟨_, .number (hterminal.trans ht) hws, ?_⟩
    rw [List.map_cons, List.map_cons, hvalues, Value.moved, Value.moved, htext, hpoint]
  | constant ht rest ih =>
    intro ts hts
    obtain ⟨t, ts, rfl, hmoved, hmap⟩ := List.map_eq_cons_iff.mp hts
    obtain ⟨hterminal, -, hpoint⟩ := moved_eq_iff.mp hmoved
    obtain ⟨ws, hws, hvalues⟩ := ih hmap
    refine ⟨_, .constant (hterminal.trans ht) hws, ?_⟩
    rw [List.map_cons, List.map_cons, hvalues, Value.moved, Value.moved, hpoint]
  | form hl hs hr body rest ihbody ih =>
    intro ts hts
    obtain ⟨l, ts, rfl, hopen, hts⟩ := List.map_eq_cons_iff.mp hts
    obtain ⟨s, ts, rfl, hword, hts⟩ := List.map_eq_cons_iff.mp hts
    rw [List.map_append, List.map_cons] at hts
    obtain ⟨inner, ts, rfl, hinner, hts⟩ := List.map_eq_append_iff.mp hts
    obtain ⟨r, ts, rfl, hclose, hts⟩ := List.map_eq_cons_iff.mp hts
    obtain ⟨hterminal, -, hpoint⟩ := moved_eq_iff.mp hopen
    obtain ⟨hsymbol, htext, -⟩ := moved_eq_iff.mp hword
    obtain ⟨as, has, harguments⟩ := ihbody hinner
    obtain ⟨ws, hws, hvalues⟩ := ih hts
    refine ⟨_, .form (hterminal.trans hl) (hsymbol.trans hs)
      ((moved_eq_iff.mp hclose).1.trans hr) has hws, ?_⟩
    rw [List.map_cons, List.map_cons, hvalues, Value.moved, Value.moved, movedAll_eq_map,
      movedAll_eq_map, harguments, htext, hpoint]
  | list hl hr body rest ihbody ih =>
    intro ts hts
    obtain ⟨l, ts, rfl, hopen, hts⟩ := List.map_eq_cons_iff.mp hts
    rw [List.map_append, List.map_cons] at hts
    obtain ⟨inner, ts, rfl, hinner, hts⟩ := List.map_eq_append_iff.mp hts
    obtain ⟨r, ts, rfl, hclose, hts⟩ := List.map_eq_cons_iff.mp hts
    obtain ⟨hterminal, -, hpoint⟩ := moved_eq_iff.mp hopen
    obtain ⟨as, has, hitems⟩ := ihbody hinner
    obtain ⟨ws, hws, hvalues⟩ := ih hts
    refine ⟨_, .list (hterminal.trans hl) ((moved_eq_iff.mp hclose).1.trans hr) has hws, ?_⟩
    rw [List.map_cons, List.map_cons, hvalues, Value.moved, Value.moved, movedAll_eq_map,
      movedAll_eq_map, hitems, hpoint]

end PN

end ManifestLint
