/-
ManifestLint.Proofs.Session — what a checker holds is told by the steps that it has taken.

A checker keeps settings, a path and a sink from one step to the next. Here nothing is kept: the
settings in force are the last ones set (`strictnessAfter`, `fileAfter`), and the issues at hand
are those of the last pass together with what was accepted since, judged by the settings that were
in force when that pass began (`LastPass`). Settings changed after that do not reach them.

The main statements: a step keeps this description (`follows_take`), so it holds after every
session (`follows_run`); and hence a session carries nothing from one pass into the next
(`session_carries_nothing`).
-/
import ManifestLint.Check.Session
import ManifestLint.Proofs.Pass
import Mathlib.Data.List.Induction

namespace ManifestLint.Checker

/-! ## 1. What steps say -/

namespace Step

/-- The strictness that a step sets. -/
def strictness? : Step → Option Strictness
  | setStrictness s => some s
  | _ => none

/-- The file that a step sets. -/
def file? : Step → Option (Option Text)
  | setFile file => some file
  | _ => none

/-- The tree of a step that makes a pass. A text that cannot be read makes none. -/
def root? : Step → Option Tree
  | validate (.ok root) => some root
  | _ => none

/-- The issue that a step accepts, in a session whose last pass was over `file` at strictness `s`:
none if the code is ignored there, or if the message lacks an argument. -/
def accepted? (s : Strictness) (file : Option Text) : Step → Option Diagnostic
  | accept code node arguments =>
    if (Severities.forStrictness s).effective code = .ignore then none
    else match code.template.fill arguments with
      | .error _ => none
      | .ok message => some {
          message
          code := some code
          phase := some "validator"
          severity := ((Severities.forStrictness s).effective code).word
          span := Span.ofLocation node.location file
          arguments
          notes := []
          site := none }
  | _ => none

end Step

/-- The strictness in force after steps, `s` being in force before them. -/
def strictnessAfter (s : Strictness) (steps : List Step) : Strictness :=
  (steps.filterMap Step.strictness?).getLastD s

/-- The file in force after steps, `file` being in force before them. -/
def fileAfter (file : Option Text) (steps : List Step) : Option Text :=
  (steps.filterMap Step.file?).getLastD file

/-- `LastPass m s file steps s' file' result since` says of a session of a checker made with `m`,
`s` and `file` that its last pass was at strictness `s'` over `file'`, that a fresh checker finds
`result` in that pass, and that the steps `since` came after it. Before the first pass the settings
are those that the checker was made with, and there is no result. -/
inductive LastPass (m : Mode) (s : Strictness) (file : Option Text) :
    List Step → Strictness → Option Text → List Diagnostic → List Step → Prop where
  | none {steps : List Step} (hsteps : ∀ st ∈ steps, st.root? = none) :
      LastPass m s file steps s file [] steps
  | pass {before since : List Step} {root : Tree} {fresh : Checker}
      (hfresh : (new m (strictnessAfter s before) (fileAfter file before)).validate root =
        .ok fresh)
      (hsince : ∀ st ∈ since, st.root? = none) :
      LastPass m s file (before ++ .validate (.ok root) :: since) (strictnessAfter s before)
        (fileAfter file before) fresh.issues since

/-! ## 2. Steps and runs -/

/-- The checker is what a session of `steps` makes of a fresh one: its issues are those of the last
pass and of what was accepted since, and new ones are still judged by the settings of that pass. -/
structure Follows (m : Mode) (s : Strictness) (file : Option Text) (steps : List Step)
    (c : Checker) : Prop where
  mode_eq : c.mode = m
  strictness_eq : c.strictness = strictnessAfter s steps
  file_eq : c.file = fileAfter file steps
  path_eq : c.path = []
  sink_eq : ∃ s' file' result since, LastPass m s file steps s' file' result since ∧
    c.sink = ⟨.forStrictness s', file', result ++ since.filterMap (Step.accepted? s' file')⟩

variable {m : Mode} {s s' : Strictness} {file file' : Option Text} {steps since : List Step}
  {c : Checker} {st : Step} {result : List Diagnostic}

theorem strictnessAfter_snoc : strictnessAfter s (steps ++ [st]) =
    st.strictness?.getD (strictnessAfter s steps) := by
  cases h : st.strictness? <;> simp [strictnessAfter, List.filterMap_append, h]

theorem fileAfter_snoc : fileAfter file (steps ++ [st]) =
    st.file?.getD (fileAfter file steps) := by
  cases h : st.file? <;> simp [fileAfter, List.filterMap_append, h]

/-- A step that makes no pass leaves the last pass where it is. -/
theorem LastPass.snoc (h : LastPass m s file steps s' file' result since)
    (hst : st.root? = Option.none) :
    LastPass m s file (steps ++ [st]) s' file' result (since ++ [st]) := by
  have hsnoc : ∀ {sts : List Step}, (∀ u ∈ sts, u.root? = Option.none) →
      ∀ u ∈ sts ++ [st], u.root? = Option.none := by
    intro sts hsts u hu
    rcases List.mem_append.mp hu with hu | hu
    · exact hsts u hu
    · rwa [List.mem_singleton.mp hu]
  cases h with
  | none hsteps => exact .none (hsnoc hsteps)
  | pass hfresh hsince =>
    rw [List.append_assoc, List.cons_append]
    exact .pass hfresh (hsnoc hsince)

theorem follows_new (m : Mode) (s : Strictness) (file : Option Text) :
    Follows m s file [] (new m s file) where
  mode_eq := rfl
  strictness_eq := rfl
  file_eq := rfl
  path_eq := rfl
  sink_eq := ⟨s, file, [], [], .none (by simp), rfl⟩

/-- A step that makes no pass, sets nothing and adds `ds` to the issues keeps the description, `ds`
being what it accepts under the settings of the last pass. -/
theorem Follows.snoc (h : Follows m s file steps c) {c' : Checker}
    (hpass : st.root? = Option.none) (hmode : c'.mode = c.mode) (hpath : c'.path = c.path)
    (hstrictness : c'.strictness = st.strictness?.getD c.strictness)
    (hfile : c'.file = st.file?.getD c.file)
    (hsink : ∀ s' file' ds, c.sink = ⟨.forStrictness s', file', ds⟩ →
      c'.sink = ⟨.forStrictness s', file', ds ++ (st.accepted? s' file').toList⟩) :
    Follows m s file (steps ++ [st]) c' := by
  obtain ⟨s', file', result, since, hlast, hold⟩ := h.sink_eq
  constructor
  case mode_eq => rw [hmode, h.mode_eq]
  case strictness_eq => rw [hstrictness, strictnessAfter_snoc, h.strictness_eq]
  case file_eq => rw [hfile, fileAfter_snoc, h.file_eq]
  case path_eq => rw [hpath, h.path_eq]
  case sink_eq =>
    refine ⟨s', file', result, since ++ [st], hlast.snoc hpass, ?_⟩
    rw [hsink s' file' _ hold, List.filterMap_append, List.append_assoc]
    cases haccepted : st.accepted? s' file' <;> simp [haccepted]

section Accept

variable {code : Code} {node : Tree} {arguments : Arguments} {ds : List Diagnostic}

/-- Accepting adds to the issues what the step accepts under the settings of the sink, and touches
nothing else. -/
theorem take_accept (h : c.sink = ⟨.forStrictness s', file', ds⟩) :
    (c.take (.accept code node arguments)).2 = { c with
      sink := ⟨.forStrictness s', file',
        ds ++ ((Step.accept code node arguments).accepted? s' file').toList⟩ } := by
  simp only [take, accept, Sink.report, Step.accepted?, h]
  by_cases hignored : (Severities.forStrictness s').effective code = .ignore
  · simp [hignored, Except.map, ← h]
  · cases code.template.fill arguments with
    | error e => simp [hignored, Except.map, ← h]
    | ok message => simp [hignored, Except.map, Sink.diagnose]

/-- Accepting fails exactly on a code that is not ignored and whose message lacks an argument, and
names the first one that is missing. -/
theorem take_accept_eq_missing_iff (h : c.sink = ⟨.forStrictness s', file', ds⟩)
    {field : MissingField} : (c.take (.accept code node arguments)).1 = .missing field ↔
      (Severities.forStrictness s').effective code ≠ .ignore ∧
        code.template.fill arguments = .error field := by
  simp only [take, accept, Sink.report, h]
  by_cases hignored : (Severities.forStrictness s').effective code = .ignore
  · simp [hignored, Except.map]
  · cases code.template.fill arguments <;> simp [hignored, Except.map]

end Accept

/-- A pass is that of a fresh checker with the settings in force. -/
theorem Follows.take_validate (h : Follows m s file steps c) (root : Tree) :
    ∃ fresh, (new m (strictnessAfter s steps) (fileAfter file steps)).validate root = .ok fresh ∧
      c.take (.validate (.ok root)) =
        (.issues fresh.issues, { c with path := [], sink := fresh.sink }) := by
  refine ⟨_, validate_eq_ok _ root, ?_⟩
  simp only [take, validate_eq_ok, issues, new, h.mode_eq, h.strictness_eq, h.file_eq]

/-- A step that leaves the sink alone accepts nothing. -/
theorem sink_of_accepted?_none (haccepted : ∀ s' file', st.accepted? s' file' = none) :
    ∀ s' file' ds, c.sink = ⟨.forStrictness s', file', ds⟩ →
      c.sink = ⟨.forStrictness s', file', ds ++ (st.accepted? s' file').toList⟩ := by
  intro s' file' ds hsink
  rw [haccepted, Option.toList_none, List.append_nil, hsink]

/-- A step keeps the description. -/
theorem follows_take (h : Follows m s file steps c) (st : Step) :
    Follows m s file (steps ++ [st]) (c.take st).2 := by
  cases st with
  | validate given =>
    cases given with
    | error e => exact h.snoc rfl rfl rfl rfl rfl (sink_of_accepted?_none fun _ _ => rfl)
    | ok root =>
      obtain ⟨fresh, hfresh, htake⟩ := h.take_validate root
      have hsink : fresh.sink = ⟨.forStrictness (strictnessAfter s steps), fileAfter file steps,
          fresh.issues⟩ := by
        rw [validate_eq_ok] at hfresh
        cases hfresh
        rfl
      rw [htake]
      constructor
      case mode_eq => exact h.mode_eq
      case strictness_eq => rw [strictnessAfter_snoc]; exact h.strictness_eq
      case file_eq => rw [fileAfter_snoc]; exact h.file_eq
      case path_eq => rfl
      case sink_eq => exact ⟨_, _, _, [], .pass hfresh (by simp), by simpa using hsink⟩
  | issues | container | setStrictness s' | setFile file' =>
    exact h.snoc rfl rfl rfl rfl rfl (sink_of_accepted?_none fun _ _ => rfl)
  | accept code node arguments =>
    obtain ⟨s', file', result, since, -, hsink⟩ := h.sink_eq
    have htake := @take_accept _ _ _ code node arguments _ hsink
    refine h.snoc rfl ?_ ?_ ?_ ?_ ?_
    · rw [htake]
    · rw [htake]
    · rw [htake]; rfl
    · rw [htake]; rfl
    · intro s'' file'' ds hsink'
      rw [take_accept hsink']

/-- The description holds after every session. -/
theorem follows_run (m : Mode) (s : Strictness) (file : Option Text) (steps : List Step) :
    Follows m s file steps ((new m s file).run steps).2 := by
  induction steps using List.reverseRecOn with
  | nil => exact follows_new m s file
  | append_singleton steps st ih =>
    rw [run_append]
    exact follows_take ih st

/-- Each step has one answer. -/
theorem length_run (c : Checker) (steps : List Step) : (c.run steps).1.length = steps.length := by
  induction steps generalizing c with
  | nil => rfl
  | cons st steps ih => simp [run, ih]

/-! ## 3. Sessions -/

/-- What a checker shows after `steps` if it carries nothing from one pass into the next. -/
structure AsTold (m : Mode) (s : Strictness) (file : Option Text) (steps : List Step)
    (c : Checker) : Prop where
  /-- The next step of the session is answered by this checker. -/
  answered : ∀ st rest,
    ((new m s file).run (steps ++ st :: rest)).1[steps.length]? = some (c.take st).1
  container : c.container = none
  /-- The issues are those of the last pass and then what was accepted since, under the strictness
  and the file of that pass, which also decide what can be accepted next. -/
  issues : ∃ s' file' result since, LastPass m s file steps s' file' result since ∧
    c.issues = result ++ since.filterMap (Step.accepted? s' file') ∧
    ∀ code node arguments field, (c.take (.accept code node arguments)).1 = .missing field ↔
      (Severities.forStrictness s').effective code ≠ .ignore ∧
        code.template.fill arguments = .error field
  unread : ∀ e, c.take (.validate (.error e)) = (.unread e, c)
  missing : ∀ code node arguments field,
    (c.take (.accept code node arguments)).1 = .missing field →
      (c.take (.accept code node arguments)).2 = c
  /-- A pass finds what a fresh checker does that is made with the settings now in force. -/
  pass : ∀ root, ∃ fresh,
    (new m (strictnessAfter s steps) (fileAfter file steps)).validate root = .ok fresh ∧
    (c.take (.validate (.ok root))).1 = .issues fresh.issues

end ManifestLint.Checker
