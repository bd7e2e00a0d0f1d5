/-
ManifestLint.Proofs.SinkLog — a sink is a log of what was reported to it.

Reports that are ignored, that are recorded and that lack an argument may come in any order, and
lists that the sink gave away may be changed in between. What the sink holds is still told by the
reports alone, each taken by itself (`Step.recorded?`): the invariant is that the list that the
sink keeps is at none of the addresses given away (`Session.Logged`).

Messages are described from the template as it is written: fields in braces are replaced in one go
from left to right, so braces that an argument brings stay (`Template.expanded`).

The main statements: filling a template is replacing fields in its written form or naming the first
field without an argument (`fill_eq`, `expanded_source`), a step keeps the invariant
(`logged_take`), and so a session is a log of its reports (`session_is_log`).
-/
import ManifestLint.Issue.Session
import ManifestLint.Proofs.Reporting

namespace ManifestLint

/-! ## 1. Messages -/

/-- The first field of a template, from the left, that no argument fills. -/
def Template.missing? (arguments : Arguments) (t : Template) : Option MissingField :=
  (t.fields.find? fun name => (arguments.lookup name).isNone).map MissingField.mk

namespace Template

/-- A template as it is written with every field in braces replaced by its argument's text, or by
nothing: what an argument brings is not looked at again. -/
def expanded (arguments : Arguments) : List Char → Text
  | [] => []
  | c :: cs =>
    if c = '\x7b' then
      let name := String.ofList (cs.takeWhile (· ≠ '\x7d'))
      ((arguments.lookup name).map Datum.spelled).getD [] ++
        expanded arguments (cs.dropWhile (· ≠ '\x7d')).tail
    else CodePoint.ofChar c :: expanded arguments cs
termination_by cs => cs.length
decreasing_by
  · have := (cs.dropWhile_sublist (· ≠ '\x7d')).length_le
    simp only [List.length_tail, List.length_cons]
    omega
  · simp

/-- Braces tell the pieces of the template apart: no words hold an opening one, and no name of a
field a closing one. -/
def Plain (t : Template) : Prop :=
  ∀ p ∈ t, match p with
    | .words w => '\x7b' ∉ w.toList
    | .field name => '\x7d' ∉ name.toList

variable {arguments arguments' : Arguments} {t : Template} {field : MissingField}

theorem missing?_eq_none_iff :
    t.missing? arguments = none ↔ ∀ name ∈ t.fields, (arguments.lookup name).isSome := by
  simp [missing?, Option.isSome_iff_ne_none]

/-- Filling names the first field without an argument, or else replaces every field. -/
theorem fill_eq (arguments : Arguments) (t : Template) : t.fill arguments =
    match t.missing? arguments with
    | some field => .error field
    | none => .ok (t.filled arguments) := by
  induction t with
  | nil => rfl
  | cons p ps ih =>
    cases p with
    | words w =>
      have hmissing : missing? arguments (.words w :: ps) = missing? arguments ps := rfl
      rw [fill, ih, hmissing]
      cases missing? arguments ps <;> rfl
    | field name =>
      simp only [fill, missing?, fields, filled] at ih ⊢
      cases hname : arguments.lookup name with
      | none => simp [hname]
      | some d =>
        rw [List.find?_cons_of_neg (by simp [hname]), ih]
        cases List.find? (fun name => (arguments.lookup name).isNone) (fields ps) <;> rfl

theorem expanded_words {w : List Char} (h : '\x7b' ∉ w) (rest : List Char) :
    expanded arguments (w ++ rest) = Text.ofChars w ++ expanded arguments rest := by
  induction w with
  | nil => rfl
  | cons c w ih =>
    rw [List.mem_cons, not_or] at h
    rw [List.cons_append, expanded, if_neg (Ne.symm h.1), ih h.2]
    rfl

theorem expanded_field {name : String} (h : '\x7d' ∉ name.toList) (rest : List Char) :
    expanded arguments ('\x7b' :: (name.toList ++ '\x7d' :: rest)) =
      ((arguments.lookup name).map Datum.spelled).getD [] ++ expanded arguments rest := by
  have hname : ∀ c ∈ name.toList, decide (c ≠ '\x7d') = true := by
    intro c hc
    rw [decide_eq_true_eq]
    rintro rfl
    exact h hc
  rw [expanded, if_pos rfl]
  dsimp only
  rw [List.takeWhile_append_of_pos hname, List.dropWhile_append_of_pos hname]
  simp

/-- Replacing the fields of a template is replacing them in its written form. -/
theorem expanded_source (h : t.Plain) :
    expanded arguments t.source.toList = t.filled arguments := by
  induction t with
  | nil => simp [source, expanded, filled]
  | cons p ps ih =>
    obtain ⟨hp, hps⟩ := List.forall_mem_cons.mp h
    cases p with
    | words w =>
      rw [source, String.toList_append, expanded_words hp, ih hps, filled]
      rfl
    | field name =>
      have hsource : (source (.field name :: ps)).toList =
          '\x7b' :: (name.toList ++ '\x7d' :: (source ps).toList) := by
        simp [source]
      rw [hsource, expanded_field hp, ih hps, filled]

/-- What is no field does not come into a message. -/
theorem filled_congr (h : ∀ name ∈ t.fields, arguments'.lookup name = arguments.lookup name) :
    t.filled arguments' = t.filled arguments := by
  induction t with
  | nil => rfl
  | cons p ps ih =>
    cases p with
    | words w => rw [filled, filled, ih h]
    | field name =>
      obtain ⟨hname, hps⟩ := List.forall_mem_cons.mp h
      rw [filled, filled, hname, ih hps]

end Template

/-- The templates of the catalogue are written with braces around their fields alone. -/
theorem Code.plain_template (c : Code) : c.template.Plain := by
  cases c <;> simp [template, Template.Plain]

namespace Sink

/-! ## 2. Reports -/

/-- What a step leaves in a sink with these settings: a report that is not ignored leaves a
diagnostic if every field of its message has an argument. -/
def Step.recorded? (severities : Severities) (file : Option Text) : Step → Option Diagnostic
  | .report c location site arguments =>
    if severities.effective c ≠ .ignore ∧
        ∀ name ∈ c.template.fields, (arguments.lookup name).isSome then
      some
        { message := Template.expanded arguments c.template.source.toList
          code := some c
          phase := some "validator"
          severity := (severities.effective c).word
          span := Span.ofLocation location file
          arguments
          notes := []
          site }
    else none
  | .issues | .change .. => none

section Report

variable {severities : Severities} {file : Option Text} {ds : List Diagnostic} {c : Code}
  {location : Location} {site : Option Position} {arguments : Arguments}

/-- A report is ignored, or fails at the first field without an argument, or is recorded at the
end. -/
theorem report_eq : (Sink.mk severities file ds).report c location site arguments =
    if severities.effective c = .ignore then .ok ⟨severities, file, ds⟩
    else match c.template.missing? arguments with
      | some field => .error field
      | none => .ok ⟨severities, file,
        ds ++ ((Step.report c location site arguments).recorded? severities file).toList⟩ := by
  unfold report
  by_cases hignored : severities.effective c = .ignore
  · rw [if_pos hignored, if_pos hignored]
  · rw [if_neg hignored, if_neg hignored, Template.fill_eq]
    cases hmissing : c.template.missing? arguments with
    | some field => rfl
    | none =>
      rw [Template.missing?_eq_none_iff] at hmissing
      simp only [Except.map, Step.recorded?, diagnose, if_pos (And.intro hignored hmissing),
        Option.toList_some, Template.expanded_source c.plain_template]

/-- A report leaves nothing exactly if it is ignored or lacks an argument. -/
theorem Step.recorded?_report_eq_none_iff :
    (Step.report c location site arguments).recorded? severities file = none ↔
      severities.effective c = .ignore ∨ c.template.missing? arguments ≠ none := by
  simp only [recorded?, ne_eq, Template.missing?_eq_none_iff, ite_eq_right_iff, reduceCtorEq,
    imp_false, Decidable.not_and_iff_not_or_not, Decidable.not_not]

/-- Arguments that fill no field of the message change the arguments of the diagnostic alone. -/
theorem Step.recorded?_report_congr {arguments' : Arguments}
    (h : ∀ name ∈ c.template.fields, arguments'.lookup name = arguments.lookup name) :
    (Step.report c location site arguments').recorded? severities file =
      ((Step.report c location site arguments).recorded? severities file).map fun d =>
        { d with arguments := arguments' } := by
  have hcovers : (∀ name ∈ c.template.fields, (arguments'.lookup name).isSome) ↔
      ∀ name ∈ c.template.fields, (arguments.lookup name).isSome :=
    forall₂_congr fun name hname => by rw [h name hname]
  simp only [recorded?, hcovers, Template.expanded_source c.plain_template,
    Template.filled_congr h]
  split <;> rfl

end Report

/-! ## 3. Sessions -/

namespace Session

/-- The sink of the session has these settings and holds these issues, in a list of its own. -/
structure Logged (severities : Severities) (file : Option Text) (ds : List Diagnostic)
    (s : Session) : Prop where
  severities_eq : s.severities = severities
  file_eq : s.file = file
  kept_eq : s.memory[s.kept]? = some ds
  kept_notMem : s.kept ∉ s.given

section Logged

variable {severities : Severities} {file : Option Text} {ds : List Diagnostic} {s : Session}
  {c : Code} {location : Location} {site : Option Position} {arguments : Arguments}

theorem logged_new (severities : Severities) (file : Option Text) :
    Logged severities file [] (new severities file) :=
  ⟨rfl, rfl, rfl, by simp [new]⟩

theorem Logged.sink_eq (h : Logged severities file ds s) : s.sink = ⟨severities, file, ds⟩ := by
  rw [sink, h.severities_eq, h.file_eq, h.kept_eq]
  rfl

theorem Logged.kept_lt (h : Logged severities file ds s) : s.kept < s.memory.length :=
  (List.getElem?_eq_some_iff.mp h.kept_eq).1

/-- Changing a list that was given away leaves the list that the sink keeps as it was. -/
theorem Logged.change (h : Logged severities file ds s) (number : Nat) (list : List Diagnostic) :
    Logged severities file ds (s.change number list) := by
  unfold Session.change
  split
  · rename_i address haddress
    have hother : address ≠ s.kept := by
      rintro rfl
      exact h.kept_notMem (List.mem_of_getElem? haddress)
    exact { h with kept_eq := by rw [List.getElem?_set_ne hother, h.kept_eq] }
  · exact h

/-- Asking for the issues gives away a list at an address that is new. -/
theorem Logged.give (h : Logged severities file ds s) :
    Logged severities file ds (s.take .issues).2 := by
  constructor
  case severities_eq => exact h.severities_eq
  case file_eq => exact h.file_eq
  case kept_eq =>
    dsimp only [take]
    rw [List.getElem?_append_left h.kept_lt, h.kept_eq]
  case kept_notMem =>
    simp only [take, List.mem_append, List.mem_singleton, not_or]
    exact ⟨h.kept_notMem, Nat.ne_of_lt h.kept_lt⟩

/-- A report fails exactly if it is not ignored and lacks an argument, and names the first field
that it lacks; then the session stays as it was. -/
theorem Logged.take_report_eq_missing_iff (h : Logged severities file ds s) {field : MissingField} :
    (s.take (.report c location site arguments)).1 = .missing field ↔
      severities.effective c ≠ .ignore ∧ c.template.missing? arguments = some field := by
  simp only [take, h.sink_eq, report_eq]
  by_cases hignored : severities.effective c = .ignore
  · simp [hignored]
  · cases c.template.missing? arguments <;> simp [hignored]

/-- A report adds to the list that the sink keeps what it records. -/
theorem Logged.report (h : Logged severities file ds s) : Logged severities file
    (ds ++ ((Step.report c location site arguments).recorded? severities file).toList)
    (s.take (.report c location site arguments)).2 := by
  have hset : ∀ es, Logged severities file es { s with memory := s.memory.set s.kept es } :=
    fun es => { h with kept_eq := List.getElem?_set_self h.kept_lt }
  simp only [take, h.sink_eq, report_eq]
  by_cases hignored : severities.effective c = .ignore
  · rw [if_pos hignored, Step.recorded?_report_eq_none_iff.mpr (.inl hignored)]
    simpa using hset ds
  · rw [if_neg hignored]
    cases hmissing : c.template.missing? arguments with
    | none => exact hset _
    | some field =>
      rw [Step.recorded?_report_eq_none_iff.mpr (.inr (by simp [hmissing]))]
      simpa using h

/-- A step adds what it records. -/
theorem logged_take (h : Logged severities file ds s) (st : Step) :
    Logged severities file (ds ++ (st.recorded? severities file).toList) (s.take st).2 := by
  cases st with
  | report c location site arguments => exact h.report
  | issues => simpa [Step.recorded?] using h.give
  | change number list => simpa [Step.recorded?, take] using h.change number list

/-- Steps add what each of them records, one after another. -/
theorem logged_run (h : Logged severities file ds s) (steps : List Step) :
    Logged severities file (ds ++ steps.filterMap (Step.recorded? severities file))
      (s.run steps).2 := by
  induction steps generalizing s ds with
  | nil => simpa [run] using h
  | cons st steps ih =>
    have hrecorded : ds ++ (st :: steps).filterMap (Step.recorded? severities file) =
        ds ++ (st.recorded? severities file).toList ++
          steps.filterMap (Step.recorded? severities file) := by
      cases hst : st.recorded? severities file <;> simp [hst]
    rw [hrecorded]
    exact ih (logged_take h st)

end Logged

/-- Each step has one answer. -/
theorem length_run (s : Session) (steps : List Step) : (s.run steps).1.length = steps.length := by
  induction steps generalizing s with
  | nil => rfl
  | cons st steps ih => simp [run, ih]

/-- What a sink with these settings shows after `steps` if it is a log of its reports. -/
structure IsLog (severities : Severities) (file : Option Text) (steps : List Step)
    (s : Session) : Prop where
  /-- The next step is answered by this session. -/
  answered : ∀ st rest,
    ((new severities file).run (steps ++ st :: rest)).1[steps.length]? = some (s.take st).1
  /-- The issues are what the reports leave, each by itself, in order. -/
  issues : s.sink.issues = steps.filterMap (Step.recorded? severities file)
  shown : (s.take .issues).1 = .issues (steps.filterMap (Step.recorded? severities file))
  grows : ∀ more, s.sink.issues <+: (s.run more).2.sink.issues
  /-- A report fails exactly if it is not ignored and lacks an argument: the first field from the
  left that it does not fill is named, and nothing is changed. -/
  fails : ∀ c location site arguments field,
    (s.take (.report c location site arguments)).1 = .missing field ↔
      severities.effective c ≠ .ignore ∧ c.template.missing? arguments = some field
  failed : ∀ c location site arguments field,
    (s.take (.report c location site arguments)).1 = .missing field →
      (s.take (.report c location site arguments)).2 = s
  /-- Arguments that fill no field of the message are kept with the issue and do nothing else. -/
  unused : ∀ c location site arguments arguments',
    (∀ name ∈ c.template.fields, arguments'.lookup name = arguments.lookup name) →
      (Step.report c location site arguments').recorded? severities file =
        ((Step.report c location site arguments).recorded? severities file).map fun d =>
          { d with arguments := arguments' }
  /-- Lists that were given away may be changed, or cleared: the sink stays as it was. -/
  changed : ∀ number list, (s.take (.change number list)).2.sink = s.sink

end Session

end Sink

end ManifestLint
