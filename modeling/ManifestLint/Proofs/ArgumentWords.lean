/-
ManifestLint.Proofs.ArgumentWords — command lines that ask for a check.

Every choice of settings and of sources can be asked for. The words of a command line are taken one
after another, so each word leads from what has been taken before it to what has been taken
after it (`Taken.parse`).

The main statement: the command line made for settings and sources asks for just these
(`parseArguments_commandLine`).
-/
import ManifestLint.CommandLine.Arguments

namespace ManifestLint.CommandLine

/-- The words that ask for the settings. -/
def Settings.words (s : Settings) : List String :=
  ["--strict", s.strictness.word] ++ (if s.workflow then ["--workflow"] else []) ++
    (if s.json then ["--json"] else []) ++ if s.verbose then ["--verbose"] else []

/-- The words that ask for a check of sources. Two dashes stand before the sources, so that their
names may look like flags. -/
def commandLine (s : Settings) (names : List String) : List String := s.words ++ "--" :: names

/-- A word before the two dashes is told apart by itself. -/
theorem sortWords_cons {w : String} {sort : WordClass} (hdashes : w ≠ "--")
    (hsort : sortOf w.toList = .ok sort) (ws : List String) :
    sortWords (w :: ws) = (sortWords ws).map (⟨w, sort⟩ :: ·) := by
  simp only [sortWords, hdashes, if_false, hsort]
  cases sortWords ws <;> rfl

namespace Taken

/-- Takes the words that are left. -/
def parse (t : Taken) (words : List String) : Except UsageError Request :=
  (sortWords words).bind (takeWords t [])

/-- Settings are taken, and no sources yet. -/
def ofSettings (s : Settings) : Taken := ⟨s.toSwitches, some s.strictness, none, []⟩

variable {t t' : Taken} {s : Settings} {w : String} {ws : List String}

/-- A flag is taken at once. -/
theorem parse_flag {f : Flag} (hdashes : w ≠ "--")
    (hsort : sortOf w.toList = .ok (.flag f false none))
    (htake : (t.takePlain []).takeFlag f false none = .ok (.next t')) :
    t.parse (w :: ws) = t'.parse ws := by
  rw [parse, parse, sortWords_cons hdashes hsort]
  cases sortWords ws with
  | error e => rfl
  | ok words =>
    change takeWords t [] (⟨w, .flag f false none⟩ :: words) = takeWords t' [] words
    simp only [takeWords, List.reverse_nil, List.map_nil, htake]

/-- A strictness is taken with the word after its flag. -/
theorem parse_strictness (s : Settings) (strictness : Strictness) (ws : List String) :
    (ofSettings s).parse ("--strict" :: strictness.word :: ws) =
      (ofSettings { s with strictness }).parse ws := by
  have hflag : sortOf "--strict".toList = .ok (.flag .strict false none) := rfl
  have hplain : strictness.word ≠ "--" ∧ sortOf strictness.word.toList = .ok .plain := by
    cases strictness <;> exact ⟨by decide, rfl⟩
  have htake : (ofSettings s).takeStrictness strictness.word.toList =
      .ok (ofSettings { s with strictness }) := by
    cases strictness <;> rfl
  rw [parse, parse, sortWords_cons (by decide) hflag, sortWords_cons hplain.1 hplain.2]
  cases sortWords ws with
  | error e => rfl
  | ok words =>
    change takeWords (ofSettings s) []
      (⟨"--strict", .flag .strict false none⟩ :: ⟨strictness.word, .plain⟩ :: words) = _
    have hwants : ((ofSettings s).takePlain []).takeFlag .strict false none =
      .ok (.value (ofSettings s)) := rfl
    simp only [takeWords, List.reverse_nil, List.map_nil, hwants, htake, if_true]
    rfl

/-- The words after two dashes are the sources. -/
theorem parse_sources {names : List String} (hnames : names ≠ []) :
    (ofSettings s).parse ("--" :: names) = .ok (.check s (names.map Path.ofString)) := by
  have hall : ∀ ns : List String, ns.filter (fun _ => true) = ns :=
    fun ns => List.filter_eq_self.mpr fun _ _ => rfl
  obtain ⟨name, names, rfl⟩ := List.exists_cons_of_ne_nil hnames
  change (takeLast (ofSettings s)
    (⟨"--", .dashes⟩ :: (name :: names).map fun v => ⟨v, .plain⟩)).request = _
  simp [takeLast, ofSettings, request, Function.comp_def, List.filter_map, hall]

end Taken

/-- The command line asks for what it was made of. -/
theorem parseArguments_commandLine (s : Settings) {names : List String} (hnames : names ≠ []) :
    parseArguments (commandLine s names) = .ok (.check s (names.map Path.ofString)) := by
  have hworkflow : ∀ s ws, (Taken.ofSettings s).parse ("--workflow" :: ws) =
      (Taken.ofSettings { s with workflow := true }).parse ws :=
    fun _ _ => Taken.parse_flag (by decide) rfl rfl
  have hjson : ∀ s ws, (Taken.ofSettings s).parse ("--json" :: ws) =
      (Taken.ofSettings { s with json := true }).parse ws :=
    fun _ _ => Taken.parse_flag (by decide) rfl rfl
  have hverbose : ∀ s ws, (Taken.ofSettings s).parse ("--verbose" :: ws) =
      (Taken.ofSettings { s with verbose := true }).parse ws :=
    fun _ _ => Taken.parse_flag (by decide) rfl rfl
  change (Taken.ofSettings ⟨⟨false, false, false⟩, .error⟩).parse (commandLine s names) = _
  obtain ⟨⟨workflow, json, verbose⟩, strictness⟩ := s
  simp only [commandLine, Settings.words, List.cons_append, List.nil_append,
    Taken.parse_strictness]
  cases workflow <;> cases json <;> cases verbose <;>
    simp [hworkflow, hjson, hverbose, Taken.parse_sources hnames]

end ManifestLint.CommandLine
