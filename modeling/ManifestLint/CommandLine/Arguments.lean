/-
ManifestLint.CommandLine.Arguments — reading the words of a command line.

Words are first told apart: flags (spelled in full, by an unambiguous beginning, or
as a cluster of letters), words that look like flags and are none, and plain
words. Two dashes end the flags. Then the words are taken in turn: the first run
of plain words is the sources, a flag takes what it needs, and whatever nobody takes
is left over. The first word that cannot be taken decides the answer; what is
missing or left over is only looked at in the end.
-/
import ManifestLint.Text.DecimalDigit
import ManifestLint.Text.Quoted
import ManifestLint.Issue.Catalogue
import ManifestLint.CommandLine.Path

namespace ManifestLint.CommandLine

/-! ## 1. Flags -/

/-- The flags of the command line. -/
inductive Flag where
  | help
  | strict
  | workflow
  | json
  | verbose
  deriving DecidableEq, Repr

namespace Flag

/-- All spellings of flags, in the order in which help lists them. -/
def spellings : List (String × Flag) :=
  [("-h", help), ("--help", help), ("--strict", strict), ("--workflow", workflow), ("--json", json),
    ("-v", verbose), ("--verbose", verbose)]

/-- The flag with exactly this spelling. -/
def ofSpelling? (s : List Char) : Option Flag :=
  (spellings.find? fun e => e.1.toList == s).map (·.2)

/-- A flag in error messages: its spellings. -/
def shown (f : Flag) : String :=
  String.intercalate "/" ((spellings.filter fun e => e.2 = f).map (·.1))

end Flag

/-- Why a command line is refused. -/
inductive UsageError where
  | missingSource
  | ambiguous (word : List Char) (spellings : List String)
  | valueExpected (flag : Flag)
  | unknownChoice (flag : Flag) (value : List Char) (choices : List String)
  | valueIgnored (flag : Flag) (value : List Char)
  | leftOver (words : List String)
  deriving DecidableEq, Repr

/-- The words for a usage error. -/
def UsageError.message : UsageError → String
  | missingSource => "the following arguments are required: source"
  | ambiguous word spellings =>
    "ambiguous option: " ++ String.ofList word ++ " could match " ++ commas spellings
  | valueExpected flag => s!"argument {flag.shown}: expected one argument"
  | unknownChoice flag value choices =>
    "argument " ++ flag.shown ++ ": invalid choice: " ++ String.ofList (Text.quoted value) ++
      " (choose from " ++ commas (choices.map fun c => String.ofList (Text.quoted c.toList)) ++ ")"
  | valueIgnored flag value =>
    "argument " ++ flag.shown ++ ": ignored explicit argument " ++ String.ofList (Text.quoted value)
  | leftOver words => "unrecognized arguments: " ++ String.intercalate " " words
where
  /-- Texts with commas between them. -/
  commas (texts : List String) : String := String.intercalate ", " texts

/-! ## 2. Telling words apart -/

/-- What a word is. A flag may be spelled by one letter (`short`) and may have a value attached to
it in the same word. -/
inductive WordClass where
  | plain
  | dashes
  | unknownFlag
  | flag (flag : Flag) (short : Bool) (attached : Option (List Char))
  deriving DecidableEq, Repr

/-- A word and what it is. -/
structure Word where
  text : String
  sort : WordClass
  deriving DecidableEq, Repr

/-- Splits a word at its first equals sign, if it has one. -/
def splitEquals (cs : List Char) : List Char × Option (List Char) :=
  (cs.takeWhile (· ≠ '='),
    match cs.dropWhile (· ≠ '=') with
    | [] => none
    | _ :: value => some value)

/-- The flags that a word can be short for. -/
def candidates (cs : List Char) : List (String × WordClass) :=
  match cs with
  | '-' :: '-' :: _ =>
    let (name, attached) := splitEquals cs
    (Flag.spellings.filter fun e => name.isPrefixOf e.1.toList).map fun e =>
      (e.1, .flag e.2 false attached)
  | '-' :: c :: value =>
    (Flag.spellings.filter fun e => e.1.toList = ['-', c]).map fun e =>
      (e.1, .flag e.2 true (some value))
  | _ => []

/-- Holds of negative decimal numbers, in the digits of any script, which are plain words although
they start with a dash. A line feed may end the word. -/
def isNegativeNumber (cs : List Char) : Bool :=
  let body := if cs.getLast? = some '\n' then cs.dropLast else cs
  match body with
  | '-' :: digits =>
    let whole := digits.takeWhile Text.isDecimalDigit
    match digits.dropWhile Text.isDecimalDigit with
    | [] => whole ≠ []
    | '.' :: fraction => fraction ≠ [] && fraction.all Text.isDecimalDigit
    | _ => false
  | _ => false

/-- Says what a word before the two dashes is. -/
def sortOf (cs : List Char) : Except UsageError WordClass :=
  if cs.head? ≠ some '-' then .ok .plain
  else match Flag.ofSpelling? cs with
    | some f => .ok (.flag f (cs.length = 2) none)
    | none =>
      if cs.length = 1 then .ok .plain
      else match splitEquals cs with
        | (name, some attached) =>
          match Flag.ofSpelling? name with
          | some f => .ok (.flag f (name.length = 2) (some attached))
          | none => guess cs
        | (_, none) => guess cs
where
  /-- Says what a word is that spells no flag in full. -/
  guess (cs : List Char) : Except UsageError WordClass :=
    match candidates cs with
    | [] => .ok (if isNegativeNumber cs || cs.contains ' ' then .plain else .unknownFlag)
    | [(_, sort)] => .ok sort
    | several => .error (.ambiguous cs (several.map (·.1)))

/-- Says what each word is. -/
def sortWords : List String → Except UsageError (List Word)
  | [] => .ok []
  | w :: ws =>
    if w = "--" then .ok (⟨w, .dashes⟩ :: ws.map fun v => ⟨v, .plain⟩)
    else do
      let sort ← sortOf w.toList
      return ⟨w, sort⟩ :: (← sortWords ws)

/-! ## 3. Taking words -/

/-- The switches of a command line. -/
structure Switches where
  workflow : Bool
  json : Bool
  verbose : Bool
  deriving DecidableEq, Repr

/-- What a command line asks for, apart from its sources. -/
structure Settings extends Switches where
  strictness : Strictness
  deriving DecidableEq, Repr

/-- What a command line asks for. -/
inductive Request where
  | help
  | check (settings : Settings) (sources : List Path)
  /-- Sources are to be checked, but the strictness has been taken away. -/
  | noStrictness
  deriving DecidableEq, Repr

/-- What has been taken so far: switches, the strictness unless it has been taken away, the sources
once they are found, and words left over. -/
structure Taken where
  switches : Switches
  strictness : Option Strictness
  sources : Option (List String)
  leftOver : List String
  deriving DecidableEq, Repr

namespace Taken

/-- Nothing is taken yet. -/
def start : Taken := ⟨⟨false, false, false⟩, some .error, none, []⟩

/-- Takes a run of plain words: the first run is the sources. -/
def takePlain (t : Taken) (words : List String) : Taken :=
  match t.sources with
  | none => if words = [] then t else { t with sources := some words }
  | some _ => { t with leftOver := t.leftOver ++ words }

/-- Takes a flag that needs no value; help ends everything. -/
def takeSwitch (t : Taken) : Flag → Option Taken
  | .help => none
  | .workflow => some { t with switches := { t.switches with workflow := true } }
  | .json => some { t with switches := { t.switches with json := true } }
  | .verbose => some { t with switches := { t.switches with verbose := true } }
  | .strict => some t

/-- Takes the value of the one flag that needs one. Two dashes are dropped here too, and leave the
flag without a value: that takes the strictness away. -/
def takeStrictness (t : Taken) (value : List Char) : Except UsageError Taken :=
  if value = ['-', '-'] then .ok { t with strictness := none }
  else match Strictness.ofWord? (String.ofList value) with
    | some s => .ok { t with strictness := some s }
    | none => .error (.unknownChoice .strict value (Strictness.all.map Strictness.word))

/-- Takes the words from the two dashes on, or the last run of plain words. The dashes are dropped
if the words are the sources. -/
def takeLast (t : Taken) (words : List Word) : Taken :=
  match t.sources with
  | none =>
    if words.any fun w => w.sort = .plain then
      { t with sources := some ((words.filter fun w => w.sort = .plain).map Word.text) }
    else { t with leftOver := t.leftOver ++ words.map Word.text }
  | some _ => { t with leftOver := t.leftOver ++ words.map Word.text }

/-- What the words ask for once all are taken. -/
def request (t : Taken) : Except UsageError Request :=
  match t.sources with
  | none => .error .missingSource
  | some sources =>
    if t.leftOver ≠ [] then .error (.leftOver t.leftOver)
    else match t.strictness with
      | some s => .ok (.check ⟨t.switches, s⟩ (sources.map Path.ofString))
      | none => .ok .noStrictness

end Taken

/-- A flag word taken apart: the switches in it, and the value for the flag that needs one, if the
word holds that flag; the value is missing if it stands in the next word. -/
structure Cluster where
  switches : List Flag
  strictness : Option (Option (List Char))
  deriving DecidableEq, Repr

namespace Cluster

/-- A flag with no value attached. -/
def alone (flag : Flag) : Cluster :=
  if flag = .strict then ⟨[], some none⟩ else ⟨[flag], none⟩

/-- A cluster with one more switch in front. -/
def cons (flag : Flag) (c : Cluster) : Cluster := { c with switches := flag :: c.switches }

end Cluster

/-- Takes apart a flag with a value attached: what follows a one-letter switch is a row of further
one-letter flags, and a letter that is none is refused with all that follows it. -/
def cluster (flag : Flag) (short : Bool) : List Char → Except UsageError Cluster
  | [] => if flag = .strict then .ok ⟨[], some (some [])⟩ else .error (.valueIgnored flag [])
  | c :: cs =>
    if flag = .strict then .ok ⟨[], some (some (c :: cs))⟩
    else match if short then Flag.ofSpelling? ['-', c] else none with
      | none => .error (.valueIgnored flag (c :: cs))
      | some next =>
        (if cs = [] then .ok (Cluster.alone next) else cluster next true cs).map (Cluster.cons flag)

/-- Takes a flag word apart. -/
def clusterOf (flag : Flag) (short : Bool) : Option (List Char) → Except UsageError Cluster
  | some value => cluster flag short value
  | none => .ok (Cluster.alone flag)

/-- What a flag word leaves to do: nothing but help, to go on, or to find a value for the flag that
needs one. -/
inductive AfterFlag where
  | help
  | next (taken : Taken)
  | value (taken : Taken)

/-- Takes a flag word. -/
def Taken.takeFlag (t : Taken) (flag : Flag) (short : Bool) (attached : Option (List Char)) :
    Except UsageError AfterFlag := do
  let c ← clusterOf flag short attached
  match c.switches.foldlM Taken.takeSwitch t, c.strictness with
  | none, _ => return .help
  | some t, none => return .next t
  | some t, some (some value) => return .next (← t.takeStrictness value)
  | some t, some none => return .value t

/-- Takes words in turn, `run` being the plain words just before them, in reverse. -/
def takeWords (t : Taken) (run : List Word) : List Word → Except UsageError Request
  | [] => (t.takeLast run.reverse).request
  | w :: ws =>
    match w.sort with
    | .plain => takeWords t (w :: run) ws
    | .dashes => (t.takeLast (run.reverse ++ w :: ws)).request
    | .unknownFlag =>
      let t := t.takePlain (run.reverse.map Word.text)
      takeWords { t with leftOver := t.leftOver ++ [w.text] } [] ws
    | .flag flag short attached =>
      match (t.takePlain (run.reverse.map Word.text)).takeFlag flag short attached, ws with
      | .error e, _ => .error e
      | .ok .help, _ => .ok .help
      | .ok (.next t), ws => takeWords t [] ws
      | .ok (.value _), [] => .error (.valueExpected flag)
      | .ok (.value t), v :: vs =>
        if v.sort = .plain then
          match t.takeStrictness v.text.toList with
          | .ok t => takeWords t [] vs
          | .error e => .error e
        else .error (.valueExpected flag)

/-- What the words of a command line ask for. -/
def parseArguments (arguments : List String) : Except UsageError Request := do
  takeWords .start [] (← sortWords arguments)

end ManifestLint.CommandLine
