/-
ManifestLint.Proofs.MessageLines — messages that take one line, and those that take more.

A message is made of words and of texts that come from somewhere else: the names and operators of
nodes, which are read from strings, the symbols and strings of a text that is refused, and the
tokens that a malformed text should have gone on with. Words have no line feed and neither has a
token, as every string ends on the line that it starts on. But a string may mean a text with a line
feed, and what a malformed text should have gone on with is listed on lines of its own.

The main statements: texts printed as lines come back as lines exactly if none has a line feed
(`splitLines_unlines_iff`); where no string means a text with a line feed, every message of a rule
(`oneLine_message`) and of a value that is refused (`oneLine_of_refused`) takes one line, and no
message of a malformed text ever does (`not_oneLine_of_malformed`).
-/
import ManifestLint.Proofs.Faults
import ManifestLint.Proofs.Lexeme
import ManifestLint.Proofs.Sites
import ManifestLint.Proofs.Terminals

namespace ManifestLint

/-! ## 1. Lines -/

namespace Text

/-- The code point that ends a line. -/
def lineFeed : CodePoint := .ofChar '\n'

/-- The lines of a text, each without the line feed that ends it, and what stands after the last
line feed. -/
def splitLines : Text → List Text × Text
  | [] => ([], [])
  | p :: ps =>
    let (ls, rest) := splitLines ps
    if p = lineFeed then ([] :: ls, rest)
    else match ls with
      | [] => ([], p :: rest)
      | l :: ls => ((p :: l) :: ls, rest)

/-- Holds of the texts without a line feed. -/
def OneLine (t : Text) : Prop := lineFeed ∉ t

instance (t : Text) : Decidable t.OneLine := inferInstanceAs (Decidable (lineFeed ∉ t))

@[simp] theorem oneLine_nil : OneLine [] := List.not_mem_nil

theorem oneLine_cons {p : CodePoint} {t : Text} : OneLine (p :: t) ↔ p ≠ lineFeed ∧ t.OneLine := by
  simp [OneLine, eq_comm]

@[simp] theorem oneLine_append {t u : Text} : (t ++ u).OneLine ↔ t.OneLine ∧ u.OneLine := by
  simp [OneLine]

@[simp] theorem oneLine_ofChars {cs : List Char} : (ofChars cs).OneLine ↔ '\n' ∉ cs := by
  have hmem : lineFeed ∈ ofChars cs ↔ '\n' ∈ cs := by
    constructor
    · intro h
      obtain ⟨c, hc, heq⟩ := List.mem_map.mp h
      have hchar := CodePoint.toChar?_ofChar c
      rw [heq, lineFeed, CodePoint.toChar?_ofChar] at hchar
      rwa [Option.some.inj hchar]
    · exact List.mem_map_of_mem
  rw [OneLine, hmem]

@[simp] theorem oneLine_ofString {s : String} : (ofString s).OneLine ↔ '\n' ∉ s.toList :=
  oneLine_ofChars

@[simp] theorem lineFeed_not_mem_toDigits (n : Nat) : '\n' ∉ Nat.toDigits 10 n := by
  intro h
  have hdigit := Nat.isDigit_of_mem_toDigits (by decide) (by decide) h
  exact absurd hdigit (by decide)

@[simp] theorem oneLine_ofInt (i : Int) : (ofInt i).OneLine := by
  cases i with
  | ofNat n => simp [ofInt, Int.repr]
  | negSucc n => simp [ofInt, Int.repr]

theorem splitLines_append {t : Text} (h : t.OneLine) (u : Text) :
    splitLines (t ++ lineFeed :: u) = (t :: (splitLines u).1, (splitLines u).2) := by
  induction t with
  | nil => simp [splitLines]
  | cons p ps ih =>
    obtain ⟨hp, hps⟩ := oneLine_cons.mp h
    simp [splitLines, hp, ih hps]

theorem oneLine_of_mem_splitLines (t : Text) : ∀ l ∈ (splitLines t).1, l.OneLine := by
  induction t with
  | nil => simp [splitLines]
  | cons p ps ih =>
    cases hps : splitLines ps with
    | mk ls rest =>
      rw [hps] at ih
      by_cases hp : p = lineFeed
      · simpa [splitLines, hps, hp] using ih
      · cases ls with
        | nil => simp [splitLines, hps, hp]
        | cons l ls => simpa [splitLines, hps, hp, oneLine_cons] using ih

theorem length_splitLines (t : Text) : (splitLines t).1.length = t.count lineFeed := by
  induction t with
  | nil => rfl
  | cons p ps ih =>
    cases hps : splitLines ps with
    | mk ls rest =>
      rw [hps] at ih
      by_cases hp : p = lineFeed
      · simpa [splitLines, hps, hp] using ih
      · cases ls with
        | nil => simpa [splitLines, hps, hp] using ih
        | cons l ls => simpa [splitLines, hps, hp] using ih

/-- Texts printed as lines are the lines of what is printed exactly if none has a line feed. -/
theorem splitLines_unlines_iff {ts : List Text} :
    splitLines (unlines ts) = (ts, []) ↔ ∀ t ∈ ts, t.OneLine := by
  constructor
  · intro h t ht
    exact oneLine_of_mem_splitLines (unlines ts) t (by rwa [h])
  · intro h
    induction ts with
    | nil => rfl
    | cons t ts ih =>
      rw [List.forall_mem_cons] at h
      have hcons : unlines (t :: ts) = t ++ lineFeed :: unlines ts := by
        simp [unlines, ofChars, lineFeed]
      rw [hcons, splitLines_append h.1, ih h.2]

/-- Each of the texts takes one line, and another one for each line feed in it. -/
theorem length_splitLines_unlines (ts : List Text) :
    (splitLines (unlines ts)).1.length = (ts.map fun t => t.count lineFeed + 1).sum := by
  have hend : (ofChars ['\n']).count lineFeed = 1 := by decide
  rw [length_splitLines, unlines, List.count_flatMap]
  simp only [Function.comp_def, List.count_append, hend]

theorem length_lt_splitLines {ts : List Text} (h : ∃ t ∈ ts, ¬ t.OneLine) :
    ts.length < (splitLines (unlines ts)).1.length := by
  obtain ⟨t, ht, hbroken⟩ := h
  have hpos : 0 < t.count lineFeed := List.count_pos_iff.mpr (not_not.mp hbroken)
  have hle : ∀ us : List Text, us.length ≤ (us.map fun u => u.count lineFeed + 1).sum := by
    simp
  obtain ⟨before, after, rfl⟩ := List.append_of_mem ht
  have hbefore := hle before
  have hafter := hle after
  rw [length_splitLines_unlines]
  simp only [List.length_append, List.length_cons, List.map_append, List.map_cons,
    List.sum_append, List.sum_cons]
  omega

end Text

open Text (OneLine)

/-! ## 2. What trees are called -/

namespace Tree

/-- The names, operators and other texts in a tree, literals apart. -/
def texts (t : Tree) : List Text := t.nodes.flatMap fun u => (u.head?.map Head.texts).getD []

theorem texts_node (h : Head) (l : Location) (ps : List Tree) :
    (node h l ps).texts = h.texts ++ ps.flatMap texts := by
  rw [texts, nodes_node, List.flatMap_cons, List.flatMap_assoc]
  rfl

/-- Holds of the trees whose texts take one line. -/
def OneLine (t : Tree) : Prop := ∀ x ∈ t.texts, x.OneLine

theorem oneLine_node {h : Head} {l : Location} {ps : List Tree} :
    (node h l ps).OneLine ↔ (∀ x ∈ h.texts, x.OneLine) ∧ ∀ t ∈ ps, t.OneLine := by
  simp only [OneLine, texts_node, List.forall_mem_append, List.forall_mem_flatMap]

theorem oneLine_absent : absent.OneLine := by
  simp [absent, OneLine, texts]

/-- The texts of what stands in a tree are texts of the tree. -/
theorem OneLine.at? {root t : Tree} {p : Position} (h : root.OneLine) (hat : root.at? p = some t) :
    t.OneLine := by
  intro x hx
  obtain ⟨u, hu, hx⟩ := List.mem_flatMap.mp hx
  exact h x (List.mem_flatMap.mpr ⟨u, mem_nodes_of_mem_nodes_at? hat hu, hx⟩)

theorem oneLine_part {t : Tree} (h : t.OneLine) (i : Nat) : (t.part i).OneLine := by
  unfold part
  cases hi : t.parts[i]? with
  | none => exact oneLine_absent
  | some u =>
    cases t with
    | foreign => simp [parts] at hi
    | node head l ps => exact (oneLine_node.mp h).2 u (List.mem_of_getElem? hi)

theorem oneLine_of_mem_texts {t : Tree} {h : Head} {x : Text} (ht : t.OneLine)
    (hhead : t.head? = some h) (hx : x ∈ h.texts) : x.OneLine := by
  cases t with
  | foreign => cases hhead
  | node head l ps =>
    cases hhead
    exact (oneLine_node.mp ht).1 x hx

theorem oneLine_noun : ∀ k : Kind, '\n' ∉ k.noun.toList := by
  decide

theorem OneLine.label {t : Tree} (h : t.OneLine) : t.label.OneLine := by
  cases t with
  | foreign x => cases x <;> decide
  | node head l ps =>
    have hhead := (oneLine_node.mp h).1
    cases head
    case assignment op | arithmetic op | comparison op | patternMatch op | relationship op =>
      have hop : op.OneLine := hhead op List.mem_cons_self
      simpa [Tree.label, Head.label] using hop
    all_goals exact Text.oneLine_ofString.mpr (oneLine_noun _)

theorem OneLine.aAn {t : Tree} (h : t.OneLine) : t.aAn.OneLine ∧ t.aAnCapitalized.OneLine := by
  have hlabel : (Text.ofString " " ++ t.label).OneLine := by simpa using h.label
  have harticle : t.label.article = Text.ofString "a" ∨ t.label.article = Text.ofString "an" := by
    unfold Text.article
    split
    · exact .inl rfl
    · split
      · exact .inr rfl
      · exact .inl rfl
  unfold aAnCapitalized Tree.aAn
  split
  · decide
  · rw [List.append_assoc]
    -- The letter that is turned into its upper case is that of the article.
    rcases harticle with ha | ha
    · rw [ha]
      exact ⟨Text.oneLine_append.mpr ⟨by decide, hlabel⟩,
        Text.oneLine_append (t := Text.ofString "A").mpr ⟨by decide, hlabel⟩⟩
    · rw [ha]
      exact ⟨Text.oneLine_append.mpr ⟨by decide, hlabel⟩,
        Text.oneLine_append (t := Text.ofString "An").mpr ⟨by decide, hlabel⟩⟩

end Tree

/-! ## 3. What rules report -/

namespace Report

/-- Holds of the reports whose arguments take one line. -/
def OneLine (r : Report) : Prop := ∀ a ∈ r.arguments, a.2.spelled.OneLine

theorem oneLine_words (c : Code) : ∀ w, .words w ∈ c.template → '\n' ∉ w.toList := by
  cases c <;> simp [Code.template]

theorem oneLine_filled {arguments : Arguments} {t : Template}
    (hwords : ∀ w, .words w ∈ t → '\n' ∉ w.toList)
    (harguments : ∀ a ∈ arguments, a.2.spelled.OneLine) : (t.filled arguments).OneLine := by
  induction t with
  | nil => exact Text.oneLine_nil
  | cons piece t ih =>
    have ht := ih fun w hw => hwords w (List.mem_cons_of_mem piece hw)
    cases piece with
    | words w => simpa [Template.filled, ht] using hwords w List.mem_cons_self
    | field name =>
      rw [Template.filled, Text.oneLine_append]
      refine ⟨?_, ht⟩
      cases hlookup : arguments.lookup name with
      | none => exact Text.oneLine_nil
      | some d =>
        obtain ⟨before, after, rfl, -⟩ := List.lookup_eq_some_iff.mp hlookup
        exact harguments (name, d) (by simp)

end Report

namespace Tree

mutual

theorem oneLine_of_mem_valueReports {p : Position} :
    ∀ t : Tree, t.OneLine → ∀ r ∈ t.valueReports p, r.OneLine
  | node h l ps, ht, r, hr => by
    simp only [valueReports] at hr
    split at hr
    · exact oneLine_of_mem_operandReports ps (oneLine_node.mp ht).2 r hr
    · split at hr
      · obtain rfl := List.mem_singleton.mp hr
        simpa [Report.OneLine] using ht.aAn.2
      · simp at hr
  | foreign _, _, r, hr => by simp [valueReports] at hr

theorem oneLine_of_mem_operandReports {p : Position} :
    ∀ ts : List Tree, (∀ t ∈ ts, t.OneLine) → ∀ r ∈ operandReports p ts, r.OneLine
  | [], _, r, hr => by simp [operandReports] at hr
  | t :: _, hts, r, hr =>
    oneLine_of_mem_valueReports t (hts t List.mem_cons_self) r (by simpa [operandReports] using hr)

end

theorem oneLine_of_mem_variableTargetReports {site : Occurrence} {name : Text} {r : Report}
    (hname : name.OneLine) (hr : r ∈ variableTargetReports site name) : r.OneLine := by
  simp only [variableTargetReports, List.mem_append] at hr
  rcases hr with hr | hr
  · split at hr
    · obtain rfl := List.mem_singleton.mp hr
      simpa [Report.OneLine] using hname
    · simp at hr
  · split at hr
    · obtain rfl := List.mem_singleton.mp hr
      simpa [Report.OneLine] using hname
    · simp at hr

mutual

theorem oneLine_of_mem_targetReports {p : Position} :
    ∀ t : Tree, t.OneLine → ∀ r ∈ t.targetReports p, r.OneLine
  | node h l ps, ht, r, hr => by
    unfold targetReports at hr
    split at hr
    · rename_i name _ _ heq
      cases heq
      have hname : name.OneLine := (oneLine_node.mp ht).1 name List.mem_cons_self
      exact oneLine_of_mem_variableTargetReports hname hr
    · obtain rfl := List.mem_singleton.mp hr
      simp [Report.OneLine]
    · rename_i ps' heq
      cases heq
      exact oneLine_of_mem_elementTargetReports ps (oneLine_node.mp ht).2 r hr
    · simp at hr
  | foreign _, _, r, hr => by simp [targetReports] at hr

theorem oneLine_of_mem_elementTargetReports {p : Position} {i : Nat} :
    ∀ ts : List Tree, (∀ t ∈ ts, t.OneLine) → ∀ r ∈ elementTargetReports p i ts, r.OneLine
  | [], _, r, hr => by simp [elementTargetReports] at hr
  | t :: ts, hts, r, hr => by
    rw [List.forall_mem_cons] at hts
    simp only [elementTargetReports, List.mem_append] at hr
    rcases hr with hr | hr
    · exact oneLine_of_mem_targetReports t hts.1 r hr
    · exact oneLine_of_mem_elementTargetReports ts hts.2 r hr

end

end Tree

namespace Rule

variable {parent : Option Occurrence} {o : Occurrence} {r : Report}

theorem oneLine_of_mem_assignmentReports {operator : Text} (ho : o.tree.OneLine)
    (hoperator : operator.OneLine) (hr : r ∈ assignmentReports o operator) : r.OneLine := by
  simp only [assignmentReports] at hr
  split at hr
  · exact Tree.oneLine_of_mem_targetReports _ (Tree.oneLine_part ho 0) r hr
  · obtain rfl := List.mem_singleton.mp hr
    simpa [Report.OneLine] using hoperator

theorem oneLine_of_mem_attrReports {name operator : Text}
    (hparent : ∀ q ∈ parent, q.tree.OneLine) (hname : name.OneLine)
    (hr : r ∈ attrReports parent o name operator) : r.OneLine := by
  have hphrase : (parentTree parent).aAn.OneLine := by
    cases parent with
    | none => decide
    | some q => exact (hparent q rfl).aAn.1
  simp only [attrReports] at hr
  split at hr
  · obtain rfl := List.mem_singleton.mp hr
    simpa [Report.OneLine] using ⟨hname, hphrase⟩
  · simp at hr

theorem oneLine_of_mem_splatReports (hparent : ∀ q ∈ parent, q.tree.OneLine)
    (ho : o.tree.OneLine) (hr : r ∈ splatReports parent o) : r.OneLine := by
  simp only [splatReports, List.mem_append] at hr
  rcases hr with hr | hr
  · split at hr
    · rename_i q
      split at hr
      · obtain rfl := List.mem_singleton.mp hr
        simpa [Report.OneLine] using (hparent q rfl).aAn.1
      · simp at hr
    · simp at hr
  · exact Tree.oneLine_of_mem_valueReports _ (Tree.oneLine_part ho 0) r hr

theorem oneLine_of_mem_blockReports (ho : o.tree.OneLine) (hr : r ∈ blockReports o) :
    r.OneLine := by
  simp only [blockReports] at hr
  split at hr
  · rename_i i _
    obtain rfl := List.mem_singleton.mp hr
    have hlabel : (o.part i).tree.label.OneLine := (Tree.oneLine_part ho i).label
    simpa [Report.OneLine] using hlabel
  · simp at hr

theorem oneLine_of_mem_callReports (ho : o.tree.OneLine) (hr : r ∈ callReports o) :
    r.OneLine := by
  simp only [callReports] at hr
  split at hr
  · simp at hr
  · obtain rfl := List.mem_singleton.mp hr
    simpa [Report.OneLine] using ⟨(Tree.oneLine_part ho 0).aAn.1, ho.aAn.1⟩

theorem oneLine_of_mem_binaryReports (ho : o.tree.OneLine) (hr : r ∈ binaryReports o) :
    r.OneLine := by
  simp only [binaryReports, List.mem_append] at hr
  rcases hr with hr | hr
  · exact Tree.oneLine_of_mem_valueReports _ (Tree.oneLine_part ho 0) r hr
  · exact Tree.oneLine_of_mem_valueReports _ (Tree.oneLine_part ho 1) r hr

theorem oneLine_of_mem_activityReports {style : Text} (hstyle : style.OneLine)
    (hr : r ∈ activityReports o style) : r.OneLine := by
  simp only [activityReports] at hr
  split at hr
  · simp at hr
  · obtain rfl := List.mem_singleton.mp hr
    simpa [Report.OneLine] using hstyle

/-- What a rule reports takes one line if the texts of the node and of its parent do. -/
theorem oneLine_of_mem_reports {rule : Rule} (hparent : ∀ q ∈ parent, q.tree.OneLine)
    (ho : o.tree.OneLine) (hr : r ∈ rule.reports parent o) : r.OneLine := by
  unfold reports at hr
  split at hr
  · rename_i operator hhead
    have hoperator := Tree.oneLine_of_mem_texts ho hhead List.mem_cons_self
    exact oneLine_of_mem_assignmentReports ho hoperator hr
  · rename_i name operator hhead
    have hname := Tree.oneLine_of_mem_texts ho hhead List.mem_cons_self
    exact oneLine_of_mem_attrReports hparent hname hr
  · exact oneLine_of_mem_splatReports hparent ho hr
  · exact oneLine_of_mem_blockReports ho hr
  · exact oneLine_of_mem_callReports ho hr
  · exact oneLine_of_mem_binaryReports ho hr
  · rename_i style name hhead
    have hstyle := Tree.oneLine_of_mem_texts ho hhead List.mem_cons_self
    exact oneLine_of_mem_activityReports hstyle hr
  · simp at hr

end Rule

/-- The messages of the issues on a tree take one line if its texts do. -/
theorem Report.oneLine_message {m : Mode} {s : Strictness} {file : Option Text} {root : Tree}
    (hroot : root.OneLine) : ∀ d ∈ issues s file (root.reports m), d.message.OneLine := by
  intro d hd
  obtain ⟨p, hp, r, hr, -, rfl⟩ := exists_of_mem_issues hd
  obtain ⟨h, l, ps, hat⟩ := (Tree.mem_positions_iff root p).mp hp
  obtain ⟨rule, -, hr, -⟩ := Mode.reported_of_mem_reports hr
  refine oneLine_filled (oneLine_words r.code) (Rule.oneLine_of_mem_reports ?_ ?_ hr)
  · intro q hq
    exact hroot.at? (Tree.isNodeOf_of_parentAt hat hq).1
  · rw [Tree.occurrenceAt_of_at? hat]
    exact hroot.at? hat

/-! ## 4. What is read and what is refused -/

/-- The texts of a head are lexemes of its node. -/
theorem Head.text_mem_lexemes {h : Head} {x : Text} (parts : List (List PN.Lexeme))
    (hx : x ∈ h.texts) : PN.Lexeme.text x ∈ h.lexemes parts := by
  unfold lexemes
  split
  · rename_i hnone
    have hnil : h.texts = [] := by
      cases h <;> first | rfl | cases hnone
    rw [hnil] at hx
    cases hx
  · simp [hx]

namespace PN

/-- Holds of the source texts of which no string means a text with a line feed. -/
def OneLineStrings (source : List Char) : Prop :=
  ∀ k ∈ (scan source).tokens, ∀ x, k.meaning = some (.text x) → x.OneLine

/-- Holds of the roles that are called something that takes one line. -/
def Role.isOneLine : Role → Bool
  | .text what => !what.toList.contains '\n'
  | .list what item => !what.toList.contains '\n' && item.isOneLine
  | .expression => true
  | .node what _ _ => !what.toList.contains '\n'

theorem oneLine_symbols : ∀ e ∈ symbols, '\n' ∉ e.1.toList ∧
    ∀ role ∈ e.2.others :: e.2.filled, role.isOneLine = true := by
  decide

theorem isOneLine_of_stands {whole v : Value} {role : Role} (h : Stands whole role v) :
    role.isOneLine = true := by
  induction h with
  | whole => rfl
  | argument _ hs _ hv =>
    have hroles := (oneLine_symbols _ hs).2
    rcases List.mem_append.mp (List.of_mem_zip hv).1 with hfilled | hothers
    · exact hroles _ (List.mem_cons_of_mem _ hfilled)
    · rw [List.eq_of_mem_replicate hothers]
      exact hroles _ List.mem_cons_self
  | item _ _ ih =>
    simp only [Role.isOneLine, Bool.and_eq_true] at ih
    exact ih.2

theorem lineFeed_not_mem_symbol {cs : List Char} (h : isSymbol cs = true) : '\n' ∉ cs := by
  intro hmem
  cases cs with
  | nil => cases hmem
  | cons c cs =>
    simp only [isSymbol, Bool.and_eq_true, List.head?_cons, Option.any_some, List.tail_cons,
      List.all_eq_true] at h
    rcases List.mem_cons.mp hmem with rfl | hmem
    · exact absurd h.1.1 (by decide)
    · exact absurd (h.1.2 _ hmem) (by decide)

theorem lineFeed_not_mem_countRange (least : Nat) (most : Option Nat) :
    '\n' ∉ (countRange least most).toList := by
  unfold countRange
  split
  · simp [toString]
  · split <;> simp [toString]

section

variable {source : List Char} {v w : Value} {p : Point}

/-- The tokens of a value inside of the one that a text spells are tokens of the text. -/
theorem exists_own_tokens (hv : parse source = .ok v) (hw : w ∈ v.subvalues) :
    ∃ own, Spells own [w] ∧ ∀ k ∈ own, k ∈ (scan source).tokens := by
  rw [← innerOfAll_singleton] at hw
  obtain ⟨before, k, own, after, htokens, hspells, -⟩ :=
    holds_of_spells (parse_eq_ok_iff.mp hv).2 w hw
  refine ⟨k :: own, hspells, ?_⟩
  intro t ht
  rw [htokens]
  exact List.mem_append_left after (List.mem_append_right before ht)

/-- The texts of a tree that is read are meant by strings. -/
theorem oneLine_of_read {t : Tree} (h : read source = .ok t) (hstrings : OneLineStrings source) :
    t.OneLine := by
  intro x hx
  obtain ⟨v, hv, ht⟩ := read_eq_ok_iff.mp h
  obtain ⟨u, hu, hx⟩ := List.mem_flatMap.mp hx
  obtain ⟨w, hw, hdenotes⟩ := denoted_of_mem_nodes v t ht u hu
  obtain ⟨own, hspells, hown⟩ := exists_own_tokens hv hw
  have hlexeme : Lexeme.text x ∈ u.lexemes := by
    cases u with
    | foreign => cases hx
    | node head l ps => exact Head.text_mem_lexemes _ hx
  have hmeaning : some (Lexeme.text x) ∈ own.map Token.meaning := by
    rw [map_meaning_of_spells hspells, List.flatMap_singleton, lexemes_of_tree w u hdenotes]
    exact List.mem_map_of_mem hlexeme
  obtain ⟨k, hk, hkx⟩ := List.mem_map.mp hmeaning
  exact hstrings k (hown k hk) x hkx

theorem oneLine_of_says (hv : parse source = .ok v) (hstrings : OneLineStrings source)
    (hw : w ∈ v.subvalues) {x : Text} (hsaid : w.Says x) : x.OneLine := by
  obtain ⟨own, hspells, hown⟩ := exists_own_tokens hv hw
  obtain ⟨q, token, rfl, hdecode⟩ := hsaid
  cases hspells with
  | string ht rest =>
    refine hstrings _ (hown _ List.mem_cons_self) x ?_
    simp [Token.meaning, ht, textMeaning, hdecode]

theorem lineFeed_not_mem_form (hv : parse source = .ok v) {word : List Char} {vs : List Value}
    (hw : .form p word vs ∈ v.subvalues) : '\n' ∉ word := by
  obtain ⟨own, hspells, hown⟩ := exists_own_tokens hv hw
  cases hspells with
  | form hl hs hr body rest =>
    have hmatches := matches_of_mem_scan (hown _ (List.mem_cons_of_mem _ List.mem_cons_self))
    rw [hs] at hmatches
    exact lineFeed_not_mem_symbol hmatches

theorem lineFeed_not_mem_string (hv : parse source = .ok v) {token : List Char}
    (hw : .string p token ∈ v.subvalues) : '\n' ∉ token := by
  obtain ⟨own, hspells, hown⟩ := exists_own_tokens hv hw
  cases hspells with
  | string ht rest =>
    have hmatches := matches_of_mem_scan (hown _ List.mem_cons_self)
    rw [ht] at hmatches
    obtain ⟨body, htext, hbody⟩ := hmatches
    rw [htext]
    simpa using hbody.oneLine

/-- The words for a broken rule take one line. -/
theorem oneLine_of_breaks (hv : parse source = .ok v) (hstrings : OneLineStrings source)
    (hw : w ∈ v.subvalues) {why : Fault} (h : Breaks v w why) : why.message.OneLine := by
  cases h with
  | listAsExpression => decide
  | unknownForm => simpa [Fault.message] using lineFeed_not_mem_form hv hw
  | @argumentCount _ word vs s hs =>
    have hword : '\n' ∉ word.toList := (oneLine_symbols _ hs).1
    have hrange := lineFeed_not_mem_countRange s.filled.length s.most
    simpa [Fault.message, toString] using ⟨hword, hrange⟩
  | notString hstands =>
    have hrole := isOneLine_of_stands hstands
    simpa [Fault.message, Role.isOneLine, toString] using hrole
  | notList hstands =>
    have hrole := isOneLine_of_stands hstands
    simp only [Role.isOneLine, Bool.and_eq_true] at hrole
    simpa [Fault.message, toString] using hrole.1
  | @notOfKind _ _ _ kind hstands =>
    have hrole := isOneLine_of_stands hstands
    simpa [Fault.message, Role.isOneLine, toString, Tree.oneLine_noun kind] using hrole
  | @notAllowed q word _ vs _ _ u x hchoice hu hsaid =>
    have hmem : u ∈ (Value.form q word.toList vs).subvalues :=
      List.mem_cons_of_mem _ (mem_inner_form (List.mem_of_getElem? hu) (self_mem_subvalues u))
    have hgot : x.OneLine := oneLine_of_says hv hstrings (mem_subvalues_trans hw hmem) hsaid
    rw [Fault.message, Text.oneLine_append, Text.oneLine_append]
    refine ⟨⟨?_, hgot⟩, by decide⟩
    simp only [choices, List.mem_cons, Prod.mk.injEq, List.not_mem_nil, or_false] at hchoice
    rcases hchoice with ⟨-, -, rfl, rfl⟩ | ⟨-, -, rfl, rfl⟩
    · decide
    · decide
  | activityTail => decide
  | badEscape => simpa [Fault.message] using lineFeed_not_mem_string hv hw

/-- The words for a text that is refused take one line. -/
theorem oneLine_of_refused {why : Fault} (h : read source = .error (.refused (.fault p why)))
    (hstrings : OneLineStrings source) : why.message.OneLine := by
  cases hv : parse source with
  | error m => simp [read, hv] at h
  | ok v =>
    rw [read_eq_refused_iff hv] at h
    obtain ⟨u, hu, -, hbreaks⟩ := explained_of_stands v v _ .whole trivial p why h
    exact oneLine_of_breaks hv hstrings hu hbreaks

end

/-- The words for a malformed text never take one line. -/
theorem not_oneLine_of_malformed (m : Malformed) : ¬ (ReadError.malformed m).reason.OneLine := by
  have hend : '\n' ∈ m.message := by
    unfold Malformed.message
    split
    · exact List.mem_append_left _ (List.mem_append_right _ List.mem_cons_self)
    · exact List.mem_append_right _ List.mem_cons_self
  rw [ReadError.reason, Text.oneLine_ofChars, not_not]
  exact List.mem_append_right _ hend

end PN

end ManifestLint
