/-
ManifestLint.Tree.Phrase — trees as noun phrases in messages.

A phrase is a label with its article: `an` before a vowel, quotes in front of it
not counted, and `a` otherwise. Where there is no node the phrase is `the top
level`.

The main statement: a phrase ends with the label (`label_suffix_aAn`).
-/
import ManifestLint.Tree.Basic

namespace ManifestLint

namespace Text

/-- The ten letters that take `an`. -/
def vowels : Text := "aeiouAEIOU"

/-- The article of a label, chosen by its first code point that is no single quote. -/
def article (label : Text) : Text :=
  match label.dropWhile (· = CodePoint.ofChar '\'') with
  | [] => "a"
  | p :: _ => if p ∈ vowels then "an" else "a"

/-- Turns an ASCII letter that starts a text into its upper case. -/
def capitalize : Text → Text
  | [] => []
  | p :: ps =>
    match p.toChar? with
    | some c => CodePoint.ofChar c.toUpper :: ps
    | none => p :: ps

theorem length_capitalize (t : Text) : (capitalize t).length = t.length := by
  cases t with
  | nil => rfl
  | cons p ps => simp only [capitalize]; split <;> simp

end Text

namespace Tree

/-- What a message calls a tree. -/
def label : Tree → Text
  | node h _ _ => h.label
  | foreign x => x.label

/-- The phrase for a tree. -/
def aAn (t : Tree) : Text :=
  match t with
  | .foreign .absent => "the top level"
  | t => t.label.article ++ Text.ofString " " ++ t.label

/-- The phrase for a tree at the start of a sentence. -/
def aAnCapitalized (t : Tree) : Text := t.aAn.capitalize

theorem aAn_node (h : Head) (l : Location) (ps : List Tree) :
    (node h l ps).aAn = h.label.article ++ Text.ofString " " ++ h.label := rfl

/-- A phrase ends with the label. -/
theorem label_suffix_aAn (t : Tree) : t.label <:+ t.aAn := by
  cases t with
  | node h l ps => exact ⟨_, rfl⟩
  | foreign x =>
    cases x
    case absent => exact ⟨Text.ofString "the ", rfl⟩
    all_goals exact ⟨_, rfl⟩

end Tree

end ManifestLint
