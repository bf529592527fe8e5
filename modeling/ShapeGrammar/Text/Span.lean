import ShapeGrammar.Text.Blank
import ShapeGrammar.Text.Digit
import ShapeGrammar.Text.Word
/-!
# Spans of text

The pieces from which the script language's lexical rules are built: the length of the
longest run of a class of characters, the length of a name or of a decimal number at
the front of a text, and word boundaries. A repeated pattern that may give back
characters is tried from its longest run down, which `Text.firstDown` expresses: the
first count, from the largest, for which the rest of the rule succeeds.
-/

namespace ShapeGrammar

namespace Text

/-- The length of the longest run at the front whose characters satisfy `p`. -/
def span (p : Char → Bool) (cs : List Char) : Nat := (cs.takeWhile p).length

/-- A run is no longer than the text. -/
theorem span_le_length (p : Char → Bool) (cs : List Char) : span p cs ≤ cs.length :=
  List.Sublist.length_le (List.takeWhile_sublist p)

/-- The characters of `cs` from `i` on, `n` of them, as text. -/
def slice (cs : List Char) (i n : Nat) : String := String.ofList ((cs.drop i).take n)

/-- The text starts with the word `w`. -/
def startsWith (cs : List Char) (w : String) : Bool := w.toList.isPrefixOf cs

/-- The length of the name at the front: an ASCII letter or underscore, then ASCII
letters, digits and underscores; zero when no name starts there. -/
def nameLength : List Char → Nat
  | c :: rest => if isNameStart c then 1 + span isNameChar rest else 0
  | [] => 0

/-- A name is no longer than the text. -/
theorem nameLength_le (cs : List Char) : nameLength cs ≤ cs.length := by
  cases cs with
  | nil => exact Nat.le_refl 0
  | cons c rest =>
    have := span_le_length isNameChar rest
    simp only [nameLength, List.length_cons]
    split <;> omega

/-- A word starts after `prev`: there is no character before, or it is no word character. -/
def wordStartsAfter (prev : Option Char) : Bool :=
  match prev with
  | some c => !isWordChar c
  | none => true

/-- A word ends before `rest`: the text ends, or its next character is no word character. -/
def wordEndsBefore (rest : List Char) : Bool :=
  match rest with
  | c :: _ => !isWordChar c
  | [] => true

/-- The first success of `f` on the counts `n`, `n - 1`, ..., `0`. -/
def firstDown {α : Type} (n : Nat) (f : Nat → Option α) : Option α :=
  match n with
  | 0 => f 0
  | k + 1 => (f (k + 1)).orElse fun _ => firstDown k f

/-- What `firstDown` finds is a success of `f` on a count no larger than `n`. -/
theorem firstDown_eq_some {α : Type} {n : Nat} {f : Nat → Option α} {a : α}
    (h : firstDown n f = some a) : ∃ k ≤ n, f k = some a := by
  induction n with
  | zero => exact ⟨0, Nat.le_refl 0, h⟩
  | succ k ih =>
    cases hk : f (k + 1) with
    | some b =>
      rw [firstDown, hk] at h
      exact ⟨k + 1, Nat.le_refl _, hk.trans h⟩
    | none =>
      rw [firstDown, hk] at h
      obtain ⟨j, hj, hf⟩ := ih h
      exact ⟨j, Nat.le_succ_of_le hj, hf⟩

/-- The length of the longest unsigned decimal at the front: digits, then a point and at
least one digit, or digits alone; a point needs a digit after it. -/
def decimalLength (cs : List Char) : Option Nat :=
  let whole := span isDigit cs
  match cs.drop whole with
  | '.' :: d :: rest =>
    if isDigit d then some (whole + 2 + span isDigit rest)
    else if whole > 0 then some whole else none
  | _ => if whole > 0 then some whole else none

end Text

end ShapeGrammar
