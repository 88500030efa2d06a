import ConsoleLine.Text.Basic

/-!
# Blanks and words

* `isBlank`: the characters that separate words, ASCII or not;
* `isBlank_of_isWhitespace`: the ASCII whitespace is among them;
* `words`: the maximal runs without a blank, from left to right;
* `allBlank`: nothing but blanks, the empty text included.
-/

namespace ConsoleLine

/-- Tab to carriage return, the four information separators, space, next line,
and the Unicode spaces and line separators. -/
def blankRanges : List (Nat × Nat) :=
  [(0x9, 0xD), (0x1C, 0x20), (0x85, 0x85), (0xA0, 0xA0), (0x1680, 0x1680),
   (0x2000, 0x200A), (0x2028, 0x2029), (0x202F, 0x202F), (0x205F, 0x205F),
   (0x3000, 0x3000)]

def isBlank (c : Char) : Bool := inRanges blankRanges c

theorem isBlank_of_isWhitespace {c : Char} (h : c.isWhitespace) : isBlank c := by
  simp only [Char.isWhitespace, Bool.or_eq_true, decide_eq_true_eq] at h
  rcases h with ((rfl | rfl) | rfl) | rfl <;> decide

def allBlank (t : Text) : Bool := t.all isBlank

/-- The text from its first character that is no blank. -/
def skipBlanks (t : Text) : Text := t.dropWhile isBlank

/-- Whether the text ends in a blank. -/
def endsBlank (t : Text) : Bool := t.getLast?.any isBlank

/-- `run` holds the word being read, last character first. -/
def wordsFrom (run : Text) : Text → List Text
  | [] => if run.isEmpty then [] else [run.reverse]
  | c :: r =>
    if isBlank c then
      if run.isEmpty then wordsFrom [] r else run.reverse :: wordsFrom [] r
    else wordsFrom (c :: run) r

def words (t : Text) : List Text := wordsFrom [] t

end ConsoleLine
