import ConsoleLine.Matcher

/-!
# Surveys

One pass over the symbols of a line that gives a verdict on each of them, by
the text since the last split, the open quotes and the next character.

* `Operator.admits`: what an operator asks of the characters around it;
* `Unsplit.judge`: the verdict on one symbol;
* `survey`: a finding for every symbol of a line, and what the last split
  leaves over;
* `map_place_survey`: the findings stand where the matches of the line do, so no
  symbol goes without a verdict.
-/

namespace ConsoleLine

/-- Binds the sign after or before it, as in comparisons and arrows. -/
def equals : Char := '='

/-- Whether an operator outside quotes splits the line. `before` is the character
before it, `none` right after a split and at the start of the line; `next` is the
one after it. Plain `>` and `<` do not split comparisons and arrows, and like `|`
and `&` they need text before them and can be escaped. -/
def Operator.admits (o : Operator) (before next : Option Char) : Bool :=
  match o with
  | .overwriteOut | .overwriteIn =>
    before.any (fun c => c != escape && c != equals) && next != some equals
  | .pipe | .ampersand => before.any (· != escape)
  | _ => true

inductive Verdict where
  /-- A quote that is not escaped; inside the other kind it is plain text. -/
  | toggles (q : Quote)
  /-- A quote after a backslash. -/
  | escaped (q : Quote)
  /-- An operator while a quote is open. -/
  | quoted (o : Operator)
  /-- An operator that is not admitted where it stands. -/
  | ignored (o : Operator)
  /-- An operator that ends the segment with this text. -/
  | splits (o : Operator) (text : Text)
  deriving DecidableEq, Repr

/-- The symbol that a verdict is about. -/
def Verdict.symbol : Verdict → Symbol
  | toggles q | escaped q => .quote q
  | quoted o | ignored o | splits o _ => .operator o

/-- The text since the last split, last character first, and the quotes that it
leaves open. -/
structure Unsplit where
  reversed : Text := []
  quotes : QuoteState := {}
  deriving DecidableEq, Repr

namespace Unsplit

def text (u : Unsplit) : Text := u.reversed.reverse

def last? (u : Unsplit) : Option Char := u.reversed.head?

def push (u : Unsplit) (t : Text) : Unsplit := { u with reversed := t.reverse ++ u.reversed }

def judge (u : Unsplit) (next : Option Char) : Symbol → Verdict
  | .quote q => if u.last? = some escape then .escaped q else .toggles q
  | .operator o =>
    if u.quotes.active then .quoted o
    else if o.admits u.last? next then .splits o u.text
    else .ignored o

/-- A split happens outside quotes, so it leaves nothing open. -/
def after (u : Unsplit) : Verdict → Unsplit
  | .splits _ _ => {}
  | .toggles q => { u.push q.token with quotes := u.quotes.toggle q }
  | v => u.push v.symbol.token

end Unsplit

/-- A verdict on the symbol at an offset of the line. -/
structure Finding where
  start : Nat
  verdict : Verdict
  deriving DecidableEq, Repr

structure Survey where
  findings : List Finding
  /-- The text after the last split. -/
  rest : Text
  deriving DecidableEq, Repr

/-- Goes on at offset `i` through the pieces before `tail`. -/
def surveyFrom (i : Nat) (u : Unsplit) (tail : Text) : List (Piece Symbol) → Survey
  | [] => ⟨[], (u.push tail).text⟩
  | p :: ps =>
    let u := u.push p.gap
    let start := i + p.gap.length
    let v := u.judge (Cut.head? ⟨ps, tail⟩) p.symbol
    let s := surveyFrom (start + p.symbol.token.length) (u.after v) tail ps
    ⟨⟨start, v⟩ :: s.findings, s.rest⟩

def survey (line : Text) : Survey :=
  let c := Matcher.control.cut line
  surveyFrom 0 {} c.tail c.pieces

/-! ## One verdict for each symbol -/

namespace Unsplit

theorem symbol_judge (u : Unsplit) (next : Option Char) (s : Symbol) :
    (u.judge next s).symbol = s := by
  cases s with
  | quote q => by_cases h : u.last? = some escape <;> simp [judge, h, Verdict.symbol]
  | operator o =>
    cases hq : u.quotes.active <;> cases ho : o.admits u.last? next <;>
      simp [judge, hq, ho, Verdict.symbol]

theorem eq_of_judge_eq_splits {u : Unsplit} {next : Option Char} {s : Symbol} {o : Operator}
    {t : Text} (h : u.judge next s = .splits o t) : s = .operator o ∧ t = u.text := by
  cases s with
  | quote q => by_cases hq : u.last? = some escape <;> simp [judge, hq] at h
  | operator p =>
    cases hq : u.quotes.active <;> cases ho : p.admits u.last? next <;> simp [judge, hq, ho] at h
    exact ⟨by rw [h.1], h.2.symm⟩

theorem text_push (u : Unsplit) (t : Text) : (u.push t).text = u.text ++ t := by
  simp [push, text]

theorem text_after {u : Unsplit} {v : Verdict} (h : ∀ o t, v ≠ .splits o t) :
    (u.after v).text = u.text ++ v.symbol.token := by
  cases v with
  | splits o t => exact absurd rfl (h o t)
  | _ => exact u.text_push _

end Unsplit

/-- The match that a finding is about. -/
def Finding.place (f : Finding) : Match Symbol := ⟨f.verdict.symbol, f.start⟩

theorem map_place_surveyFrom (i : Nat) (u : Unsplit) (tail : Text) (ps : List (Piece Symbol)) :
    (surveyFrom i u tail ps).findings.map Finding.place = locate i ps := by
  induction ps generalizing i u with
  | nil => rfl
  | cons p ps ih =>
    simp only [surveyFrom, List.map_cons, ih, Finding.place, Unsplit.symbol_judge, locate,
      Match.stop, Match.token, Symbol.spelled_token]

theorem map_place_survey (line : Text) :
    (survey line).findings.map Finding.place = Matcher.control.findAll line :=
  map_place_surveyFrom ..

end ConsoleLine
