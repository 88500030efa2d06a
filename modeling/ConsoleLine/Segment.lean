import ConsoleLine.Survey
import ConsoleLine.Text.Blank

/-!
# Segments

A console line is split into segments, each of them text and the operator that
ends it.

* `splitLine`: the segments of a line;
* `notices`: why each operator outside quotes did or did not split;
* `render`: the line that segments spell;
* `render_survey`: the segments that an operator ends and the rest spell the line.
-/

namespace ConsoleLine

/-- Text before an operator; `unterminated` marks what no operator ends. -/
structure Segment where
  operator : Operator
  text : Text
  deriving DecidableEq, Repr

def render (l : List Segment) : Text := l.flatMap fun s => s.text ++ s.operator.token

theorem render_cons (s : Segment) (l : List Segment) :
    render (s :: l) = s.text ++ (s.operator.token ++ render l) := by
  simp [render]

/-! ## Splitting -/

def Finding.segment? (f : Finding) : Option Segment :=
  match f.verdict with
  | .splits o t => some ⟨o, t⟩
  | _ => none

/-- The segments that an operator ends. -/
def Survey.segments (s : Survey) : List Segment := s.findings.filterMap Finding.segment?

/-- Nothing is lost: what the last split leaves over follows unless it is blank.
A line that no operator splits is kept in any case, before that. -/
def splitLine (line : Text) : List Segment :=
  let s := survey line
  let rest : Segment := ⟨.unterminated, s.rest⟩
  s.segments ++ (if s.segments.isEmpty then [rest] else [])
    ++ (if allBlank s.rest then [] else [rest])

/-! ## Notices -/

inductive Notice where
  | split (o : Operator) (start : Nat)
  | ignored (o : Operator) (start : Nat)
  deriving DecidableEq, Repr

def Notice.message : Notice → String
  | split o start => "Split on " ++ o.name ++ " at offset " ++ toString start
  | ignored o start => "Ignoring " ++ quoted o.token ++ " at offset " ++ toString start

/-- Quotes, and operators inside them, go without notice. -/
def Finding.notice? (f : Finding) : Option Notice :=
  match f.verdict with
  | .splits o _ => some (.split o f.start)
  | .ignored o => some (.ignored o f.start)
  | _ => none

def notices (line : Text) : List Notice := (survey line).findings.filterMap Finding.notice?

/-! ## Nothing is lost -/

theorem Survey.segments_cons (f : Finding) (fs : List Finding) (rest : Text) :
    Survey.segments ⟨f :: fs, rest⟩ = f.segment?.toList ++ Survey.segments ⟨fs, rest⟩ := by
  cases h : f.segment? <;> simp [segments, h]

theorem render_surveyFrom (i : Nat) (u : Unsplit) (tail : Text) (ps : List (Piece Symbol)) :
    render (surveyFrom i u tail ps).segments ++ (surveyFrom i u tail ps).rest =
      u.text ++ Cut.text ⟨ps, tail⟩ := by
  induction ps generalizing i u with
  | nil => simp [surveyFrom, Survey.segments, render, Cut.text, Unsplit.text_push]
  | cons p ps ih =>
    rw [surveyFrom, Survey.segments_cons, Cut.text_cons]
    have hs := (u.push p.gap).symbol_judge (Cut.head? ⟨ps, tail⟩) p.symbol
    generalize hv : (u.push p.gap).judge (Cut.head? ⟨ps, tail⟩) p.symbol = v at hs ⊢
    have ih := ih (i + p.gap.length + p.symbol.token.length) ((u.push p.gap).after v)
    by_cases h : ∀ o t, v ≠ .splits o t
    · have hf : Finding.segment? ⟨i + p.gap.length, v⟩ = none := by
        cases v <;> simp_all [Finding.segment?]
      rw [Unsplit.text_after h, hs, Unsplit.text_push] at ih
      simpa [hf] using ih
    · obtain ⟨o, t, rfl⟩ : ∃ o t, v = .splits o t := by simpa using h
      obtain ⟨hp, rfl⟩ := Unsplit.eq_of_judge_eq_splits hv
      have hk : p.symbol.token = o.token := by rw [hp]; rfl
      simp only [Finding.segment?, Option.toList_some, List.singleton_append, render_cons,
        Unsplit.text_push, Symbol.spelled_token, hk, List.append_assoc,
        List.append_cancel_left_eq] at ih ⊢
      exact ih

theorem render_survey (line : Text) :
    render (survey line).segments ++ (survey line).rest = line :=
  (render_surveyFrom 0 {} _ _).trans (Matcher.text_cut _ line)

end ConsoleLine
