import ConsoleLine.Proofs.Scan
import ConsoleLine.Proofs.Shape

/-!
# Typing on

More text at the end of a line changes nothing of what has been found in it up to
its last three characters: no token is longer than four characters, and only
tokens of one character depend on the next one.

* `locateSegments`: segments, each with the offset of the operator that ends it;
* `early_append`: the findings that more text leaves as they are;
* `locateSegments_surveyAt`: the offsets of the segments are those of the findings;
* `locateSegments_ended_append`: the segments that more text leaves as they are.
-/

namespace ConsoleLine

/-- Each segment with the offset of its operator, when the first text begins at `i`. -/
def locateSegments (i : Nat) : List Segment → List (Nat × Segment)
  | [] => []
  | s :: l =>
    (i + s.text.length, s) :: locateSegments (i + s.text.length + s.operator.token.length) l

/-! ## How far a verdict looks ahead -/

theorem Symbol.length_token_le (s : Symbol) : s.token.length ≤ 4 := by
  cases s with
  | operator o => cases o <;> decide
  | quote q => cases q <;> decide

theorem Matcher.first?_append_of_length {p : Text} (s : Text) (h : 4 ≤ p.length) :
    control.first? (p ++ s) = control.first? p :=
  first?_append_of_fits fun sym _ _ => Nat.le_trans sym.length_token_le h

/-- Only an operator of one character depends on the next one. -/
theorem Unsplit.judge_of_length (u : Unsplit) {s : Symbol} (h : 1 < s.token.length)
    (next next' : Option Char) : u.judge next s = u.judge next' s := by
  cases s with
  | quote q => rfl
  | operator o =>
    have hadmits : o.admits u.last? next = o.admits u.last? next' := by
      cases o with
      | overwriteOut | overwriteIn => exact absurd h (by decide)
      | _ => rfl
    simp only [judge, hadmits]

/-! ## Findings -/

/-- The findings at least four characters before offset `k`. -/
def early (k : Nat) (fs : List Finding) : List Finding := fs.filter fun f => f.start + 4 ≤ k

theorem early_eq_nil {i k : Nat} {u : Unsplit} {t : Text} (h : k < i + 4) :
    early k (surveyAt i u t).findings = [] := by
  rw [early, List.filter_eq_nil_iff]
  intro f hf
  have hstart := start_of_mem_surveyAt hf
  rw [decide_eq_true_eq]
  omega

/-- **More text leaves the early findings as they are.** -/
theorem early_append (i : Nat) (u : Unsplit) (p s : Text) :
    early (i + p.length) (surveyAt i u (p ++ s)).findings =
      early (i + p.length) (surveyAt i u p).findings := by
  induction p using Matcher.control.scan_induction generalizing i u with
  | nil => rw [early_eq_nil (by simp), early_eq_nil (by simp)]
  | char c r hc ih =>
    rcases Nat.lt_or_ge (c :: r).length 4 with hshort | hlong
    · rw [early_eq_nil (by omega), early_eq_nil (by omega)]
    · have hfirst := Matcher.first?_append_of_length s hlong
      rw [hc, List.cons_append] at hfirst
      rw [List.cons_append, surveyAt_char i u hfirst, surveyAt_char i u hc, offset_cons]
      exact ih (i + 1) (u.push [c])
  | symbol sym r hs ih =>
    rw [Symbol.spelled_token] at hs ⊢
    rcases Nat.lt_or_ge (sym.token ++ r).length 4 with hshort | hlong
    · rw [early_eq_nil (by omega), early_eq_nil (by omega)]
    · have hfirst := Matcher.first?_append_of_length s hlong
      rw [hs, List.append_assoc] at hfirst
      have hv : u.judge (r ++ s).head? sym = u.judge r.head? sym := by
        cases r with
        | nil =>
          rw [List.append_nil] at hlong
          exact u.judge_of_length (by omega) _ _
        | cons c r => rfl
      rw [List.append_assoc, surveyAt_symbol i u hfirst, surveyAt_symbol i u hs, hv,
        offset_append]
      simp only [Survey.prepend, early, List.filter_append]
      exact congrArg _ (ih _ _)

/-! ## Segments -/

/-- The segment that a finding ends, with the offset of the finding. -/
def Finding.located? (f : Finding) : Option (Nat × Segment) := f.segment?.map fun s => (f.start, s)

theorem locateSegments_surveyAt {i k : Nat} {u : Unsplit} (h : k + u.text.length = i) (t : Text) :
    locateSegments k (surveyAt i u t).segments =
      (surveyAt i u t).findings.filterMap Finding.located? := by
  induction t using Matcher.control.scan_induction generalizing i k u with
  | nil => rfl
  | char c r hc ih =>
    rw [surveyAt_char i u hc]
    apply ih
    rw [Unsplit.text_push, List.length_append, ← Nat.add_assoc, h]
    rfl
  | symbol sym r hs ih =>
    rw [Symbol.spelled_token] at hs ⊢
    rw [surveyAt_symbol i u hs, Survey.segments_prepend_singleton]
    simp only [Survey.prepend, List.singleton_append, List.filterMap_cons, Finding.located?]
    cases hf : Finding.segment? ⟨i, u.judge r.head? sym⟩ with
    | none =>
      apply ih
      rw [Unsplit.text_after_of_segment? hf, Unsplit.symbol_judge, List.length_append,
        ← Nat.add_assoc, h]
    | some s =>
      have hv : u.judge r.head? sym = .splits s.operator s.text := segment?_eq_some hf
      obtain ⟨rfl, htext⟩ := segment?_judge hf
      have hstart : k + s.text.length = i := by rw [htext, h]
      rw [hv, Option.toList_some, List.singleton_append, locateSegments, hstart]
      exact congrArg _ (ih rfl)

theorem locateSegments_ended (line : Text) :
    locateSegments 0 (ended line) = (survey line).findings.filterMap Finding.located? := by
  rw [ended_eq]
  exact locateSegments_surveyAt (i := 0) rfl line

theorem filter_located? (k : Nat) (fs : List Finding) :
    (fs.filterMap Finding.located?).filter (fun l => l.1 + 4 ≤ k) =
      (early k fs).filterMap Finding.located? := by
  rw [early, List.filter_filterMap, List.filterMap_filter]
  congr 1
  funext f
  cases hf : f.segment? with
  | none => simp [Finding.located?, hf]
  | some s => by_cases hk : f.start + 4 ≤ k <;> simp [Finding.located?, hf, hk, Option.filter]

/-- **More text leaves the early segments as they are**, offsets included. -/
theorem locateSegments_ended_append (p s : Text) :
    (locateSegments 0 (ended (p ++ s))).filter (fun l => l.1 + 4 ≤ p.length) =
      (locateSegments 0 (ended p)).filter (fun l => l.1 + 4 ≤ p.length) := by
  have hearly := early_append 0 {} p s
  rw [Nat.zero_add, ← survey_eq_surveyAt, ← survey_eq_surveyAt] at hearly
  rw [locateSegments_ended, locateSegments_ended, filter_located?, filter_located?, hearly]

/-- Three characters from the end an operator may still grow. -/
example :
    (locateSegments 0 (ended ['a', '2', '>', '&', '1'])).filter (fun l => l.1 + 3 ≤ 4) ≠
      (locateSegments 0 (ended ['a', '2', '>', '&'])).filter (fun l => l.1 + 3 ≤ 4) := by decide

end ConsoleLine
