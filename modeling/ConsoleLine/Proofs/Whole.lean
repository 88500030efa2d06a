import ConsoleLine.Proofs.Resume
import ConsoleLine.Proofs.RoundTrip

/-!
# Segments are split to the end

Cut out of its line, a segment shows the same symbols as in it: none is cut in
two, and each is judged as before.

* `segments_of_part`: the text before a split is not split on its own;
* `closed_of_mem_surveyAt`: a split happens where the text before it has its
  quotes closed;
* `whole_of_mem_splitLine`: no segment of a line splits again, and no segment that
  an operator ends leaves a quote open.
-/

namespace ConsoleLine

/-! ## The text before a split -/

/-- **What stands before the first split is not split on its own.** -/
theorem segments_of_part {i j : Nat} {u : Unsplit} {t x : Text} {s : Segment}
    {segs : List Segment} (h : (surveyAt i u t).segments = s :: segs)
    (hx : s.text = u.text ++ x) : (surveyAt j u x).segments = [] := by
  induction t using Matcher.control.scan_induction generalizing i j u x with
  | nil => cases h
  | char c r hc ih =>
    rw [surveyAt_char i u hc] at h
    obtain ⟨-, y, r, -, htext, rfl, -, -⟩ := surveyAt_of_segments_cons h
    obtain rfl : x = c :: y := by
      rw [htext, Unsplit.text_push, List.append_assoc, List.append_cancel_left_eq] at hx
      exact hx.symm
    rw [surveyAt_char j u (Matcher.first?_none_of_append (a := c :: y) hc)]
    exact ih h htext
  | symbol sym r hs ih =>
    rw [Symbol.spelled_token] at hs h
    rw [surveyAt_symbol i u hs, Survey.segments_prepend_singleton] at h
    cases hf : Finding.segment? ⟨i, u.judge r.head? sym⟩ with
    | some s' =>
      rw [hf] at h
      obtain ⟨rfl, -⟩ := List.cons.inj h
      obtain ⟨-, htext⟩ := segment?_judge hf
      obtain rfl : x = [] := by
        rw [htext] at hx
        exact List.self_eq_append_right.mp hx
      rfl
    | none =>
      rw [hf] at h
      obtain ⟨-, y, r, -, htext, rfl, hfirst, -⟩ := surveyAt_of_segments_cons h
      obtain rfl : x = sym.token ++ y := by
        rw [htext, Unsplit.text_after_of_segment? hf, Unsplit.symbol_judge, List.append_assoc,
          List.append_cancel_left_eq] at hx
        exact hx.symm
      have hop := Matcher.ne_unterminated_of_mem (Matcher.prefix_of_first? hfirst).1
      have hsym : Matcher.control.first? (sym.token ++ y) = some sym := by
        rw [← List.append_assoc] at hs
        exact Matcher.first?_some_of_append hs (List.prefix_append _ y)
      have hv := u.judge_congr sym (Operator.head?_cut_off hop y r)
      have hnone : Finding.segment? ⟨j, u.judge y.head? sym⟩ = none := hv ▸ hf
      rw [surveyAt_symbol j u hsym, Survey.segments_prepend_singleton, hnone, hv]
      exact ih h htext

theorem segments_of_text {line : Text} {s : Segment} (h : s ∈ (survey line).segments) :
    (survey s.text).segments = [] := by
  induction hl : (survey line).segments generalizing line with
  | nil => rw [hl] at h; cases h
  | cons s' segs ih =>
    obtain ⟨t, -, -, hsegs, -, -⟩ := after_first_split hl
    rw [hl] at h
    rcases List.mem_cons.mp h with rfl | h
    · exact segments_of_part (i := 0) (u := {}) hl rfl
    · exact ih (hsegs.symm ▸ h) hsegs

theorem segments_of_rest (line : Text) : (survey (survey line).rest).segments = [] := by
  induction hl : (survey line).segments generalizing line with
  | nil => rw [rest_of_segments_nil hl, hl]
  | cons s segs ih =>
    obtain ⟨t, -, -, hsegs, hrest, -⟩ := after_first_split hl
    rw [← hrest]
    exact ih t hsegs

/-! ## Quotes -/

/-- **The text of a split has its quotes closed.** -/
theorem closed_of_mem_surveyAt {i : Nat} {u : Unsplit} (hu : u.Settled) {t : Text} {s : Segment}
    (h : s ∈ (surveyAt i u t).segments) : QuoteState.ofText s.text = {} := by
  induction t using Matcher.control.scan_induction generalizing i u with
  | nil => cases h
  | char c r hc ih =>
    rw [surveyAt_char i u hc] at h
    exact ih (hu.push (Matcher.plain_of_first?_none hc)) h
  | symbol sym r hs ih =>
    rw [Symbol.spelled_token] at hs h
    rw [surveyAt_symbol i u hs, Survey.segments_prepend_singleton] at h
    rcases List.mem_append.mp h with hf | h
    · rw [Option.mem_toList] at hf
      obtain ⟨-, htext⟩ := segment?_judge hf
      rw [htext, ← hu]
      exact Unsplit.closed_of_judge (segment?_eq_some hf)
    · exact ih (hu.after_judge _ sym) h

/-! ## Segments -/

theorem mem_splitLine {line : Text} {s : Segment} (h : s ∈ splitLine line) :
    s ∈ (survey line).segments ∨ s = ⟨.unterminated, (survey line).rest⟩ := by
  rw [splitLine_eq] at h
  rcases List.mem_append.mp h with h | h
  · exact Or.inl h
  · right
    revert h
    split <;> split <;> simp

/-- **Segments are split to the end and closed.** -/
theorem whole_of_mem_splitLine {line : Text} {s : Segment} (h : s ∈ splitLine line) :
    Whole s.text ∧ (s.operator ≠ .unterminated → QuoteState.ofText s.text = {}) := by
  rw [whole_iff, ended_eq]
  rcases mem_splitLine h with h | rfl
  · exact ⟨segments_of_text h, fun _ => closed_of_mem_surveyAt (i := 0) Unsplit.settled_empty h⟩
  · exact ⟨segments_of_rest line, fun ho => absurd rfl ho⟩

/-- A pipe in quotes and the head of an arrow, at the very end of their segment. -/
theorem whole_quoted_pipe_arrow :
    ⟨.semicolon, ['a', '"', '|', '"', '=', '>']⟩ ∈
        splitLine ['a', '"', '|', '"', '=', '>', ';', 'b'] ∧
      Whole ['a', '"', '|', '"', '=', '>'] ∧
      (Operator.semicolon ≠ .unterminated →
        QuoteState.ofText ['a', '"', '|', '"', '=', '>'] = {}) := by
  have hmem : ⟨.semicolon, ['a', '"', '|', '"', '=', '>']⟩ ∈
      splitLine ['a', '"', '|', '"', '=', '>', ';', 'b'] := by decide
  exact ⟨hmem, whole_of_mem_splitLine hmem⟩

end ConsoleLine
