import ConsoleLine.Proofs.Survey

/-!
# The shape of a split line

* `ended`, `remainder`: the segments of a line that an operator ends, and the
  text after the last of these operators;
* `ended_eq`, `remainder_eq`: a survey finds the same;
* `remainder_append`: text that no operator of it splits off is left over;
* `splitLine_shape`: these segments and the remainder spell the line, and what
  follows the segments in the list depends only on whether there are any and on
  whether the remainder is blank.
-/

namespace ConsoleLine

def ended (line : Text) : List Segment := (splitLine line).filter (·.operator ≠ .unterminated)

def remainder (line : Text) : Text := line.drop (render (ended line)).length

theorem segment?_eq_some {f : Finding} {s : Segment} (h : f.segment? = some s) :
    f.verdict = .splits s.operator s.text := by
  obtain ⟨i, v⟩ := f
  cases v with
  | splits o t => cases h; rfl
  | _ => cases h

theorem segment?_judge {u : Unsplit} {next : Option Char} {sym : Symbol} {i : Nat} {s : Segment}
    (h : Finding.segment? ⟨i, u.judge next sym⟩ = some s) :
    sym = .operator s.operator ∧ s.text = u.text :=
  Unsplit.eq_of_judge_eq_splits (segment?_eq_some h)

theorem Unsplit.text_after_of_segment? {u : Unsplit} {v : Verdict} {i : Nat}
    (h : Finding.segment? ⟨i, v⟩ = none) : (u.after v).text = u.text ++ v.symbol.token := by
  apply text_after
  rintro o t rfl
  cases h

/-- Every segment that a survey collects is ended by an operator with a token. -/
theorem ne_unterminated_of_mem_segments {line : Text} {s : Segment}
    (h : s ∈ (survey line).segments) : s.operator ≠ .unterminated := by
  obtain ⟨f, hf, hs⟩ := List.mem_filterMap.mp h
  have hsymbol := symbol_mem_findAll (place_mem_findAll hf)
  rw [Finding.place, segment?_eq_some hs] at hsymbol
  exact Matcher.ne_unterminated_of_mem hsymbol

theorem splitLine_eq (line : Text) :
    splitLine line = (survey line).segments ++
      ((if (survey line).segments = [] then [⟨.unterminated, (survey line).rest⟩] else []) ++
        if allBlank (survey line).rest then [] else [⟨.unterminated, (survey line).rest⟩]) := by
  simp only [splitLine, List.isEmpty_iff, List.append_assoc]

theorem ended_eq (line : Text) : ended line = (survey line).segments := by
  have hends : ∀ s ∈ (survey line).segments, decide (s.operator ≠ .unterminated) = true :=
    fun s hs => decide_eq_true (ne_unterminated_of_mem_segments hs)
  rw [ended, splitLine_eq, List.filter_append, List.filter_eq_self.mpr hends]
  split <;> split <;> simp

theorem remainder_eq (line : Text) : remainder line = (survey line).rest := by
  rw [remainder, ended_eq]
  calc
    _ = (render (survey line).segments ++ (survey line).rest).drop
          (render (survey line).segments).length := by rw [render_survey]
    _ = (survey line).rest := List.drop_left

theorem render_ended (line : Text) : render (ended line) ++ remainder line = line := by
  rw [ended_eq, remainder_eq, render_survey]

theorem remainder_of_ended_nil {line : Text} (h : ended line = []) : remainder line = line := by
  rw [remainder, h]; rfl

/-- Text behind which the segments stay the same is added to the remainder. -/
theorem remainder_append {a t : Text} (h : ended (a ++ t) = ended a) :
    remainder (a ++ t) = remainder a ++ t := by
  have hrender := render_ended (a ++ t)
  rw [h] at hrender
  refine List.append_cancel_left (hrender.trans ?_)
  rw [← List.append_assoc, render_ended]

theorem splitLine_of_ended_nil {line : Text} (h : ended line = []) :
    splitLine line =
      if allBlank line then [⟨.unterminated, line⟩]
      else [⟨.unterminated, line⟩, ⟨.unterminated, line⟩] := by
  rw [splitLine_eq, ← ended_eq, ← remainder_eq, remainder_of_ended_nil h, h]
  cases allBlank line <;> rfl

theorem splitLine_of_ended_ne_nil {line : Text} (h : ended line ≠ []) :
    splitLine line =
      ended line ++
        if allBlank (remainder line) then [] else [⟨.unterminated, remainder line⟩] := by
  rw [splitLine_eq, ← ended_eq, ← remainder_eq, if_neg h, List.nil_append]

theorem pairwise_splitLine (line : Text) :
    (splitLine line).Pairwise
      fun s s' => s.operator = .unterminated → s'.operator = .unterminated := by
  have hsegments : (survey line).segments.Pairwise
      fun s s' => s.operator = .unterminated → s'.operator = .unterminated :=
    List.Pairwise.imp_of_mem (fun hs _ _ h => absurd h (ne_unterminated_of_mem_segments hs))
      (List.pairwise_of_forall (fun _ _ => trivial) : List.Pairwise (fun _ _ => True) _)
  rw [splitLine_eq]
  refine List.pairwise_append.mpr ⟨hsegments, ?_, fun s hs s' _ h => ?_⟩
  · split <;> split <;> simp
  · exact absurd h (ne_unterminated_of_mem_segments hs)

theorem render_splitLine {line : Text} (h : ended line ≠ []) :
    ∃ blank, allBlank blank ∧ render (splitLine line) ++ blank = line := by
  rw [splitLine_of_ended_ne_nil h]
  cases hb : allBlank (remainder line) with
  | true =>
    refine ⟨remainder line, hb, ?_⟩
    rw [if_pos rfl, List.append_nil, render_ended]
  | false =>
    refine ⟨[], rfl, ?_⟩
    have hrender : render [⟨.unterminated, remainder line⟩] = remainder line := by
      simp [render, Operator.token]
    rw [if_neg Bool.false_ne_true, List.append_nil, render, List.flatMap_append]
    change render (ended line) ++ render [⟨.unterminated, remainder line⟩] = line
    rw [hrender, render_ended]

/-- **Splitting loses and invents nothing, and its list has one shape.** -/
theorem splitLine_shape (line : Text) :
    render (ended line) ++ remainder line = line ∧
      splitLine line = ended line ++
        (if ended line = [] then
          if allBlank line then [⟨.unterminated, line⟩]
          else [⟨.unterminated, line⟩, ⟨.unterminated, line⟩]
        else if allBlank (remainder line) then [] else [⟨.unterminated, remainder line⟩]) ∧
      (splitLine line).Pairwise
        (fun s s' => s.operator = .unterminated → s'.operator = .unterminated) ∧
      (ended line ≠ [] →
        ∃ blank, allBlank blank ∧ render (splitLine line) ++ blank = line) := by
  refine ⟨render_ended line, ?_, pairwise_splitLine line, render_splitLine⟩
  by_cases h : ended line = []
  · rw [if_pos h, splitLine_of_ended_nil h, h, List.nil_append]
  · rw [if_neg h, splitLine_of_ended_ne_nil h]

end ConsoleLine
