import ConsoleLine.Proofs.Scan
import ConsoleLine.Proofs.Shape

/-!
# Going on after a split

A split leaves nothing behind: the text after it is split like a line of its own.

* `surveyAt_of_segments_cons`: a survey up to its first split, and the one after
  it, which starts with nothing unsplit;
* `survey_of_segments_cons`: the second part is the survey of the remaining text;
* `splitLine_resumes`: the same of segments, remainder and notices.
-/

namespace ConsoleLine

/-- **Up to the first split and from there on.** -/
theorem surveyAt_of_segments_cons {i : Nat} {u : Unsplit} {t : Text} {s : Segment}
    {segs : List Segment} (h : (surveyAt i u t).segments = s :: segs) :
    ∃ early x r, (∀ f ∈ early, f.segment? = none) ∧ s.text = u.text ++ x ∧
      t = x ++ (s.operator.token ++ r) ∧
      Matcher.control.first? (s.operator.token ++ r) = some (.operator s.operator) ∧
      surveyAt i u t =
        (surveyAt (i + x.length + s.operator.token.length) {} r).prepend
          (early ++ [⟨i + x.length, .splits s.operator s.text⟩]) := by
  induction t using Matcher.control.scan_induction generalizing i u with
  | nil => cases h
  | char c r hc ih =>
    rw [surveyAt_char i u hc] at h ⊢
    obtain ⟨early, x, r, hearly, htext, rfl, hfirst, hsurvey⟩ := ih h
    refine ⟨early, c :: x, r, hearly, ?_, rfl, hfirst, ?_⟩
    · rw [htext, Unsplit.text_push, List.append_assoc, List.singleton_append]
    · rw [offset_cons, hsurvey]
  | symbol sym r hs ih =>
    rw [Symbol.spelled_token] at hs h ⊢
    rw [surveyAt_symbol i u hs] at h ⊢
    rw [Survey.segments_prepend_singleton] at h
    cases hf : Finding.segment? ⟨i, u.judge r.head? sym⟩ with
    | some s' =>
      rw [hf] at h
      obtain ⟨rfl, -⟩ := List.cons.inj h
      have hv : u.judge r.head? sym = .splits s'.operator s'.text := segment?_eq_some hf
      obtain ⟨rfl, htext⟩ := segment?_judge hf
      refine ⟨[], [], r, by simp, by rw [htext, List.append_nil], rfl, hs, ?_⟩
      rw [hv]
      rfl
    | none =>
      rw [hf] at h
      obtain ⟨early, x, r, hearly, htext, rfl, hfirst, hsurvey⟩ := ih h
      have hafter := Unsplit.text_after_of_segment? (u := u) hf
      rw [Unsplit.symbol_judge] at hafter
      refine ⟨_ :: early, sym.token ++ x, r, List.forall_mem_cons.mpr ⟨hf, hearly⟩, ?_, ?_, hfirst,
        ?_⟩
      · rw [htext, hafter, List.append_assoc]
      · rw [List.append_assoc]
      · rw [offset_append, hsurvey, Survey.prepend_prepend]
        rfl

theorem survey_of_segments_cons {line : Text} {s : Segment} {segs : List Segment}
    (h : (survey line).segments = s :: segs) :
    ∃ early t, (∀ f ∈ early, f.segment? = none) ∧ line = s.text ++ (s.operator.token ++ t) ∧
      survey line =
        ⟨early ++ ⟨s.text.length, .splits s.operator s.text⟩ ::
            (survey t).findings.map (Finding.shift (s.text.length + s.operator.token.length)),
          (survey t).rest⟩ := by
  obtain ⟨early, x, t, hearly, htext, hline, -, hsurvey⟩ := surveyAt_of_segments_cons (i := 0) h
  obtain rfl : s.text = x := htext
  rw [Nat.zero_add, surveyAt_empty _ t, Survey.prepend, List.append_assoc] at hsurvey
  exact ⟨early, t, hearly, hline, hsurvey⟩

theorem map_place_shift (k : Nat) (fs : List Finding) :
    (fs.map (Finding.shift k)).map Finding.place = (fs.map Finding.place).map (Match.shift k) := by
  rw [List.map_map, List.map_map]
  rfl

/-- What a line holds after its first split is what the text there holds. -/
theorem after_first_split {line : Text} {s : Segment} {segs : List Segment}
    (h : (survey line).segments = s :: segs) :
    ∃ t ms, line = s.text ++ (s.operator.token ++ t) ∧ (survey t).segments = segs ∧
      (survey t).rest = (survey line).rest ∧
      Matcher.control.findAll line = ms ++ ⟨.operator s.operator, s.text.length⟩ ::
        (Matcher.control.findAll t).map (Match.shift (s.text.length + s.operator.token.length)) := by
  obtain ⟨early, t, hearly, hline, hsurvey⟩ := survey_of_segments_cons h
  refine ⟨t, early.map Finding.place, hline, ?_, by rw [hsurvey], ?_⟩
  · rw [hsurvey, Survey.segments, List.filterMap_append,
      List.filterMap_eq_nil_iff.mpr hearly] at h
    exact (filterMap_segment?_shift _ _).symm.trans (List.cons.inj h).2
  · rw [← map_place_survey, hsurvey, List.map_append, List.map_cons, map_place_shift,
      map_place_survey]
    rfl

theorem rest_of_segments_nil {line : Text} (h : (survey line).segments = []) :
    (survey line).rest = line := by
  have hrender := render_survey line
  rwa [h] at hrender

/-! ## Segments, remainder and notices -/

theorem segments_of_head? {line : Text} {o : Operator} {t : Text}
    (h : (splitLine line).head? = some ⟨o, t⟩) (ho : o ≠ .unterminated) :
    ∃ segs, (survey line).segments = ⟨o, t⟩ :: segs := by
  rw [splitLine_eq] at h
  cases hs : (survey line).segments with
  | nil =>
    rw [hs, if_pos rfl] at h
    exact absurd (congrArg Segment.operator (Option.some.inj h)).symm ho
  | cons s segs =>
    rw [hs] at h
    exact ⟨segs, by rw [Option.some.inj h]⟩

/-- Before the first split only ignored operators are noticed. -/
theorem notice?_of_segment? {f : Finding} {n : Notice} (h : f.segment? = none)
    (hn : f.notice? = some n) : ∃ o start, n = .ignored o start := by
  obtain ⟨i, v⟩ := f
  cases v with
  | splits o t => cases h
  | ignored o => exact ⟨o, i, (Option.some.inj hn).symm⟩
  | _ => cases hn

/-- **After its first split a line is split as if it began there.** -/
theorem splitLine_resumes {line : Text} {o : Operator} {t : Text}
    (h : (splitLine line).head? = some ⟨o, t⟩) (ho : o ≠ .unterminated) :
    let k := t.length + o.token.length
    ended line = ⟨o, t⟩ :: ended (line.drop k) ∧
      remainder line = remainder (line.drop k) ∧
      ∃ early, (∀ n ∈ early, ∃ o' start, n = Notice.ignored o' start) ∧
        notices line =
          early ++ .split o t.length :: (notices (line.drop k)).map (Notice.shift k) := by
  intro k
  obtain ⟨segs, hsegs⟩ := segments_of_head? h ho
  obtain ⟨early, r, hearly, hline, hsurvey⟩ := survey_of_segments_cons hsegs
  have hdrop : line.drop k = r := by
    have hk : k = (t ++ o.token).length := (List.length_append).symm
    rw [hline, hk, ← List.append_assoc]
    exact List.drop_left
  have hnone : early.filterMap Finding.segment? = [] := List.filterMap_eq_nil_iff.mpr hearly
  rw [ended_eq, ended_eq, remainder_eq, remainder_eq, hdrop, notices, notices, hsurvey]
  refine ⟨?_, rfl, early.filterMap Finding.notice?, ?_, ?_⟩
  · rw [Survey.segments, List.filterMap_append, hnone, List.nil_append]
    exact congrArg _ (filterMap_segment?_shift k _)
  · intro n hn
    obtain ⟨f, hf, hfn⟩ := List.mem_filterMap.mp hn
    exact notice?_of_segment? (hearly f hf) hfn
  · rw [List.filterMap_append]
    exact congrArg (fun l => early.filterMap Finding.notice? ++ .split o t.length :: l)
      (filterMap_notice?_shift k _)

/-- An escaped pipe is noticed before the first split, and the notice of the second
split counts from the start of the line. -/
theorem splitLine_resumes_escaped_pipe :
    (splitLine ['a', '\\', '|', 'b', '|', 'c', ';', 'd']).head? =
        some ⟨.pipe, ['a', '\\', '|', 'b']⟩ ∧
      Operator.pipe ≠ .unterminated ∧
      ended ['a', '\\', '|', 'b', '|', 'c', ';', 'd'] =
        ⟨.pipe, ['a', '\\', '|', 'b']⟩ :: ended ['c', ';', 'd'] ∧
      remainder ['a', '\\', '|', 'b', '|', 'c', ';', 'd'] = remainder ['c', ';', 'd'] ∧
      ∃ early, (∀ n ∈ early, ∃ o' start, n = Notice.ignored o' start) ∧
        notices ['a', '\\', '|', 'b', '|', 'c', ';', 'd'] =
          early ++ .split .pipe 4 :: (notices ['c', ';', 'd']).map (Notice.shift 5) := by
  have hhead : (splitLine ['a', '\\', '|', 'b', '|', 'c', ';', 'd']).head? =
      some ⟨.pipe, ['a', '\\', '|', 'b']⟩ := by decide
  exact ⟨hhead, by decide, splitLine_resumes hhead (by decide)⟩

end ConsoleLine
