import ConsoleLine.Proofs.Survey

/-!
# Surveys of a text from any state

A survey of a text, taken up with some text unsplit before it, goes over one
character or one symbol at a time, as the cut of the text does.

* `surveyAt_char`, `surveyAt_symbol`: the two steps;
* `surveyAt_shift`, `surveyAt_offset`: where it starts matters for the offsets only;
* `survey_append`: a line is surveyed up to a border, and on from what is unsplit
  there;
* `judge_unsplit`, `judge_unsplit_of_active`: the verdict on an operator put behind a line;
* `survey_append_operator`: what an operator outside quotes does to the survey of
  a line, whatever stands before and after it.
-/

namespace ConsoleLine

/-- Surveys a text that begins at offset `i`, with `u` unsplit before it. -/
def surveyAt (i : Nat) (u : Unsplit) (t : Text) : Survey :=
  surveyFrom i u (Matcher.control.cut t).tail (Matcher.control.cut t).pieces

theorem survey_eq_surveyAt (line : Text) : survey line = surveyAt 0 {} line := rfl

/-- The same survey with more findings before it. -/
def Survey.prepend (fs : List Finding) (s : Survey) : Survey := ⟨fs ++ s.findings, s.rest⟩

@[simp] theorem Survey.rest_prepend (fs : List Finding) (s : Survey) :
    (s.prepend fs).rest = s.rest := rfl

@[simp] theorem Survey.segments_prepend (fs : List Finding) (s : Survey) :
    (s.prepend fs).segments = fs.filterMap Finding.segment? ++ s.segments :=
  List.filterMap_append

theorem Survey.segments_prepend_singleton (f : Finding) (s : Survey) :
    (s.prepend [f]).segments = f.segment?.toList ++ s.segments :=
  segments_cons f s.findings s.rest

theorem Survey.prepend_prepend (fs gs : List Finding) (s : Survey) :
    (s.prepend gs).prepend fs = s.prepend (fs ++ gs) := by
  simp only [prepend, List.append_assoc]

/-! ## Steps -/

theorem Unsplit.push_nil (u : Unsplit) : u.push [] = u := rfl

theorem Unsplit.push_push (u : Unsplit) (s t : Text) : (u.push s).push t = u.push (s ++ t) := by
  simp [push]

/-- Text before a cut is unsplit text before its survey. -/
theorem surveyFrom_prepend (i : Nat) (u : Unsplit) (g : Text) (c : Cut Symbol) :
    surveyFrom i u (c.prepend g).tail (c.prepend g).pieces =
      surveyFrom (i + g.length) (u.push g) c.tail c.pieces := by
  obtain ⟨ps, t⟩ := c
  cases ps with
  | nil => simp only [Cut.prepend, surveyFrom, Unsplit.push_push]
  | cons p ps =>
    simp only [Cut.prepend, surveyFrom, Unsplit.push_push, List.length_append, Nat.add_assoc]

theorem surveyAt_char (i : Nat) (u : Unsplit) {c : Char} {r : Text}
    (h : Matcher.control.first? (c :: r) = none) :
    surveyAt i u (c :: r) = surveyAt (i + 1) (u.push [c]) r := by
  rw [surveyAt, Matcher.cut_of_none h, surveyFrom_prepend]
  rfl

theorem surveyAt_symbol (i : Nat) (u : Unsplit) {s : Symbol} {r : Text}
    (h : Matcher.control.first? (s.token ++ r) = some s) :
    surveyAt i u (s.token ++ r) =
      (surveyAt (i + s.token.length) (u.after (u.judge r.head? s)) r).prepend
        [⟨i, u.judge r.head? s⟩] := by
  have hcut : Matcher.control.cut (s.token ++ r) = (Matcher.control.cut r).cons s :=
    Matcher.cut_token h
  have hhead : Cut.head? ⟨(Matcher.control.cut r).pieces, (Matcher.control.cut r).tail⟩ = r.head? :=
    Matcher.head?_cut r
  rw [surveyAt, hcut]
  simp only [Cut.cons, surveyFrom, Unsplit.push_nil, List.length_nil, Nat.add_zero, hhead]
  rfl

/-! ## Offsets -/

theorem offset_cons (i : Nat) (c : Char) (t : Text) : i + (c :: t).length = i + 1 + t.length := by
  rw [List.length_cons]; omega

theorem offset_append (i : Nat) (s t : Text) :
    i + (s ++ t).length = i + s.length + t.length := by
  rw [List.length_append, Nat.add_assoc]

theorem surveyAt_shift (k i : Nat) (u : Unsplit) (t : Text) :
    surveyAt (i + k) u t =
      ⟨(surveyAt i u t).findings.map (Finding.shift k), (surveyAt i u t).rest⟩ :=
  surveyFrom_shift k i u _ _

/-- With nothing unsplit before it a text is surveyed as a line. -/
theorem surveyAt_empty (k : Nat) (t : Text) :
    surveyAt k {} t = ⟨(survey t).findings.map (Finding.shift k), (survey t).rest⟩ := by
  have hshift := surveyAt_shift k 0 {} t
  rwa [Nat.zero_add] at hshift

/-- Where a survey starts makes a difference to its offsets only. -/
theorem surveyAt_offset (i j : Nat) (u : Unsplit) (t : Text) :
    (surveyAt i u t).segments = (surveyAt j u t).segments ∧
      (surveyAt i u t).rest = (surveyAt j u t).rest := by
  have hzero : ∀ k, (surveyAt k u t).segments = (surveyAt 0 u t).segments ∧
      (surveyAt k u t).rest = (surveyAt 0 u t).rest := by
    intro k
    have hshift := surveyAt_shift k 0 u t
    rw [Nat.zero_add] at hshift
    rw [hshift]
    exact ⟨filterMap_segment?_shift k _, rfl⟩
  rw [(hzero i).1, (hzero i).2, (hzero j).1, (hzero j).2]
  exact ⟨rfl, rfl⟩

theorem start_of_mem_surveyAt {i : Nat} {u : Unsplit} {t : Text} {f : Finding}
    (h : f ∈ (surveyAt i u t).findings) : i ≤ f.start := by
  have hplace : f.place ∈ locate i (Matcher.control.cut t).pieces := by
    rw [← map_place_surveyFrom i u (Matcher.control.cut t).tail]
    exact List.mem_map_of_mem h
  exact le_start_of_mem_locate hplace

/-! ## Borders -/

theorem Cut.head?_prepend (g : Text) (c : Cut Symbol) :
    Cut.head? ⟨(c.prepend g).pieces, (c.prepend g).tail⟩ = g.head?.or c.head? := by
  obtain ⟨ps, t⟩ := c
  cases g with
  | nil => cases ps <;> rfl
  | cons d g => cases ps <;> rfl

/-- **A line is surveyed up to a border, and on from there.** -/
theorem survey_append {a t : Text} (hapart : Matcher.control.Apart a t)
    (hhead : t.head? ≠ some equals) :
    survey (a ++ t) = (surveyAt a.length (unsplit a) t).prepend (survey a).findings := by
  have hborder :
      Cut.head? ⟨((Matcher.control.cut t).prepend (Matcher.control.cut a).tail).pieces,
        ((Matcher.control.cut t).prepend (Matcher.control.cut a).tail).tail⟩ = some equals ↔
        (Matcher.control.cut a).tail.head? = some equals := by
    rw [Cut.head?_prepend, Matcher.head?_cut]
    cases (Matcher.control.cut a).tail.head? with
    | none => simpa using hhead
    | some c => rfl
  rw [survey, Matcher.cut_append hapart]
  have hparts := surveyFrom_append 0 {} hborder (Matcher.control.cut a).pieces
  rw [surveyFrom_prepend, Nat.zero_add, Matcher.length_cut] at hparts
  exact hparts

/-! ## Around an operator -/

theorem Operator.head?_append_ne {o : Operator} (ho : o ≠ .unterminated) (t : Text) :
    (o.token ++ t).head? ≠ some equals := by
  cases o <;> first | exact absurd rfl ho | simp [token, equals]

/-- Text cut off before an operator still shows whether `=` comes next. -/
theorem Operator.head?_cut_off {o : Operator} (ho : o ≠ .unterminated) (x t : Text) :
    x.head? = some equals ↔ (x ++ (o.token ++ t)).head? = some equals := by
  cases x with
  | nil => simpa using head?_append_ne ho t
  | cons c x => rfl

/-- An operator that is admitted after text with closed quotes splits. -/
theorem judge_unsplit {a : Text} {o : Operator} {next : Option Char}
    (hclosed : QuoteState.ofText (survey a).rest = {})
    (hadmits : o.admits (survey a).rest.getLast? next = true) :
    (unsplit a).judge next (.operator o) = .splits o (survey a).rest := by
  have hlast : (unsplit a).last? = (survey a).rest.getLast? := by
    rw [Unsplit.last?_eq, text_unsplit]
  rw [Unsplit.judge, quotes_unsplit, hclosed, hlast, hadmits, text_unsplit]
  rfl

/-- An operator after text with an open quote is quoted. -/
theorem judge_unsplit_of_active {a : Text} (o : Operator) (next : Option Char)
    (hopen : (QuoteState.ofText (survey a).rest).active = true) :
    (unsplit a).judge next (.operator o) = .quoted o := by
  rw [Unsplit.judge, quotes_unsplit, hopen, if_pos rfl]

/-- **An operator outside quotes splits a survey.** The text after it is surveyed as
a line of its own. -/
theorem survey_append_operator {a t : Text} {o : Operator}
    (hapart : Matcher.control.Apart a (o.token ++ t))
    (hfirst : Matcher.control.first? (o.token ++ t) = some (.operator o))
    (hclosed : QuoteState.ofText (survey a).rest = {})
    (hadmits : o.admits (survey a).rest.getLast? t.head? = true) :
    survey (a ++ (o.token ++ t)) =
      ⟨(survey a).findings ++ ⟨a.length, .splits o (survey a).rest⟩ ::
          (survey t).findings.map (Finding.shift (a.length + o.token.length)),
        (survey t).rest⟩ := by
  have ho := Matcher.ne_unterminated_of_mem (Matcher.prefix_of_first? hfirst).1
  have hstep := surveyAt_symbol a.length (unsplit a) (s := .operator o) hfirst
  rw [judge_unsplit hclosed hadmits] at hstep
  rw [survey_append hapart (Operator.head?_append_ne ho t)]
  simp only [Symbol.token, Unsplit.after, surveyAt_empty] at hstep
  rw [hstep]
  rfl

end ConsoleLine
