import ConsoleLine.Proofs.Resume

/-!
# Text between two quotes

What stands between a quote and the next one of its kind has no influence on how
a line is split.

* `surveyAt_guarded`: while a quote is open, nothing splits until it comes again
  without a backslash before it;
* `surveyAt_open`: so nothing splits behind a quote that is not closed again;
* `surveyAt_behind`: unsplit text before a state shows in the text of the next
  split only;
* `splitLine_enclose_eq`: the segments of a line around two quotes, for any text
  between them;
* `splitLine_enclose`: two lines that differ between two quotes only.
-/

namespace ConsoleLine

/-! ## Guarded quotes -/

/-- In a text with `before` in front of it, each `q` comes after a backslash. -/
def Quote.Guarded (q : Quote) (before : Option Char) (b : Text) : Prop :=
  ∀ x y, b = x ++ q.char :: y → x.getLast?.or before = some escape

theorem Quote.guarded_of_not_mem {q : Quote} {b : Text} (before : Option Char) (h : q.char ∉ b) :
    q.Guarded before b := by
  rintro x y rfl
  exact absurd (List.mem_append_right x List.mem_cons_self) h

namespace Unsplit

theorem last?_push (u : Unsplit) (t : Text) : (u.push t).last? = t.getLast?.or u.last? := by
  rw [last?, push, List.head?_append, List.head?_reverse, last?]

theorem guarded_push {q : Quote} {u : Unsplit} {s t : Text} (h : q.Guarded u.last? (s ++ t)) :
    q.Guarded (u.push s).last? t := by
  rintro x y rfl
  have hlast := h (s ++ x) y (List.append_assoc s x _).symm
  rw [List.getLast?_append, Option.or_assoc] at hlast
  rw [last?_push, hlast]

/-- A symbol inside an open quote is text. -/
theorem after_judge_opened {q : Quote} {u : Unsplit} (hu : u.quotes = .opened q)
    (next : Option Char) {s : Symbol} (hs : s = .quote q → u.last? = some escape) :
    u.after (u.judge next s) = u.push s.token ∧
      ∀ i, Finding.segment? ⟨i, u.judge next s⟩ = none := by
  cases s with
  | quote r =>
    rw [judge]
    by_cases hlast : u.last? = some escape
    · rw [if_pos hlast]
      exact ⟨rfl, fun _ => rfl⟩
    · have hr : r ≠ q := by
        rintro rfl
        exact hlast (hs rfl)
      rw [if_neg hlast, after, hu, QuoteState.toggle_opened_of_ne hr, ← hu]
      exact ⟨rfl, fun _ => rfl⟩
  | operator o =>
    rw [judge, hu, QuoteState.active_opened]
    exact ⟨rfl, fun _ => rfl⟩

end Unsplit

/-- **While a quote is open, nothing splits.** -/
theorem surveyAt_guarded {q : Quote} {u : Unsplit} {b t : Text} (i : Nat)
    (hu : u.quotes = .opened q) (hb : q.Guarded u.last? b) (hapart : Matcher.control.Apart b t) :
    ∃ fs, (∀ f ∈ fs, f.segment? = none) ∧
      surveyAt i u (b ++ t) = (surveyAt (i + b.length) (u.push b) t).prepend fs := by
  induction b using Matcher.control.scan_induction generalizing i u with
  | nil => exact ⟨[], by simp, rfl⟩
  | char c r hc ih =>
    obtain ⟨fs, hfs, hrest⟩ :=
      ih (i + 1) (u := u.push [c]) hu (Unsplit.guarded_push hb) (hapart.of_append (a := [c]))
    refine ⟨fs, hfs, ?_⟩
    rw [List.cons_append, surveyAt_char i u (hapart.first?_char hc), hrest, offset_cons,
      Unsplit.push_push]
    rfl
  | symbol s r hs ih =>
    have hfirst := hapart.first?_symbol hs
    rw [Symbol.spelled_token] at hb hapart hfirst ⊢
    have hquote : s = .quote q → u.last? = some escape := by
      rintro rfl
      exact hb [] r rfl
    obtain ⟨hafter, hnone⟩ := Unsplit.after_judge_opened hu (r ++ t).head? hquote
    obtain ⟨fs, hfs, hrest⟩ :=
      ih (i + s.token.length) (u := u.push s.token) hu (Unsplit.guarded_push hb) hapart.of_append
    refine ⟨_ :: fs, List.forall_mem_cons.mpr ⟨hnone i, hfs⟩, ?_⟩
    rw [List.append_assoc, surveyAt_symbol i u hfirst, hafter, hrest, offset_append,
      Unsplit.push_push, Survey.prepend_prepend]
    rfl

/-! ## Text before a state -/

/-- The segment with `w` before its text. -/
def Segment.behind (w : Text) (s : Segment) : Segment := { s with text := w ++ s.text }

/-- The verdict on a symbol with `w` before the unsplit text. -/
def Verdict.behind (w : Text) : Verdict → Verdict
  | splits o t => splits o (w ++ t)
  | v => v

theorem segment?_behind (w : Text) (i : Nat) (v : Verdict) :
    Finding.segment? ⟨i, v.behind w⟩ = (Finding.segment? ⟨i, v⟩).map (Segment.behind w) := by
  cases v <;> rfl

namespace Unsplit

/-- The state with `w` unsplit before its text. -/
def behind (w : Text) (u : Unsplit) : Unsplit := { u with reversed := u.reversed ++ w.reverse }

theorem text_behind (w : Text) (u : Unsplit) : (u.behind w).text = w ++ u.text := by
  simp [behind, text]

theorem push_behind (w : Text) (u : Unsplit) (t : Text) :
    (u.behind w).push t = (u.push t).behind w := by
  simp [behind, push]

theorem last?_behind (w : Text) {u : Unsplit} (h : u.reversed ≠ []) :
    (u.behind w).last? = u.last? := by
  obtain ⟨c, r, hr⟩ := List.exists_cons_of_ne_nil h
  rw [last?, last?, behind, hr]
  rfl

theorem judge_behind (w : Text) {u : Unsplit} (h : u.reversed ≠ []) (next : Option Char)
    (s : Symbol) : (u.behind w).judge next s = (u.judge next s).behind w := by
  have hquotes : (u.behind w).quotes = u.quotes := rfl
  cases s with
  | quote q =>
    rw [judge, judge, last?_behind w h]
    split <;> rfl
  | operator o =>
    rw [judge, judge, last?_behind w h, hquotes, text_behind]
    split
    · rfl
    · split <;> rfl

theorem after_behind (w : Text) (u : Unsplit) {v : Verdict} {i : Nat}
    (hv : Finding.segment? ⟨i, v⟩ = none) :
    (u.behind w).after (v.behind w) = (u.after v).behind w := by
  cases v with
  | splits o t => cases hv
  | toggles q => simp [Verdict.behind, after, behind, push]
  | _ => exact u.push_behind w _

theorem reversed_after_ne_nil {u : Unsplit} (h : u.reversed ≠ []) {v : Verdict} {i : Nat}
    (hv : Finding.segment? ⟨i, v⟩ = none) : (u.after v).reversed ≠ [] := by
  cases v with
  | splits o t => cases hv
  | _ => exact List.append_ne_nil_of_right_ne_nil _ h

end Unsplit

/-- **Text before a state shows in the next segment or in the rest**, and nowhere else. -/
theorem surveyAt_behind (w : Text) {u : Unsplit} (h : u.reversed ≠ []) (i : Nat) (t : Text) :
    (surveyAt i (u.behind w) t).segments =
        (surveyAt i u t).segments.modifyHead (Segment.behind w) ∧
      (surveyAt i (u.behind w) t).rest =
        if (surveyAt i u t).segments = [] then w ++ (surveyAt i u t).rest
        else (surveyAt i u t).rest := by
  induction t using Matcher.control.scan_induction generalizing i u with
  | nil => exact ⟨rfl, u.text_behind w⟩
  | char c r hc ih =>
    rw [surveyAt_char i _ hc, surveyAt_char i u hc, Unsplit.push_behind]
    exact ih (List.append_ne_nil_of_right_ne_nil _ h) (i + 1)
  | symbol s r hs ih =>
    rw [Symbol.spelled_token] at hs ⊢
    rw [surveyAt_symbol i _ hs, surveyAt_symbol i u hs, Unsplit.judge_behind w h,
      Survey.segments_prepend_singleton, Survey.segments_prepend_singleton, segment?_behind]
    cases hf : Finding.segment? ⟨i, u.judge r.head? s⟩ with
    | none =>
      rw [u.after_behind w hf]
      exact ih (Unsplit.reversed_after_ne_nil h hf) (i + s.token.length)
    | some s' =>
      have hv : u.judge r.head? s = .splits s'.operator s'.text := segment?_eq_some hf
      rw [hv]
      exact ⟨rfl, (if_neg (List.cons_ne_nil _ _)).symm⟩

/-! ## Between two quotes -/

namespace Quote

/-- The text between two quotes `q`. -/
def enclose (q : Quote) (b : Text) : Text := q.token ++ (b ++ q.token)

/-- The second quote is the first `q` after the first one, and no backslash is before it. -/
structure Encloses (q : Quote) (b : Text) : Prop where
  free : q.char ∉ b
  last : b.getLast? ≠ some escape

instance (q : Quote) (b : Text) : Decidable (q.Encloses b) :=
  decidable_of_iff (q.char ∉ b ∧ b.getLast? ≠ some escape)
    ⟨fun h => ⟨h.1, h.2⟩, fun h => ⟨h.free, h.last⟩⟩

theorem char_ne_escape (q : Quote) : q.char ≠ escape := by cases q <;> decide

theorem char_ne_equals (q : Quote) : q.char ≠ equals := by cases q <;> decide

end Quote

namespace Unsplit

theorem eq_of_text {u v : Unsplit} (htext : u.text = v.text) (hquotes : u.quotes = v.quotes) :
    u = v := by
  obtain ⟨r, s⟩ := u
  obtain ⟨r', s'⟩ := v
  obtain rfl : r = r' := List.reverse_inj.mp htext
  obtain rfl : s = s' := hquotes
  rfl

/-- What is unsplit after a closing `q`, with that quote alone for its text. -/
def past (q : Quote) : Unsplit := { reversed := q.token }

theorem last?_after_toggles (u : Unsplit) (q : Quote) :
    (u.after (.toggles q)).last? = some q.char := rfl

/-- `b` and the quote after it close the region that `q` has opened. -/
theorem after_enclosed {q : Quote} {u : Unsplit} (hu : u.quotes = {}) (b : Text) :
    ((u.after (.toggles q)).push b).after (.toggles q) =
      (past q).behind (u.text ++ (q.token ++ b)) := by
  apply eq_of_text
  · rw [text_after (by simp), text_push, text_after (by simp), text_behind]
    simp [Verdict.symbol, Symbol.token, past, text, Quote.token]
  · change (u.quotes.toggle q).toggle q = {}
    rw [hu]
    exact QuoteState.toggle_opened q

end Unsplit

theorem surveyAt_toggles {u : Unsplit} (i : Nat) (h : u.last? ≠ some escape) (q : Quote)
    (r : Text) :
    surveyAt i u (q.token ++ r) =
      (surveyAt (i + 1) (u.after (.toggles q)) r).prepend [⟨i, .toggles q⟩] := by
  have hstep := surveyAt_symbol i u (s := .quote q) (Matcher.first?_quote q r)
  rw [Unsplit.judge, if_neg h] at hstep
  exact hstep

/-- A quote opens outside quotes, and nothing splits as long as it is guarded. -/
theorem surveyAt_open {q : Quote} {u : Unsplit} {b t : Text} (i : Nat) (hu : u.quotes = {})
    (hlast : u.last? ≠ some escape) (hb : q.Guarded (some q.char) b)
    (hapart : Matcher.control.Apart b t) :
    ∃ fs, (∀ f ∈ fs, f.segment? = none) ∧
      surveyAt i u (q.token ++ (b ++ t)) =
        (surveyAt (i + 1 + b.length) ((u.after (.toggles q)).push b) t).prepend fs := by
  have hopened : (u.after (.toggles q)).quotes = .opened q := congrArg (QuoteState.toggle · q) hu
  obtain ⟨fs, hfs, hinside⟩ := surveyAt_guarded (i + 1) hopened hb hapart
  refine ⟨⟨i, .toggles q⟩ :: fs, List.forall_mem_cons.mpr ⟨rfl, hfs⟩, ?_⟩
  rw [surveyAt_toggles i hlast, hinside, Survey.prepend_prepend]
  rfl

/-- **The quoted region is passed over as a whole.** -/
theorem surveyAt_enclose {q : Quote} {u : Unsplit} {b : Text} (i : Nat) (hu : u.quotes = {})
    (hlast : u.last? ≠ some escape) (hb : q.Encloses b) (c : Text) :
    ∃ fs j, (∀ f ∈ fs, f.segment? = none) ∧
      surveyAt i u (q.enclose b ++ c) =
        (surveyAt j ((Unsplit.past q).behind (u.text ++ (q.token ++ b))) c).prepend fs := by
  obtain ⟨fs, hfs, hinside⟩ := surveyAt_open i hu hlast (Quote.guarded_of_not_mem _ hb.free)
    (Matcher.apart_quote b q c)
  have hend : ((u.after (.toggles q)).push b).last? ≠ some escape := by
    rw [Unsplit.last?_push, Unsplit.last?_after_toggles]
    cases h : b.getLast? with
    | none => simpa using q.char_ne_escape
    | some d => rw [Option.some_or, ← h]; exact hb.last
  rw [surveyAt_toggles _ hend, Unsplit.after_enclosed hu, Survey.prepend_prepend] at hinside
  refine ⟨fs ++ [⟨i + 1 + b.length, .toggles q⟩], i + 1 + b.length + 1, ?_, ?_⟩
  · intro f hf
    rcases List.mem_append.mp hf with hf | hf
    · exact hfs f hf
    · rw [List.mem_singleton.mp hf]; rfl
  · rw [Quote.enclose, List.append_assoc, List.append_assoc, hinside]

/-- A line is surveyed up to a quote, and on from there. -/
theorem survey_append_quote (a : Text) (q : Quote) (t : Text) :
    survey (a ++ (q.token ++ t)) =
      (surveyAt a.length (unsplit a) (q.token ++ t)).prepend (survey a).findings :=
  survey_append (Matcher.apart_quote a q t) fun h => q.char_ne_equals (Option.some.inj h)

theorem last?_unsplit (a : Text) : (unsplit a).last? = (remainder a).getLast? := by
  rw [Unsplit.last?_eq, text_unsplit, remainder_eq]

/-- What follows a closing `q`, surveyed with that quote alone unsplit before it. -/
def surveyPast (q : Quote) (c : Text) : Survey := surveyAt 0 (.past q) c

theorem survey_enclose {q : Quote} {a b c : Text} (hclosed : QuoteState.ofText (remainder a) = {})
    (hlast : (remainder a).getLast? ≠ some escape) (hb : q.Encloses b) :
    (survey (a ++ (q.enclose b ++ c))).segments = (survey a).segments ++
        (surveyPast q c).segments.modifyHead (Segment.behind (remainder a ++ (q.token ++ b))) ∧
      (survey (a ++ (q.enclose b ++ c))).rest =
        if (surveyPast q c).segments = [] then
          remainder a ++ (q.token ++ b) ++ (surveyPast q c).rest
        else (surveyPast q c).rest := by
  have htext : (unsplit a).text = remainder a := (text_unsplit a).trans (remainder_eq a).symm
  have hquotes : (unsplit a).quotes = {} := by rw [quotes_unsplit, ← remainder_eq, hclosed]
  rw [← last?_unsplit] at hlast
  obtain ⟨fs, j, hfs, henclose⟩ := surveyAt_enclose a.length hquotes hlast hb c
  have hsurvey : survey (a ++ (q.enclose b ++ c)) =
      (surveyAt j ((Unsplit.past q).behind (remainder a ++ (q.token ++ b))) c).prepend
        ((survey a).findings ++ fs) := by
    rw [← htext, ← Survey.prepend_prepend, ← henclose, Quote.enclose, List.append_assoc]
    exact survey_append_quote a q _
  have hnone : fs.filterMap Finding.segment? = [] := List.filterMap_eq_nil_iff.mpr hfs
  obtain ⟨hsegs, hrest⟩ := surveyAt_behind (remainder a ++ (q.token ++ b))
    (u := .past q) (List.cons_ne_nil _ _) j c
  obtain ⟨hsegs0, hrest0⟩ := surveyAt_offset j 0 (.past q) c
  rw [hsurvey, Survey.segments_prepend, Survey.rest_prepend, List.filterMap_append, hnone,
    List.append_nil, hsegs, hrest, hsegs0, hrest0]
  exact ⟨rfl, rfl⟩

/-! ## Segments -/

theorem render_surveyPast (q : Quote) (c : Text) :
    render (surveyPast q c).segments ++ (surveyPast q c).rest = q.token ++ c :=
  (render_surveyFrom 0 (.past q) _ _).trans
    (congrArg (q.token ++ ·) (Matcher.text_cut _ c))

theorem not_allBlank_of_quote (a : Text) (q : Quote) (t : Text) :
    allBlank (a ++ (q.token ++ t)) = false := by
  have hq : isBlank q.char = false := by cases q <;> decide
  simp [allBlank, Quote.token, hq]

/-- **The segments around two quotes**, for any text between them. The region lies in
the text of one segment, or in both copies of a line that nothing splits. -/
theorem splitLine_enclose_eq {q : Quote} {a : Text} (c : Text)
    (hclosed : QuoteState.ofText (remainder a) = {})
    (hlast : (remainder a).getLast? ≠ some escape) :
    ∃ held r late,
      (held.length = 1 ∨
        held = [.unterminated, .unterminated] ∧ ended a = [] ∧ late = []) ∧
      r <+: c ∧
      ∀ b, q.Encloses b →
        splitLine (a ++ (q.enclose b ++ c)) =
          ended a ++
            (held.map (fun o => ⟨o, remainder a ++ (q.enclose b ++ r)⟩) ++ late) := by
  cases hpast : (surveyPast q c).segments with
  | cons s l =>
    obtain ⟨-, x, r, -, htext, hc, -, -⟩ := surveyAt_of_segments_cons hpast
    refine ⟨[s.operator], x, l ++ if allBlank (surveyPast q c).rest then []
      else [⟨.unterminated, (surveyPast q c).rest⟩], Or.inl rfl, ⟨_, hc.symm⟩, fun b hb => ?_⟩
    obtain ⟨hsegs, hrest⟩ := survey_enclose (c := c) hclosed hlast hb
    rw [hpast, if_neg (List.cons_ne_nil s l)] at hrest
    rw [hpast, List.modifyHead_cons] at hsegs
    have hheld : s.behind (remainder a ++ (q.token ++ b)) =
        ⟨s.operator, remainder a ++ (q.enclose b ++ x)⟩ := by
      rw [Segment.behind, htext, Quote.enclose]
      simp only [List.append_assoc]
      rfl
    have hne : (survey a).segments ++ s.behind (remainder a ++ (q.token ++ b)) :: l ≠ [] :=
      List.append_ne_nil_of_right_ne_nil _ (List.cons_ne_nil _ _)
    rw [splitLine_eq, hsegs, hrest, if_neg hne, hheld, ended_eq]
    simp
  | nil =>
    have hrender := render_surveyPast q c
    rw [hpast] at hrender
    have hrest0 : (surveyPast q c).rest = q.token ++ c := hrender
    refine ⟨if ended a = [] then [.unterminated, .unterminated] else [.unterminated], c, [], ?_,
      List.prefix_refl c, fun b hb => ?_⟩
    · split
      next h => exact Or.inr ⟨rfl, h, rfl⟩
      next => exact Or.inl rfl
    · obtain ⟨hsegs, hrest⟩ := survey_enclose (c := c) hclosed hlast hb
      rw [hpast, if_pos rfl, hrest0] at hrest
      rw [hpast, List.modifyHead_nil, List.append_nil] at hsegs
      have htext : remainder a ++ (q.token ++ b) ++ (q.token ++ c) =
          remainder a ++ (q.enclose b ++ c) := by
        rw [Quote.enclose]
        simp only [List.append_assoc]
      have hblank : allBlank (remainder a ++ (q.enclose b ++ c)) = false := by
        rw [Quote.enclose, List.append_assoc]
        exact not_allBlank_of_quote (remainder a) q _
      rw [splitLine_eq, hsegs, hrest, htext, hblank, ended_eq]
      split <;> simp

/-- **Only the region itself depends on what stands between its quotes.** -/
theorem splitLine_enclose {q : Quote} {a b b' c : Text}
    (hclosed : QuoteState.ofText (remainder a) = {})
    (hlast : (remainder a).getLast? ≠ some escape) (hb : q.Encloses b) (hb' : q.Encloses b') :
    ∃ held r late,
      (held.length = 1 ∨
        held = [.unterminated, .unterminated] ∧ ended a = [] ∧ late = []) ∧
      r <+: c ∧
      splitLine (a ++ (q.enclose b ++ c)) =
        ended a ++ (held.map (fun o => ⟨o, remainder a ++ (q.enclose b ++ r)⟩) ++ late) ∧
      splitLine (a ++ (q.enclose b' ++ c)) =
        ended a ++ (held.map (fun o => ⟨o, remainder a ++ (q.enclose b' ++ r)⟩) ++ late) := by
  obtain ⟨held, r, late, hheld, hr, hsplit⟩ := splitLine_enclose_eq (q := q) c hclosed hlast
  exact ⟨held, r, late, hheld, hr, hsplit b hb, hsplit b' hb'⟩

/-- A pipe between the quotes, and a redirection with a quote of the other kind. -/
theorem splitLine_enclose_pipe_redirection :
    QuoteState.ofText (remainder ['w', ';', 'x']) = {} ∧
      (remainder ['w', ';', 'x']).getLast? ≠ some escape ∧
      Quote.double.Encloses ['|'] ∧ Quote.double.Encloses ['2', '>', '\'', ' '] ∧
      ∃ held r late,
        (held.length = 1 ∨ held = [.unterminated, .unterminated] ∧
          ended ['w', ';', 'x'] = [] ∧ late = []) ∧
        r <+: ['=', '|', 'y'] ∧
        splitLine (['w', ';', 'x'] ++ (Quote.double.enclose ['|'] ++ ['=', '|', 'y'])) =
          ended ['w', ';', 'x'] ++
            (held.map (fun o =>
              ⟨o, remainder ['w', ';', 'x'] ++ (Quote.double.enclose ['|'] ++ r)⟩) ++ late) ∧
        splitLine
            (['w', ';', 'x'] ++ (Quote.double.enclose ['2', '>', '\'', ' '] ++ ['=', '|', 'y'])) =
          ended ['w', ';', 'x'] ++
            (held.map (fun o => ⟨o, remainder ['w', ';', 'x'] ++
              (Quote.double.enclose ['2', '>', '\'', ' '] ++ r)⟩) ++ late) := by
  have hclosed : QuoteState.ofText (remainder ['w', ';', 'x']) = {} := by decide
  have hlast : (remainder ['w', ';', 'x']).getLast? ≠ some escape := by decide
  have hb : Quote.double.Encloses ['|'] := by decide
  have hb' : Quote.double.Encloses ['2', '>', '\'', ' '] := by decide
  exact ⟨hclosed, hlast, hb, hb', splitLine_enclose hclosed hlast hb hb'⟩

end ConsoleLine
