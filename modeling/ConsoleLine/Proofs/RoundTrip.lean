import ConsoleLine.Proofs.Scan
import ConsoleLine.Proofs.Shape

/-!
# Rendering and splitting

Segments that are written out one after the other are found again by splitting,
as long as no text splits by itself or leaves a quote open, and no text ends or
begins with a character that would join the operator beside it.

* `Whole`: a text that no operator splits (`whole_iff`);
* `ended_append_operator`: splitting around one operator;
* `splitLine_render`: the round trip, for any number of segments.
-/

namespace ConsoleLine

/-- No operator splits the text. -/
def Whole (t : Text) : Prop := ∀ s ∈ splitLine t, s.operator = .unterminated

instance (t : Text) : Decidable (Whole t) :=
  inferInstanceAs (Decidable (∀ s ∈ splitLine t, s.operator = .unterminated))

theorem whole_iff {t : Text} : Whole t ↔ ended t = [] := by
  simp [Whole, ended, List.filter_eq_nil_iff]

theorem Operator.admits_of {o : Operator} {before next : Option Char}
    (hb : ∃ c, before = some c ∧ c ≠ escape ∧ c ≠ equals) (hn : next ≠ some equals) :
    o.admits before next = true := by
  obtain ⟨c, rfl, he, hq⟩ := hb
  cases o <;> simp [admits, he, hq, hn]

theorem ended_append_operator {a t : Text} {o : Operator}
    (hapart : Matcher.control.Apart a (o.token ++ t))
    (hfirst : Matcher.control.first? (o.token ++ t) = some (.operator o))
    (hclosed : QuoteState.ofText (remainder a) = {})
    (hadmits : o.admits (remainder a).getLast? t.head? = true) :
    ended (a ++ (o.token ++ t)) = ended a ++ ⟨o, remainder a⟩ :: ended t ∧
      remainder (a ++ (o.token ++ t)) = remainder t := by
  rw [remainder_eq] at hclosed hadmits
  have hsurvey := survey_append_operator hapart hfirst hclosed hadmits
  rw [ended_eq, ended_eq, ended_eq, remainder_eq, remainder_eq, remainder_eq, hsurvey]
  refine ⟨?_, rfl⟩
  rw [Survey.segments, List.filterMap_append]
  exact congrArg (fun l => (survey a).segments ++ ⟨o, (survey a).rest⟩ :: l)
    (filterMap_segment?_shift _ _)

/-! ## One segment -/

/-- The text of the segment stays in one piece, closes its quotes and ends in
nothing that the operator after it could be joined to. -/
structure Segment.Separable (s : Segment) : Prop where
  operator_ne : s.operator ≠ .unterminated
  whole : Whole s.text
  closed : QuoteState.ofText s.text = {}
  last : ∃ c, s.text.getLast? = some c ∧ c ∉ ['2', '>', '|', '&', escape, equals]

instance (s : Segment) : Decidable s.Separable :=
  decidable_of_iff
    (s.operator ≠ .unterminated ∧ Whole s.text ∧ QuoteState.ofText s.text = {} ∧
      s.text.getLast?.any fun c => c ∉ ['2', '>', '|', '&', escape, equals]) <| by
    rw [Option.any_eq_true]
    simp only [decide_eq_true_eq]
    exact ⟨fun ⟨ho, hw, hc, hl⟩ => ⟨ho, hw, hc, hl⟩, fun ⟨ho, hw, hc, hl⟩ => ⟨ho, hw, hc, hl⟩⟩

/-- The text begins with nothing that could join the operator before it. -/
def Detached (t : Text) : Prop := ∀ c, t.head? = some c → c ∉ ['>', '&', '|', equals]

instance (t : Text) : Decidable (Detached t) :=
  decidable_of_iff (t.head?.all fun c => c ∉ ['>', '&', '|', equals]) <| by
    rw [Option.all_eq_true]
    simp only [decide_eq_true_eq, Detached]

theorem Segment.Separable.apart {s : Segment} (h : s.Separable) (t : Text) :
    Matcher.control.Apart s.text t := by
  obtain ⟨c, hc, hmem⟩ := h.last
  apply Matcher.apart_control
  intro d hd hjoins
  obtain rfl : c = d := Option.some.inj (hc.symm.trans hd)
  have hsub : ['2', '>', '&', '|'] ⊆ ['2', '>', '|', '&', escape, equals] := by decide
  exact hmem (hsub hjoins)

theorem Segment.Separable.admits {s : Segment} (h : s.Separable) {t : Text} (ht : Detached t) :
    s.operator.admits s.text.getLast? t.head? = true := by
  obtain ⟨c, hc, hmem⟩ := h.last
  apply Operator.admits_of
  · refine ⟨c, hc, ?_, ?_⟩
    · rintro rfl; exact hmem (by decide)
    · rintro rfl; exact hmem (by decide)
  · intro heq
    exact ht equals heq (by decide)

theorem Detached.first? {t : Text} (ht : Detached t) {o : Operator} (ho : o ≠ .unterminated) :
    Matcher.control.first? (o.token ++ t) = some (.operator o) := by
  have hsub : ['>', '&', '|'] ⊆ ['>', '&', '|', equals] := by decide
  exact Matcher.first?_control (Matcher.operator_mem_control ho) fun c hc hmem =>
    ht c hc (hsub hmem)

/-- The segment is split off, and what follows it is split on its own. -/
theorem Segment.Separable.ended_append {s : Segment} (h : s.Separable) {t : Text}
    (ht : Detached t) :
    ended (s.text ++ (s.operator.token ++ t)) = s :: ended t ∧
      remainder (s.text ++ (s.operator.token ++ t)) = remainder t := by
  have hended := whole_iff.mp h.whole
  have hremainder := remainder_of_ended_nil hended
  have hsplit := ended_append_operator (h.apart _) (ht.first? h.operator_ne)
    (hremainder.symm ▸ h.closed) (hremainder.symm ▸ h.admits ht)
  rwa [hended, hremainder, List.nil_append] at hsplit

theorem Segment.Separable.text_ne_nil {s : Segment} (h : s.Separable) : s.text ≠ [] := by
  obtain ⟨c, hc, -⟩ := h.last
  intro hnil
  rw [hnil] at hc
  cases hc

/-! ## Any number of segments -/

theorem detached_render {l : List Segment} {r : Text} (hsep : ∀ s ∈ l, s.Separable)
    (hdet : ∀ s ∈ l, Detached s.text) (hr : Detached r) : Detached (render l ++ r) := by
  cases l with
  | nil => exact hr
  | cons s l =>
    obtain ⟨d, t, ht⟩ := List.exists_cons_of_ne_nil (hsep s List.mem_cons_self).text_ne_nil
    have hd := hdet s List.mem_cons_self
    rw [ht] at hd
    rw [render_cons, ht]
    exact hd

theorem ended_render {l : List Segment} {r : Text} (hsep : ∀ s ∈ l, s.Separable)
    (hdet : ∀ s ∈ l.tail, Detached s.text) (hr : Detached r) (hwhole : Whole r) :
    ended (render l ++ r) = l ∧ remainder (render l ++ r) = r := by
  induction l with
  | nil => exact ⟨whole_iff.mp hwhole, remainder_of_ended_nil (whole_iff.mp hwhole)⟩
  | cons s l ih =>
    have hsep' : ∀ s ∈ l, s.Separable := fun s' hs => hsep s' (List.mem_cons_of_mem s hs)
    obtain ⟨hl, hrest⟩ := ih hsep' fun s' hs => hdet s' (List.mem_of_mem_tail hs)
    have hs := (hsep s List.mem_cons_self).ended_append (detached_render hsep' hdet hr)
    rw [hl, hrest] at hs
    rwa [render_cons, List.append_assoc, List.append_assoc]

/-- **Splitting undoes rendering.** -/
theorem splitLine_render {l : List Segment} {r : Text} (hl : l ≠ [])
    (hsep : ∀ s ∈ l, s.Separable) (hdet : ∀ s ∈ l.tail, Detached s.text) (hr : Detached r)
    (hwhole : Whole r) :
    splitLine (render l ++ r) = l ++ if allBlank r then [] else [⟨.unterminated, r⟩] := by
  obtain ⟨hended, hremainder⟩ := ended_render hsep hdet hr hwhole
  rw [splitLine_of_ended_ne_nil (hended.symm ▸ hl), hended, hremainder]

/-- A quoted operator and an escaped one stay in their texts. -/
theorem splitLine_render_quoted :
    (∀ s ∈ [(⟨.overwriteErr, ['a', '\'', '|', '\'', ' ']⟩ : Segment),
        ⟨.pipe, ['b', '\\', '>', ' ']⟩], s.Separable) ∧
      splitLine (render [⟨.overwriteErr, ['a', '\'', '|', '\'', ' ']⟩,
          ⟨.pipe, ['b', '\\', '>', ' ']⟩] ++ ['c']) =
        [⟨.overwriteErr, ['a', '\'', '|', '\'', ' ']⟩, ⟨.pipe, ['b', '\\', '>', ' ']⟩,
          ⟨.unterminated, ['c']⟩] := by
  have hsep : ∀ s ∈ [(⟨.overwriteErr, ['a', '\'', '|', '\'', ' ']⟩ : Segment),
      ⟨.pipe, ['b', '\\', '>', ' ']⟩], s.Separable := by decide
  refine ⟨hsep, splitLine_render (List.cons_ne_nil _ _) hsep ?_ ?_ ?_⟩
  · decide
  · decide
  · decide

end ConsoleLine
