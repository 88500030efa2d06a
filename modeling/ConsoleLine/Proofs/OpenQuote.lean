import Mathlib.Data.List.Induction
import ConsoleLine.Proofs.Quote

/-!
# Open quotes

Which sequences of quotes leave one open. What counts is which kind opened first: a quote of
the other kind inside it neither opens nor closes anything, so it does not help to count them.

* `IsQuotation`, `AllClosed`, `LeftOpen`: sequences in which each quote that opens is closed by
  the next one of its kind, and those that end before that happens;
* `allClosed_or_leftOpen`: there are no others;
* `foldl_of_allClosed`, `foldl_of_leftOpen`: the states that they lead to;
* `leftOpen_iff`: which flag is set after a sequence of texts, that never both are, and that
  nothing changes once both are.
-/

namespace ConsoleLine

/-- A quote, any number of the other kind, and the same quote again. -/
def IsQuotation (g : List Quote) : Prop := ∃ q inner, q ∉ inner ∧ g = q :: (inner ++ [q])

/-- Quotations one after the other. -/
def AllClosed (qs : List Quote) : Prop :=
  ∃ gs : List (List Quote), (∀ g ∈ gs, IsQuotation g) ∧ qs = gs.flatten

/-- Behind the quotations a `q` opens one more, and no `q` comes to close it. -/
def LeftOpen (q : Quote) (qs : List Quote) : Prop :=
  ∃ (gs : List (List Quote)) (inner : List Quote),
    (∀ g ∈ gs, IsQuotation g) ∧ q ∉ inner ∧ qs = gs.flatten ++ q :: inner

/-! ## One more quote -/

section

variable {q r : Quote} {qs : List Quote}

theorem AllClosed.opens (h : AllClosed qs) (q : Quote) : LeftOpen q (qs ++ [q]) := by
  obtain ⟨gs, hgs, rfl⟩ := h
  exact ⟨gs, [], hgs, List.not_mem_nil, rfl⟩

theorem LeftOpen.closes (h : LeftOpen q qs) : AllClosed (qs ++ [q]) := by
  obtain ⟨gs, inner, hgs, hq, rfl⟩ := h
  refine ⟨gs ++ [q :: (inner ++ [q])], ?_, by simp⟩
  intro g hg
  rcases List.mem_append.mp hg with hg | hg
  · exact hgs g hg
  · exact ⟨q, inner, hq, List.mem_singleton.mp hg⟩

theorem LeftOpen.stays (h : LeftOpen q qs) (hr : r ≠ q) : LeftOpen q (qs ++ [r]) := by
  obtain ⟨gs, inner, hgs, hq, rfl⟩ := h
  refine ⟨gs, inner ++ [r], hgs, ?_, by simp⟩
  simp [hq, hr.symm]

/-- **Every sequence of quotes is closed or leaves one of them open.** -/
theorem allClosed_or_leftOpen (qs : List Quote) : AllClosed qs ∨ ∃ q, LeftOpen q qs := by
  induction qs using List.reverseRecOn with
  | nil => exact .inl ⟨[], by simp⟩
  | append_singleton qs r ih =>
    rcases ih with h | ⟨q, h⟩
    · exact .inr ⟨r, h.opens r⟩
    · by_cases hr : r = q
      · exact .inl (hr ▸ h.closes)
      · exact .inr ⟨q, h.stays hr⟩

end

namespace QuoteState

/-! ## The state after a sequence -/

section

variable {q : Quote} {qs : List Quote}

theorem foldl_opened (h : q ∉ qs) : qs.foldl toggle (opened q) = opened q := by
  induction qs with
  | nil => rfl
  | cons r qs ih =>
    obtain ⟨hr, hqs⟩ := List.ne_and_not_mem_of_not_mem_cons h
    rw [List.foldl_cons, toggle_opened_of_ne hr.symm]
    exact ih hqs

theorem foldl_of_isQuotation (h : IsQuotation qs) : qs.foldl toggle {} = {} := by
  obtain ⟨q, inner, hq, rfl⟩ := h
  show (inner ++ [q]).foldl toggle (opened q) = {}
  rw [List.foldl_append, foldl_opened hq]
  exact toggle_opened q

theorem foldl_of_allClosed (h : AllClosed qs) : qs.foldl toggle {} = {} := by
  obtain ⟨gs, hgs, rfl⟩ := h
  induction gs with
  | nil => rfl
  | cons g gs ih =>
    obtain ⟨hg, hgs⟩ := List.forall_mem_cons.mp hgs
    rw [List.flatten_cons, List.foldl_append, foldl_of_isQuotation hg]
    exact ih hgs

theorem foldl_of_leftOpen (h : LeftOpen q qs) : qs.foldl toggle {} = opened q := by
  obtain ⟨gs, inner, hgs, hq, rfl⟩ := h
  rw [List.foldl_append, foldl_of_allClosed ⟨gs, hgs, rfl⟩]
  exact foldl_opened hq

/-- Nothing or just one quote is open. -/
theorem foldl_eq_empty_or_opened (qs : List Quote) :
    qs.foldl toggle {} = {} ∨ ∃ q, qs.foldl toggle {} = opened q := by
  rcases allClosed_or_leftOpen qs with h | ⟨q, h⟩
  · exact .inl (foldl_of_allClosed h)
  · exact .inr ⟨q, foldl_of_leftOpen h⟩

/-- The flag of `q`. -/
def isOpen (s : QuoteState) : Quote → Bool
  | .double => s.double
  | .single => s.single

theorem isOpen_opened {q r : Quote} : (opened q).isOpen r = true ↔ q = r := by
  cases q <;> cases r <;> decide

/-- **The flag of a quote is set** where the sequence leaves that quote open. -/
theorem isOpen_foldl_iff : (qs.foldl toggle {}).isOpen q = true ↔ LeftOpen q qs := by
  constructor
  · intro h
    rcases allClosed_or_leftOpen qs with hqs | ⟨r, hqs⟩
    · rw [foldl_of_allClosed hqs] at h
      cases q <;> cases h
    · rw [foldl_of_leftOpen hqs, isOpen_opened] at h
      exact h ▸ hqs
  · intro h
    rw [foldl_of_leftOpen h, isOpen_opened]

end

/-! ## Texts -/

theorem foldl_feed (s : QuoteState) (w : List Text) :
    w.foldl feed s = (w.filterMap Quote.ofToken?).foldl toggle s := by
  induction w generalizing s with
  | nil => rfl
  | cons t w ih =>
    rw [List.foldl_cons, ih, feed]
    cases h : Quote.ofToken? t with
    | none => rw [List.filterMap_cons_none h]
    | some q => rw [List.filterMap_cons_some h, List.foldl_cons]

theorem getLast?_trace (s : QuoteState) (w : List Text) :
    (s.trace w).getLast? = some (w.foldl feed s) := by
  induction w generalizing s with
  | nil => rfl
  | cons t w ih => rw [trace, List.getLast?_cons, ih]; rfl

theorem mem_trace_iff {s s' : QuoteState} {w : List Text} :
    s' ∈ s.trace w ↔ ∃ p, p <+: w ∧ p.foldl feed s = s' := by
  induction w generalizing s with
  | nil => simp [trace, eq_comm]
  | cons t w ih =>
    rw [trace, List.mem_cons, ih]
    constructor
    · rintro (rfl | ⟨p, hp, rfl⟩)
      · exact ⟨[], List.nil_prefix, rfl⟩
      · exact ⟨t :: p, List.cons_prefix_cons.mpr ⟨rfl, hp⟩, rfl⟩
    · rintro ⟨p, hp, rfl⟩
      cases p with
      | nil => exact .inl rfl
      | cons d p =>
        obtain ⟨rfl, htail⟩ := List.cons_prefix_cons.mp hp
        exact .inr ⟨p, htail, rfl⟩

theorem feed_both (t : Text) : feed ⟨true, true⟩ t = ⟨true, true⟩ := by
  rw [feed]
  split
  next q _ => cases q <;> rfl
  next => rfl

theorem foldl_feed_both (w : List Text) : w.foldl feed ⟨true, true⟩ = ⟨true, true⟩ := by
  induction w with
  | nil => rfl
  | cons t w ih => rw [List.foldl_cons, feed_both, ih]

theorem not_both_of_mem_trace {s : QuoteState} {w : List Text} (h : s ∈ trace {} w) :
    ¬ (s.single = true ∧ s.double = true) := by
  obtain ⟨p, -, rfl⟩ := mem_trace_iff.mp h
  rw [foldl_feed]
  rcases foldl_eq_empty_or_opened (p.filterMap Quote.ofToken?) with hp | ⟨q, hp⟩
  · rw [hp]; decide
  · rw [hp]; cases q <;> decide

/-- **The language of open quotes.** A flag is set in the end just when the quotes of the sequence
are quotations and an opening quote that is never closed. Both flags are never set on the way, and
if they are set from the start, they stay so. -/
theorem leftOpen_iff (w : List Text) :
    (∃ s, (trace {} w).getLast? = some s ∧
        ∀ q, s.isOpen q = true ↔ LeftOpen q (w.filterMap Quote.ofToken?)) ∧
      (∀ s ∈ trace {} w, ¬ (s.single = true ∧ s.double = true)) ∧
      ∀ s ∈ trace ⟨true, true⟩ w, s = ⟨true, true⟩ := by
  refine ⟨⟨_, getLast?_trace {} w, fun q => ?_⟩, fun s => not_both_of_mem_trace, fun s hs => ?_⟩
  · rw [foldl_feed]
    exact isOpen_foldl_iff
  · obtain ⟨p, -, rfl⟩ := mem_trace_iff.mp hs
    exact foldl_feed_both p

/-- A single quote inside double ones is not open, and one behind them is. -/
theorem leftOpen_iff_nested :
    LeftOpen .single ([['"'], ['x'], ['\''], ['"'], ['\'']].filterMap Quote.ofToken?) ∧
      opened .double ∈ trace {} [['"'], ['x'], ['\''], ['"'], ['\'']] ∧
      ¬ ((opened .double).single = true ∧ (opened .double).double = true) := by
  obtain ⟨⟨s, hlast, hflags⟩, hboth, -⟩ := leftOpen_iff [['"'], ['x'], ['\''], ['"'], ['\'']]
  have hinside : opened .double ∈ trace {} [['"'], ['x'], ['\''], ['"'], ['\'']] := by decide
  have hs : some s = some (opened .single) := hlast.symm.trans (by decide)
  refine ⟨(hflags .single).mp ?_, hinside, hboth _ hinside⟩
  rw [Option.some.inj hs]
  rfl

end QuoteState

end ConsoleLine
