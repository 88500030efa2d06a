import Mathlib.Data.Finset.Lattice.Fold
import Mathlib.Order.Lattice.Nat
import ConsoleLine.Proofs.Shape

/-!
# The set of splits

Which matches split a line, said for all of them at once and by offsets into the
whole line. Whether a match splits depends on the splits before it, so the rule
is a condition on a set of matches that mentions the set itself.

* `SplitSet`: the condition;
* `Agrees`: what a survey carries along is what the set says of the text so far;
* `Agrees.splits_iff`, `Agrees.step`: one match, judged and passed;
* `existsUnique_splitSet`: exactly one set meets the condition, and its matches
  give the segments of the line.
-/

namespace ConsoleLine

/-! ## The rule -/

/-- Where the segment begins that goes on at offset `i` when the matches of `S`
split the line. -/
def segmentStart (S : Finset (Match Symbol)) (i : Nat) : Nat :=
  (S.filter fun m => m.stop ≤ i).sup Match.stop

/-- The character at `j` comes after a backslash in the same segment. -/
def Escaped (input : Text) (S : Finset (Match Symbol)) (j : Nat) : Prop :=
  segmentStart S j < j ∧ input[j - 1]? = some escape

instance (input : Text) (S : Finset (Match Symbol)) (j : Nat) : Decidable (Escaped input S j) :=
  inferInstanceAs (Decidable (_ ∧ _))

def quoteAt? (input : Text) (j : Nat) : Option Quote := input[j]?.bind fun c => Quote.ofToken? [c]

/-- The quotes open at offset `i`, by every quote of the line before it that is not
escaped. -/
def quotesAt (input : Text) (S : Finset (Match Symbol)) (i : Nat) : QuoteState :=
  ((List.range i).filterMap fun j =>
    if Escaped input S j then none else quoteAt? input j).foldl QuoteState.toggle {}

/-- What an operator from `start` to `stop` asks of the line in a segment that
begins at `st`. -/
def Operator.Clear (o : Operator) (input : Text) (st start stop : Nat) : Prop :=
  match o with
  | .overwriteOut | .overwriteIn =>
    st < start ∧ input[start - 1]? ≠ some escape ∧ input[start - 1]? ≠ some equals ∧
      (stop = input.length ∨ input[stop]? ≠ some equals)
  | .pipe | .ampersand => st < start ∧ input[start - 1]? ≠ some escape
  | _ => True

/-- The match is no quote, stands outside quotes and is clear of what is around it. -/
def SplitsAt (input : Text) (S : Finset (Match Symbol)) (m : Match Symbol) : Prop :=
  ∃ o, m.symbol = .operator o ∧ (quotesAt input S m.start).active = false ∧
    o.Clear input (segmentStart S m.start) m.start m.stop

/-- The matches of `S` are those matches of the line that split it when `S` does. -/
def SplitSet (input : Text) (S : Finset (Match Symbol)) : Prop :=
  (∀ m ∈ S, m ∈ Matcher.control.findAll input) ∧
    ∀ m ∈ Matcher.control.findAll input, m ∈ S ↔ SplitsAt input S m

/-! ## Segments by offsets -/

theorem segmentStart_le (S : Finset (Match Symbol)) (i : Nat) : segmentStart S i ≤ i :=
  Finset.sup_le fun _ hm => (Finset.mem_filter.mp hm).2

theorem segmentStart_stop {S : Finset (Match Symbol)} {m : Match Symbol} (h : m ∈ S) :
    segmentStart S m.stop = m.stop :=
  Nat.le_antisymm (segmentStart_le S _)
    (Finset.le_sup (f := Match.stop) (Finset.mem_filter.mpr ⟨h, Nat.le_refl _⟩))

/-- Where no split ends, the segment goes on. -/
theorem segmentStart_eq {S : Finset (Match Symbol)} {i j : Nat} (hij : i ≤ j)
    (h : ∀ m ∈ S, m.stop ≤ j → m.stop ≤ i) : segmentStart S j = segmentStart S i := by
  have hfilter : (S.filter fun m => m.stop ≤ j) = S.filter fun m => m.stop ≤ i :=
    Finset.filter_congr fun m hm => ⟨h m hm, fun hi => Nat.le_trans hi hij⟩
  rw [segmentStart, hfilter, segmentStart]

theorem quotesAt_succ (input : Text) (S : Finset (Match Symbol)) (i : Nat) :
    quotesAt input S (i + 1) =
      if Escaped input S i then quotesAt input S i
      else (quoteAt? input i).elim (quotesAt input S i) (quotesAt input S i).toggle := by
  rw [quotesAt, List.range_succ, List.filterMap_append, List.foldl_append, ← quotesAt]
  by_cases h : Escaped input S i
  · simp [h]
  · cases hq : quoteAt? input i <;> simp [h, hq]

theorem quotesAt_plain {input a g b : Text} (S : Finset (Match Symbol))
    (hinput : input = a ++ (g ++ b)) (hg : Plain g) :
    quotesAt input S (a.length + g.length) = quotesAt input S a.length := by
  induction g generalizing a with
  | nil => rfl
  | cons c g ih =>
    have hnext := ih (a := a ++ [c]) (by simpa using hinput)
      fun d hd => hg d (List.mem_cons_of_mem c hd)
    have hc : quoteAt? input a.length = none := by
      rw [quoteAt?, hinput, List.getElem?_append_right (Nat.le_refl _), Nat.sub_self]
      exact hg c List.mem_cons_self
    have hstep := quotesAt_succ input S a.length
    rw [hc, Option.elim_none, ite_self] at hstep
    rw [List.length_append, List.length_singleton, hstep] at hnext
    rw [← hnext, List.length_cons]
    congr 1
    omega

/-! ## One match -/

/-- The state is what `S` says of the line up to offset `i`. -/
structure Agrees (input : Text) (S : Finset (Match Symbol)) (i : Nat) (u : Unsplit) : Prop where
  text : u.text = (input.take i).drop (segmentStart S i)
  quotes : u.quotes = quotesAt input S i

namespace Agrees

variable {input : Text} {S : Finset (Match Symbol)} {i : Nat} {u : Unsplit}

theorem last?_eq (h : Agrees input S i u) (hi : i ≤ input.length) :
    u.last? = if segmentStart S i < i then input[i - 1]? else none := by
  rw [Unsplit.last?_eq, h.text, List.getLast?_drop, List.length_take, Nat.min_eq_left hi]
  by_cases hst : segmentStart S i < i
  · rw [if_neg (Nat.not_le.mpr hst), if_pos hst, List.getLast?_take, if_neg (by omega)]
    rw [List.getElem?_eq_getElem (by omega), Option.some_or]
  · rw [if_pos (Nat.not_lt.mp hst), if_neg hst]

theorem escaped_iff (h : Agrees input S i u) (hi : i ≤ input.length) :
    Escaped input S i ↔ u.last? = some escape := by
  rw [h.last?_eq hi, Escaped]
  by_cases hst : segmentStart S i < i <;> simp [hst]

theorem admits_iff (h : Agrees input S i u) (o : Operator) {stop : Nat} (hi : i ≤ input.length)
    (hstop : stop ≤ input.length) :
    o.admits u.last? input[stop]? = true ↔ o.Clear input (segmentStart S i) i stop := by
  have hnext : input[stop]? ≠ some equals ↔
      stop = input.length ∨ input[stop]? ≠ some equals := by
    constructor
    · exact Or.inr
    · rintro (rfl | hne)
      · simp
      · exact hne
  rw [h.last?_eq hi]
  by_cases hst : segmentStart S i < i
  · have hlast : input[i - 1]? = some input[i - 1] := List.getElem?_eq_getElem (by omega)
    cases o <;> simp [Operator.admits, Operator.Clear, hst, hlast, ← hnext, and_assoc]
  · cases o <;> simp [Operator.admits, Operator.Clear, hst]

/-- **One match is judged as the set says.** -/
theorem splits_iff (h : Agrees input S i u) {sym : Symbol}
    (hstop : i + sym.token.length ≤ input.length) (j : Nat) :
    (Finding.segment? ⟨j, u.judge input[i + sym.token.length]? sym⟩).isSome ↔
      SplitsAt input S ⟨sym, i⟩ := by
  cases sym with
  | quote q =>
    have hno : ¬ SplitsAt input S ⟨.quote q, i⟩ := by
      rintro ⟨o, ho, -⟩
      cases ho
    simp [hno, segment?_judge_quote]
  | operator o =>
    have hclear := h.admits_iff o (by omega) hstop
    have hsplits : SplitsAt input S ⟨.operator o, i⟩ ↔
        u.quotes.active = false ∧ o.admits u.last? input[i + o.token.length]? = true := by
      constructor
      · rintro ⟨o', ho, hq, hc⟩
        cases ho
        exact ⟨h.quotes ▸ hq, hclear.mpr hc⟩
      · rintro ⟨hq, hc⟩
        exact ⟨o, rfl, h.quotes ▸ hq, hclear.mp hc⟩
    rw [hsplits, Symbol.token, Unsplit.judge]
    cases u.quotes.active with
    | true => simp [Finding.segment?]
    | false =>
      cases o.admits u.last? input[i + o.token.length]? <;> simp [Finding.segment?]

/-- Text without quotes in which no split ends. -/
theorem push {a g b : Text} (h : Agrees input S a.length u) (hinput : input = a ++ (g ++ b))
    (hg : Plain g) (hfree : ∀ m ∈ S, m.stop ≤ a.length + g.length → m.stop ≤ a.length) :
    Agrees input S (a.length + g.length) (u.push g) := by
  have hst := segmentStart_eq (Nat.le_add_right _ _) hfree
  constructor
  · have htake : input.take (a.length + g.length) = a ++ g := by
      rw [hinput, ← List.append_assoc, ← List.length_append, List.take_left]
    rw [Unsplit.text_push, h.text, hst, htake, List.drop_append_of_le_length (segmentStart_le S _),
      hinput, List.take_left]
  · exact h.quotes.trans (quotesAt_plain S hinput hg).symm

theorem quote {a b : Text} {q : Quote} (h : Agrees input S a.length u)
    (hinput : input = a ++ (q.token ++ b))
    (hfree : ∀ m ∈ S, m.stop ≤ a.length + 1 → m.stop ≤ a.length) (next : Option Char) :
    Agrees input S (a.length + 1) (u.after (u.judge next (.quote q))) := by
  have hst := segmentStart_eq (Nat.le_add_right _ 1) hfree
  have hlen : a.length ≤ input.length := by rw [hinput, List.length_append]; omega
  have htext : (u.push q.token).text =
      (input.take (a.length + 1)).drop (segmentStart S a.length) := by
    have htake : input.take (a.length + 1) = a ++ q.token := by
      have hone : a.length + 1 = (a ++ q.token).length := by rw [List.length_append]; rfl
      rw [hinput, hone, ← List.append_assoc, List.take_left]
    rw [Unsplit.text_push, h.text, htake, List.drop_append_of_le_length (segmentStart_le S _),
      hinput, List.take_left]
  have hquote : quoteAt? input a.length = some q := by
    rw [quoteAt?, hinput, List.getElem?_append_right (Nat.le_refl _), Nat.sub_self]
    exact q.ofToken_token
  have hquotes := quotesAt_succ input S a.length
  rw [hquote, Option.elim_some, ← h.quotes] at hquotes
  rw [Unsplit.judge]
  by_cases hesc : u.last? = some escape
  · rw [if_pos ((h.escaped_iff hlen).mpr hesc)] at hquotes
    rw [if_pos hesc]
    exact ⟨hst ▸ htext, hquotes.symm⟩
  · rw [if_neg (mt (h.escaped_iff hlen).mp hesc)] at hquotes
    rw [if_neg hesc]
    exact ⟨hst ▸ htext, hquotes.symm⟩

theorem split {a b : Text} {o : Operator} (h : Agrees input S a.length u)
    (hinput : input = a ++ (o.token ++ b)) (hq : u.quotes.active = false)
    (hm : ⟨.operator o, a.length⟩ ∈ S) : Agrees input S (a.length + o.token.length) {} := by
  have hst : segmentStart S (a.length + o.token.length) = a.length + o.token.length :=
    segmentStart_stop hm
  constructor
  · rw [hst, List.drop_eq_nil_of_le (List.length_take_le _ _)]
    rfl
  · rw [quotesAt_plain S hinput (Matcher.plain_token o), ← h.quotes]
    exact (QuoteState.eq_empty_of_not_active hq).symm

/-- **One match is passed as the set says**, provided the set holds it just when it
is judged to split. -/
theorem step {a b : Text} {sym : Symbol} (h : Agrees input S a.length u)
    (hinput : input = a ++ (sym.token ++ b))
    (hfree : ∀ m ∈ S, m.stop ≤ a.length + sym.token.length →
      m.stop ≤ a.length ∨ m = ⟨sym, a.length⟩)
    {next : Option Char} {j : Nat}
    (hm : ⟨sym, a.length⟩ ∈ S ↔ (Finding.segment? ⟨j, u.judge next sym⟩).isSome) :
    Agrees input S (a.length + sym.token.length) (u.after (u.judge next sym)) := by
  have hkept : (Finding.segment? ⟨j, u.judge next sym⟩).isSome = false →
      ∀ m ∈ S, m.stop ≤ a.length + sym.token.length → m.stop ≤ a.length := by
    intro hnone m hmS hstop
    rcases hfree m hmS hstop with hle | rfl
    · exact hle
    · rw [hm, hnone] at hmS
      exact absurd hmS Bool.false_ne_true
  cases sym with
  | quote q =>
    apply h.quote hinput
    apply hkept
    rw [segment?_judge_quote]
    rfl
  | operator o =>
    rw [Unsplit.judge] at hm hkept ⊢
    cases hq : u.quotes.active with
    | true =>
      rw [hq] at hkept
      exact h.push hinput (Matcher.plain_token o) (hkept rfl)
    | false =>
      rw [hq] at hm hkept
      cases ho : o.admits u.last? next with
      | true =>
        rw [ho] at hm
        exact h.split hinput hq (hm.mpr rfl)
      | false =>
        rw [ho] at hkept
        exact h.push hinput (Matcher.plain_token o) (hkept rfl)

end Agrees

/-! ## One piece after the other -/

/-- A survey that has read `a` and has the pieces before `tail` ahead of it, with every
match of `S` on one side. -/
structure Reads (input : Text) (S : Finset (Match Symbol)) (a tail : Text)
    (ps : List (Piece Symbol)) (u : Unsplit) : Prop where
  input_eq : input = a ++ Cut.text ⟨ps, tail⟩
  greedy : Matcher.control.Greedy tail ps
  sided : ∀ m ∈ S, m.stop ≤ a.length ∨ m ∈ locate a.length ps
  start_lt : ∀ m ∈ S, m.start < m.stop
  agrees : Agrees input S a.length u

namespace Reads

variable {input a tail : Text} {S : Finset (Match Symbol)} {p : Piece Symbol}
  {ps : List (Piece Symbol)} {u : Unsplit}

theorem push_gap (h : Reads input S a tail (p :: ps) u) :
    Agrees input S (a ++ p.gap).length (u.push p.gap) := by
  rw [List.length_append]
  apply h.agrees.push (h.input_eq.trans (congrArg (a ++ ·) (Cut.text_cons p ps tail)))
  · exact Matcher.plain_of_passes h.greedy.1
  · intro m hm hstop
    rcases h.sided m hm with hle | hmem
    · exact hle
    · have hlt := h.start_lt m hm
      rcases List.mem_cons.mp hmem with rfl | hmem
      · simp only at hlt; omega
      · have hstart := le_start_of_mem_locate hmem
        simp only [Match.stop] at hstart; omega

theorem splits_iff (h : Reads input S a tail (p :: ps) u) (j : Nat) :
    (Finding.segment? ⟨j, (u.push p.gap).judge (Cut.head? ⟨ps, tail⟩) p.symbol⟩).isSome ↔
      SplitsAt input S ⟨p.symbol, a.length + p.gap.length⟩ := by
  have hinput : input = (a ++ p.gap ++ p.symbol.token) ++ Cut.text ⟨ps, tail⟩ := by
    rw [h.input_eq, Cut.text_cons]; simp
  have hgap : (a ++ p.gap).length = a.length + p.gap.length := List.length_append
  have hstop : (a ++ p.gap).length + p.symbol.token.length =
      (a ++ p.gap ++ p.symbol.token).length := (List.length_append).symm
  have hhead : Cut.head? ⟨ps, tail⟩ = input[(a ++ p.gap).length + p.symbol.token.length]? := by
    rw [Cut.head?_eq tail (Matcher.token_ne_nil_of_greedy h.greedy.2.2), hstop, hinput,
      List.getElem?_append_right (Nat.le_refl _), Nat.sub_self, List.head?_eq_getElem?]
  rw [hhead, ← hgap]
  apply h.push_gap.splits_iff
  have hlen := congrArg List.length hinput
  rw [List.length_append, ← hstop] at hlen
  omega

theorem next (h : Reads input S a tail (p :: ps) u) {j : Nat}
    (hm : ⟨p.symbol, a.length + p.gap.length⟩ ∈ S ↔
      (Finding.segment? ⟨j, (u.push p.gap).judge (Cut.head? ⟨ps, tail⟩) p.symbol⟩).isSome) :
    Reads input S (a ++ p.gap ++ p.symbol.token) tail ps
      ((u.push p.gap).after ((u.push p.gap).judge (Cut.head? ⟨ps, tail⟩) p.symbol)) := by
  have hinput : input = (a ++ p.gap) ++ (p.symbol.token ++ Cut.text ⟨ps, tail⟩) := by
    rw [h.input_eq, Cut.text_cons]; simp
  have hgap : (a ++ p.gap).length = a.length + p.gap.length := List.length_append
  have hstop : (a ++ p.gap ++ p.symbol.token).length =
      (a ++ p.gap).length + p.symbol.token.length := List.length_append
  have hside : ∀ m ∈ S, m.stop ≤ a.length ∨ m = ⟨p.symbol, (a ++ p.gap).length⟩ ∨
      m ∈ locate (a ++ p.gap ++ p.symbol.token).length ps := by
    intro m hmS
    rw [hstop, hgap]
    exact (h.sided m hmS).imp_right List.mem_cons.mp
  rw [← hgap] at hm
  refine ⟨by rw [hinput, List.append_assoc (a ++ p.gap)], h.greedy.2.2, ?_, h.start_lt, ?_⟩
  · intro m hmS
    rcases hside m hmS with hle | rfl | hmem
    · left; omega
    · left; rw [hstop]; exact Nat.le_refl _
    · exact Or.inr hmem
  · rw [hstop]
    refine h.push_gap.step hinput ?_ hm
    intro m hmS hle
    rcases hside m hmS with hle | rfl | hmem
    · left; omega
    · exact Or.inr rfl
    · have hlt := h.start_lt m hmS
      have hstart := le_start_of_mem_locate hmem
      omega

end Reads

/-- The set holds just the matches that the findings let split. -/
def Holds (S : Finset (Match Symbol)) (fs : List Finding) : Prop :=
  ∀ f ∈ fs, f.place ∈ S ↔ f.segment?.isSome

/-- **The rule for a set is the course of the survey.** -/
theorem Reads.rule_iff {input a tail : Text} {S : Finset (Match Symbol)} {ps : List (Piece Symbol)}
    {u : Unsplit} (h : Reads input S a tail ps u) :
    (∀ m ∈ locate a.length ps, m ∈ S ↔ SplitsAt input S m) ↔
      Holds S (surveyFrom a.length u tail ps).findings := by
  induction ps generalizing a u with
  | nil => simp [locate, Holds, surveyFrom]
  | cons p ps ih =>
    have hsplits := h.splits_iff (a.length + p.gap.length)
    have hnext := fun hm => ih (h.next (j := a.length + p.gap.length) hm)
    simp only [List.length_append] at hnext
    rw [locate, Holds, surveyFrom, List.forall_mem_cons, List.forall_mem_cons, place_judge,
      ← hsplits]
    exact and_congr_right hnext

/-- **The segments are those of the set.** -/
theorem Reads.segments {input a tail : Text} {S : Finset (Match Symbol)} {ps : List (Piece Symbol)}
    {u : Unsplit} (h : Reads input S a tail ps u)
    (hS : Holds S (surveyFrom a.length u tail ps).findings) :
    List.Forall₂
      (fun s m => m.symbol = .operator s.operator ∧
        s.text = (input.take m.start).drop (segmentStart S m.start))
      (surveyFrom a.length u tail ps).segments ((locate a.length ps).filter (· ∈ S)) := by
  induction ps generalizing a u with
  | nil => exact List.Forall₂.nil
  | cons p ps ih =>
    rw [Holds, surveyFrom, List.forall_mem_cons, place_judge] at hS
    obtain ⟨hm, hrest⟩ := hS
    have hnext := ih (h.next hm)
    simp only [List.length_append] at hnext
    have hsegments := hnext hrest
    rw [surveyFrom, Survey.segments_cons, locate]
    cases hf : Finding.segment? ⟨a.length + p.gap.length,
        (u.push p.gap).judge (Cut.head? ⟨ps, tail⟩) p.symbol⟩ with
    | none =>
      rw [hf] at hm
      have hout : ¬ (⟨p.symbol, a.length + p.gap.length⟩ : Match Symbol) ∈ S := by
        rw [hm]; exact Bool.false_ne_true
      rw [List.filter_cons_of_neg (by simpa using hout)]
      exact hsegments
    | some s =>
      rw [hf] at hm
      have hin : (⟨p.symbol, a.length + p.gap.length⟩ : Match Symbol) ∈ S := hm.mpr rfl
      obtain ⟨hsym, htext⟩ := segment?_judge hf
      rw [List.filter_cons_of_pos (by simpa using hin)]
      refine List.Forall₂.cons ⟨hsym, ?_⟩ hsegments
      rw [htext, h.push_gap.text, List.length_append]

/-! ## The only set -/

theorem reads_input {input : Text} {S : Finset (Match Symbol)}
    (hS : ∀ m ∈ S, m ∈ Matcher.control.findAll input) :
    Reads input S [] (Matcher.control.cut input).tail (Matcher.control.cut input).pieces {} :=
  ⟨(Matcher.text_cut _ input).symm, Matcher.control.greedy_cut input,
    fun m hm => Or.inr (hS m hm), fun m hm => start_lt_stop (hS m hm), ⟨List.drop_nil.symm, rfl⟩⟩

theorem splitSet_iff {input : Text} {S : Finset (Match Symbol)} :
    SplitSet input S ↔
      (∀ m ∈ S, m ∈ Matcher.control.findAll input) ∧ Holds S (survey input).findings :=
  and_congr_right fun hS => (reads_input hS).rule_iff

/-- The matches at which a survey splits. -/
def splitMatches (input : Text) : Finset (Match Symbol) :=
  (((survey input).findings.filter fun f => f.segment?.isSome).map Finding.place).toFinset

theorem splitSet_splitMatches (input : Text) : SplitSet input (splitMatches input) := by
  have hnodup : ((survey input).findings.map Finding.place).Nodup := by
    rw [map_place_survey]
    exact nodup_findAll _ input
  refine splitSet_iff.mpr ⟨?_, ?_⟩
  · intro m hm
    obtain ⟨f, hf, rfl⟩ := List.mem_map.mp (List.mem_toFinset.mp hm)
    exact place_mem_findAll (List.mem_filter.mp hf).1
  · intro f hf
    constructor
    · intro hm
      obtain ⟨g, hg, hplace⟩ := List.mem_map.mp (List.mem_toFinset.mp hm)
      obtain ⟨hgmem, hsome⟩ := List.mem_filter.mp hg
      rwa [List.inj_on_of_nodup_map hnodup hgmem hf hplace] at hsome
    · intro hsome
      exact List.mem_toFinset.mpr (List.mem_map_of_mem (List.mem_filter.mpr ⟨hf, hsome⟩))

theorem SplitSet.subset {input : Text} {S T : Finset (Match Symbol)} (hS : SplitSet input S)
    (hT : SplitSet input T) : S ⊆ T := by
  intro m hm
  obtain ⟨hfound, hholds⟩ := splitSet_iff.mp hS
  have hplace := hfound m hm
  rw [← map_place_survey] at hplace
  obtain ⟨f, hf, rfl⟩ := List.mem_map.mp hplace
  exact ((splitSet_iff.mp hT).2 f hf).mpr ((hholds f hf).mp hm)

/-- **The rule has one solution**, and the segments that an operator ends are, in order,
one for each of its matches: the text from the split before up to the match. -/
theorem existsUnique_splitSet (input : Text) :
    (∃! S, SplitSet input S) ∧
      ∀ S, SplitSet input S →
        List.Forall₂
          (fun s m => m.symbol = .operator s.operator ∧
            s.text = (input.take m.start).drop (segmentStart S m.start))
          (ended input) ((Matcher.control.findAll input).filter (· ∈ S)) := by
  refine ⟨⟨splitMatches input, splitSet_splitMatches input, fun T hT => ?_⟩, fun S hS => ?_⟩
  · exact Finset.Subset.antisymm (hT.subset (splitSet_splitMatches input))
      ((splitSet_splitMatches input).subset hT)
  · obtain ⟨hfound, hholds⟩ := splitSet_iff.mp hS
    rw [ended_eq]
    exact (reads_input hfound).segments hholds

end ConsoleLine
