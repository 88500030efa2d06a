import ConsoleLine.Proofs.SplitSet
import ConsoleLine.Proofs.TypingOn

/-!
# Comparisons and arrows

Plain `>` and `<` leave `>=`, `<=` and `=>` in one piece. This is asked of these two alone: a
longer operator that has one of the two signs at an end splits beside a `=` as well.

* `FreeOfEquals`: no `=` touches a sign at an end of the operator;
* `splitsAt_of_mem`: where a segment ends, its operator meets the rule for splits;
* `freeOfEquals_of_plain`: no segment ends at a sign of a comparison or an arrow, unless its
  operator is one of the longer ones;
* `equals_beside_longer`: each of these does split there.
-/

namespace ConsoleLine

/-- At offset `i` no `=` comes after an operator that ends in `<` or `>`, nor before one that
begins with them. -/
def FreeOfEquals (t : Text) (i : Nat) (o : Operator) : Prop :=
  (o.token.getLast? = some '<' ∨ o.token.getLast? = some '>' →
      t[i + o.token.length]? ≠ some equals) ∧
    (o.token.head? = some '<' ∨ o.token.head? = some '>' → 0 < i → t[i - 1]? ≠ some equals)

instance (t : Text) (i : Nat) (o : Operator) : Decidable (FreeOfEquals t i o) :=
  inferInstanceAs (Decidable (_ ∧ _))

/-- The operators of more than one character that have such a sign at an end. -/
def Operator.longer : List Operator := [appendOut, overwriteErr, appendErr]

variable {t : Text} {o : Operator} {i : Nat}

/-! ## One operator -/

/-- Plain `>` and `<` are clear of `=` on both sides. -/
theorem Operator.Clear.ne_equals {st stop : Nat} (ho : o = .overwriteOut ∨ o = .overwriteIn)
    (h : o.Clear t st i stop) : t[i - 1]? ≠ some equals ∧ t[stop]? ≠ some equals := by
  have hguard : st < i ∧ t[i - 1]? ≠ some escape ∧ t[i - 1]? ≠ some equals ∧
      (stop = t.length ∨ t[stop]? ≠ some equals) := by
    rcases ho with rfl | rfl
    · exact h
    · exact h
  obtain ⟨-, -, hbefore, hstop⟩ := hguard
  refine ⟨hbefore, ?_⟩
  rcases hstop with rfl | hnext
  · simp
  · exact hnext

theorem freeOfEquals_of_splitsAt {S : Finset (Match Symbol)} (h : SplitsAt t S ⟨.operator o, i⟩)
    (ho : o ∉ Operator.longer) : FreeOfEquals t i o := by
  obtain ⟨o', heq, -, hclear⟩ := h
  cases heq
  -- Of the operators that are left only the plain ones have a sign at an end.
  have hsigns : ∀ o ∈ Operator.all, o ∉ Operator.longer →
      (o = .overwriteOut ∨ o = .overwriteIn) ∨
        ¬ (o.token.getLast? = some '<' ∨ o.token.getLast? = some '>') ∧
          ¬ (o.token.head? = some '<' ∨ o.token.head? = some '>') := by decide
  rcases hsigns o o.mem_all ho with hplain | ⟨hends, hbegins⟩
  · obtain ⟨hbefore, hnext⟩ := hclear.ne_equals hplain
    exact ⟨fun _ => hnext, fun _ _ => hbefore⟩
  · exact ⟨fun h => absurd h hends, fun h => absurd h hbegins⟩

/-! ## Segments -/

/-- **Where a segment ends, its operator meets the rule for splits.** -/
theorem splitsAt_of_mem {l : Nat × Segment} (h : l ∈ locateSegments 0 (ended t)) :
    SplitsAt t (splitMatches t) ⟨.operator l.2.operator, l.1⟩ := by
  rw [locateSegments_ended] at h
  obtain ⟨f, hf, hlocated⟩ := List.mem_filterMap.mp h
  obtain ⟨s, hs, rfl⟩ := Option.map_eq_some_iff.mp hlocated
  have hplace : f.place = ⟨.operator s.operator, f.start⟩ := by
    rw [Finding.place, segment?_eq_some hs]
    rfl
  have hsplit := splitSet_splitMatches t
  have hmem : f.place ∈ splitMatches t := ((splitSet_iff.mp hsplit).2 f hf).mpr (by rw [hs]; rfl)
  rw [← hplace]
  exact (hsplit.2 _ (place_mem_findAll hf)).mp hmem

/-- **No segment ends at a sign of a comparison or an arrow**, unless its operator is one of the
longer ones. -/
theorem freeOfEquals_of_plain (l : Nat × Segment) (hl : l ∈ locateSegments 0 (ended t))
    (ho : l.2.operator ∉ Operator.longer) : FreeOfEquals t l.1 l.2.operator :=
  freeOfEquals_of_splitsAt (splitsAt_of_mem hl) ho

/-- A comparison in the text before an operator that splits. -/
theorem freeOfEquals_of_plain_comparison :
    (4, ⟨.overwriteIn, ['a', '>', '=', 'b']⟩) ∈
        locateSegments 0 (ended ['a', '>', '=', 'b', '<', 'c']) ∧
      .overwriteIn ∉ Operator.longer ∧
      FreeOfEquals ['a', '>', '=', 'b', '<', 'c'] 4 .overwriteIn := by
  have hl : (4, ⟨.overwriteIn, ['a', '>', '=', 'b']⟩) ∈
      locateSegments 0 (ended ['a', '>', '=', 'b', '<', 'c']) := by decide
  exact ⟨hl, by decide, freeOfEquals_of_plain _ hl (by decide)⟩

/-- **Each of the longer operators splits beside a `=`**: all three with one behind them, and `>>`
with one before it as well. -/
theorem equals_beside_longer :
    (locateSegments 0 (ended ['2', '>', '=', '2', '>', '>', '=', '>', '>', '='])).map
        (fun l =>
          (l.2.operator,
            (['2', '>', '=', '2', '>', '>', '=', '>', '>', '='].take l.1).getLast?,
            ['2', '>', '=', '2', '>', '>', '=', '>', '>', '='][l.1 + l.2.operator.token.length]?)) =
      [(.overwriteErr, none, some equals), (.appendErr, some equals, some equals),
        (.appendOut, some equals, some equals)] ∧
      ¬ ∀ t, ∀ l ∈ locateSegments 0 (ended t), FreeOfEquals t l.1 l.2.operator := by
  refine ⟨by decide, fun h => ?_⟩
  have hfree := h ['2', '>', '=', '2', '>', '>', '=', '>', '>', '='] (7, ⟨.appendOut, ['=']⟩)
    (by decide)
  exact absurd hfree (by decide)

end ConsoleLine
