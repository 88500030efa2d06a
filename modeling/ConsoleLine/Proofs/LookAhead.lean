import ConsoleLine.Completion
import ConsoleLine.Proofs.LastMatch

/-!
# How far completion looks ahead

The whole line is searched, but whether a match starts at a place depends only on what
stands before it and on as many characters from there on as the longest token has.

* `filter_findAll_append`: more text leaves all matches as they are but those that start
  close to the end;
* `last?_congr`: the last match before a cursor is the same in lines that are alike up to
  a few characters behind the cursor;
* `ofCursor_congr`: so are the target and the word at the cursor, and four characters are
  enough.
-/

namespace ConsoleLine

theorem clamp_of_le {line : Text} {c : Nat} (h : c ≤ line.length) : clamp line c = c := by
  simp [clamp, h]

variable {α : Type}

theorem filter_shift (k n w : Nat) (l : List (Match α)) :
    (l.map (Match.shift k)).filter (fun m => m.start + w ≤ k + n) =
      (l.filter (fun m => m.start + w ≤ n)).map (Match.shift k) := by
  have hshift : ∀ m : Match α, (m.start + k + w ≤ k + n) = (m.start + w ≤ n) := by
    intro m
    rw [eq_iff_iff]
    omega
  simp [List.filter_map, Function.comp_def, hshift]

/-- In a text shorter than every window nothing is early. -/
theorem filter_eq_nil_of_lt {n w : Nat} (h : n < w) (l : List (Match α)) :
    l.filter (fun m => m.start + w ≤ n) = [] := by
  rw [List.filter_eq_nil_iff]
  intro m _
  simp only [decide_eq_true_eq]
  omega

namespace Matcher

variable [Spelled α] {mr : Matcher α} {w : Nat}

theorem width_pos (hw : ∀ s ∈ mr.symbols, (token s).length ≤ w) : 0 < w := by
  obtain ⟨s, hs⟩ := List.exists_mem_of_ne_nil _ mr.symbols_ne_nil
  exact Nat.lt_of_lt_of_le (List.length_pos_iff.mpr (mr.token_ne_nil s hs)) (hw s hs)

/-- **More text leaves the early matches as they are.** No token is longer than `w`. -/
theorem filter_findAll_append (hw : ∀ s ∈ mr.symbols, (token s).length ≤ w) (p t : Text) :
    (mr.findAll (p ++ t)).filter (fun m => m.start + w ≤ p.length) =
      (mr.findAll p).filter (fun m => m.start + w ≤ p.length) := by
  have hpos := width_pos hw
  have hfits : ∀ p : Text, w ≤ p.length → mr.first? (p ++ t) = mr.first? p := by
    intro p hp
    exact first?_append_of_fits fun s hs _ => Nat.le_trans (hw s hs) hp
  induction p using mr.scan_induction with
  | nil => rw [List.length_nil, filter_eq_nil_of_lt hpos, filter_eq_nil_of_lt hpos]
  | char c r hc ih =>
    rcases Nat.lt_or_ge (c :: r).length w with hlt | hle
    · rw [filter_eq_nil_of_lt hlt, filter_eq_nil_of_lt hlt]
    · have hfirst : mr.first? (c :: (r ++ t)) = none := (hfits _ hle).trans hc
      rw [List.cons_append, findAll_char hfirst, findAll_char hc, List.length_cons,
        Nat.add_comm r.length 1, filter_shift, filter_shift, ih]
  | symbol s r hs ih =>
    rcases Nat.lt_or_ge (token s ++ r).length w with hlt | hle
    · rw [filter_eq_nil_of_lt hlt, filter_eq_nil_of_lt hlt]
    · have hfirst : mr.first? (token s ++ (r ++ t)) = some s := by
        rw [← List.append_assoc, hfits _ hle, hs]
      rw [List.append_assoc, findAll_symbol hfirst, findAll_symbol hs, List.length_append,
        List.filter_cons, List.filter_cons, filter_shift, filter_shift, ih]

/-- The matches that start up to an offset show in a window behind it. -/
theorem filter_findAll_take (hw : ∀ s ∈ mr.symbols, (token s).length ≤ w) (line : Text)
    (c : Nat) :
    (mr.findAll (line.take (c + w))).filter (·.start ≤ c) =
      (mr.findAll line).filter (·.start ≤ c) := by
  rcases Nat.le_total line.length (c + w) with hle | hle
  · rw [List.take_of_length_le hle]
  · have happend := filter_findAll_append hw (line.take (c + w)) (line.drop (c + w))
    rw [List.take_append_drop, List.length_take_of_le hle] at happend
    simpa using happend.symm

/-- **The last match before a cursor** is the same in two lines with the same window. -/
theorem last?_congr (hw : ∀ s ∈ mr.symbols, (token s).length ≤ w) {l₁ l₂ : Text} {c : Nat}
    (h₁ : c ≤ l₁.length) (h₂ : c ≤ l₂.length) (h : l₁.take (c + w) = l₂.take (c + w)) :
    mr.last? l₁ c = mr.last? l₂ c := by
  rw [last?_eq_filter, last?_eq_filter, clamp_of_le h₁, clamp_of_le h₂,
    ← filter_findAll_take hw l₁, h, filter_findAll_take hw l₂]

end Matcher

/-! ## The target -/

/-- **What lies more than four characters behind the cursor** does not change what is
completed. -/
theorem ofCursor_congr {l₁ l₂ : Text} {c : Nat} (h₁ : c ≤ l₁.length) (h₂ : c ≤ l₂.length)
    (h : l₁.take (c + 4) = l₂.take (c + 4)) :
    Target.ofCursor l₁ c = Target.ofCursor l₂ c ∧ currentWord l₁ c = currentWord l₂ c := by
  have hredirection : Matcher.redirection.last? l₁ c = Matcher.redirection.last? l₂ c :=
    Matcher.last?_congr (by decide) h₁ h₂ h
  have hpipeline : lastPipelineOrEndStop l₁ c = lastPipelineOrEndStop l₂ c := by
    unfold lastPipelineOrEndStop Matcher.lastStop
    rw [Matcher.last?_congr (w := 4) (by decide) h₁ h₂ h]
  have htake : l₁.take c = l₂.take c := by
    have hmin : min c (c + 4) = c := Nat.min_eq_left (Nat.le_add_right c 4)
    rw [← hmin, ← List.take_take, h, List.take_take]
  have htarget : Target.ofCursor l₁ c = Target.ofCursor l₂ c := by
    simp only [Target.ofCursor, hredirection, hpipeline, clamp_of_le h₁, clamp_of_le h₂, htake]
  exact ⟨htarget, congrArg Target.word htarget⟩

/-- The cursor before a redirection that the window just holds, and different operators
after it. -/
theorem ofCursor_congr_redirection :
    2 ≤ ['a', '|', '2', '>', '&', '1', '|', 'b'].length ∧
      2 ≤ ['a', '|', '2', '>', '&', '1', '>', 'f', ';'].length ∧
      ['a', '|', '2', '>', '&', '1', '|', 'b'].take (2 + 4) =
        ['a', '|', '2', '>', '&', '1', '>', 'f', ';'].take (2 + 4) ∧
      Target.ofCursor ['a', '|', '2', '>', '&', '1', '|', 'b'] 2 =
        Target.ofCursor ['a', '|', '2', '>', '&', '1', '>', 'f', ';'] 2 ∧
      currentWord ['a', '|', '2', '>', '&', '1', '|', 'b'] 2 =
        currentWord ['a', '|', '2', '>', '&', '1', '>', 'f', ';'] 2 :=
  ⟨by decide, by decide, by decide, ofCursor_congr (c := 2) (by decide) (by decide) (by decide)⟩

/-- Three characters are not enough: the last one tells `2>&1` from `2>`. -/
example :
    ['2', '>', '&', '1'].take 3 = ['2', '>', '&', '2'].take 3 ∧
      Target.ofCursor ['2', '>', '&', '1'] 0 ≠ Target.ofCursor ['2', '>', '&', '2'] 0 := by decide

end ConsoleLine
