import Mathlib.Data.List.Basic
import Mathlib.Data.List.TakeWhile
import ConsoleLine.Proofs.Target

/-!
# The word at the end of a text

The word being typed is found among all the words of the text, and whether it names a command
is told by the blanks behind the leading ones. Both depend on what stands behind the last
blank alone.

* `LastRun`: what stands behind the last blank;
* `LastRun.suffix_of_unbroken`, `LastRun.eq`: it is the longest end of the text without a
  blank, and there is one only;
* `lastRun_word`, `isCommand_iff`: it is the word, and names a command if nothing but blanks
  stands before it;
* `word_longest`: all of these, and what the word at a cursor does not hold.
-/

namespace ConsoleLine

/-! ## Blanks at the end -/

theorem endsBlank_append_cons (a : Text) (c : Char) (p : Text) :
    endsBlank (a ++ c :: p) = if p = [] then isBlank c else endsBlank p := by
  cases p with
  | nil => simp [endsBlank]
  | cons d p =>
    rw [endsBlank, List.getLast?_append_cons, List.getLast?_cons_cons]
    rfl

theorem endsBlank_of_all {p : Text} (h : ∀ c ∈ p, isBlank c = true) :
    p = [] ∨ endsBlank p = true := by
  cases hlast : p.getLast? with
  | none => exact .inl (List.getLast?_eq_none_iff.mp hlast)
  | some c =>
    right
    rw [endsBlank, hlast]
    exact h c (List.mem_of_getLast? hlast)

theorem unbroken_nil : ∀ c ∈ ([] : Text), isBlank c = false := fun _ hc =>
  absurd hc List.not_mem_nil

/-! ## Behind the last blank -/

/-- What stands in `t` behind the last blank, all of `t` if there is none. -/
structure LastRun (t w : Text) : Prop where
  unbroken : ∀ c ∈ w, isBlank c = false
  behind : ∃ p, t = p ++ w ∧ (p = [] ∨ endsBlank p = true)

namespace LastRun

variable {t v w : Text}

theorem suffix (h : LastRun t w) : w <:+ t := by
  obtain ⟨p, hp, -⟩ := h.behind
  exact ⟨p, hp.symm⟩

theorem of_unbroken (h : ∀ c ∈ w, isBlank c = false) : LastRun w w := ⟨h, [], rfl, .inl rfl⟩

theorem of_endsBlank (h : endsBlank t = true) : LastRun t [] :=
  ⟨unbroken_nil, t, (List.append_nil t).symm, .inr h⟩

/-- Text before a blank does not matter. -/
theorem append_blank (h : LastRun t w) (a : Text) {c : Char} (hc : isBlank c = true) :
    LastRun (a ++ c :: t) w := by
  obtain ⟨p, rfl, hp⟩ := h.behind
  refine ⟨h.unbroken, a ++ c :: p, by simp, .inr ?_⟩
  rw [endsBlank_append_cons]
  rcases hp with rfl | hp
  · exact hc
  · split
    · exact hc
    · exact hp

/-- **It is the longest end of the text without a blank**: a longer one would hold the blank
right before it. -/
theorem suffix_of_unbroken (h : LastRun t w) (hv : v <:+ t)
    (hunbroken : ∀ c ∈ v, isBlank c = false) : v <:+ w := by
  obtain ⟨p, rfl, hp⟩ := h.behind
  rcases List.suffix_or_suffix_of_suffix hv (List.suffix_append p w) with hvw | ⟨q, rfl⟩
  · exact hvw
  · obtain ⟨a, ha⟩ := hv
    rw [← List.append_assoc] at ha
    obtain rfl := List.append_cancel_right ha
    rcases List.eq_nil_or_concat q with rfl | ⟨q, c, rfl⟩
    · exact List.suffix_refl w
    · rw [List.concat_eq_append, ← List.append_assoc, endsBlank_append_cons] at hp
      have hc : isBlank c = false := hunbroken c (by simp)
      simp [hc] at hp

theorem eq (h : LastRun t w) (h' : LastRun t v) : w = v :=
  (h'.suffix_of_unbroken h.suffix h.unbroken).eq_of_length_le
    (h.suffix_of_unbroken h'.suffix h'.unbroken).length_le

end LastRun

/-! ## The word -/

/-- **The last word read is what stands behind the last blank**, if the text ends in a word. The
induction carries the part of a word that is read already, which holds no blank. -/
theorem lastRun_wordsFrom {run t : Text} (hrun : ∀ c ∈ run, isBlank c = false)
    (hne : run.reverse ++ t ≠ []) (hend : endsBlank (run.reverse ++ t) = false) :
    ∃ w, (wordsFrom run t).getLast? = some w ∧ LastRun (run.reverse ++ t) w := by
  induction t generalizing run with
  | nil =>
    rw [List.append_nil] at hne ⊢
    have hrunne : run ≠ [] := fun h => hne (by rw [h]; rfl)
    refine ⟨run.reverse, by simp [wordsFrom, hrunne], .of_unbroken fun c hc => ?_⟩
    exact hrun c (List.mem_reverse.mp hc)
  | cons c r ih =>
    cases hc : isBlank c with
    | true =>
      rw [endsBlank_append_cons, hc] at hend
      have hr : r ≠ [] := by
        rintro rfl
        cases hend
      rw [if_neg hr] at hend
      obtain ⟨w, hw, hlast⟩ := ih unbroken_nil hr hend
      refine ⟨w, ?_, hlast.append_blank run.reverse hc⟩
      cases hempty : run.isEmpty <;> simp [wordsFrom, hc, hempty, List.getLast?_cons, hw]
    | false =>
      have hrun' : ∀ d ∈ c :: run, isBlank d = false := List.forall_mem_cons.mpr ⟨hc, hrun⟩
      have happend : run.reverse ++ c :: r = (c :: run).reverse ++ r := by simp
      rw [happend] at hne hend ⊢
      obtain ⟨w, hw, hlast⟩ := ih hrun' hne hend
      refine ⟨w, ?_, hlast⟩
      rwa [wordsFrom, if_neg (by rw [hc]; exact Bool.false_ne_true)]

/-- **The word is what stands behind the last blank.** -/
theorem lastRun_word (T : Target) : LastRun T.text T.word := by
  rw [Target.word]
  cases hend : endsBlank T.text with
  | true => exact .of_endsBlank hend
  | false =>
    rw [if_neg Bool.false_ne_true]
    rcases eq_or_ne T.text [] with hnil | hne
    · rw [hnil]
      exact .of_unbroken unbroken_nil
    · obtain ⟨w, hw, hlast⟩ := lastRun_wordsFrom unbroken_nil hne hend
      rw [words, hw]
      exact hlast

/-! ## The command -/

theorem lastRun_skipBlanks {t : Text} (h : ∀ c ∈ skipBlanks t, isBlank c = false) :
    LastRun t (skipBlanks t) :=
  ⟨h, t.takeWhile isBlank, List.takeWhile_append_dropWhile.symm,
    endsBlank_of_all fun _ hc => List.mem_takeWhile_imp hc⟩

/-- **A command is completed while nothing but blanks stands before the word.** -/
theorem isCommand_iff (T : Target) :
    T.isCommand = true ↔ T.afterRedirection = false ∧ skipBlanks T.text = T.word := by
  have hword := lastRun_word T
  have hunbroken : (skipBlanks T.text).any isBlank = false ↔ skipBlanks T.text = T.word := by
    rw [List.any_eq_false]
    constructor
    · intro h
      exact (lastRun_skipBlanks fun c hc => Bool.eq_false_iff.mpr (h c hc)).eq hword
    · intro h c hc
      exact Bool.eq_false_iff.mp (hword.unbroken c (h ▸ hc))
  rw [Target.isCommand, Bool.and_eq_true, Bool.not_eq_true', Bool.not_eq_true', hunbroken]

/-! ## The word at a cursor -/

theorem currentWord_suffix_text (line : Text) (cursor : Int) :
    currentWord line cursor <:+ (Target.ofCursor line cursor).text := (lastRun_word _).suffix

theorem text_suffix_take (line : Text) (cursor : Int) :
    (Target.ofCursor line cursor).text <:+ line.take (clamp line cursor) := List.drop_suffix _ _

/-- **The word is the longest end of the text without a blank**, and names a command if the
text without its leading blanks is that word. At a cursor it is an end of the line before the
cursor that holds no operator which starts a command. -/
theorem word_longest :
    (∀ T : Target, LastRun T.text T.word ∧
      (∀ v, v <:+ T.text → (∀ c ∈ v, isBlank c = false) → v <:+ T.word) ∧
      (T.isCommand = true ↔ T.afterRedirection = false ∧ skipBlanks T.text = T.word)) ∧
      ∀ line cursor, currentWord line cursor <:+ line.take (clamp line cursor) ∧
        (∀ c ∈ currentWord line cursor, isBlank c = false) ∧
        '|' ∉ currentWord line cursor ∧ ';' ∉ currentWord line cursor := by
  refine ⟨fun T => ⟨lastRun_word T, fun v hv => (lastRun_word T).suffix_of_unbroken hv,
    isCommand_iff T⟩, fun line cursor => ?_⟩
  have htext := currentWord_suffix_text line cursor
  refine ⟨htext.trans (text_suffix_take line cursor), (lastRun_word _).unbroken,
    fun h => ?_, fun h => ?_⟩
  · exact not_mem_ofCursor (o := .pipe) (by decide) rfl line cursor (htext.subset h)
  · exact not_mem_ofCursor (o := .semicolon) (by decide) rfl line cursor (htext.subset h)

/-- A space that is no ASCII character ends the word, and the command with it. -/
example :
    (⟨0, [' ', 'l', 's', '\u2003', '-', 'a'], false⟩ : Target).word = ['-', 'a'] ∧
      (⟨0, [' ', 'l', 's'], false⟩ : Target).isCommand ∧
      ¬ (⟨0, [' ', 'l', 's', '\u2003'], false⟩ : Target).isCommand := by decide

end ConsoleLine
