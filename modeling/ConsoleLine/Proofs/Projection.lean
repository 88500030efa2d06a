import ConsoleLine.Proofs.Coverage

/-!
# Some operators among all symbols

The search for redirections sees a line without quotes and other operators. None
of these hides a redirection or lets one through, so it finds just what the search
for all symbols finds of redirections. The search for operators that start a command
differs at `||` alone, which it takes for two of them, the second one a `|&` where an
ampersand follows.

* `first?_redirection`, `findAll_redirection`: redirections at one place and in a whole
  line;
* `start_pipelineAndEnd_iff`: an operator starts a command at each `|` and `;`;
* `operator_of_covers`: the symbols that such a character is a part of;
* `findAll_project`: both searches, found again in the search for all symbols.
-/

namespace ConsoleLine

def Symbol.redirection? : Symbol → Option Operator
  | .operator o => if o.isRedirection then some o else none
  | .quote _ => none

def Match.redirection? (m : Match Symbol) : Option (Match Operator) :=
  m.symbol.redirection?.map fun o => ⟨o, m.start⟩

theorem Symbol.eq_of_redirection? {s : Symbol} {o : Operator} (h : s.redirection? = some o) :
    s = .operator o ∧ o.isRedirection = true := by
  cases s with
  | operator p =>
    rw [redirection?] at h
    split at h
    next hp => cases h; exact ⟨rfl, hp⟩
    next => cases h
  | quote q => cases h

namespace Matcher

/-- Redirections come first by priority, so no other symbol is found in place of one. -/
theorem first?_redirection (t : Text) :
    redirection.first? t = (control.first? t).bind Symbol.redirection? := by
  have hsymbols : control.symbols = redirection.symbols.map Symbol.operator ++
      control.symbols.drop redirection.symbols.length := by decide
  have hlisted : ∀ o ∈ redirection.symbols, (Symbol.operator o).redirection? = some o := by decide
  have hothers : ∀ s ∈ control.symbols.drop redirection.symbols.length, s.redirection? = none := by
    decide
  have hmap : (redirection.symbols.map Symbol.operator).find? (fun s => (token s).isPrefixOf t) =
      (redirection.symbols.find? fun o => (token o).isPrefixOf t).map Symbol.operator :=
    List.find?_map
  rw [first?_eq, first?_eq, hsymbols, List.find?_append, hmap]
  cases h : redirection.symbols.find? fun o => (token o).isPrefixOf t with
  | some o => exact (hlisted o (List.mem_of_find?_eq_some h)).symm
  | none =>
    rw [Option.map_none, Option.none_or]
    cases hs : (control.symbols.drop redirection.symbols.length).find? fun s =>
        (token s).isPrefixOf t with
    | none => rfl
    | some s => exact (hothers s (List.mem_of_find?_eq_some hs)).symm

/-- No redirection begins inside another symbol. -/
theorem passes_redirection {s : Symbol} (hs : s ∈ control.symbols) (h : s.redirection? = none)
    (r : Text) : redirection.Passes (token s) r := by
  have hleading : ∀ s ∈ control.symbols, s.redirection? = none →
      (token s).all fun c => !redirection.leading.contains c := by decide
  exact passes_of_leading r (hleading s hs h)

theorem locate_redirection (i : Nat) (t : Text) :
    locate i (redirection.cut t).pieces =
      (locate i (control.cut t).pieces).filterMap Match.redirection? := by
  induction t using control.scan_induction generalizing i with
  | nil => rfl
  | char c r hc ih =>
    have hnone : redirection.first? (c :: r) = none := by rw [first?_redirection, hc]; rfl
    rw [cut_of_none hc, cut_of_none hnone, locate_prepend, locate_prepend]
    exact ih (i + 1)
  | symbol s r hs ih =>
    rw [cut_token hs, locate_cons, List.filterMap_cons, Match.redirection?]
    cases hr : s.redirection? with
    | none =>
      rw [cut_passes (passes_redirection (prefix_of_first? hs).1 hr r), locate_prepend]
      exact ih _
    | some o =>
      obtain ⟨rfl, -⟩ := Symbol.eq_of_redirection? hr
      have hsome : redirection.first? (token o ++ r) = some o := by
        rw [first?_redirection]
        exact (congrArg (Option.bind · Symbol.redirection?) hs).trans hr
      rw [Symbol.spelled_token, Symbol.token, ← Operator.spelled_token, cut_token hsome, locate_cons]
      exact congrArg _ (ih _)

/-- **The redirections of a line are those among all its symbols.** -/
theorem findAll_redirection (line : Text) :
    redirection.findAll line = (control.findAll line).filterMap Match.redirection? :=
  locate_redirection 0 line

end Matcher

/-! ## Operators that start a command -/

def Symbol.command? : Symbol → Option Operator
  | .operator o => if Operator.pipelineAndEnd.contains o then some o else none
  | .quote _ => none

theorem Symbol.token_of_command? {s : Symbol} {o : Operator} (h : s.command? = some o) :
    o.token = s.token := by
  cases s with
  | operator p =>
    rw [command?] at h
    split at h
    next => cases h; rfl
    next => cases h
  | quote q => cases h

namespace Matcher

/-- A search for some of the symbols, in the same order, finds what the search for all
of them finds of its own. -/
theorem first?_of_filterMap {α β : Type} [Spelled α] [Spelled β] {mr : Matcher α} {nr : Matcher β}
    {g : α → Option β} (hsymbols : nr.symbols = mr.symbols.filterMap g)
    (hg : ∀ s b, g s = some b → token b = token s) {t : Text} {s : α} {b : β}
    (h : mr.first? t = some s) (hb : g s = some b) : nr.first? t = some b := by
  obtain ⟨hp, as, bs, hl, has⟩ := first?_eq_some_iff.mp h
  refine first?_eq_some_iff.mpr ⟨hg s b hb ▸ hp, as.filterMap g, bs.filterMap g, ?_, ?_⟩
  · simp [hsymbols, hl, hb]
  · intro b' hb'
    obtain ⟨a, ha, hab⟩ := List.mem_filterMap.mp hb'
    rw [hg a b' hab]
    exact has a ha

theorem first?_command {t : Text} {o : Operator} (ho : o ∈ Operator.pipelineAndEnd)
    (h : control.first? t = some (.operator o)) : pipelineAndEnd.first? t = some o := by
  have hsymbols : pipelineAndEnd.symbols = control.symbols.filterMap Symbol.command? := by decide
  have hlisted : ∀ o ∈ Operator.pipelineAndEnd, (Symbol.operator o).command? = some o := by decide
  exact first?_of_filterMap hsymbols (fun _ _ => Symbol.token_of_command?) h (hlisted o ho)

theorem mem_pipelineAndEnd_iff {t : Text} {m : Match Operator} :
    m ∈ pipelineAndEnd.findAll t ↔ pipelineAndEnd.first? (t.drop m.start) = some m.symbol :=
  mem_findAll_iff (by decide)

/-- **An operator starts a command at each `|` and `;`**, and nowhere else. -/
theorem start_pipelineAndEnd_iff {t : Text} {k : Nat} :
    (∃ m ∈ pipelineAndEnd.findAll t, m.start = k) ↔ t[k]? = some '|' ∨ t[k]? = some ';' := by
  constructor
  · rintro ⟨m, hm, rfl⟩
    have hleading : pipelineAndEnd.leading ⊆ ['|', ';'] := by decide
    obtain ⟨c, hc, hchar⟩ := exists_leading (symbol_mem_findAll hm) (token_prefix_of_mem_findAll hm)
    simpa [hchar] using hleading hc
  · intro h
    have hfound : pipelineAndEnd.first? (t.drop k) ≠ none := by
      rw [Ne, first?_eq_none_iff, not_forall]
      rcases h with h | h
      · exact ⟨.pipe, fun hnone => hnone (by decide) (singleton_prefix_drop h)⟩
      · exact ⟨.semicolon, fun hnone => hnone (by decide) (singleton_prefix_drop h)⟩
    obtain ⟨o, ho⟩ := Option.ne_none_iff_exists'.mp hfound
    exact ⟨⟨o, k⟩, mem_pipelineAndEnd_iff.mpr ho, rfl⟩

/-- The symbols that have a `|` or `;` in them. Only of `||` it may be the second
character. -/
theorem operator_of_covers {t : Text} {m : Match Symbol} {k : Nat} (hm : m ∈ control.findAll t)
    (hk : m.Covers k) (h : t[k]? = some '|' ∨ t[k]? = some ';') :
    (∃ o ∈ Operator.pipelineAndEnd, m = ⟨.operator o, k⟩) ∨
      (m.symbol = .operator .orElse ∧ (k = m.start ∨ k = m.start + 1)) := by
  have hshapes : ∀ s ∈ control.symbols, ∀ j < s.token.length,
      (s.token[j]? = some '|' ∨ s.token[j]? = some ';') →
        (j = 0 ∧ ∃ o ∈ Operator.pipelineAndEnd, s = .operator o) ∨
          (s = .operator .orElse ∧ (j = 0 ∨ j = 1)) := by decide
  rw [← getElem?_of_covers hm hk] at h
  have hstart := hk.1
  rcases hshapes _ (symbol_mem_findAll hm) _ hk.lt_length h with ⟨hj, o, ho, hs⟩ | ⟨hs, hj⟩
  · obtain rfl : m.start = k := by omega
    exact Or.inl ⟨o, ho, by rw [← hs]⟩
  · exact Or.inr ⟨hs, by omega⟩

/-! ## Both searches -/

/-- An operator that starts a command and is no symbol by itself is a part of `||`. -/
theorem orElse_of_mem_pipelineAndEnd {line : Text} {n : Match Operator}
    (hn : n ∈ pipelineAndEnd.findAll line)
    (hother : ⟨.operator n.symbol, n.start⟩ ∉ control.findAll line) :
    ∃ i, ⟨.operator .orElse, i⟩ ∈ control.findAll line ∧ (n.start = i ∨ n.start = i + 1) := by
  have hknown : ∀ o ∈ pipelineAndEnd.symbols, Symbol.operator o ∈ control.symbols := by decide
  obtain ⟨m, hm, hk⟩ := exists_covers (s := Symbol.operator n.symbol)
    (hknown _ (symbol_mem_findAll hn)) (token_prefix_of_mem_findAll hn)
  rcases operator_of_covers hm hk (start_pipelineAndEnd_iff.mp ⟨n, hn, rfl⟩) with
    ⟨o, ho, rfl⟩ | ⟨hs, hstart⟩
  · have hfirst := first?_command ho (first?_of_mem_findAll hm)
    rw [first?_of_mem_findAll hn] at hfirst
    obtain rfl := Option.some.inj hfirst
    exact absurd hm hother
  · exact ⟨m.start, hs ▸ hm, hstart⟩

/-- Each character of `||` is an operator that starts a command, and no symbol by itself. -/
theorem exists_pipelineAndEnd_of_orElse {t : Text} {i k : Nat}
    (hi : ⟨.operator .orElse, i⟩ ∈ control.findAll t) (hk : k = i ∨ k = i + 1) :
    ∃ n ∈ pipelineAndEnd.findAll t, n.start = k ∧
      ⟨.operator n.symbol, k⟩ ∉ control.findAll t := by
  have hcovers : (⟨.operator .orElse, i⟩ : Match Symbol).Covers k := by
    show i ≤ k ∧ k < i + 2
    omega
  have hchar : t[k]? = some '|' := by
    rw [← getElem?_of_covers hi hcovers]
    rcases hk with rfl | rfl
    · simp [Match.token, Symbol.token, Operator.token]
    · simp [Match.token, Symbol.token, Operator.token]
  obtain ⟨n, hn, rfl⟩ := start_pipelineAndEnd_iff.mpr (Or.inl hchar)
  refine ⟨n, hn, rfl, fun hm => ?_⟩
  have hsymbol := congrArg Match.symbol (eq_of_covers hi hm hcovers (Match.covers_start hm))
  have hne : ∀ o ∈ pipelineAndEnd.symbols, Symbol.operator .orElse ≠ .operator o := by decide
  exact hne _ (symbol_mem_findAll hn) hsymbol

/-- **What the narrower searches find is in the search for all symbols**: each redirection
and each operator that starts a command, and besides these only the two halves of `||`. -/
theorem findAll_project (line : Text) :
    redirection.findAll line = (control.findAll line).filterMap Match.redirection? ∧
      (∀ o ∈ Operator.pipelineAndEnd, ∀ i, ⟨.operator o, i⟩ ∈ control.findAll line →
        ⟨o, i⟩ ∈ pipelineAndEnd.findAll line) ∧
      ∀ k, (∃ n ∈ pipelineAndEnd.findAll line, n.start = k ∧
          ⟨.operator n.symbol, k⟩ ∉ control.findAll line) ↔
        ∃ i, ⟨.operator .orElse, i⟩ ∈ control.findAll line ∧ (k = i ∨ k = i + 1) := by
  refine ⟨findAll_redirection line, fun o ho i hi => ?_, fun k => ⟨?_, ?_⟩⟩
  · exact mem_pipelineAndEnd_iff.mpr (first?_command ho (first?_of_mem_findAll hi))
  · rintro ⟨n, hn, rfl, hother⟩
    exact orElse_of_mem_pipelineAndEnd hn hother
  · rintro ⟨i, hi, hk⟩
    exact exists_pipelineAndEnd_of_orElse hi hk

/-- The second half of `||` takes an ampersand with it. -/
example :
    control.findAll ['|', '|', '&'] = [⟨.operator .orElse, 0⟩, ⟨.operator .ampersand, 2⟩] ∧
      pipelineAndEnd.findAll ['|', '|', '&'] = [⟨.pipe, 0⟩, ⟨.pipeOutAndErr, 1⟩] := by decide

end Matcher

end ConsoleLine
