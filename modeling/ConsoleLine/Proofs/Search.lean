import Mathlib.Order.Bounds.Basic
import ConsoleLine.Proofs.Coverage

/-!
# Searching from an offset

A search stops at the first place from an offset on where a token stands, for the first
symbol of the list that has its token there. It skips every place whose character starts no
token, and loses nothing by that.

* `ofSymbols_eq_ok_iff`, `exists_ofSymbols_iff`: which lists of symbols can be searched for;
* `find?_eq_some_iff`, `find?_eq_none_iff`: where a search stops, and when it finds nothing;
* `find?_drop`: it is a search of the text behind the offset;
* `find?_eq_scan?`: trying every token at every place finds the same;
* `find?_leftmost`: all of these together.
-/

namespace ConsoleLine

variable {α : Type} [Spelled α]

/-- The token of `s` starts the text, and that of no symbol before `s` in the list does. -/
def Earliest (l : List α) (t : Text) (s : α) : Prop :=
  token s <+: t ∧ ∃ as bs, l = as ++ s :: bs ∧ ∀ a ∈ as, ¬ token a <+: t

namespace Matcher

/-! ## Lists that can be searched for -/

/-- Every list that is accepted makes one matcher, and every matcher is made like that. -/
theorem ofSymbols_eq_ok_iff {l : List α} {mr : Matcher α} :
    ofSymbols l = .ok mr ↔ mr.symbols = l := by
  constructor
  · intro h
    rw [ofSymbols] at h
    split at h
    next => cases h; rfl
    next => cases h
  · rintro rfl
    obtain ⟨l, leading, hleading, hl, htokens⟩ := mr
    cases hleading
    exact dif_pos ⟨hl, htokens⟩

theorem exists_ofSymbols_iff {l : List α} :
    (∃ mr, ofSymbols l = .ok mr) ↔ l ≠ [] ∧ ∀ s ∈ l, token s ≠ [] := by
  constructor
  · rintro ⟨mr, h⟩
    obtain rfl := ofSymbols_eq_ok_iff.mp h
    exact ⟨mr.symbols_ne_nil, mr.token_ne_nil⟩
  · intro h
    exact ⟨_, dif_pos h⟩

/-! ## One place -/

/-- A token of the list stands at offset `i`. -/
def TokenAt (mr : Matcher α) (t : Text) (i : Nat) : Prop :=
  ∃ s ∈ mr.symbols, token s <+: t.drop i

variable {mr : Matcher α} {t : Text}

theorem first?_eq_some_iff_earliest {s : α} :
    mr.first? t = some s ↔ Earliest mr.symbols t s := first?_eq_some_iff

theorem not_tokenAt_iff {i : Nat} : ¬ mr.TokenAt t i ↔ mr.first? (t.drop i) = none := by
  simp [TokenAt, first?_eq_none_iff]

theorem tokenAt_of_first? {i : Nat} {s : α} (h : mr.first? (t.drop i) = some s) :
    mr.TokenAt t i := ⟨s, prefix_of_first? h⟩

/-! ## One search -/

theorem findFrom?_eq_none_iff {i : Nat} :
    mr.findFrom? i t = none ↔ ∀ k, mr.first? (t.drop k) = none := by
  induction t generalizing i with
  | nil => simp [findFrom?, first?]
  | cons c r ih =>
    cases h : mr.first? (c :: r) with
    | some s =>
      simp only [findFrom?, h, reduceCtorEq, false_iff]
      intro hnone
      rw [← List.drop_zero (l := c :: r), hnone 0] at h
      cases h
    | none =>
      rw [findFrom?, h]
      refine ih.trans ⟨fun hnone k => ?_, fun hnone k => hnone (k + 1)⟩
      cases k with
      | zero => exact h
      | succ k => exact hnone k

theorem findFrom?_eq_some_iff {i : Nat} {m : Match α} :
    mr.findFrom? i t = some m ↔ ∃ k, m.start = i + k ∧
      mr.first? (t.drop k) = some m.symbol ∧ ∀ j < k, mr.first? (t.drop j) = none := by
  induction t generalizing i with
  | nil => simp [findFrom?, first?]
  | cons c r ih =>
    cases h : mr.first? (c :: r) with
    | some s =>
      rw [findFrom?, h]
      constructor
      · rintro ⟨⟩
        exact ⟨0, rfl, h, fun j hj => absurd hj (Nat.not_lt_zero j)⟩
      · rintro ⟨k, hstart, hfirst, hbefore⟩
        cases k with
        | zero =>
          rw [List.drop_zero, h] at hfirst
          exact congrArg some (congr (congrArg Match.mk (Option.some.inj hfirst)) hstart.symm)
        | succ k =>
          have hnone := hbefore 0 (Nat.succ_pos k)
          rw [List.drop_zero, h] at hnone
          cases hnone
    | none =>
      rw [findFrom?, h]
      -- Nothing is found at the first character, so the match is one of the text behind it.
      refine ih.trans ⟨?_, ?_⟩
      · rintro ⟨k, hstart, hfirst, hbefore⟩
        refine ⟨k + 1, by omega, hfirst, fun j hj => ?_⟩
        cases j with
        | zero => exact h
        | succ j => exact hbefore j (Nat.lt_of_succ_lt_succ hj)
      · rintro ⟨k, hstart, hfirst, hbefore⟩
        cases k with
        | zero =>
          rw [List.drop_zero, h] at hfirst
          cases hfirst
        | succ k =>
          exact ⟨k, by omega, hfirst, fun j hj => hbefore (j + 1) (Nat.succ_lt_succ hj)⟩

theorem find?_eq_none_iff {pos : Int} :
    mr.find? t pos = none ↔ ∀ i : Nat, max pos 0 ≤ i → ¬ mr.TokenAt t i := by
  simp only [find?, findFrom?_eq_none_iff, not_tokenAt_iff, List.drop_drop]
  constructor
  · intro h i hi
    obtain ⟨k, rfl⟩ := Nat.exists_eq_add_of_le (show pos.toNat ≤ i by omega)
    exact h k
  · intro h k
    exact h (pos.toNat + k) (by omega)

/-- **A search stops at the least offset where a token stands**, for the earliest symbol. -/
theorem find?_eq_some_iff {pos : Int} {m : Match α} :
    mr.find? t pos = some m ↔
      IsLeast {i : Nat | max pos 0 ≤ i ∧ mr.TokenAt t i} m.start ∧
        Earliest mr.symbols (t.drop m.start) m.symbol := by
  simp only [find?, findFrom?_eq_some_iff, List.drop_drop]
  constructor
  · rintro ⟨k, hstart, hfirst, hbefore⟩
    rw [← hstart] at hfirst
    refine ⟨⟨⟨by omega, tokenAt_of_first? hfirst⟩, ?_⟩, first?_eq_some_iff_earliest.mp hfirst⟩
    rintro i ⟨hi, htoken⟩
    by_contra hlt
    refine not_tokenAt_iff.mpr ?_ htoken
    obtain ⟨j, rfl⟩ := Nat.exists_eq_add_of_le (show pos.toNat ≤ i by omega)
    exact hbefore j (by omega)
  · rintro ⟨⟨⟨hpos, -⟩, hleast⟩, hearliest⟩
    obtain ⟨k, hk⟩ := Nat.exists_eq_add_of_le (show pos.toNat ≤ m.start by omega)
    refine ⟨k, hk, hk ▸ first?_eq_some_iff_earliest.mpr hearliest, fun j hj => ?_⟩
    refine not_tokenAt_iff.mp fun htoken => ?_
    have hle : m.start ≤ pos.toNat + j := hleast ⟨by omega, htoken⟩
    omega

theorem find?_of_first? {i : Nat} {s : α} (h : mr.first? (t.drop i) = some s) :
    mr.find? t i = some ⟨s, i⟩ := by
  refine find?_eq_some_iff.mpr ⟨⟨⟨by simp, tokenAt_of_first? h⟩, ?_⟩,
    first?_eq_some_iff_earliest.mp h⟩
  rintro k ⟨hk, -⟩
  show i ≤ k
  omega

/-! ## The text behind an offset -/

theorem findFrom?_shift (mr : Matcher α) (k i : Nat) (t : Text) :
    mr.findFrom? (i + k) t = (mr.findFrom? i t).map (Match.shift k) := by
  induction t generalizing i with
  | nil => rfl
  | cons c r ih =>
    cases h : mr.first? (c :: r) with
    | some s => simp only [findFrom?, h, Option.map_some, Match.shift]
    | none =>
      simp only [findFrom?, h]
      rw [Nat.add_right_comm]
      exact ih (i + 1)

/-- **A search from an offset is a search of the text behind it.** -/
theorem find?_drop (mr : Matcher α) (t : Text) (pos : Int) :
    mr.find? t pos = (mr.find? (t.drop pos.toNat)).map (Match.shift pos.toNat) := by
  have hshift := mr.findFrom?_shift pos.toNat 0 (t.drop pos.toNat)
  rwa [Nat.zero_add] at hshift

/-! ## Every token at every place -/

/-- The search that passes over no character at once. -/
def scan? (mr : Matcher α) (t : Text) (pos : Int) : Option (Match α) :=
  (List.range' pos.toNat (t.length - pos.toNat)).findSome? fun i =>
    (mr.symbols.find? fun s => (token s).isPrefixOf (t.drop i)).map (⟨·, i⟩)

theorem findFrom?_drop (mr : Matcher α) (t : Text) (i : Nat) :
    mr.findFrom? i (t.drop i) = mr.scan? t i := by
  rw [scan?, Int.toNat_natCast]
  induction hr : t.drop i generalizing i with
  | nil =>
    have hlen : t.length - i = 0 := by rw [← List.length_drop, hr, List.length_nil]
    rw [hlen]
    rfl
  | cons c r ih =>
    have hlen : t.length - i = t.length - (i + 1) + 1 := by
      have hdrop := congrArg List.length hr
      rw [List.length_drop, List.length_cons] at hdrop
      omega
    have hnext : t.drop (i + 1) = r := by rw [← List.drop_drop, hr]; rfl
    rw [hlen, List.range'_succ, List.findSome?_cons, hr, ← first?_eq, findFrom?]
    cases h : mr.first? (c :: r) with
    | some s => rfl
    | none => exact ih (i + 1) hnext

/-- **The leading characters lose nothing.** -/
theorem find?_eq_scan? (mr : Matcher α) (t : Text) (pos : Int) :
    mr.find? t pos = mr.scan? t pos := by
  rw [find?, findFrom?_drop, scan?, scan?, Int.toNat_natCast]

/-! ## The whole search -/

/-- **The leftmost place wins, and at one place the earliest symbol**, from any offset on, where
a negative one counts as the start. This is the search that tries every token at every place,
and that of the text behind the offset. -/
theorem find?_leftmost (mr : Matcher α) (t : Text) (pos : Int) :
    (∀ m, mr.find? t pos = some m ↔
      IsLeast {i : Nat | max pos 0 ≤ i ∧ mr.TokenAt t i} m.start ∧
        Earliest mr.symbols (t.drop m.start) m.symbol) ∧
      (mr.find? t pos = none ↔ ∀ i : Nat, max pos 0 ≤ i → ¬ mr.TokenAt t i) ∧
      mr.find? t pos = mr.scan? t pos ∧
      mr.find? t pos = (mr.find? (t.drop pos.toNat)).map (Match.shift pos.toNat) :=
  ⟨fun _ => find?_eq_some_iff, find?_eq_none_iff, find?_eq_scan? mr t pos, find?_drop mr t pos⟩

end Matcher

end ConsoleLine
