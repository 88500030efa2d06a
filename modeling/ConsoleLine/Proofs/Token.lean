import ConsoleLine.Proofs.Cut
import ConsoleLine.Proofs.Quote

/-!
# Tokens

Which token of a list wins, and how the tokens of the standard matcher overlap.

* `first?_of_longest`: if no token starts a later one of the list, the longest
  that stands at a place is found there;
* `first?_token`: a token is found where the text after it does not make it a
  longer one;
* `first?_of_alone`: a character that is a token, and in no other one, is found before
  any text, as quotes and the semicolon are;
* `first?_control`, `apart_control`: the characters that may make a token of the
  standard matcher longer, and those after which one may go on;
* `plain_token`, `plain_of_passes`: neither the token of an operator nor a gap
  holds a quote.
-/

namespace ConsoleLine

namespace Matcher

section

variable {α : Type} [Spelled α]

theorem first?_eq_none_iff {mr : Matcher α} {t : Text} :
    mr.first? t = none ↔ ∀ s ∈ mr.symbols, ¬ token s <+: t := by
  simp only [first?_eq, List.find?_eq_none, List.isPrefixOf_iff_prefix]

theorem first?_eq_some_iff {mr : Matcher α} {t : Text} {s : α} :
    mr.first? t = some s ↔
      token s <+: t ∧ ∃ as bs, mr.symbols = as ++ s :: bs ∧ ∀ a ∈ as, ¬ token a <+: t := by
  simp only [first?_eq, List.find?_eq_some_iff_append, List.isPrefixOf_iff_prefix,
    Bool.not_eq_true', Bool.eq_false_iff, Ne]

/-- Where nothing is found, nothing is found once the text is cut off. -/
theorem first?_none_of_append {mr : Matcher α} {a b : Text} (h : mr.first? (a ++ b) = none) :
    mr.first? a = none :=
  first?_eq_none_iff.mpr fun s hs hp =>
    first?_eq_none_iff.mp h s hs (hp.trans (List.prefix_append a b))

/-- What is found is found as well when the text is cut off behind it. -/
theorem first?_some_of_append {mr : Matcher α} {a b : Text} {s : α}
    (h : mr.first? (a ++ b) = some s) (hs : token s <+: a) : mr.first? a = some s := by
  obtain ⟨-, as, bs, hl, has⟩ := first?_eq_some_iff.mp h
  exact first?_eq_some_iff.mpr
    ⟨hs, as, bs, hl, fun a' ha hp => has a' ha (hp.trans (List.prefix_append a b))⟩

/-- **The longest token wins** where each token stands before those that start it. -/
theorem first?_of_longest {mr : Matcher α}
    (horder : mr.symbols.Pairwise fun a b => ¬ token a <+: token b) {s : α} {t : Text}
    (hs : s ∈ mr.symbols) (hp : token s <+: t)
    (hlong : ∀ a ∈ mr.symbols, token a <+: t → (token a).length ≤ (token s).length) :
    mr.first? t = some s := by
  obtain ⟨as, bs, hl⟩ := List.append_of_mem hs
  refine first?_eq_some_iff.mpr ⟨hp, as, bs, hl, fun a ha hpa => ?_⟩
  have hmem : a ∈ mr.symbols := hl ▸ List.mem_append_left _ ha
  have hle := hlong a hmem hpa
  rw [hl] at horder
  exact (List.pairwise_append.mp horder).2.2 a ha s List.mem_cons_self
    (List.prefix_of_prefix_length_le hpa hp hle)

theorem first?_token {mr : Matcher α}
    (horder : mr.symbols.Pairwise fun a b => ¬ token a <+: token b) {s : α} {t : Text}
    (hs : s ∈ mr.symbols)
    (ht : ∀ c, t.head? = some c → ∀ a ∈ mr.symbols, ¬ token s ++ [c] <+: token a) :
    mr.first? (token s ++ t) = some s := by
  refine first?_of_longest horder hs (List.prefix_append _ _) fun a ha hp => ?_
  by_contra hlt
  have hpre : token s <+: token a :=
    List.prefix_of_prefix_length_le (List.prefix_append _ t) hp (by omega)
  obtain ⟨v, hv⟩ := hpre
  rw [← hv, List.prefix_append_right_inj] at hp
  cases v with
  | nil => rw [← hv, List.append_nil] at hlt; omega
  | cons c v =>
    obtain ⟨r, rfl⟩ := hp
    refine ht c rfl a ha ⟨v, ?_⟩
    rw [List.append_assoc, List.singleton_append, hv]

/-- A token of one character that is in no other token is found before any text. -/
theorem first?_of_alone {mr : Matcher α}
    (horder : mr.symbols.Pairwise fun a b => ¬ token a <+: token b) {s : α} {x : Char}
    (hs : s ∈ mr.symbols) (hx : token s = [x])
    (halone : ∀ a ∈ mr.symbols, x ∈ token a → token a = [x]) (t : Text) :
    mr.first? (token s ++ t) = some s := by
  refine first?_token horder hs fun c _ a ha hp => ?_
  rw [hx] at hp
  have hlen := hp.length_le
  rw [halone a ha (hp.subset List.mem_cons_self), List.length_append, List.length_singleton,
    List.length_singleton] at hlen
  omega

/-- A token is found before a character that makes no token longer. -/
theorem first?_of_extends {mr : Matcher α}
    (horder : mr.symbols.Pairwise fun a b => ¬ token a <+: token b) {cs : List Char}
    (hcs : ∀ a ∈ mr.symbols, ∀ s ∈ mr.symbols, token s <+: token a →
      (token a)[(token s).length]?.all (cs.contains ·)) {s : α} {t : Text}
    (hs : s ∈ mr.symbols) (ht : ∀ c, t.head? = some c → c ∉ cs) :
    mr.first? (token s ++ t) = some s := by
  refine first?_token horder hs fun c hc a ha hp => ht c hc ?_
  obtain ⟨v, hv⟩ := hp
  rw [List.append_assoc] at hv
  have h := hcs a ha s hs ⟨_, hv⟩
  rw [← hv, List.getElem?_append_right (Nat.le_refl _), Nat.sub_self] at h
  simpa using h

end

/-! ## The standard matcher -/

theorem pairwise_control :
    control.symbols.Pairwise fun a b => ¬ token a <+: token b := by decide

theorem operator_mem_control {o : Operator} (h : o ≠ .unterminated) :
    .operator o ∈ control.symbols := by
  cases o <;> first | exact absurd rfl h | decide

theorem ne_unterminated_of_mem {o : Operator} (h : .operator o ∈ control.symbols) :
    o ≠ .unterminated := by
  rintro rfl
  revert h
  decide

/-- No operator swallows a quote. -/
theorem plain_token (o : Operator) : Plain o.token := by
  cases o <;> simp [Plain, Operator.token, Quote.ofToken?, Quote.all, Quote.token, Quote.char]

theorem quote_mem_control (q : Quote) : .quote q ∈ control.symbols := by
  cases q <;> decide

theorem token_eq_of_char_mem (q : Quote) :
    ∀ a ∈ control.symbols, q.char ∈ token a → token a = q.token := by cases q <;> decide

theorem quote_not_mem_later (q : Quote) : q.char ∉ control.later := by
  cases q <;> decide

theorem apart_quote (a : Text) (q : Quote) (t : Text) : control.Apart a (q.token ++ t) :=
  apart_of_head? a fun c hc => by
    obtain rfl : q.char = c := Option.some.inj hc
    exact quote_not_mem_later q

theorem first?_quote (q : Quote) (t : Text) : control.first? (q.token ++ t) = some (.quote q) :=
  first?_of_alone (s := Symbol.quote q) pairwise_control (quote_mem_control q) rfl
    (token_eq_of_char_mem q) t

theorem apart_semicolon (a t : Text) : control.Apart a (Operator.semicolon.token ++ t) :=
  apart_of_head? a fun c hc => by
    obtain rfl : ';' = c := Option.some.inj hc
    decide

theorem first?_semicolon (t : Text) :
    control.first? (Operator.semicolon.token ++ t) = some (.operator .semicolon) := by
  have halone : ∀ a ∈ control.symbols, ';' ∈ token a → token a = [';'] := by decide
  exact first?_of_alone (s := Symbol.operator .semicolon) pairwise_control (by decide) rfl halone t

theorem plain_of_passes {g r : Text} (h : control.Passes g r) : Plain g := by
  intro c hc
  by_contra hq
  obtain ⟨q, hq⟩ := Option.ne_none_iff_exists'.mp hq
  obtain ⟨a, b, rfl⟩ := List.append_of_mem hc
  have hnone := h a.length (by simp)
  rw [List.append_assoc, List.drop_left] at hnone
  refine first?_eq_none_iff.mp hnone (.quote q) (quote_mem_control q) ?_
  rw [Quote.eq_char_of_ofToken? hq]
  exact ⟨b ++ r, rfl⟩

theorem plain_of_first?_none {c : Char} {r : Text} (h : control.first? (c :: r) = none) :
    Plain [c] :=
  plain_of_passes (passes_cons.mpr ⟨h, fun _ hi => absurd hi (Nat.not_lt_zero _)⟩)

theorem extends_control :
    ∀ a ∈ control.symbols, ∀ s ∈ control.symbols, token s <+: token a →
      (token a)[(token s).length]?.all (['>', '&', '|'].contains ·) := by decide

theorem first?_control {s : Symbol} {t : Text} (hs : s ∈ control.symbols)
    (ht : ∀ c, t.head? = some c → c ∉ ['>', '&', '|']) :
    control.first? (token s ++ t) = some s :=
  first?_of_extends pairwise_control extends_control hs ht

theorem inner_control : control.inner ⊆ ['2', '>', '&', '|'] := by decide

theorem apart_control {a : Text} (b : Text)
    (h : ∀ c, a.getLast? = some c → c ∉ ['2', '>', '&', '|']) : control.Apart a b :=
  apart_of_getLast? b fun c hc hi => h c hc (inner_control hi)

end Matcher

end ConsoleLine
