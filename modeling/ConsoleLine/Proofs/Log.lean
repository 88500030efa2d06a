import Mathlib.Data.List.Count
import Mathlib.Data.List.Forall2
import Mathlib.Data.List.Nodup
import ConsoleLine.Proofs.Coverage
import ConsoleLine.Proofs.TypingOn

/-!
# What the messages tell

A notice is given for every operator outside quotes and written to the log as a message.
The messages and the segments of a line tell the same story.

* `verdict_of_mem`: a symbol is judged by the text before it and the character after it;
* `pairwise_start_notices`: the notices come in the order of the line;
* `filter_isSplit_notices`: those of splits are for the operators that end the segments,
  where they stand;
* `token_of_ignored`: which operators are ever ignored;
* `Notice.message_injective`: a message tells its notice;
* `existsUnique_role`: each symbol is a quote, is quoted, or has one message;
* `notices_account`: all of this, told by the messages alone.
-/

namespace ConsoleLine

/-! ## Order -/

theorem pairwise_start_findings (line : Text) :
    (survey line).findings.Pairwise fun f g => f.start < g.start := by
  have hplaces := pairwise_locate 0 (Matcher.control.cut line).pieces
  rw [← Matcher.findAll, ← map_place_survey, List.pairwise_map] at hplaces
  refine hplaces.imp_of_mem fun hf _ hle => ?_
  exact Nat.lt_of_lt_of_le (start_lt_stop (place_mem_findAll hf)) hle

theorem eq_of_start_eq {line : Text} {f g : Finding} (hf : f ∈ (survey line).findings)
    (hg : g ∈ (survey line).findings) (h : f.start = g.start) : f = g := by
  have hnodup : ((survey line).findings.map Finding.start).Nodup :=
    List.pairwise_map.mpr ((pairwise_start_findings line).imp Nat.ne_of_lt)
  exact List.inj_on_of_nodup_map hnodup hf hg h

def Notice.start : Notice → Nat
  | split _ i | ignored _ i => i

theorem start_of_notice? {f : Finding} {n : Notice} (h : f.notice? = some n) :
    n.start = f.start := by
  obtain ⟨i, v⟩ := f
  cases v <;> cases h <;> rfl

/-- **The notices come in the order of the line.** -/
theorem pairwise_start_notices (line : Text) :
    (notices line).Pairwise fun m n => m.start < n.start := by
  refine (pairwise_start_findings line).filterMap _ fun f g hlt m hm n hn => ?_
  rw [start_of_notice? hm, start_of_notice? hn]
  exact hlt

/-- A notice is given once. -/
theorem count_notices_eq_one_iff {line : Text} {n : Notice} :
    (notices line).count n = 1 ↔ n ∈ notices line := by
  have hnodup : (notices line).Nodup :=
    (pairwise_start_notices line).imp fun hlt heq => Nat.ne_of_lt hlt (congrArg Notice.start heq)
  constructor
  · intro h
    exact List.count_pos_iff.mp (by omega)
  · exact List.count_eq_one_of_mem hnodup

/-- A notice for a place is that of the finding there. -/
theorem mem_notices_iff {line : Text} {f : Finding} (hf : f ∈ (survey line).findings) {n : Notice}
    (hn : n.start = f.start) : n ∈ notices line ↔ f.notice? = some n := by
  constructor
  · intro h
    obtain ⟨g, hg, hgn⟩ := List.mem_filterMap.mp h
    obtain rfl : f = g := eq_of_start_eq hf hg (hn.symm.trans (start_of_notice? hgn))
    exact hgn
  · intro h
    exact List.mem_filterMap.mpr ⟨f, hf, h⟩

/-! ## Notices of splits -/

def Notice.isSplit : Notice → Bool
  | split _ _ => true
  | ignored _ _ => false

/-- **The notices of splits are those of the operators that end the segments.** -/
theorem filter_isSplit_notices (line : Text) :
    (notices line).filter Notice.isSplit =
      (locateSegments 0 (ended line)).map fun l => .split l.2.operator l.1 := by
  have hsame : ∀ f : Finding, Option.filter Notice.isSplit f.notice? =
      f.located?.map fun l => .split l.2.operator l.1 := by
    rintro ⟨i, v⟩
    cases v <;> rfl
  rw [locateSegments_ended, notices, List.filter_filterMap, List.map_filterMap]
  exact congrArg (List.filterMap · _) (funext hsame)

/-! ## A symbol and the text before it -/

/-- The survey of a line up to a symbol is that of the text before it. -/
theorem findings_of_mem {line : Text} {m : Match Symbol} (h : m ∈ Matcher.control.findAll line) :
    ∃ next late, (survey line).findings = (survey (line.take m.start)).findings ++
      ⟨m.start, (unsplit (line.take m.start)).judge next m.symbol⟩ :: late := by
  obtain ⟨ps, gap, qs, hpieces, hstart, hcut⟩ := cut_take_start h
  have hinitial : ∀ s ∈ Matcher.control.symbols, (token s).head? ≠ some equals := by decide
  -- No symbol begins with `=`, so the text before the match shows whether `=` comes next.
  have hborder : Cut.head? ⟨⟨gap, m.symbol⟩ :: qs, (Matcher.control.cut line).tail⟩ =
      some equals ↔ gap.head? = some equals := by
    cases gap with
    | nil => simpa [Cut.head?] using hinitial _ (symbol_mem_findAll h)
    | cons c gap => rfl
  have hparts := surveyFrom_append 0 {} hborder ps
  have hlen : 0 + (ps.flatMap Piece.text).length + gap.length = m.start := by
    rw [hstart, Cut.text, List.length_append, Nat.zero_add]
  rw [survey, hpieces, hparts, survey, unsplit, hcut]
  simp only [surveyFrom, hlen]
  exact ⟨_, _, rfl⟩

/-- **Each symbol is judged by the text before it.** -/
theorem verdict_of_mem {line : Text} {f : Finding} (hf : f ∈ (survey line).findings) :
    ∃ next, f.verdict = (unsplit (line.take f.start)).judge next f.verdict.symbol := by
  obtain ⟨next, late, hfindings⟩ := findings_of_mem (place_mem_findAll hf)
  have hjudged : ⟨f.start, (unsplit (line.take f.start)).judge next f.verdict.symbol⟩ ∈
      (survey line).findings := by
    rw [hfindings]
    exact List.mem_append_right _ List.mem_cons_self
  exact ⟨next, congrArg Finding.verdict (eq_of_start_eq hf hjudged rfl)⟩

/-! ## Notices of ignored operators -/

theorem Operator.token_of_not_admits {o : Operator} {before next : Option Char}
    (h : o.admits before next = false) : o.token ∈ [['>'], ['<'], ['|'], ['&']] := by
  cases o <;> first | decide | cases h

theorem Unsplit.not_admits_of_judge {u : Unsplit} {next : Option Char} {s : Symbol} {o : Operator}
    (h : u.judge next s = .ignored o) : o.admits u.last? next = false := by
  cases s with
  | quote q => by_cases hq : u.last? = some escape <;> simp [judge, hq] at h
  | operator p =>
    cases hq : u.quotes.active <;> cases ho : p.admits u.last? next <;> simp [judge, hq, ho] at h
    rw [← h, ho]

/-- **Only operators of one character are ignored**, and they stand where the notice says. -/
theorem token_of_ignored {line : Text} {o : Operator} {i : Nat}
    (h : .ignored o i ∈ notices line) :
    o.token ∈ [['>'], ['<'], ['|'], ['&']] ∧ o.token <+: line.drop i := by
  obtain ⟨⟨j, v⟩, hf, hn⟩ := List.mem_filterMap.mp h
  have hfinding : ⟨i, .ignored o⟩ ∈ (survey line).findings := by
    cases v <;> cases hn
    exact hf
  obtain ⟨next, hjudge⟩ := verdict_of_mem hfinding
  exact ⟨Operator.token_of_not_admits (Unsplit.not_admits_of_judge hjudge.symm),
    token_prefix_of_mem_findAll (place_mem_findAll hfinding)⟩

/-! ## Messages -/

/-- The log of a line. -/
def messages (line : Text) : List String := (notices line).map Notice.message

/-- What a message begins with tells the two kinds of notices apart. -/
theorem split_isPrefixOf_message (n : Notice) :
    "Split on ".toList.isPrefixOf n.message.toList = n.isSplit := by
  cases n with
  | split o i => simp [Notice.message, Notice.isSplit]
  | ignored o i => simp [Notice.message, Notice.isSplit, List.isPrefixOf]

theorem ignoring_isPrefixOf_message (n : Notice) :
    "Ignoring ".toList.isPrefixOf n.message.toList = !n.isSplit := by
  cases n with
  | split o i => simp [Notice.message, Notice.isSplit, List.isPrefixOf]
  | ignored o i => simp [Notice.message, Notice.isSplit]

/-- No token has a quote or an escape to be shown in another way. -/
theorem Notice.message_ignored (o : Operator) (i : Nat) :
    (Notice.ignored o i).message =
      "Ignoring '" ++ String.ofList o.token ++ "' at offset " ++ toString i := by
  cases o <;> rfl

/-- The message ends with this offset. -/
def LoggedAt (message : String) (i : Nat) : Prop :=
  ∃ subject, message = subject ++ " at offset " ++ toString i

theorem LoggedAt.takeWhile_isDigit {message : String} {i : Nat} (h : LoggedAt message i) :
    message.toList.reverse.takeWhile Char.isDigit = (Nat.toDigits 10 i).reverse := by
  obtain ⟨subject, rfl⟩ := h
  have hdigits : ∀ c ∈ (Nat.toDigits 10 i).reverse, c.isDigit = true := fun c hc =>
    Nat.isDigit_of_mem_toDigits (by decide) (by decide) (List.mem_reverse.mp hc)
  simp [List.takeWhile_append_of_pos hdigits]

/-- A blank is no digit, so the last digits of a message are those of one offset. -/
theorem LoggedAt.eq {message : String} {i j : Nat} (hi : LoggedAt message i)
    (hj : LoggedAt message j) : i = j := by
  have hdigits := hi.takeWhile_isDigit.symm.trans hj.takeWhile_isDigit
  simpa using congrArg (fun t => Nat.ofDigitChars 10 t.reverse 0) hdigits

theorem Notice.loggedAt (n : Notice) : LoggedAt n.message n.start := by
  cases n <;> exact ⟨_, rfl⟩

/-- **A message tells its notice.** -/
theorem Notice.message_injective : Function.Injective Notice.message := by
  intro m n h
  have hstart : m.start = n.start := (h ▸ m.loggedAt).eq n.loggedAt
  have hkind : m.isSplit = n.isSplit := by
    rw [← split_isPrefixOf_message, h, split_isPrefixOf_message]
  cases m with
  | split o i =>
    cases n with
    | split p j =>
      obtain rfl : i = j := hstart
      have hname : o.name = p.name := by
        simpa [message, String.append_left_inj, String.append_right_inj] using h
      rw [Operator.eq_of_name_eq hname]
    | ignored p j => cases hkind
  | ignored o i =>
    cases n with
    | split p j => cases hkind
    | ignored p j =>
      obtain rfl : i = j := hstart
      have htext : String.ofList o.token = String.ofList p.token := by
        simpa [message_ignored, String.append_left_inj, String.append_right_inj] using h
      rw [Operator.eq_of_token_eq (String.ofList_injective htext)]

/-- The one message for a place is that of the finding there. -/
theorem count_messages_eq_one_iff {line : Text} {f : Finding} (hf : f ∈ (survey line).findings)
    {n : Notice} (hn : n.start = f.start) :
    (messages line).count n.message = 1 ↔ f.notice? = some n := by
  rw [messages, List.count_map_of_injective _ _ Notice.message_injective,
    count_notices_eq_one_iff, mem_notices_iff hf hn]

/-- The messages come in the order of the line. -/
theorem exists_offsets (line : Text) :
    ∃ offsets, List.Forall₂ LoggedAt (messages line) offsets ∧ offsets.Pairwise (· < ·) := by
  refine ⟨(notices line).map Notice.start, ?_,
    List.pairwise_map.mpr (pairwise_start_notices line)⟩
  rw [messages, List.forall₂_map_left_iff, List.forall₂_map_right_iff]
  exact List.forall₂_same.mpr fun n _ => n.loggedAt

/-- The messages of splits are for the operators that end the segments. -/
theorem filter_isPrefixOf_messages (line : Text) :
    (messages line).filter ("Split on ".toList.isPrefixOf ·.toList) =
      (locateSegments 0 (ended line)).map fun l =>
        "Split on " ++ l.2.operator.name ++ " at offset " ++ toString l.1 := by
  rw [messages, List.filter_map, Function.comp_def]
  simp only [split_isPrefixOf_message, filter_isSplit_notices, List.map_map]
  rfl

/-- A message tells of a split or of an operator ignored. -/
theorem split_or_ignoring_of_mem_messages {line : Text} {message : String}
    (h : message ∈ messages line) :
    "Split on ".toList.isPrefixOf message.toList ∨
      "Ignoring ".toList.isPrefixOf message.toList := by
  obtain ⟨n, -, rfl⟩ := List.mem_map.mp h
  rw [split_isPrefixOf_message, ignoring_isPrefixOf_message]
  cases n <;> simp [Notice.isSplit]

/-- The messages of operators ignored are for those of one character, where they stand. -/
theorem token_of_ignoring {line : Text} {message : String} (h : message ∈ messages line)
    (hignoring : "Ignoring ".toList.isPrefixOf message.toList) :
    ∃ t ∈ [['>'], ['<'], ['|'], ['&']], ∃ i,
      message = "Ignoring '" ++ String.ofList t ++ "' at offset " ++ toString i ∧
      t <+: line.drop i := by
  obtain ⟨n, hn, rfl⟩ := List.mem_map.mp h
  rw [ignoring_isPrefixOf_message] at hignoring
  cases n with
  | split o i => cases hignoring
  | ignored o i =>
    obtain ⟨htoken, hstands⟩ := token_of_ignored hn
    exact ⟨o.token, htoken, i, Notice.message_ignored o i, hstands⟩

/-! ## Roles -/

/-- What a symbol is to the line in which it stands. -/
inductive Role where
  | quote
  | quoted
  | ignored
  | split
  deriving DecidableEq, Repr

/-- An operator is quoted if the text before it leaves a quote open, and otherwise has a
message of its own. -/
def Match.HasRole (line : Text) (m : Match Symbol) : Role → Prop
  | .quote => ∃ q, m.symbol = .quote q
  | .quoted => ∃ o, m.symbol = .operator o ∧
      (QuoteState.ofText (remainder (line.take m.start))).active = true
  | .ignored => ∃ o, m.symbol = .operator o ∧ (messages line).count
      ("Ignoring '" ++ String.ofList o.token ++ "' at offset " ++ toString m.start) = 1
  | .split => ∃ o, m.symbol = .operator o ∧ (messages line).count
      ("Split on " ++ o.name ++ " at offset " ++ toString m.start) = 1

def Verdict.role : Verdict → Role
  | toggles _ | escaped _ => .quote
  | quoted _ => .quoted
  | ignored _ => .ignored
  | splits _ _ => .split

theorem Unsplit.role_judge_operator (u : Unsplit) (next : Option Char) (o : Operator) :
    (u.judge next (.operator o)).role = .quoted ↔ u.quotes.active = true := by
  cases hq : u.quotes.active <;> cases ho : o.admits u.last? next <;>
    simp [judge, hq, ho, Verdict.role]

theorem active_iff_quoted {line : Text} {f : Finding} (hf : f ∈ (survey line).findings)
    {o : Operator} (ho : f.verdict.symbol = .operator o) :
    (QuoteState.ofText (remainder (line.take f.start))).active = true ↔
      f.verdict.role = .quoted := by
  obtain ⟨next, hjudge⟩ := verdict_of_mem hf
  rw [ho] at hjudge
  rw [hjudge, Unsplit.role_judge_operator, quotes_unsplit, remainder_eq]

/-- The role of a symbol is that of its verdict. -/
theorem hasRole_place_iff {line : Text} {f : Finding} (hf : f ∈ (survey line).findings) (r : Role) :
    f.place.HasRole line r ↔ r = f.verdict.role := by
  obtain ⟨i, v⟩ := f
  cases r with
  | quote => cases v <;> simp [Match.HasRole, Finding.place, Verdict.symbol, Verdict.role]
  | quoted =>
    constructor
    · rintro ⟨o, ho, hactive⟩
      exact ((active_iff_quoted hf ho).mp hactive).symm
    · intro hrole
      cases v with
      | quoted o => exact ⟨o, rfl, (active_iff_quoted hf rfl).mpr rfl⟩
      | _ => cases hrole
  | ignored =>
    have hgiven : ∀ o, (messages line).count (Notice.ignored o i).message = 1 ↔
        Finding.notice? ⟨i, v⟩ = some (.ignored o i) := fun o => count_messages_eq_one_iff hf rfl
    simp only [Match.HasRole, ← Notice.message_ignored]
    constructor
    · rintro ⟨o, -, hcount⟩
      have hnotice := (hgiven o).mp hcount
      cases v <;> cases hnotice
      rfl
    · intro hrole
      cases v with
      | ignored o => exact ⟨o, rfl, (hgiven o).mpr rfl⟩
      | _ => cases hrole
  | split =>
    have hgiven : ∀ o, (messages line).count (Notice.split o i).message = 1 ↔
        Finding.notice? ⟨i, v⟩ = some (.split o i) := fun o => count_messages_eq_one_iff hf rfl
    constructor
    · rintro ⟨o, -, hcount⟩
      have hnotice := (hgiven o).mp hcount
      cases v <;> cases hnotice
      rfl
    · intro hrole
      cases v with
      | splits o t => exact ⟨o, rfl, (hgiven o).mpr rfl⟩
      | _ => cases hrole

theorem existsUnique_role {line : Text} {m : Match Symbol}
    (h : m ∈ Matcher.control.findAll line) : ∃! r, m.HasRole line r := by
  rw [← map_place_survey] at h
  obtain ⟨f, hf, rfl⟩ := List.mem_map.mp h
  exact ⟨f.verdict.role, (hasRole_place_iff hf _).mpr rfl, fun r => (hasRole_place_iff hf r).mp⟩

/-- **Messages and segments tell the same story.** -/
theorem notices_account (line : Text) :
    (messages line).filter ("Split on ".toList.isPrefixOf ·.toList) =
        (locateSegments 0 (ended line)).map (fun l =>
          "Split on " ++ l.2.operator.name ++ " at offset " ++ toString l.1) ∧
      (∀ message ∈ messages line, "Ignoring ".toList.isPrefixOf message.toList →
        ∃ t ∈ [['>'], ['<'], ['|'], ['&']], ∃ i,
          message = "Ignoring '" ++ String.ofList t ++ "' at offset " ++ toString i ∧
          t <+: line.drop i) ∧
      (∀ message ∈ messages line, "Split on ".toList.isPrefixOf message.toList ∨
        "Ignoring ".toList.isPrefixOf message.toList) ∧
      (∃ offsets, List.Forall₂ LoggedAt (messages line) offsets ∧ offsets.Pairwise (· < ·)) ∧
      ∀ m ∈ Matcher.control.findAll line, ∃! r, m.HasRole line r :=
  ⟨filter_isPrefixOf_messages line, fun _ => token_of_ignoring,
    fun _ => split_or_ignoring_of_mem_messages, exists_offsets line, fun _ => existsUnique_role⟩

/-- An arrow head is ignored, and a pipe inside quotes goes without message. -/
theorem notices_account_arrow :
    messages ['a', '"', '|', '"', '=', '>', 'b', '|', 'c'] =
        ["Ignoring '>' at offset 5", "Split on PIPE at offset 7"] ∧
      (∃ t ∈ [['>'], ['<'], ['|'], ['&']], ∃ i, "Ignoring '>' at offset 5" =
          "Ignoring '" ++ String.ofList t ++ "' at offset " ++ toString i ∧
        t <+: ['a', '"', '|', '"', '=', '>', 'b', '|', 'c'].drop i) ∧
      ⟨.operator .pipe, 2⟩ ∈
        Matcher.control.findAll ['a', '"', '|', '"', '=', '>', 'b', '|', 'c'] ∧
      ∃! r, Match.HasRole ['a', '"', '|', '"', '=', '>', 'b', '|', 'c'] ⟨.operator .pipe, 2⟩ r := by
  have hmessages : messages ['a', '"', '|', '"', '=', '>', 'b', '|', 'c'] =
      ["Ignoring '>' at offset 5", "Split on PIPE at offset 7"] := by decide
  have hignoring : "Ignoring '>' at offset 5" ∈
      messages ['a', '"', '|', '"', '=', '>', 'b', '|', 'c'] := by
    rw [hmessages]
    exact List.mem_cons_self
  have hpipe : ⟨.operator .pipe, 2⟩ ∈
      Matcher.control.findAll ['a', '"', '|', '"', '=', '>', 'b', '|', 'c'] := by decide
  obtain ⟨-, htokens, -, -, hroles⟩ :=
    notices_account ['a', '"', '|', '"', '=', '>', 'b', '|', 'c']
  exact ⟨hmessages, htokens _ hignoring (by decide), hpipe, hroles _ hpipe⟩

end ConsoleLine
