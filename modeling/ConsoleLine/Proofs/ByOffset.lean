import ConsoleLine.Proofs.Coverage
import ConsoleLine.Proofs.Scan
import ConsoleLine.Completion

/-!
# Reading by offsets

A line read through the tokens found in it and the offsets where they stand. A token may be
unknown, there may be no character at an offset, and a text may hold no word; each such step is
checked here, and none ever fails.

* `findAll_spelled`, `last?_spelled`: the same matches are found by token alone;
* `Follows`: a split by offsets in step with the text that is not split yet
  (`Follows.step`, `Follows.run`);
* `split_eq`, `target_eq`, `word_eq`: what is read by offsets is what the line holds;
* `never_fails`: all of these together, with the tokens that are ever looked up.
-/

namespace ConsoleLine

/-! ## Matches by token -/

section

variable {α : Type} [Spelled α]

/-- The match as the token that was found. -/
def Match.spelled (m : Match α) : Match Text := ⟨m.token, m.start⟩

@[simp] theorem Match.stop_spelled (m : Match α) : m.spelled.stop = m.stop := rfl

namespace Matcher

/-- The matcher of the tokens alone. -/
def spelled (mr : Matcher α) : Matcher Text where
  symbols := mr.tokens
  symbols_ne_nil := by simpa [tokens] using mr.symbols_ne_nil
  token_ne_nil := by
    intro t ht
    obtain ⟨s, hs, rfl⟩ := List.mem_map.mp ht
    exact mr.token_ne_nil s hs

theorem first?_spelled (mr : Matcher α) (t : Text) :
    mr.spelled.first? t = (mr.first? t).map token := by
  rw [first?_eq, first?_eq]
  exact List.find?_map

theorem findAll_spelled (mr : Matcher α) (t : Text) :
    mr.spelled.findAll t = (mr.findAll t).map Match.spelled := by
  induction t using mr.scan_induction with
  | nil => rfl
  | char c r h ih =>
    have hnone : mr.spelled.first? (c :: r) = none := by rw [first?_spelled, h]; rfl
    rw [findAll_char hnone, findAll_char h, ih, List.map_map, List.map_map]
    rfl
  | symbol s r h ih =>
    have hsome : mr.spelled.first? (token s ++ r) = some (token s) := by
      rw [first?_spelled, h]; rfl
    have hfound := findAll_symbol hsome
    rw [ih] at hfound
    rw [findAll_symbol h, List.map_cons, List.map_map]
    refine hfound.trans (congrArg _ ?_)
    rw [List.map_map]
    rfl

theorem last?_spelled (mr : Matcher α) (t : Text) (cursor : Int) :
    mr.spelled.last? t cursor = (mr.last? t cursor).map Match.spelled := by
  rw [last?, findAll_spelled, List.takeWhile_map, List.getLast?_map]
  rfl

theorem lastStop_spelled (mr : Matcher α) (t : Text) (cursor : Int) :
    mr.spelled.lastStop t cursor = mr.lastStop t cursor := by
  rw [lastStop, last?_spelled, lastStop]
  cases mr.last? t cursor <;> rfl

end Matcher

end

namespace ByOffset

/-! ## Steps that may fail -/

inductive Fault where
  | token (e : Error)
  /-- No character stands at the offset; a negative one does not count from the end. -/
  | offset (i : Int)
  /-- The last word of a text without words. -/
  | word
  deriving DecidableEq, Repr

def charAt (t : Text) (i : Int) : Except Fault Char :=
  if i < 0 then .error (.offset i) else t[i.toNat]?.elim (.error (.offset i)) .ok

def symbolOf (m : Match Text) : Except Fault Symbol := (Symbol.ofToken m.token).mapError .token

def lastWord (t : Text) : Except Fault Text := (words t).getLast?.elim (.error .word) .ok

/-! ## Splitting -/

/-- Whether one of the characters stands right before the match, in the text from `start` on. -/
def comesAfter (t : Text) (start : Nat) (m : Match Text) (cs : List Char) : Except Fault Bool :=
  if start < m.start then cs.contains <$> charAt t (m.start - 1) else .ok false

def comesBefore (t : Text) (m : Match Text) (c : Char) : Except Fault Bool :=
  if m.stop = t.length then .ok false else (· == c) <$> charAt t m.stop

/-- What an operator asks of the characters around it, read from the text. -/
def admits (o : Operator) (t : Text) (start : Nat) (m : Match Text) : Except Fault Bool :=
  match o with
  | .overwriteOut | .overwriteIn => do
    if m.start = start then return false
    else if ← comesAfter t start m [escape, equals] then return false
    else return !(← comesBefore t m equals)
  | .pipe | .ampersand => do
    if start < m.start then return !(← comesAfter t start m [escape]) else return false
  | _ => return true

/-- How far a line has been split. -/
structure Progress where
  segments : List Segment := []
  notices : List Notice := []
  quotes : QuoteState := {}
  /-- Where the text begins that is not split yet. -/
  start : Nat := 0

def judge (t : Text) (p : Progress) (m : Match Text) : Except Fault Verdict := do
  match ← symbolOf m with
  | .quote q => if ← comesAfter t p.start m [escape] then return .escaped q else return .toggles q
  | .operator o =>
    if p.quotes.active then return .quoted o
    else if ← admits o t p.start m then return .splits o ((t.take m.start).drop p.start)
    else return .ignored o

def Progress.after (p : Progress) (m : Match Text) : Verdict → Progress
  | .toggles q => { p with quotes := p.quotes.toggle q }
  | .splits o s =>
    { p with
      segments := p.segments ++ [⟨o, s⟩]
      notices := p.notices ++ [.split o m.start]
      start := m.stop }
  | .ignored o => { p with notices := p.notices ++ [.ignored o m.start] }
  | _ => p

def step (t : Text) (p : Progress) (m : Match Text) : Except Fault Progress :=
  p.after m <$> judge t p m

def split (t : Text) : Except Fault (List Segment × List Notice) := do
  let p ← (Matcher.control.spelled.findAll t).foldlM (step t) {}
  let rest : Segment := ⟨.unterminated, t.drop p.start⟩
  return (p.segments ++ (if p.segments.isEmpty then [rest] else [])
    ++ (if allBlank rest.text then [] else [rest]), p.notices)

/-! ## Completion -/

/-- The redirection before the cursor that asks for a file. Which one it is matters only
if it ends behind the operator that starts the command. -/
def file? (line : Text) (cursor : Int) : Except Fault (Option (Match Text)) :=
  match Matcher.redirection.spelled.last? line cursor with
  | none => return none
  | some m =>
    if Matcher.pipelineAndEnd.spelled.lastStop line cursor < m.stop then do
      if (← symbolOf m) = .operator .overwriteOutAndErr then return none else return some m
    else return none

def target (line : Text) (cursor : Int) : Except Fault Target := do
  let c := clamp line cursor
  let file ← file? line cursor
  let stop := file.elim (Matcher.pipelineAndEnd.spelled.lastStop line cursor) Match.stop
  let offset := min stop c
  return ⟨offset, (line.take c).drop offset, file.isSome⟩

def word (T : Target) : Except Fault Text :=
  if T.text = [] then return []
  else do if isBlank (← charAt T.text (T.text.length - 1)) then return [] else lastWord T.text

/-- Everything that a caller asks about what is being completed. -/
def complete (line : Text) (cursor : Int) : Except Fault (Target × Text × Bool) := do
  let T ← target line cursor
  return (T, ← word T, T.isCommand)

def currentWord (line : Text) (cursor : Int) : Except Fault Text := do word (← target line cursor)

/-! ## One step -/

/-- Only a character between the ends of the text is read. -/
theorem charAt_eq_ok_iff {t : Text} {i : Int} {c : Char} :
    charAt t i = .ok c ↔ 0 ≤ i ∧ t[i.toNat]? = some c := by
  rw [charAt]
  split
  next hneg => simp [Int.not_le.mpr hneg]
  next hpos => cases h : t[i.toNat]? <;> simp [Int.not_lt.mp hpos]

example : charAt ['|', '='] (-1) = .error (.offset (-1)) := rfl

theorem charAt_last {t : Text} {c : Char} (h : t.getLast? = some c) (r : Text) :
    charAt (t ++ r) (t.length - 1) = .ok c := by
  have hpos : 0 < t.length := List.length_pos_of_mem (List.mem_of_getLast? h)
  have hlast : (t ++ r)[t.length - 1]? = some c := by
    rw [List.getElem?_append_left (by omega), ← List.getLast?_eq_getElem?, h]
  have hcast : ((t.length : Int) - 1).toNat = t.length - 1 := by omega
  exact charAt_eq_ok_iff.mpr ⟨by omega, hcast ▸ hlast⟩

theorem symbolOf_eq {m : Match Text} {s : Symbol} (h : m.token = s.token) :
    symbolOf m = .ok s := by
  rw [symbolOf, h, Symbol.ofToken_token]
  rfl

/-- The split has come to the end of `a`, with these findings and this text unsplit. -/
structure Follows (a : Text) (fs : List Finding) (u : Unsplit) (p : Progress) : Prop where
  segments : p.segments = fs.filterMap Finding.segment?
  notices : p.notices = fs.filterMap Finding.notice?
  quotes : p.quotes = u.quotes
  start_le : p.start ≤ a.length
  text : a.drop p.start = u.text

namespace Follows

variable {a r : Text} {fs : List Finding} {u : Unsplit} {p : Progress} {m : Match Text}

/-- Right after a split there is no character before a match. -/
theorem last?_cases (h : Follows a fs u p) :
    p.start = a.length ∧ u.last? = none ∨
      p.start < a.length ∧ ∃ c, a.getLast? = some c ∧ u.last? = some c := by
  have hlast : u.last? = if a.length ≤ p.start then none else a.getLast? := by
    rw [Unsplit.last?_eq, ← h.text, List.getLast?_drop]
  rcases Nat.eq_or_lt_of_le h.start_le with heq | hlt
  · exact .inl ⟨heq, by rw [hlast, if_pos (Nat.le_of_eq heq.symm)]⟩
  · have hne : a ≠ [] := List.ne_nil_of_length_pos (Nat.zero_lt_of_lt hlt)
    have hend := List.getLast?_eq_some_getLast hne
    exact .inr ⟨hlt, _, hend, by rw [hlast, if_neg (Nat.not_le.mpr hlt), hend]⟩

theorem comesAfter_eq (h : Follows a fs u p) (hm : m.start = a.length) (cs : List Char) :
    comesAfter (a ++ r) p.start m cs = .ok (u.last?.any cs.contains) := by
  rw [comesAfter, hm]
  rcases h.last?_cases with ⟨hstart, hlast⟩ | ⟨hstart, c, hend, hlast⟩
  · rw [if_neg (Nat.not_lt.mpr (Nat.le_of_eq hstart.symm)), hlast]
    rfl
  · rw [if_pos hstart, charAt_last hend, hlast]
    rfl

theorem comesBefore_eq (hm : m.start = a.length) (c : Char) :
    comesBefore (a ++ (m.token ++ r)) m c = .ok (r.head? == some c) := by
  have hstop : m.stop = (a ++ m.token).length := by rw [Match.stop, hm, List.length_append]
  rw [comesBefore, hstop, ← List.append_assoc]
  cases r with
  | nil => rw [List.append_nil, if_pos rfl]; rfl
  | cons d r =>
    have hnext : (a ++ m.token ++ d :: r)[(a ++ m.token).length]? = some d := by simp
    have hread : charAt (a ++ m.token ++ d :: r) (a ++ m.token).length = .ok d :=
      charAt_eq_ok_iff.mpr ⟨Int.natCast_nonneg _, hnext⟩
    rw [if_neg (by simp), hread]
    rfl

theorem admits_eq (h : Follows a fs u p) (hm : m.start = a.length) (o : Operator) :
    admits o (a ++ (m.token ++ r)) p.start m = .ok (o.admits u.last? r.head?) := by
  have hafter := h.comesAfter_eq (r := m.token ++ r) hm
  have hbefore := comesBefore_eq (r := r) hm
  rcases h.last?_cases with ⟨hstart, hlast⟩ | ⟨hstart, c, -, hlast⟩
  · have hstop : ¬ p.start < m.start := by omega
    rw [hlast]
    cases o with
    | overwriteOut | overwriteIn => rw [admits, if_pos (hm.trans hstart.symm)]; rfl
    | pipe | ampersand => rw [admits, if_neg hstop]; rfl
    | _ => rfl
  · have hne : m.start ≠ p.start := by omega
    have hlt : p.start < m.start := hm ▸ hstart
    rw [hlast]
    cases o with
    | overwriteOut | overwriteIn =>
      have hfree : (c != escape && c != equals) = !([escape, equals].contains c) := by
        rw [List.contains_cons, List.contains_cons, List.contains_nil, Bool.or_false, Bool.not_or]
        rfl
      simp only [admits, Operator.admits, if_neg hne, hafter, hbefore, hlast, Option.any_some,
        hfree]
      cases [escape, equals].contains c <;> rfl
    | pipe | ampersand =>
      have hfree : (c != escape) = !([escape].contains c) := by
        rw [List.contains_cons, List.contains_nil, Bool.or_false]
        rfl
      simp only [admits, Operator.admits, if_pos hlt, hafter, hlast, Option.any_some, hfree]
      rfl
    | _ => rfl

theorem push (h : Follows a fs u p) (g : Text) : Follows (a ++ g) fs (u.push g) p where
  segments := h.segments
  notices := h.notices
  quotes := h.quotes
  start_le := by
    have hle := h.start_le
    rw [List.length_append]
    omega
  text := by rw [List.drop_append_of_le_length h.start_le, h.text, Unsplit.text_push]

theorem judge_eq (h : Follows a fs u p) {s : Symbol} (hs : m.token = s.token)
    (hm : m.start = a.length) :
    judge (a ++ (m.token ++ r)) p m = .ok (u.judge r.head? s) := by
  have hread : symbolOf m = .ok s := symbolOf_eq hs
  have hslice : ((a ++ (m.token ++ r)).take m.start).drop p.start = u.text := by
    rw [hm, List.take_left, h.text]
  rw [judge, hread]
  cases s with
  | quote q =>
    change (comesAfter _ _ _ _ >>= _) = _
    rw [h.comesAfter_eq hm, Unsplit.judge]
    cases hlast : u.last? with
    | none => rfl
    | some c =>
      by_cases hc : c = escape
      · rw [hc]; rfl
      · have hfree : [escape].contains c = false := by simpa using hc
        simp only [Option.any_some, hfree, Option.some_inj, if_neg hc]
        rfl
  | operator o =>
    rw [Unsplit.judge, ← h.quotes]
    cases hq : p.quotes.active with
    | true => rfl
    | false =>
      change (admits _ _ _ _ >>= _) = _
      rw [h.admits_eq hm, hslice]
      cases o.admits u.last? r.head? <;> rfl

theorem after (h : Follows a fs u p) {next : Option Char} {s : Symbol} {v : Verdict}
    (hv : u.judge next s = v) :
    Follows (a ++ s.token) (fs ++ [⟨a.length, v⟩]) (u.after v) (p.after ⟨s.token, a.length⟩ v) := by
  have hs : v.symbol = s := hv ▸ u.symbol_judge next s
  have hpush := h.push s.token
  refine ⟨?_, ?_, ?_, ?_, ?_⟩
  -- Only a split adds a segment; the flags of the quotes stay as they are then, for a split
  -- happens where both are down.
  · rw [List.filterMap_append, ← h.segments]
    cases v <;> first | rfl | exact (List.append_nil _).symm
  · rw [List.filterMap_append, ← h.notices]
    cases v <;> first | rfl | exact (List.append_nil _).symm
  · cases v with
    | splits o t => exact h.quotes.trans (Unsplit.closed_of_judge hv)
    | toggles q => exact congrArg (QuoteState.toggle · q) h.quotes
    | _ => exact h.quotes
  · cases v with
    | splits o t => exact Nat.le_of_eq List.length_append.symm
    | _ => exact hpush.start_le
  · cases v with
    | splits o t =>
      have hend : (a ++ s.token).drop (a.length + s.token.length) = [] := by simp
      exact hend
    | _ => rw [← hs] at hpush ⊢; exact hpush.text

/-- **The matches are read as the survey judges them.** -/
theorem run (h : Follows a fs u p) (r : Text) :
    ∃ u' p', (locate a.length (Matcher.control.cut r).pieces).foldlM
        (fun p m => step (a ++ r) p m.spelled) p = .ok p' ∧
      Follows (a ++ r) (fs ++ (surveyAt a.length u r).findings) u' p' ∧
      u'.text = (surveyAt a.length u r).rest := by
  induction r using Matcher.control.scan_induction generalizing a fs u p with
  | nil =>
    refine ⟨u, p, rfl, ?_, ?_⟩
    · simpa [surveyAt, Matcher.cut_nil, surveyFrom] using h
    · simp [surveyAt, Matcher.cut_nil, surveyFrom, Unsplit.push_nil]
  | char c r hc ih =>
    have hrun := ih (h.push [c])
    rw [Matcher.cut_of_none hc, locate_prepend, surveyAt_char a.length u hc]
    rwa [List.length_append, List.append_assoc] at hrun
  | symbol s r hs ih =>
    rw [Symbol.spelled_token] at hs ⊢
    have hstep : step (a ++ (s.token ++ r)) p ⟨s.token, a.length⟩ =
        .ok (p.after ⟨s.token, a.length⟩ (u.judge r.head? s)) :=
      congrArg (p.after ⟨s.token, a.length⟩ <$> ·)
        (h.judge_eq (m := ⟨s.token, a.length⟩) (r := r) rfl rfl)
    have hrun := ih (h.after (rfl : u.judge r.head? s = _))
    have hcut : Matcher.control.cut (s.token ++ r) = (Matcher.control.cut r).cons s :=
      Matcher.cut_token hs
    rw [hcut, locate_cons, List.foldlM_cons, surveyAt_symbol a.length u hs]
    rw [List.length_append, List.append_assoc, List.append_assoc] at hrun
    change ∃ u' p', (step (a ++ (s.token ++ r)) p ⟨s.token, a.length⟩ >>= _) = _ ∧ _
    rw [hstep]
    exact hrun

end Follows

/-- **A line is split by offsets as it is surveyed.** -/
theorem split_eq (line : Text) : split line = .ok (splitLine line, notices line) := by
  have hnone : Follows [] [] {} {} := ⟨rfl, rfl, rfl, Nat.le_refl 0, rfl⟩
  obtain ⟨u, p, hrun, hp, hrest⟩ := hnone.run line
  rw [List.nil_append] at hrun hp
  have hfold : (Matcher.control.spelled.findAll line).foldlM (step line) {} = .ok p := by
    rw [Matcher.findAll_spelled, List.foldlM_map]
    exact hrun
  rw [split, hfold]
  change Except.ok _ = _
  simp only [hp.segments, hp.notices, hp.text, hrest, List.nil_append]
  rfl

/-! ## Words -/

theorem wordsFrom_eq_nil_iff {run t : Text} : wordsFrom run t = [] ↔ run = [] ∧ allBlank t := by
  induction t generalizing run with
  | nil => cases run <;> simp [wordsFrom, allBlank]
  | cons c r ih =>
    by_cases hc : isBlank c = true
    · cases run <;> simp [wordsFrom, hc, ih, allBlank]
    · simp [wordsFrom, hc, ih, allBlank]

/-- Only a text of blanks has no words. -/
theorem words_eq_nil_iff {t : Text} : words t = [] ↔ allBlank t := by
  rw [words, wordsFrom_eq_nil_iff, and_iff_right rfl]

theorem word_eq (T : Target) : word T = .ok T.word := by
  rw [word, Target.word, endsBlank]
  cases hlast : T.text.getLast? with
  | none =>
    have hnil : T.text = [] := List.getLast?_eq_none_iff.mp hlast
    rw [if_pos hnil, hnil]
    rfl
  | some c =>
    have hne : T.text ≠ [] := List.ne_nil_of_mem (List.mem_of_getLast? hlast)
    have hread : charAt T.text (T.text.length - 1) = .ok c := by
      simpa using charAt_last hlast []
    rw [if_neg hne, hread, Option.any_some]
    change (if isBlank c = true then _ else _) = _
    cases hc : isBlank c with
    | true => rfl
    | false =>
      have hwords : words T.text ≠ [] := by
        rw [Ne, words_eq_nil_iff, allBlank, List.all_eq_true]
        intro hblank
        rw [hblank c (List.mem_of_getLast? hlast)] at hc
        cases hc
      rw [lastWord, List.getLast?_eq_some_getLast hwords]
      rfl

/-! ## Completion -/

theorem file?_eq (line : Text) (cursor : Int) :
    file? line cursor = .ok (((Matcher.redirection.last? line cursor).filter fun m =>
      decide (lastPipelineOrEndStop line cursor < m.stop) && m.symbol != .overwriteOutAndErr).map
        Match.spelled) := by
  rw [file?, Matcher.last?_spelled, Matcher.lastStop_spelled, ← lastPipelineOrEndStop]
  cases hlast : Matcher.redirection.last? line cursor with
  | none => rfl
  | some m =>
    have hread : symbolOf m.spelled = .ok (.operator m.symbol) := symbolOf_eq rfl
    simp only [Option.map_some, Match.stop_spelled, hread, Option.filter_some]
    by_cases hstop : lastPipelineOrEndStop line cursor < m.stop
    · rw [if_pos hstop, decide_eq_true hstop, Bool.true_and]
      change (if Symbol.operator m.symbol = .operator .overwriteOutAndErr then _ else _) = _
      by_cases ho : m.symbol = .overwriteOutAndErr
      · rw [if_pos (congrArg Symbol.operator ho), ho]
        rfl
      · have hne : (m.symbol != .overwriteOutAndErr) = true := bne_iff_ne.mpr ho
        rw [if_neg fun h => ho (Symbol.operator.inj h), hne]
        rfl
    · rw [if_neg hstop, decide_eq_false hstop]
      rfl

theorem target_eq (line : Text) (cursor : Int) :
    target line cursor = .ok (Target.ofCursor line cursor) := by
  rw [target, file?_eq, Matcher.lastStop_spelled, ← lastPipelineOrEndStop, Target.ofCursor]
  simp only [bind, Except.bind, pure, Except.pure, Option.elim_map, Option.isSome_map]
  rfl

theorem complete_eq (line : Text) (cursor : Int) :
    complete line cursor = .ok (.ofCursor line cursor, (Target.ofCursor line cursor).word,
      (Target.ofCursor line cursor).isCommand) := by
  rw [complete, target_eq]
  change (word _ >>= _) = _
  rw [word_eq]
  rfl

theorem currentWord_eq (line : Text) (cursor : Int) :
    currentWord line cursor = .ok (ConsoleLine.currentWord line cursor) := by
  rw [currentWord, target_eq]
  exact word_eq _

/-! ## Tokens that are looked up -/

theorem symbolOf_mem_findAll {α : Type} [Spelled α] (mr : Matcher α) {f : α → Symbol}
    (hf : ∀ s, (f s).token = token s) {t : Text} {m : Match Text} (h : m ∈ mr.spelled.findAll t) :
    ∃ s ∈ mr.symbols, m.token = token s ∧ symbolOf m = .ok (f s) := by
  obtain ⟨s, hs, htoken⟩ := List.mem_map.mp (symbol_mem_findAll h)
  exact ⟨s, hs, htoken.symm, symbolOf_eq (htoken.symm.trans (hf s).symm)⟩

/-- **Reading by offsets never fails**, and gives what the line holds. -/
theorem never_fails (line : Text) :
    split line = .ok (splitLine line, notices line) ∧
      (∀ cursor, complete line cursor = .ok (.ofCursor line cursor,
        (Target.ofCursor line cursor).word, (Target.ofCursor line cursor).isCommand)) ∧
      (∀ cursor, currentWord line cursor = .ok (ConsoleLine.currentWord line cursor)) ∧
      (∀ m ∈ Matcher.control.spelled.findAll line,
        ∃ s ∈ Symbol.byPriority, m.token = s.token ∧ symbolOf m = .ok s) ∧
      (∀ m ∈ Matcher.redirection.spelled.findAll line,
        ∃ o ∈ Operator.redirections, m.token = o.token ∧ symbolOf m = .ok (.operator o)) ∧
      ∀ m ∈ Matcher.pipelineAndEnd.spelled.findAll line,
        ∃ o ∈ Operator.pipelineAndEnd, m.token = o.token ∧ symbolOf m = .ok (.operator o) :=
  ⟨split_eq line, complete_eq line, currentWord_eq line,
    fun _ => symbolOf_mem_findAll Matcher.control (f := id) fun _ => rfl,
    fun _ => symbolOf_mem_findAll Matcher.redirection fun _ => rfl,
    fun _ => symbolOf_mem_findAll Matcher.pipelineAndEnd fun _ => rfl⟩

/-- A redirection and a pipe that stand where a line begins and ends. -/
theorem never_fails_at_ends :
    split ['>', 'a', '|'] = .ok (splitLine ['>', 'a', '|'], notices ['>', 'a', '|']) ∧
      ⟨['>'], 0⟩ ∈ Matcher.control.spelled.findAll ['>', 'a', '|'] ∧
      (∃ s ∈ Symbol.byPriority, ['>'] = s.token ∧ symbolOf ⟨['>'], 0⟩ = .ok s) ∧
      ⟨['>'], 0⟩ ∈ Matcher.redirection.spelled.findAll ['>', 'a', '|'] ∧
      (∃ o ∈ Operator.redirections,
        ['>'] = o.token ∧ symbolOf ⟨['>'], 0⟩ = .ok (.operator o)) ∧
      ⟨['|'], 2⟩ ∈ Matcher.pipelineAndEnd.spelled.findAll ['>', 'a', '|'] ∧
      ∃ o ∈ Operator.pipelineAndEnd,
        ['|'] = o.token ∧ symbolOf ⟨['|'], 2⟩ = .ok (.operator o) := by
  have hcontrol : ⟨['>'], 0⟩ ∈ Matcher.control.spelled.findAll ['>', 'a', '|'] := by decide
  have hredirection : ⟨['>'], 0⟩ ∈ Matcher.redirection.spelled.findAll ['>', 'a', '|'] := by decide
  have hpipe : ⟨['|'], 2⟩ ∈ Matcher.pipelineAndEnd.spelled.findAll ['>', 'a', '|'] := by decide
  obtain ⟨hsplit, -, -, hsymbols, hfiles, hcommands⟩ := never_fails ['>', 'a', '|']
  exact ⟨hsplit, hcontrol, hsymbols _ hcontrol, hredirection, hfiles _ hredirection, hpipe,
    hcommands _ hpipe⟩

end ByOffset

end ConsoleLine
