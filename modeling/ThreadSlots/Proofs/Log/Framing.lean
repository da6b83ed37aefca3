import ThreadSlots.Proofs.Log.Numbering

/-!
# Framing of a log in memory

Whatever is written to a log in memory, by calls that make an entry and by calls that pass one on, the
log has one line for each call, and reading it finds these lines again (`Emitter.framed_of_calls`).
The calls whose entry comes without a trace id are numbered from 1, over both kinds of calls; no two of
them get the same trace id, since the number is what stands after the last colon (`filledId_inj`).
-/

namespace ThreadSlots.Log

/-! ## Trace ids that are filled in -/

/-- The `n`-th trace id that a run fills in. -/
def filledId (runId scope : String) (n : Nat) : String :=
  s!"{runId}::{scope}::{Emitter.sequenceText n}"

theorem ofDigitChars_replicate_zero (k : Nat) :
    Nat.ofDigitChars 10 (List.replicate k '0') 0 = 0 := by
  induction k with
  | zero => rfl
  | succ k ih => rwa [List.replicate_succ, Nat.ofDigitChars_cons]

/-- The number can be read from its text. Zeros in front do not matter. -/
theorem ofDigitChars_sequenceText (n : Nat) :
    Nat.ofDigitChars 10 (Emitter.sequenceText n).toList 0 = n := by
  unfold Emitter.sequenceText Text.zeroPadded Text.padStart
  rw [String.toList_append, String.toList_ofList, Nat.ofDigitChars_append, ofDigitChars_replicate_zero,
    show (toString n).toList = Nat.toDigits 10 n from Nat.toList_repr]
  exact Nat.ofDigitChars_ten_toDigits

/-- What stands after the last colon is determined by the text. -/
theorem eq_of_append_colon {cs cs' ds ds' : List Char} (h : cs ++ ':' :: ds = cs' ++ ':' :: ds')
    (hds : ':' ∉ ds) (hds' : ':' ∉ ds') : ds = ds' := by
  have hsuffix : ∀ {as es es' : List Char}, ':' :: es = as ++ ':' :: es' → ':' ∉ es → es = es' := by
    intro as es es' heq hes
    cases as with
    | nil => exact (List.cons.inj heq).2
    | cons a as =>
      rw [(List.cons.inj heq).2] at hes
      exact absurd (List.mem_append_right as (List.mem_cons_self ..)) hes
  rcases List.append_eq_append_iff.1 h with ⟨as, -, heq⟩ | ⟨as, -, heq⟩
  · exact hsuffix heq hds
  · exact (hsuffix heq hds').symm

/-- The scope may hold whatever it likes: the trace id tells the number. -/
theorem filledId_inj {runId scope scope' : String} {m n : Nat}
    (h : filledId runId scope m = filledId runId scope' n) : m = n := by
  have htext (scope : String) (n : Nat) : (filledId runId scope n).toList =
      (runId.toList ++ "::".toList ++ scope.toList ++ [':']) ++
        ':' :: (Emitter.sequenceText n).toList := by
    simp [filledId, toString]
  have hboth := (htext scope m).symm.trans ((congrArg String.toList h).trans (htext scope' n))
  have htail := eq_of_append_colon hboth (colon_notMem_sequenceText m) (colon_notMem_sequenceText n)
  rw [← ofDigitChars_sequenceText m, htail, ofDigitChars_sequenceText]

namespace Emitter

/-! ## Calls -/

/-- A call that writes an entry. -/
inductive Call where
  /-- Make an entry and write it. -/
  | emit (clock : Clock) (level : Level) (scope event : String)
  /-- Write an entry. -/
  | append (entry : Entry)

/-- Make a call. Its answer is the entry if the call has made it. -/
def call (emitter : Emitter) : Call → Except FileError (Option Entry) × Emitter
  | .emit clock level scope event =>
    let (result, emitter) := emitter.emit clock level scope event
    (result.map some, emitter)
  | .append entry =>
    let (result, emitter) := emitter.append entry
    (result.map fun _ => none, emitter)

/-- All calls in order, with their answers. -/
def callAll (emitter : Emitter) : List Call → List (Except FileError (Option Entry)) × Emitter
  | [] => ([], emitter)
  | c :: calls =>
    let (answer, emitter) := emitter.call c
    let (answers, emitter) := emitter.callAll calls
    (answer :: answers, emitter)

namespace Call

/-- The scope of the trace id that the call leaves to the log to fill in, if it does. -/
def scope? : Call → Option String
  | .emit _ _ scope _ => some scope
  | .append entry => if entry.traceId.isEmpty then some entry.scope else none

/-- The entry that the call writes, given the trace id that is filled in if it has none. -/
def entry (runId traceId : String) : Call → Entry
  | .emit clock level _ event => { Entry.new clock traceId level event with runId := some runId }
  | .append entry =>
    { entry with
      traceId := if entry.traceId.isEmpty then traceId else entry.traceId
      runId := some (entry.runId.getD runId) }

/-- The entry that the call writes, given the number that is filled in if it asks for one. -/
def entryAt (runId : String) (n : Nat) (c : Call) : Entry :=
  c.entry runId ((c.scope?.map (filledId runId · n)).getD "")

/-- The answer to the call, given the entry that it writes. -/
def returned (e : Entry) : Call → Option Entry
  | .emit .. => some e
  | .append _ => none

end Call

/-- The entries that calls write, the first number that is filled in being `n`. -/
def entriesFrom (runId : String) (n : Nat) : List Call → List Entry
  | [] => []
  | c :: calls => c.entryAt runId n :: entriesFrom runId (n + c.scope?.toList.length) calls

/-- One call to a log in memory: it writes one line, and counts if it fills in a trace id. -/
theorem call_eq {emitter : Emitter} (hsink : emitter.sink = .memory) (c : Call) :
    emitter.call c = (.ok (c.returned (c.entryAt emitter.runId (emitter.issued + 1))),
      { emitter with
        issued := emitter.issued + c.scope?.toList.length
        written := (c.entryAt emitter.runId (emitter.issued + 1)).line :: emitter.written }) := by
  obtain ⟨runId, issued, sink, written⟩ := emitter
  cases hsink
  cases c with
  | emit clock level scope event => rfl
  | append entry =>
    by_cases h : entry.traceId.isEmpty
    · simp [call, append, complete, issueTraceId, write, Sink.write, Call.entryAt, Call.entry,
        Call.scope?, Call.returned, Entry.scope, filledId, h, Except.map]
    · simp [call, append, complete, write, Sink.write, Call.entryAt, Call.entry, Call.scope?,
        Call.returned, h, Except.map]

/-- All calls to a log in memory. -/
theorem callAll_eq (emitter : Emitter) (hsink : emitter.sink = .memory) (calls : List Call) :
    (emitter.callAll calls).1 =
        List.zipWith (fun c e => .ok (c.returned e)) calls
          (entriesFrom emitter.runId (emitter.issued + 1) calls) ∧
      (emitter.callAll calls).2.sink = .memory ∧
      (emitter.callAll calls).2.written = ((entriesFrom emitter.runId (emitter.issued + 1) calls).map
        (·.line)).reverse ++ emitter.written := by
  induction calls generalizing emitter with
  | nil => exact ⟨rfl, hsink, rfl⟩
  | cons c calls ih =>
    have hcall := call_eq hsink c
    unfold callAll
    rw [hcall]
    obtain ⟨hanswers, hmemory, hwritten⟩ := ih { emitter with
      issued := emitter.issued + c.scope?.toList.length
      written := (c.entryAt emitter.runId (emitter.issued + 1)).line :: emitter.written } hsink
    rw [show emitter.issued + c.scope?.toList.length + 1 =
      emitter.issued + 1 + c.scope?.toList.length by omega] at hanswers hwritten
    refine ⟨?_, hmemory, ?_⟩
    · show _ :: _ = _
      rw [hanswers]
      rfl
    · show (callAll _ calls).2.written = _
      rw [hwritten]
      simp [entriesFrom]

theorem length_entriesFrom (runId : String) (n : Nat) (calls : List Call) :
    (entriesFrom runId n calls).length = calls.length := by
  induction calls generalizing n with
  | nil => rfl
  | cons c calls ih => rw [entriesFrom, List.length_cons, ih, List.length_cons]

/-! ## What the calls leave -/

/-- The trace ids that are filled in, in order: those of the entries whose calls have none. -/
def filledIds (calls : List Call) (es : List Entry) : List String :=
  (calls.zip es).filterMap fun p => p.1.scope?.map fun _ => p.2.traceId

theorem filledIds_entriesFrom (runId : String) (n : Nat) (calls : List Call) :
    filledIds calls (entriesFrom runId n calls) =
      ((calls.filterMap Call.scope?).zipIdx n).map fun p => filledId runId p.1 p.2 := by
  induction calls generalizing n with
  | nil => rfl
  | cons c calls ih =>
    unfold filledIds at ih ⊢
    rw [entriesFrom, List.zip_cons_cons]
    cases hscope : c.scope? with
    | none =>
      rw [List.filterMap_cons_none (by simp [hscope]), List.filterMap_cons_none hscope]
      exact ih n
    | some scope =>
      have hid : (c.entryAt runId n).traceId = filledId runId scope n := by
        unfold Call.entryAt
        rw [hscope]
        cases c with
        | emit => rfl
        | append entry =>
          have hempty : entry.traceId.isEmpty := by
            by_contra hne
            simp [Call.scope?, hne] at hscope
          simp only [Call.entry, hempty, if_true]
          rfl
      rw [List.filterMap_cons_some (by simp [hscope]; rfl), List.filterMap_cons_some hscope,
        List.zipIdx_cons, List.map_cons, hid]
      exact congrArg _ (ih (n + 1))

theorem nodup_filledIds (runId : String) (n : Nat) (scopes : List String) :
    ((scopes.zipIdx n).map fun p => filledId runId p.1 p.2).Nodup := by
  have hnumbers : ((scopes.zipIdx n).map Prod.snd).Nodup := by
    rw [List.zipIdx_map_snd]
    exact List.nodup_range'
  rw [List.Nodup, List.pairwise_map] at hnumbers ⊢
  exact hnumbers.imp fun hne h => hne (filledId_inj h)

/-- What the text of a log has to do with the calls that wrote these entries to it. -/
structure Framed (runId : String) (calls : List Call) (es : List Entry) (text : String) : Prop where
  /-- One line for each call, in order. -/
  lines : Text.lines text.toList = es.map (·.line.toList)
  length : es.length = calls.length
  /-- No line is blank. -/
  trim : ∀ e ∈ es, Text.trim e.line.toList ≠ []
  /-- The entries are those of the calls, with nothing filled in but what is absent. -/
  entry : ∀ p ∈ calls.zip es, ∃ traceId, p.2 = p.1.entry runId traceId
  /-- Validating finds these lines, and wrong with them what is wrong with each in its place. -/
  validated : validateText text =
    ⟨calls.length, (es.zipIdx 1).flatMap fun e => complaints e.1.line e.2⟩
  /-- The trace ids that are filled in are numbered from 1. -/
  numbered : filledIds calls es =
    ((calls.filterMap Call.scope?).zipIdx 1).map fun p => filledId runId p.1 p.2
  distinct : (filledIds calls es).Nodup

theorem entry_entriesFrom (runId : String) (n : Nat) (calls : List Call) :
    ∀ p ∈ calls.zip (entriesFrom runId n calls), ∃ traceId, p.2 = p.1.entry runId traceId := by
  induction calls generalizing n with
  | nil => exact fun _ h => absurd h List.not_mem_nil
  | cons c calls ih =>
    rw [entriesFrom, List.zip_cons_cons]
    exact List.forall_mem_cons.2 ⟨⟨_, rfl⟩, ih _⟩

theorem framed_entriesFrom (runId : String) (calls : List Call) :
    Framed runId calls (entriesFrom runId 1 calls)
      (String.join ((entriesFrom runId 1 calls).map (·.line ++ "\n"))) where
  lines := lines_joined _
  length := length_entriesFrom runId 1 calls
  trim e _ := by
    rw [e.trim_line]
    exact fun h => absurd e.line_toList_ne_nil (by simp [h])
  entry := entry_entriesFrom runId 1 calls
  validated := by rw [validateText_joined, length_entriesFrom]
  numbered := filledIds_entriesFrom runId 1 calls
  distinct := by
    rw [filledIds_entriesFrom]
    exact nodup_filledIds runId 1 _

/-- Every call to a log in memory succeeds, and the log's text is one line for each of them. -/
theorem framed_of_calls (runId : String) (calls : List Call) :
    ∃ es text, Framed runId calls es text ∧
      (callAll { runId := runId } calls).1 = List.zipWith (fun c e => .ok (c.returned e)) calls es ∧
      (callAll { runId := runId } calls).2.buffered? = some text := by
  obtain ⟨hanswers, hmemory, hwritten⟩ :=
    callAll_eq { runId := runId } rfl calls
  refine ⟨_, _, framed_entriesFrom runId calls, hanswers, ?_⟩
  unfold buffered? text
  rw [hmemory, hwritten]
  simp [Function.comp_def]

end Emitter

end ThreadSlots.Log
