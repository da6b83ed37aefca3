import ThreadSlots.Proofs.Json.Reading
import ThreadSlots.Proofs.Json.RoundTrip
import ThreadSlots.Proofs.Log.TraceParts

/-!
# The contract of log entries

`Entry.Lawful` is what every entry of a log promises. The rules about a line's fields say the same of
the fields that an entry writes (`faults_fields`), and reading those yields the entry, but for nulls
(`ofFields?_fields`). Of a line that anyone may have written they say less: null counts as a field that
is present, and is then read as an absent one (`rules_of_ofFields?`).
-/

namespace ThreadSlots.Log

open Json (Fits FloatFree maxInteger nestingLimit)

namespace Entry

/-- What an entry must say, given what else it says. -/
structure Lawful (e : Entry) : Prop where
  trace : ThreeParts e.traceId.toList
  outcome : e.event ∈ closingEvents → e.outcome.isSome
  mode : ∀ m ∈ e.threadMode, m ∈ threadModes
  scenario : e.scenario.isSome → e.threadMode.isSome

/-- Numbers fit 64 bits, and free-form fields nest no deeper than the reader goes. -/
structure Fitting (e : Entry) : Prop where
  threads : ∀ n ∈ e.threads, n ≤ maxInteger
  checks : ∀ n ∈ e.checks, n ≤ maxInteger
  durationMs : ∀ n ∈ e.durationMs, n ≤ maxInteger
  metrics : ∀ v ∈ e.metrics, Fits (nestingLimit - 1) v
  details : ∀ v ∈ e.details, Fits (nestingLimit - 1) v

/-- The free-form fields have no floating-point numbers. -/
def FloatFree (e : Entry) : Prop :=
  (∀ v ∈ e.metrics, Json.FloatFree v) ∧ ∀ v ∈ e.details, Json.FloatFree v

/-- The entry without the free-form fields that are null. -/
def withoutNulls (e : Entry) : Entry :=
  { e with
    metrics := e.metrics.filter fun v => !v.isNull
    details := e.details.filter fun v => !v.isNull }

/-! ## The fields of a line -/

theorem lookup_optional (name key : String) (v : Option Json) :
    (v.toList.map fun v => (name, v)).lookup key = if key = name then v else none := by
  cases v with
  | none => simp
  | some v => simp [Json.lookup_cons]

/-- The names that the fields of an entry may have, in the order of the line. -/
def fieldNames : List String :=
  requiredFields ++ ["run_id", "stream", "scenario", "thread_mode", "outcome", "threads", "checks",
    "duration_ms", "metrics", "details"]

theorem keys_optional_sublist (name : String) (v : Option Json) :
    ((v.toList.map fun v => (name, v)).map (·.1)).Sublist [name] := by
  cases v <;> simp

theorem keys_fields (e : Entry) : (e.fields.map (·.1)).Sublist fieldNames := by
  have h := fun name v => keys_optional_sublist name v
  simp only [fields, List.map_append]
  exact ((((((((((List.Sublist.refl requiredFields).append (h _ _)).append (h _ _)).append
    (h _ _)).append (h _ _)).append (h _ _)).append (h _ _)).append (h _ _)).append (h _ _)).append
    (h _ _)).append (h _ _)

theorem nodup_keys_fields (e : Entry) : (e.fields.map (·.1)).Nodup :=
  List.Sublist.nodup e.keys_fields (by decide)

/-- The value of each field of a line. -/
def value? (e : Entry) (key : String) : Option Json :=
      match key with
      | "timestamp" => some (.str e.timestamp)
      | "trace_id" => some (.str e.traceId)
      | "level" => some (.str e.level.name)
      | "event" => some (.str e.event)
      | "run_id" => e.runId.map .str
      | "stream" => e.stream.map (.str ·.name)
      | "scenario" => e.scenario.map .str
      | "thread_mode" => e.threadMode.map .str
      | "outcome" => e.outcome.map (.str ·.name)
      | "threads" => e.threads.map .nat
      | "checks" => e.checks.map .nat
      | "duration_ms" => e.durationMs.map .nat
      | "metrics" => e.metrics
      | "details" => e.details
      | _ => none

theorem lookup_fields (e : Entry) (key : String) : e.fields.lookup key = e.value? key := by
  unfold value?
  split
  all_goals simp_all [fields, List.lookup_append, lookup_optional, Json.lookup_cons]

end Entry

/-! ## Faults -/

section

variable {fs : List (String × Json)}

theorem nameFaults_eq_nil_iff {name : String} {allowed : List String} :
    nameFaults fs name allowed = [] ↔ ∀ value ∈ textField? fs name, value ∈ allowed := by
  unfold nameFaults
  split
  · next value h => simp [h]
  · next h => simp [h]

theorem traceFaults_eq_nil_iff :
    traceFaults fs = [] ↔
      ∀ id ∈ textField? fs "trace_id", ThreeParts id.toList := by
  unfold traceFaults
  split
  · next id h => simp [h, threeParts_iff]
  · next h => simp [h]

theorem outcomeFaults_eq_nil_iff :
    outcomeFaults fs = [] ↔
      ∀ event ∈ textField? fs "event", event ∈ closingEvents → hasField fs "outcome" := by
  unfold outcomeFaults
  split
  · next event h => simp [h]
  · next h => simp [h]

theorem scenarioFaults_eq_nil_iff :
    scenarioFaults fs = [] ↔ (hasField fs "scenario" → hasField fs "thread_mode") := by
  simp [scenarioFaults]

theorem textField?_sortFields (h : (fs.map (·.1)).Nodup) :
    textField? (Json.sortFields fs) = textField? fs := by
  funext name
  simp only [textField?, Json.lookup_sortFields h]

theorem hasField_sortFields (h : (fs.map (·.1)).Nodup) :
    hasField (Json.sortFields fs) = hasField fs := by
  funext name
  simp only [hasField, Json.lookup_sortFields h]

theorem faults_sortFields (h : (fs.map (·.1)).Nodup) : faults (Json.sortFields fs) = faults fs := by
  simp only [faults, nameFaults, traceFaults, outcomeFaults, scenarioFaults, textField?_sortFields h,
    hasField_sortFields h]

/-- An object has no faults exactly if it obeys every rule about its fields. -/
theorem faults_eq_nil_iff :
    faults fs = [] ↔
      (∀ name ∈ requiredFields, hasField fs name) ∧
      (∀ value ∈ textField? fs "level", value ∈ Level.all.map Level.name) ∧
      (∀ value ∈ textField? fs "outcome", value ∈ Outcome.all.map Outcome.name) ∧
      (∀ value ∈ textField? fs "stream", value ∈ Stream.all.map Stream.name) ∧
      (∀ value ∈ textField? fs "thread_mode", value ∈ threadModes) ∧
      (∀ id ∈ textField? fs "trace_id", ThreeParts id.toList) ∧
      (∀ event ∈ textField? fs "event", event ∈ closingEvents → hasField fs "outcome") ∧
      (hasField fs "scenario" → hasField fs "thread_mode") := by
  simp only [faults, List.append_eq_nil_iff, nameFaults_eq_nil_iff, traceFaults_eq_nil_iff,
    outcomeFaults_eq_nil_iff, scenarioFaults_eq_nil_iff, List.map_eq_nil_iff, List.filter_eq_nil_iff,
    Bool.not_eq_true', Bool.not_eq_false, and_assoc]

end

/-! ## The rules for an entry's own fields -/

theorem textField?_fields (e : Entry) (name : String) :
    textField? e.fields name = (e.value? name).bind Json.text? := by
  rw [textField?, Entry.lookup_fields]

theorem hasField_fields (e : Entry) (name : String) :
    hasField e.fields name = (e.value? name).isSome := by
  rw [hasField, Entry.lookup_fields]

/-- The text of an optional field that is a text. -/
theorem bind_text?_map {α : Type} (text : α → String) (o : Option α) :
    (o.map fun a => Json.str (text a)).bind Json.text? = o.map text := by
  cases o <;> rfl

/-- An entry's own fields have no faults exactly if the entry is lawful. -/
theorem faults_fields (e : Entry) : faults e.fields = [] ↔ e.Lawful := by
  have hlevel : e.level.name ∈ Level.all.map Level.name := List.mem_map_of_mem e.level.mem_all
  have houtcome (o : Outcome) : o.name ∈ Outcome.all.map Outcome.name := List.mem_map_of_mem o.mem_all
  have hstream (s : Stream) : s.name ∈ Stream.all.map Stream.name := List.mem_map_of_mem s.mem_all
  have htext (o : Option String) : (o.map Json.str).bind Json.text? = o := by cases o <;> rfl
  simp only [faults_eq_nil_iff, textField?_fields, hasField_fields, Entry.value?, bind_text?_map, htext,
    Option.bind_some, Json.text?, Option.isSome_map]
  constructor
  · rintro ⟨-, -, -, -, hmode, htrace, hclosing, hscenario⟩
    exact ⟨htrace _ rfl, hclosing _ rfl, hmode, hscenario⟩
  · intro h
    refine ⟨by simp [requiredFields], by simpa using hlevel, ?_, ?_, h.mode, by simpa using h.trace,
      by simpa using h.outcome, h.scenario⟩
    · simpa using fun o _ => houtcome o
    · simpa using fun s _ => hstream s

/-! ## Reading an entry -/

section

variable {fs : List (String × Json)} {e : Entry}

/-- An entry is what the fields describe exactly if each part is what its field stands for. -/
theorem Entry.ofFields?_eq_some_iff :
    Entry.ofFields? fs = some e ↔
      textField? fs "timestamp" = some e.timestamp ∧
      textField? fs "trace_id" = some e.traceId ∧
      (fs.lookup "level").bind (Json.oneOf? Level.all Level.name) = some e.level ∧
      textField? fs "event" = some e.event ∧
      optionalField? fs "run_id" Json.text? = some e.runId ∧
      optionalField? fs "stream" (Json.oneOf? Stream.all Stream.name) = some e.stream ∧
      optionalField? fs "scenario" Json.text? = some e.scenario ∧
      optionalField? fs "thread_mode" Json.text? = some e.threadMode ∧
      optionalField? fs "outcome" (Json.oneOf? Outcome.all Outcome.name) = some e.outcome ∧
      optionalField? fs "threads" Json.nat? = some e.threads ∧
      optionalField? fs "checks" Json.nat? = some e.checks ∧
      optionalField? fs "duration_ms" Json.nat? = some e.durationMs ∧
      optionalField? fs "metrics" some = some e.metrics ∧
      optionalField? fs "details" some = some e.details := by
  constructor
  · intro h
    obtain ⟨_, h₁, h⟩ := Option.bind_eq_some_iff.1 h
    obtain ⟨_, h₂, h⟩ := Option.bind_eq_some_iff.1 h
    obtain ⟨_, h₃, h⟩ := Option.bind_eq_some_iff.1 h
    obtain ⟨_, h₄, h⟩ := Option.bind_eq_some_iff.1 h
    obtain ⟨_, h₅, h⟩ := Option.bind_eq_some_iff.1 h
    obtain ⟨_, h₆, h⟩ := Option.bind_eq_some_iff.1 h
    obtain ⟨_, h₇, h⟩ := Option.bind_eq_some_iff.1 h
    obtain ⟨_, h₈, h⟩ := Option.bind_eq_some_iff.1 h
    obtain ⟨_, h₉, h⟩ := Option.bind_eq_some_iff.1 h
    obtain ⟨_, h₁₀, h⟩ := Option.bind_eq_some_iff.1 h
    obtain ⟨_, h₁₁, h⟩ := Option.bind_eq_some_iff.1 h
    obtain ⟨_, h₁₂, h⟩ := Option.bind_eq_some_iff.1 h
    obtain ⟨_, h₁₃, h⟩ := Option.bind_eq_some_iff.1 h
    obtain ⟨_, h₁₄, h⟩ := Option.bind_eq_some_iff.1 h
    cases h
    exact ⟨h₁, h₂, h₃, h₄, h₅, h₆, h₇, h₈, h₉, h₁₀, h₁₁, h₁₂, h₁₃, h₁₄⟩
  · rintro ⟨h₁, h₂, h₃, h₄, h₅, h₆, h₇, h₈, h₉, h₁₀, h₁₁, h₁₂, h₁₃, h₁₄⟩
    unfold Entry.ofFields?
    rw [h₁, h₂, h₃, h₄, h₅, h₆, h₇, h₈, h₉, h₁₀, h₁₁, h₁₂, h₁₃, h₁₄]
    rfl

theorem optionalField?_of_lookup {α : Type} {name : String} {read : Json → Option α} {write : α → Json}
    {o : Option α} (hlookup : fs.lookup name = o.map write) (hread : ∀ a, read (write a) = some a)
    (hnull : read .null = none) : optionalField? fs name read = some o := by
  unfold optionalField?
  rw [hlookup]
  cases o with
  | none => rfl
  | some a =>
    have ha := hread a
    simp only [Option.map_some]
    split
    · next h => cases h
    · next h =>
      rw [Option.some.inj h, hnull] at ha
      cases ha
    · next h =>
      rw [← Option.some.inj h, ha]
      rfl

theorem optionalField?_some {name : String} :
    optionalField? fs name some = some ((fs.lookup name).filter fun v => !v.isNull) := by
  unfold optionalField?
  split
  · next h => rw [h]; rfl
  · next h => rw [h]; rfl
  · next v hv h =>
    rw [h]
    cases v <;> first | rfl | exact absurd rfl hv

end

theorem nat?_nat (n : Nat) : (Json.nat n).nat? = some n := by
  simp [Json.nat, Json.nat?]

/-- An entry is what its own fields describe, but for nulls. -/
theorem ofFields?_fields (e : Entry) :
    Entry.ofFields? (Json.sortFields e.fields) = some e.withoutNulls := by
  have hlookup (name : String) : (Json.sortFields e.fields).lookup name = e.value? name := by
    rw [Json.lookup_sortFields e.nodup_keys_fields, Entry.lookup_fields]
  have htext (s : String) : (Json.str s).text? = some s := rfl
  have hlevel (l : Level) : Json.oneOf? Level.all Level.name (.str l.name) = some l := by
    cases l <;> rfl
  have hstream (s : Stream) : Json.oneOf? Stream.all Stream.name (.str s.name) = some s := by
    cases s <;> rfl
  have houtcome (o : Outcome) : Json.oneOf? Outcome.all Outcome.name (.str o.name) = some o := by
    cases o <;> rfl
  rw [Entry.ofFields?_eq_some_iff]
  simp only [textField?, hlookup, optionalField?_some]
  refine ⟨rfl, rfl, hlevel e.level, rfl, optionalField?_of_lookup (hlookup _) htext rfl,
    optionalField?_of_lookup (hlookup _) hstream rfl, optionalField?_of_lookup (hlookup _) htext rfl,
    optionalField?_of_lookup (hlookup _) htext rfl, optionalField?_of_lookup (hlookup _) houtcome rfl,
    optionalField?_of_lookup (hlookup _) nat?_nat rfl, optionalField?_of_lookup (hlookup _) nat?_nat rfl,
    optionalField?_of_lookup (hlookup _) nat?_nat rfl, rfl, rfl⟩

/-! ## An entry's line -/

theorem Entry.forall_fields {e : Entry} {P : Json → Prop} (hstr : ∀ s, P (.str s))
    (hthreads : ∀ n ∈ e.threads, P (.nat n)) (hchecks : ∀ n ∈ e.checks, P (.nat n))
    (hduration : ∀ n ∈ e.durationMs, P (.nat n)) (hmetrics : ∀ v ∈ e.metrics, P v)
    (hdetails : ∀ v ∈ e.details, P v) : ∀ f ∈ e.fields, P f.2 := by
  simp only [Entry.fields, List.forall_mem_append, List.forall_mem_cons, List.forall_mem_map,
    Option.mem_toList, Option.map_eq_some_iff]
  simp_all

section

variable {e : Entry} (hfit : e.Fitting) (hfree : e.FloatFree)

include hfit hfree in
theorem ofLine_line : Entry.ofLine e.line = Entry.ofObject (Json.sortFields e.fields) := by
  have hnat (n : Nat) (hn : n ≤ maxInteger) :
      Fits (nestingLimit - 1) (.nat n) ∧ Json.FloatFree (.nat n) :=
    ⟨.int _ (by omega) (by omega), .int _⟩
  have hfields : ∀ f ∈ e.fields, Fits (nestingLimit - 1) f.2 ∧ Json.FloatFree f.2 :=
    Entry.forall_fields (P := fun v => Fits (nestingLimit - 1) v ∧ Json.FloatFree v)
      (fun s => ⟨.str _ s, .str s⟩)
      (fun n hn => hnat n (hfit.threads n hn)) (fun n hn => hnat n (hfit.checks n hn))
      (fun n hn => hnat n (hfit.durationMs n hn))
      (fun v hv => ⟨hfit.metrics v hv, hfree.1 v hv⟩) (fun v hv => ⟨hfit.details v hv, hfree.2 v hv⟩)
  unfold Entry.ofLine Entry.line
  rw [Json.parse?_obj hfields]
  rfl

include hfit hfree in
/-- The line of a lawful entry is read as the entry, but for nulls. -/
theorem ofLine_line_of_lawful (h : e.Lawful) : Entry.ofLine e.line = .ok e.withoutNulls := by
  rw [ofLine_line hfit hfree, Entry.ofObject, faults_sortFields e.nodup_keys_fields,
    (faults_fields e).2 h, ofFields?_fields]

include hfit hfree in
/-- The line of any other entry is refused, for the rules that the entry breaks. -/
theorem ofLine_line_of_not_lawful (h : ¬e.Lawful) :
    Entry.ofLine e.line = .error (faults e.fields) := by
  rw [ofLine_line hfit hfree, Entry.ofObject, faults_sortFields e.nodup_keys_fields]
  split
  · next hnil => exact absurd ((faults_fields e).1 hnil) h
  · rfl

end

theorem validateLine_eq_ok_iff {line : String} {n : Nat} {e : Entry} :
    validateLine line n = .ok e ↔ Entry.ofLine line = .ok e := by
  unfold validateLine
  cases Entry.ofLine line <;> simp [Except.mapError]

/-- An entry within what JSON can carry is accepted from its own line exactly if it is lawful, and it
comes back as it was, but for nulls. -/
theorem validateLine_line (e : Entry) (hfit : e.Fitting) (hfree : e.FloatFree) (n : Nat) :
    ((∃ r, validateLine e.line n = .ok r) ↔ e.Lawful) ∧
      ∀ r, validateLine e.line n = .ok r → r = e.withoutNulls := by
  simp only [validateLine_eq_ok_iff]
  by_cases h : e.Lawful
  · rw [ofLine_line_of_lawful hfit hfree h]
    exact ⟨⟨fun _ => h, fun _ => ⟨_, rfl⟩⟩, fun r hr => (Except.ok.inj hr).symm⟩
  · rw [ofLine_line_of_not_lawful hfit hfree h]
    refine ⟨⟨?_, fun h' => absurd h' h⟩, ?_⟩
    · rintro ⟨r, hr⟩
      cases hr
    · intro r hr
      cases hr

/-- An entry with characters that are escaped, the largest counts, a null and a nested object. -/
def laden : Entry :=
  { timestamp := "2024-01-01T00:00:00.000Z", traceId := "a\"b::\u0001😀\n::c", level := .warn
    event := "scenario_end", scenario := some "\\é", threadMode := some "generic", outcome := some .skip
    threads := some 0, checks := some maxInteger, metrics := some .null
    details := some (.obj [("a", .arr [.int (-9223372036854775808), .str "\t"]), ("b", .obj [])]) }

theorem validateLine_line_laden :
    laden.Fitting ∧ laden.FloatFree ∧ laden.Lawful ∧
      validateLine laden.line 7 = .ok laden.withoutNulls ∧ laden.withoutNulls.metrics = none := by
  have hfit : laden.Fitting := by
    refine ⟨by simp [laden], by simp [laden], by simp [laden], ?_, ?_⟩
    · rintro v ⟨⟩
      exact .null _
    · rintro v ⟨⟩
      refine .obj (List.pairwise_pair.2 (by decide)) ?_
      simp only [List.forall_mem_cons]
      refine ⟨.arr ?_, .obj List.Pairwise.nil (List.forall_mem_nil _), List.forall_mem_nil _⟩
      simp only [List.forall_mem_cons]
      exact ⟨.int _ (by omega) (by decide), .str _ _, List.forall_mem_nil _⟩
  have hfree : laden.FloatFree := by
    refine ⟨?_, ?_⟩
    · rintro v ⟨⟩
      exact .null
    · rintro v ⟨⟩
      refine .obj ?_
      simp only [List.forall_mem_cons]
      refine ⟨.arr ?_, .obj (List.forall_mem_nil _), List.forall_mem_nil _⟩
      simp only [List.forall_mem_cons]
      exact ⟨.int _, .str _, List.forall_mem_nil _⟩
  have hlawful : laden.Lawful := ⟨by decide, by decide, by simp [laden, threadModes], by decide⟩
  obtain ⟨haccepted, hsame⟩ := validateLine_line laden hfit hfree 7
  obtain ⟨r, hr⟩ := haccepted.2 hlawful
  exact ⟨hfit, hfree, hlawful, hsame r hr ▸ hr, rfl⟩

/-! ## Entries that were accepted -/

theorem ofLine_eq_ok_iff {line : String} {e : Entry} :
    Entry.ofLine line = .ok e ↔
      ∃ fields, Json.parse? line = some (.obj fields) ∧ faults fields = [] ∧
        Entry.ofFields? fields = some e := by
  unfold Entry.ofLine Entry.ofObject
  constructor
  · intro h
    split at h
    · cases h
    · next fields hparse =>
      refine ⟨fields, hparse, ?_⟩
      split at h
      · next hnil =>
        split at h
        · next hentry =>
          cases h
          exact ⟨hnil, hentry⟩
        · cases h
      · cases h
    · cases h
  · rintro ⟨fields, hparse, hnil, hentry⟩
    rw [hparse]
    simp only [hnil, hentry]

section

variable {fs : List (String × Json)} {e : Entry} {name : String} {α : Type} {read : Json → Option α}
  {o : Option α}

/-- A part that an optional field stands for was read from a value that is not null. -/
theorem exists_of_mem_optionalField? {a : α} (h : optionalField? fs name read = some o) (ha : a ∈ o) :
    ∃ v, fs.lookup name = some v ∧ v ≠ .null ∧ read v = some a := by
  unfold optionalField? at h
  split at h
  · cases h
    cases ha
  · cases h
    cases ha
  · next v hv hlookup =>
    obtain ⟨b, hb, rfl⟩ := Option.map_eq_some_iff.1 h
    cases ha
    exact ⟨v, hlookup, hv, hb⟩

/-- An optional field stands for something exactly if it is present and not null. -/
theorem isSome_iff_of_optionalField? (h : optionalField? fs name read = some o) :
    o.isSome ↔ hasField fs name ∧ fs.lookup name ≠ some .null := by
  unfold optionalField? at h
  unfold hasField
  split at h
  · next hlookup =>
    cases h
    simp [hlookup]
  · next hlookup =>
    cases h
    simp [hlookup]
  · next v hv hlookup =>
    obtain ⟨b, hb, rfl⟩ := Option.map_eq_some_iff.1 h
    simpa [hlookup] using hv

theorem mem_of_lookup {v : Json} (h : fs.lookup name = some v) : (name, v) ∈ fs := by
  obtain ⟨before, after, rfl, -⟩ := List.lookup_eq_some_iff.1 h
  simp

/-- What was read from fields that fit does so itself. -/
theorem fitting_of_ofFields? (hfs : ∀ f ∈ fs, Fits (nestingLimit - 1) f.2)
    (h : Entry.ofFields? fs = some e) : e.Fitting := by
  obtain ⟨-, -, -, -, -, -, -, -, -, hthreads, hchecks, hduration, hmetrics, hdetails⟩ :=
    Entry.ofFields?_eq_some_iff.1 h
  have hnat {name : String} {o : Option Nat} (ho : optionalField? fs name Json.nat? = some o) :
      ∀ n ∈ o, n ≤ maxInteger := by
    intro n hn
    obtain ⟨v, hlookup, -, hv⟩ := exists_of_mem_optionalField? ho hn
    cases hfs _ (mem_of_lookup hlookup) with
    | int _ hlow hhigh =>
      simp only [Json.nat?] at hv
      split at hv
      · cases hv
      · cases hv
        omega
    | _ => cases hv
  have hany {name : String} {o : Option Json} (ho : optionalField? fs name some = some o) :
      ∀ v ∈ o, Fits (nestingLimit - 1) v := by
    intro v hv
    obtain ⟨w, hlookup, -, hw⟩ := exists_of_mem_optionalField? ho hv
    cases hw
    exact hfs _ (mem_of_lookup hlookup)
  exact ⟨hnat hthreads, hnat hchecks, hnat hduration, hany hmetrics, hany hdetails⟩

/-- What was read has no nulls left. -/
theorem withoutNulls_of_ofFields? (h : Entry.ofFields? fs = some e) : e.withoutNulls = e := by
  obtain ⟨-, -, -, -, -, -, -, -, -, -, -, -, hmetrics, hdetails⟩ := Entry.ofFields?_eq_some_iff.1 h
  rw [optionalField?_some] at hmetrics hdetails
  have hfilter (o : Option Json) :
      (o.filter fun v => !v.isNull).filter (fun v => !v.isNull) = o.filter fun v => !v.isNull := by
    cases o with
    | none => rfl
    | some v => cases hv : v.isNull <;> simp [Option.filter, hv]
  unfold Entry.withoutNulls
  rw [← Option.some.inj hmetrics, ← Option.some.inj hdetails, hfilter, hfilter,
    Option.some.inj hmetrics, Option.some.inj hdetails]

/-- Two of the rules for an entry hold whatever was read; a null slips past the other two. -/
theorem rules_of_ofFields? (hnil : faults fs = []) (h : Entry.ofFields? fs = some e) :
    ThreeParts e.traceId.toList ∧ (∀ m ∈ e.threadMode, m ∈ threadModes) ∧
      (e.Lawful ↔
        (e.event ∈ closingEvents → fs.lookup "outcome" ≠ some .null) ∧
        (e.scenario.isSome → fs.lookup "thread_mode" ≠ some .null)) := by
  obtain ⟨-, -, -, -, hmodes, htrace, hclosing, hnaming⟩ := faults_eq_nil_iff.1 hnil
  obtain ⟨-, hid, -, hevent, -, -, hscenario, hmode, houtcome, -⟩ := Entry.ofFields?_eq_some_iff.1 h
  have hparts := htrace _ hid
  have hallowed : ∀ m ∈ e.threadMode, m ∈ threadModes := by
    intro m hm
    obtain ⟨v, hlookup, -, hv⟩ := exists_of_mem_optionalField? hmode hm
    exact hmodes m (by rw [textField?, hlookup, Option.bind_some, hv]; rfl)
  have hclosing := hclosing _ hevent
  refine ⟨hparts, hallowed, ?_, ?_⟩
  · intro hlawful
    exact ⟨fun hclose => ((isSome_iff_of_optionalField? houtcome).1 (hlawful.outcome hclose)).2,
      fun hs => ((isSome_iff_of_optionalField? hmode).1 (hlawful.scenario hs)).2⟩
  · rintro ⟨houtcome', hmode'⟩
    refine ⟨hparts, fun hclose => ?_, hallowed, fun hs => ?_⟩
    · exact (isSome_iff_of_optionalField? houtcome).2 ⟨hclosing hclose, houtcome' hclose⟩
    · have hfield := ((isSome_iff_of_optionalField? hscenario).1 hs).1
      exact (isSome_iff_of_optionalField? hmode).2 ⟨hnaming hfield, hmode' hs⟩

end

/-- An accepted entry has a trace id of three parts and no unknown thread mode. It is lawful exactly if
its line has no null for an outcome that its event must carry or for a thread mode that its scenario
must name; and exactly then it is accepted again from its own line, as it is. -/
theorem accepted_lawful_iff (line : String) (n : Nat) (e : Entry) (h : validateLine line n = .ok e) :
    ThreeParts e.traceId.toList ∧ (∀ m ∈ e.threadMode, m ∈ threadModes) ∧
    ∃ fields, Json.parse? line = some (.obj fields) ∧
      (e.Lawful ↔
        (e.event ∈ closingEvents → fields.lookup "outcome" ≠ some .null) ∧
        (e.scenario.isSome → fields.lookup "thread_mode" ≠ some .null)) ∧
      (e.FloatFree → ∀ m, validateLine e.line m = .ok e ↔ e.Lawful) := by
  obtain ⟨fields, hparse, hnil, hentry⟩ := ofLine_eq_ok_iff.1 (validateLine_eq_ok_iff.1 h)
  obtain ⟨hparts, hallowed, hlawful⟩ := rules_of_ofFields? hnil hentry
  refine ⟨hparts, hallowed, fields, hparse, hlawful, fun hfree m => ?_⟩
  have hfit : e.Fitting := by
    cases Json.fits_of_parse? hparse with
    | obj _ hfits => exact fitting_of_ofFields? hfits hentry
  rw [validateLine_eq_ok_iff]
  constructor
  · intro hok
    by_contra hl
    rw [ofLine_line_of_not_lawful hfit hfree hl] at hok
    cases hok
  · intro hl
    rw [ofLine_line_of_lawful hfit hfree hl, withoutNulls_of_ofFields? hentry]

/-- A line with an escaped character and names in their longer form. -/
def roundaboutLine : String :=
  "\x7b\"event\":\"run_\\u0065nd\",\"level\": \x7b\"info\":null\x7d," ++
    "\"outcome\":\x7b\"pass\":null\x7d,\"metrics\":null,\"timestamp\":\"t\",\"trace_id\":\"a::b::c\"\x7d"

def passedEnd : Entry :=
  { timestamp := "t", traceId := "a::b::c", level := .info, event := "run_end", outcome := some .pass }

set_option maxRecDepth 2000 in
theorem accepted_lawful_iff_roundabout :
    validateLine roundaboutLine 3 = .ok passedEnd ∧ passedEnd.FloatFree ∧ passedEnd.Lawful ∧
      validateLine passedEnd.line 1 = .ok passedEnd := by
  have haccepted : validateLine roundaboutLine 3 = .ok passedEnd := by rfl
  have hfree : passedEnd.FloatFree := by simp [passedEnd, Entry.FloatFree]
  have hl : passedEnd.Lawful := ⟨by decide, by decide, by simp [passedEnd], by decide⟩
  obtain ⟨-, -, -, -, -, hagain⟩ := accepted_lawful_iff _ _ _ haccepted
  exact ⟨haccepted, hfree, hl, (hagain hfree 1).2 hl⟩

/-- The end of a run whose outcome is null. -/
def openEndLine : String :=
  "\x7b\"timestamp\":\"t\",\"trace_id\":\"a::b::c\",\"level\":\"info\"," ++
    "\"event\":\"run_end\",\"outcome\":null\x7d"

def openEnd : Entry :=
  { timestamp := "t", traceId := "a::b::c", level := .info, event := "run_end" }

set_option maxRecDepth 2000 in
/-- The line is accepted, but its entry lacks the outcome that it must carry, and the entry's own line
is refused. -/
theorem openEnd_accepted_not_lawful :
    validateLine openEndLine 1 = .ok openEnd ∧ ¬openEnd.Lawful ∧
      validateLine openEnd.line 1 = .error [⟨1, .noOutcome "run_end"⟩] := by
  refine ⟨by rfl, fun h => ?_, by rfl⟩
  cases h.outcome (by decide)

end ThreadSlots.Log
