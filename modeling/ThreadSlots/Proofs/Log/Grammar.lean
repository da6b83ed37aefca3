import ThreadSlots.Proofs.Log.Contract

/-!
# The grammar of log lines

`Grammatical` says field by field which objects are lines of a log, and `Written` which entry such an
object writes. Validation first checks some rules and then reads the fields, and the two overlap: a
name in its short form is checked twice, one in its long form only when it is read, and a key that
must be present may still be null. Together they accept the grammar and nothing else
(`validateLine_iff_grammatical`). A number with a fraction or an exponent is no integer, and neither is
a negative zero or a number of more than 64 bits (`Json.fits_of_parse?`).
-/

namespace ThreadSlots.Log

open Json (Fits maxInteger nestingLimit)

/-- The values that stand for a name: its text, or an object of that one key with null as its value. -/
inductive Names (name : String) : Json → Prop where
  | text : Names name (.str name)
  | key : Names name (.obj [(name, .null)])

section

variable (fs : List (String × Json))

/-- A key that may be absent or null, and has a value of some kind otherwise. -/
def Optionally (key : String) (kind : Json → Prop) : Prop :=
  ∀ v, fs.lookup key = some v → v = .null ∨ kind v

/-- The fields of a line, in the words of the contract. -/
structure Grammatical : Prop where
  timestamp : ∃ s, fs.lookup "timestamp" = some (.str s)
  traceId : ∃ s, fs.lookup "trace_id" = some (.str s) ∧ ThreeParts s.toList
  level : ∃ v, fs.lookup "level" = some v ∧
    ∃ name ∈ ["trace", "debug", "info", "warn", "error"], Names name v
  event : ∃ s, fs.lookup "event" = some (.str s)
  runId : Optionally fs "run_id" fun v => ∃ s, v = .str s
  stream : Optionally fs "stream" fun v => ∃ name ∈ ["unit", "scenario", "perf"], Names name v
  scenario : Optionally fs "scenario" fun v => ∃ s, v = .str s
  threadMode : Optionally fs "thread_mode" fun v => v = .str "carried" ∨ v = .str "generic"
  outcome : Optionally fs "outcome" fun v =>
    ∃ name ∈ ["pass", "fail", "skip", "error"], Names name v
  threads : Optionally fs "threads" fun v => ∃ n ≤ maxInteger, v = .nat n
  checks : Optionally fs "checks" fun v => ∃ n ≤ maxInteger, v = .nat n
  durationMs : Optionally fs "duration_ms" fun v => ∃ n ≤ maxInteger, v = .nat n
  closing : ∀ event ∈ ["scenario_end", "run_end"], fs.lookup "event" = some (.str event) →
    ∃ v, fs.lookup "outcome" = some v
  staging : (∃ v, fs.lookup "scenario" = some v) → ∃ v, fs.lookup "thread_mode" = some v

/-- What a key that may be absent or null stands for. -/
def Stands {α : Type} (key : String) (means : α → Json → Prop) : Option α → Prop
  | none => fs.lookup key = none ∨ fs.lookup key = some .null
  | some a => ∃ v, fs.lookup key = some v ∧ v ≠ .null ∧ means a v

/-- Each part of the entry is the value of its key. -/
structure Written (e : Entry) : Prop where
  timestamp : fs.lookup "timestamp" = some (.str e.timestamp)
  traceId : fs.lookup "trace_id" = some (.str e.traceId)
  level : ∃ v, fs.lookup "level" = some v ∧ Names e.level.name v
  event : fs.lookup "event" = some (.str e.event)
  runId : Stands fs "run_id" (fun s v => v = .str s) e.runId
  stream : Stands fs "stream" (fun s v => Names s.name v) e.stream
  scenario : Stands fs "scenario" (fun s v => v = .str s) e.scenario
  threadMode : Stands fs "thread_mode" (fun s v => v = .str s) e.threadMode
  outcome : Stands fs "outcome" (fun o v => Names o.name v) e.outcome
  threads : Stands fs "threads" (fun n v => v = .nat n) e.threads
  checks : Stands fs "checks" (fun n v => v = .nat n) e.checks
  durationMs : Stands fs "duration_ms" (fun n v => v = .nat n) e.durationMs
  metrics : Stands fs "metrics" (fun w v => v = w) e.metrics
  details : Stands fs "details" (fun w v => v = w) e.details

end

/-! ## Reading single values -/

theorem text?_eq_some_iff {v : Json} {s : String} : v.text? = some s ↔ v = .str s := by
  cases v <;> simp [Json.text?]

theorem nat?_eq_some_iff {v : Json} {n : Nat} : v.nat? = some n ↔ v = .nat n := by
  cases v with
  | int i =>
    simp only [Json.nat?, Json.nat, Json.int.injEq]
    split
    · next h =>
      refine iff_of_false (by simp) ?_
      omega
    · next h =>
      rw [Option.some.injEq]
      omega
  | _ => simp [Json.nat?, Json.nat]

theorem enumName?_eq_some_iff {v : Json} {name : String} : v.enumName? = some name ↔ Names name v := by
  constructor
  · intro h
    unfold Json.enumName? at h
    split at h
    · cases h
      exact .text
    · cases h
      exact .key
    · cases h
  · rintro (_ | _) <;> rfl

/-- A member of an enumeration is read from what stands for its name. -/
theorem oneOf?_eq_some_iff {α : Type} {all : List α} {name : α → String} (hall : ∀ a, a ∈ all)
    (hinj : Function.Injective name) {v : Json} {a : α} :
    Json.oneOf? all name v = some a ↔ Names (name a) v := by
  have hfind (b : α) (s : String) : all.find? (fun a => name a == s) = some b ↔ name b = s := by
    constructor
    · intro h
      simpa using List.find?_some h
    · rintro rfl
      obtain ⟨c, hc⟩ := Option.isSome_iff_exists.1
        (List.find?_isSome (p := fun a => name a == name b).2 ⟨b, hall b, by simp⟩)
      have hname : name c = name b := by simpa using List.find?_some hc
      rw [hc, hinj hname]
  simp only [Json.oneOf?, Option.bind_eq_some_iff, enumName?_eq_some_iff, hfind]
  exact ⟨fun ⟨s, hs, hname⟩ => hname ▸ hs, fun h => ⟨_, h, rfl⟩⟩

theorem Level.name_injective : Function.Injective Level.name := by
  intro a b
  cases a <;> cases b <;> decide

theorem Outcome.name_injective : Function.Injective Outcome.name := by
  intro a b
  cases a <;> cases b <;> decide

theorem Stream.name_injective : Function.Injective Stream.name := by
  intro a b
  cases a <;> cases b <;> decide

/-! ## Reading fields -/

section

variable {fs : List (String × Json)}

theorem textField?_eq_some_iff {key s : String} :
    textField? fs key = some s ↔ fs.lookup key = some (.str s) := by
  simp [textField?, Option.bind_eq_some_iff, text?_eq_some_iff]

theorem optionalField?_eq_some_iff {α : Type} {key : String} {read : Json → Option α}
    {means : α → Json → Prop} (hread : ∀ v a, read v = some a ↔ means a v) {o : Option α} :
    optionalField? fs key read = some o ↔ Stands fs key means o := by
  unfold optionalField? Stands
  split
  · next h => cases o <;> simp [h]
  · next h => cases o <;> simp [h]
  · next v hv h => cases o <;> simp_all

theorem optionalText?_eq_some_iff {key : String} {o : Option String} :
    optionalField? fs key Json.text? = some o ↔ Stands fs key (fun s v => v = .str s) o :=
  optionalField?_eq_some_iff fun _ _ => text?_eq_some_iff

theorem optionalNat?_eq_some_iff {key : String} {o : Option Nat} :
    optionalField? fs key Json.nat? = some o ↔ Stands fs key (fun n v => v = .nat n) o :=
  optionalField?_eq_some_iff fun _ _ => nat?_eq_some_iff

theorem optionalJson?_eq_some_iff {key : String} {o : Option Json} :
    optionalField? fs key some = some o ↔ Stands fs key (fun w v => v = w) o :=
  optionalField?_eq_some_iff fun _ _ => Option.some_inj

theorem optionalName?_eq_some_iff {α : Type} {all : List α} {name : α → String} (hall : ∀ a, a ∈ all)
    (hinj : Function.Injective name) {key : String} {o : Option α} :
    optionalField? fs key (Json.oneOf? all name) = some o ↔ Stands fs key (fun a => Names (name a)) o :=
  optionalField?_eq_some_iff fun _ _ => oneOf?_eq_some_iff hall hinj

/-- An entry is read exactly if the fields write it. -/
theorem ofFields?_eq_some_iff_written {e : Entry} : Entry.ofFields? fs = some e ↔ Written fs e := by
  rw [Entry.ofFields?_eq_some_iff]
  simp only [textField?_eq_some_iff, Option.bind_eq_some_iff, optionalText?_eq_some_iff,
    optionalNat?_eq_some_iff, optionalJson?_eq_some_iff,
    oneOf?_eq_some_iff Level.mem_all Level.name_injective,
    optionalName?_eq_some_iff Stream.mem_all Stream.name_injective,
    optionalName?_eq_some_iff Outcome.mem_all Outcome.name_injective]
  constructor
  · rintro ⟨h₁, h₂, h₃, h₄, h₅, h₆, h₇, h₈, h₉, h₁₀, h₁₁, h₁₂, h₁₃, h₁₄⟩
    exact ⟨h₁, h₂, h₃, h₄, h₅, h₆, h₇, h₈, h₉, h₁₀, h₁₁, h₁₂, h₁₃, h₁₄⟩
  · rintro ⟨h₁, h₂, h₃, h₄, h₅, h₆, h₇, h₈, h₉, h₁₀, h₁₁, h₁₂, h₁₃, h₁₄⟩
    exact ⟨h₁, h₂, h₃, h₄, h₅, h₆, h₇, h₈, h₉, h₁₀, h₁₁, h₁₂, h₁₃, h₁₄⟩

end

/-! ## The rules and the grammar -/

section

variable {fs : List (String × Json)} {key : String}

theorem Stands.optionally {α : Type} {means : α → Json → Prop} {kind : Json → Prop} {o : Option α}
    (h : Stands fs key means o) (hkind : ∀ a v, fs.lookup key = some v → means a v → kind v) :
    Optionally fs key kind := by
  intro v hv
  cases o with
  | none =>
    obtain habsent | hnull := h
    · rw [habsent] at hv
      cases hv
    · rw [hnull] at hv
      exact .inl (Option.some.inj hv).symm
  | some a =>
    obtain ⟨w, hw, -, hmeans⟩ := h
    rw [hw] at hv
    cases hv
    exact .inr (hkind a _ hw hmeans)

theorem Optionally.exists_stands {α : Type} {kind : Json → Prop} (h : Optionally fs key kind)
    (means : α → Json → Prop) (hkind : ∀ v, kind v → ∃ a, means a v) :
    ∃ o, Stands fs key means o := by
  cases hv : fs.lookup key with
  | none => exact ⟨none, .inl hv⟩
  | some v =>
    by_cases hnull : v = .null
    · exact ⟨none, .inr (hnull ▸ hv)⟩
    · obtain ⟨a, ha⟩ := hkind v ((h v hv).resolve_left hnull)
      exact ⟨some a, v, hv, hnull, ha⟩

/-- A text where the grammar has a value of some kind is a text of that kind. -/
theorem Optionally.of_text {kind : Json → Prop} (h : Optionally fs key kind) {s : String}
    (hs : s ∈ textField? fs key) : kind (.str s) :=
  (h _ (textField?_eq_some_iff.1 hs)).resolve_left (by simp)

theorem names_str_iff {name s : String} : Names name (.str s) ↔ name = s := by
  constructor
  · rintro ⟨⟩
    rfl
  · rintro rfl
    exact .text

/-- The values that stand for a member of an enumeration. -/
theorem exists_names_iff {α : Type} {all : List α} (hall : ∀ a, a ∈ all) (name : α → String) {v : Json} :
    (∃ s ∈ all.map name, Names s v) ↔ ∃ a, Names (name a) v := by
  constructor
  · rintro ⟨s, hs, hv⟩
    obtain ⟨a, -, rfl⟩ := List.mem_map.1 hs
    exact ⟨a, hv⟩
  · rintro ⟨a, hv⟩
    exact ⟨name a, List.mem_map_of_mem (hall a), hv⟩

/-- What obeys the grammar obeys every rule. -/
theorem Grammatical.faults_eq_nil (h : Grammatical fs) : faults fs = [] := by
  obtain ⟨timestamp, htimestamp⟩ := h.timestamp
  obtain ⟨traceId, htraceId, hparts⟩ := h.traceId
  obtain ⟨level, hlevel, levelName, hlevelName, hnames⟩ := h.level
  obtain ⟨event, hevent⟩ := h.event
  have hfield {key : String} : hasField fs key ↔ ∃ v, fs.lookup key = some v := Option.isSome_iff_exists
  rw [faults_eq_nil_iff]
  refine ⟨?_, fun value hvalue => ?_, fun value hvalue => ?_, fun value hvalue => ?_,
    fun value hvalue => ?_, fun value hvalue => ?_, fun value hvalue hclosing => ?_, fun hscenario => ?_⟩
  · simp only [requiredFields, List.forall_mem_cons, hfield]
    exact ⟨⟨_, htimestamp⟩, ⟨_, htraceId⟩, ⟨_, hlevel⟩, ⟨_, hevent⟩, List.forall_mem_nil _⟩
  · rw [textField?_eq_some_iff.1 hvalue] at hlevel
    cases hlevel
    exact names_str_iff.1 hnames ▸ hlevelName
  · obtain ⟨name, hname, hnames⟩ := h.outcome.of_text hvalue
    exact names_str_iff.1 hnames ▸ hname
  · obtain ⟨name, hname, hnames⟩ := h.stream.of_text hvalue
    exact names_str_iff.1 hnames ▸ hname
  · simpa [threadModes] using h.threadMode.of_text hvalue
  · rw [textField?_eq_some_iff.1 hvalue] at htraceId
    cases htraceId
    exact hparts
  · exact hfield.2 (h.closing value hclosing (textField?_eq_some_iff.1 hvalue))
  · exact hfield.2 (h.staging (hfield.1 hscenario))

/-- What obeys the grammar writes an entry. -/
theorem Grammatical.exists_written (h : Grammatical fs) : ∃ e, Written fs e := by
  have htext {key : String} (h : Optionally fs key fun v => ∃ s, v = .str s) :=
    h.exists_stands (fun s v => v = .str s) fun _ hv => hv
  have hnat {key : String} (h : Optionally fs key fun v => ∃ n ≤ maxInteger, v = .nat n) :=
    h.exists_stands (fun n v => v = .nat n) fun _ ⟨n, _, hn⟩ => ⟨n, hn⟩
  have hany (key : String) :=
    have h : Optionally fs key fun _ => True := fun _ _ => .inr trivial
    h.exists_stands (fun w v => v = w) fun v _ => ⟨v, rfl⟩
  have hmode (v : Json) : v = .str "carried" ∨ v = .str "generic" → ∃ s, v = .str s :=
    fun hv => hv.elim (fun hv => ⟨_, hv⟩) fun hv => ⟨_, hv⟩
  obtain ⟨timestamp, htimestamp⟩ := h.timestamp
  obtain ⟨traceId, htraceId, -⟩ := h.traceId
  obtain ⟨v, hv, hnames⟩ := h.level
  obtain ⟨level, hlevel⟩ := (exists_names_iff Level.mem_all Level.name).1 hnames
  obtain ⟨event, hevent⟩ := h.event
  obtain ⟨runId, hrunId⟩ := htext h.runId
  obtain ⟨stream, hstream⟩ := h.stream.exists_stands (fun s : Stream => Names s.name) fun _ =>
    (exists_names_iff Stream.mem_all Stream.name).1
  obtain ⟨scenario, hscenario⟩ := htext h.scenario
  obtain ⟨threadMode, hthreadMode⟩ := h.threadMode.exists_stands (fun s v => v = .str s) hmode
  obtain ⟨outcome, houtcome⟩ := h.outcome.exists_stands (fun o : Outcome => Names o.name) fun _ =>
    (exists_names_iff Outcome.mem_all Outcome.name).1
  obtain ⟨threads, hthreads⟩ := hnat h.threads
  obtain ⟨checks, hchecks⟩ := hnat h.checks
  obtain ⟨durationMs, hdurationMs⟩ := hnat h.durationMs
  obtain ⟨metrics, hmetrics⟩ := hany "metrics"
  obtain ⟨details, hdetails⟩ := hany "details"
  exact ⟨⟨timestamp, traceId, level, event, runId, stream, scenario, threadMode, outcome, threads, checks,
    durationMs, metrics, details⟩, htimestamp, htraceId, ⟨v, hv, hlevel⟩, hevent, hrunId, hstream, hscenario,
    hthreadMode, houtcome, hthreads, hchecks, hdurationMs, hmetrics, hdetails⟩

/-- What obeys every rule and writes an entry obeys the grammar. -/
theorem Written.grammatical {e : Entry} (h : Written fs e) (hnil : faults fs = [])
    (hfits : ∀ f ∈ fs, Fits (nestingLimit - 1) f.2) : Grammatical fs := by
  obtain ⟨-, -, -, -, hmodes, htrace, hclosing, hstaging⟩ := faults_eq_nil_iff.1 hnil
  obtain ⟨v, hv, hlevel⟩ := h.level
  have hfield {key : String} : hasField fs key ↔ ∃ v, fs.lookup key = some v := Option.isSome_iff_exists
  have hnat {key : String} {o : Option Nat} (ho : Stands fs key (fun n v => v = .nat n) o) :
      Optionally fs key fun v => ∃ n ≤ maxInteger, v = .nat n := by
    refine ho.optionally fun n v hlookup hn => ⟨n, ?_, hn⟩
    have hfit := hfits _ (mem_of_lookup hlookup)
    rw [hn] at hfit
    cases hfit with
    | int _ _ hhigh => exact Int.ofNat_le.1 hhigh
  have htext {key : String} {o : Option String} (ho : Stands fs key (fun s v => v = .str s) o) :
      Optionally fs key fun v => ∃ s, v = .str s := ho.optionally fun s _ _ hs => ⟨s, hs⟩
  refine ⟨⟨_, h.timestamp⟩, ⟨_, h.traceId, htrace _ (textField?_eq_some_iff.2 h.traceId)⟩,
    ⟨v, hv, (exists_names_iff Level.mem_all Level.name).2 ⟨_, hlevel⟩⟩, ⟨_, h.event⟩, htext h.runId, ?_,
    htext h.scenario, ?_, ?_, hnat h.threads, hnat h.checks, hnat h.durationMs, ?_, ?_⟩
  · exact h.stream.optionally fun s _ _ hs => (exists_names_iff Stream.mem_all Stream.name).2 ⟨s, hs⟩
  · refine h.threadMode.optionally fun s w hlookup hs => ?_
    have hmode := hmodes s (textField?_eq_some_iff.2 (hs ▸ hlookup))
    simpa [threadModes, hs] using hmode
  · exact h.outcome.optionally fun o _ _ ho => (exists_names_iff Outcome.mem_all Outcome.name).2 ⟨o, ho⟩
  · exact fun event hevent hlookup =>
      hfield.1 (hclosing event (textField?_eq_some_iff.2 hlookup) hevent)
  · exact fun hscenario => hfield.1 (hstaging (hfield.2 hscenario))

end

/-- The keys that the grammar says something about. -/
def ruledKeys : List String :=
  requiredFields ++ ["run_id", "stream", "scenario", "thread_mode", "outcome", "threads", "checks",
    "duration_ms"]

/-- Only the values of those keys matter. -/
theorem Grammatical.congr {fs gs : List (String × Json)} (h : Grammatical fs)
    (hsame : ∀ key ∈ ruledKeys, gs.lookup key = fs.lookup key) : Grammatical gs := by
  have hopt {key : String} {kind : Json → Prop} (hkey : key ∈ ruledKeys) (ho : Optionally fs key kind) :
      Optionally gs key kind := fun v hv => ho v (hsame key hkey ▸ hv)
  have htimestamp := hsame "timestamp" (by decide)
  have htraceId := hsame "trace_id" (by decide)
  have hlevel := hsame "level" (by decide)
  have hevent := hsame "event" (by decide)
  have houtcome := hsame "outcome" (by decide)
  have hscenario := hsame "scenario" (by decide)
  have hthreadMode := hsame "thread_mode" (by decide)
  refine ⟨htimestamp ▸ h.timestamp, htraceId ▸ h.traceId, hlevel ▸ h.level, hevent ▸ h.event,
    hopt (by decide) h.runId, hopt (by decide) h.stream, hopt (by decide) h.scenario,
    hopt (by decide) h.threadMode, hopt (by decide) h.outcome, hopt (by decide) h.threads,
    hopt (by decide) h.checks, hopt (by decide) h.durationMs, ?_, ?_⟩
  · rw [hevent, houtcome]
    exact h.closing
  · rw [hscenario, hthreadMode]
    exact h.staging

/-! ## Errors -/

/-- What an error can be about: a field of the contract, or the line as a whole. -/
def faultFields : List String := ["<json>", "<root>", "<deserialization>"] ++ Entry.fieldNames

theorem field_of_mem_nameFaults {fs : List (String × Json)} {name : String} {allowed : List String}
    {fault : Fault} (h : fault ∈ nameFaults fs name allowed) : fault.field = name := by
  unfold nameFaults at h
  split at h
  · split at h
    · cases h
    · rw [List.mem_singleton.1 h, Fault.field]
  · cases h

theorem field_of_mem_traceFaults {fs : List (String × Json)} {fault : Fault}
    (h : fault ∈ traceFaults fs) : fault.field = "trace_id" := by
  unfold traceFaults at h
  split at h
  · split at h
    · cases h
    · rw [List.mem_singleton.1 h, Fault.field]
  · cases h

theorem field_of_mem_outcomeFaults {fs : List (String × Json)} {fault : Fault}
    (h : fault ∈ outcomeFaults fs) : fault.field = "outcome" := by
  unfold outcomeFaults at h
  split at h
  · split at h
    · rw [List.mem_singleton.1 h, Fault.field]
    · cases h
  · cases h

theorem field_of_mem_scenarioFaults {fs : List (String × Json)} {fault : Fault}
    (h : fault ∈ scenarioFaults fs) : fault.field = "thread_mode" := by
  unfold scenarioFaults at h
  split at h
  · rw [List.mem_singleton.1 h, Fault.field]
  · cases h

theorem field_mem_of_mem_faults {fs : List (String × Json)} {fault : Fault} (h : fault ∈ faults fs) :
    fault.field ∈ faultFields := by
  simp only [faults, List.mem_append] at h
  obtain ((((((hmissing | hname) | hname) | hname) | hname) | htrace) | houtcome) | hscenario := h
  · obtain ⟨name, hname, rfl⟩ := List.mem_map.1 hmissing
    exact List.mem_append_right _ (List.mem_append_left _ (List.mem_filter.1 hname).1)
  all_goals first
    | rw [field_of_mem_nameFaults hname]
    | rw [field_of_mem_traceFaults htrace]
    | rw [field_of_mem_outcomeFaults houtcome]
    | rw [field_of_mem_scenarioFaults hscenario]
  all_goals decide

/-- A line that is refused has at least one fault. -/
theorem ofLine_eq_error {line : String} {found : List Fault} (h : Entry.ofLine line = .error found) :
    found ≠ [] ∧ ∀ fault ∈ found, fault.field ∈ faultFields := by
  have hsingle {fault : Fault} (hfield : fault.field ∈ faultFields)
      (h : (.error [fault] : Except (List Fault) Entry) = .error found) :
      found ≠ [] ∧ ∀ fault ∈ found, fault.field ∈ faultFields := by
    cases h
    exact ⟨List.cons_ne_nil _ _, by simpa using hfield⟩
  unfold Entry.ofLine at h
  split at h
  · exact hsingle (by decide) h
  · unfold Entry.ofObject at h
    split at h
    · split at h
      · cases h
      · exact hsingle (by decide) h
    · next hne =>
      cases h
      exact ⟨hne, fun fault => field_mem_of_mem_faults⟩
  · exact hsingle (by decide) h

/-! ## Lines -/

theorem validateLine_eq_ok_iff_written {line : String} {n : Nat} {e : Entry} :
    validateLine line n = .ok e ↔
      ∃ fs, Json.parse? line = some (.obj fs) ∧ Grammatical fs ∧ Written fs e := by
  rw [validateLine_eq_ok_iff, ofLine_eq_ok_iff]
  refine exists_congr fun fs => and_congr_right fun hparse => ?_
  rw [ofFields?_eq_some_iff_written]
  refine ⟨fun ⟨hnil, hwritten⟩ => ⟨?_, hwritten⟩, fun ⟨h, hwritten⟩ => ⟨h.faults_eq_nil, hwritten⟩⟩
  cases Json.fits_of_parse? hparse with
  | obj _ hfits => exact hwritten.grammatical hnil hfits

/-- A line is accepted exactly if it is an object that obeys the grammar, and the entry has the values
of its keys. Keys that the grammar does not name may have any value. Any other line has at least one
error, and each is about this line and one of its fields or the line as a whole. -/
theorem validateLine_iff_grammatical (line : String) (n : Nat) :
    ((∃ e, validateLine line n = .ok e) ↔ ∃ fs, Json.parse? line = some (.obj fs) ∧ Grammatical fs) ∧
      (∀ e, validateLine line n = .ok e →
        ∃ fs, Json.parse? line = some (.obj fs) ∧ Grammatical fs ∧ Written fs e) ∧
      (∀ fs gs, Grammatical fs → (∀ key ∈ ruledKeys, gs.lookup key = fs.lookup key) → Grammatical gs) ∧
      ∀ found, validateLine line n = .error found →
        found ≠ [] ∧ ∀ v ∈ found, v.line = n ∧ v.fault.field ∈ faultFields := by
  simp only [validateLine_eq_ok_iff_written]
  refine ⟨⟨?_, ?_⟩, fun e h => h, fun fs gs h hsame => h.congr hsame, fun found h => ?_⟩
  · rintro ⟨e, fs, hparse, hgrammatical, -⟩
    exact ⟨fs, hparse, hgrammatical⟩
  · rintro ⟨fs, hparse, hgrammatical⟩
    obtain ⟨e, hwritten⟩ := hgrammatical.exists_written
    exact ⟨e, fs, hparse, hgrammatical, hwritten⟩
  · unfold validateLine at h
    cases hline : Entry.ofLine line with
    | ok e =>
      rw [hline] at h
      cases h
    | error faults =>
      obtain ⟨hne, hfields⟩ := ofLine_eq_error hline
      rw [hline] at h
      obtain rfl : faults.map (Violation.mk n) = found := Except.error.inj h
      refine ⟨by simpa using hne, ?_⟩
      rw [List.forall_mem_map]
      exact fun fault hfault => ⟨rfl, hfields fault hfault⟩

end ThreadSlots.Log
