-- What a logger writes, from the calls before. A message passes by the last
-- level that was set. The file is the first one that could be opened, and it
-- is lost when another one is named.
import SimpleSnmpd.LoggerModel
import SimpleSnmpd.Registers
import Mathlib.Data.List.Induction

open registers write_logs simple_snmpd.snmp_config

namespace simple_snmpd.logger

/-! ## Histories -/

/-- The level that a call sets. -/
def level_set : Call → Option LogLevel
  | .initializes _ level _ => some level
  | .sets_level level => some level
  | .logs _ _ _ => none

def is_initialize : Call → Bool
  | .initializes _ _ _ => true
  | .sets_level _ => false
  | .logs _ _ _ => false

/-- The call names a file to log to. -/
def names_file : Call → Bool
  | .initializes _ _ path => path ≠ []
  | .sets_level _ => false
  | .logs _ _ _ => false

/-- The file that a call names, if it can be opened. -/
def file_opened : Call → Option (List UInt8)
  | .initializes true _ path => if path = [] then none else some path
  | .initializes false _ _ => none
  | .sets_level _ => none
  | .logs _ _ _ => none

/-- The last level that the calls set. -/
def level_of (calls : List Call) : LogLevel :=
  (lastWrite (calls.map level_set)).getD .INFO

/-- A message of the level passes after the calls. -/
structure Passes (calls : List Call) (level : LogLevel) : Prop where
  initialized : ∃ c ∈ calls, is_initialize c = true
  level : (level_of calls).value ≤ level.value

/-- The file is the first one that the calls open. -/
def FirstOpened (calls : List Call) (path : List UInt8) (since : List Call) : Prop :=
  ∃ before c, calls = before ++ c :: since ∧ file_opened c = some path ∧
    ∀ c ∈ before, file_opened c = none

/-- The file is the first one that the calls open, and they name none after
it. -/
def Attached (calls : List Call) (path : List UInt8) : Prop :=
  ∃ since, FirstOpened calls path since ∧ ∀ c ∈ since, names_file c = false

variable {calls : List Call} {path : List UInt8} {since : List Call} {c : Call}

theorem FirstOpened.snoc (h : FirstOpened calls path since) (c : Call) :
    FirstOpened (calls ++ [c]) path (since ++ [c]) := by
  obtain ⟨before, opening, rfl, hopens, hbefore⟩ := h
  exact ⟨before, opening, by simp, hopens, hbefore⟩

theorem names_file_of_opened (h : file_opened c = some path) : names_file c = true := by
  cases c with
  | initializes opens level p =>
    cases opens with
    | false => cases h
    | true =>
      simp only [file_opened] at h
      split_ifs at h with hp
      simp [names_file, hp]
  | sets_level _ => cases h
  | logs _ _ _ => cases h

/-! ## The state after a history -/

theorem after_snoc (calls : List Call) (c : Call) :
    after (calls ++ [c]) = (called (after calls) c).1 := by
  unfold after
  rw [List.foldl_append]
  rfl

theorem output_of_snoc (calls : List Call) (c : Call) :
    output_of (calls ++ [c]) = output_of calls ++ (called (after calls) c).2 := by
  unfold output_of
  rw [runLog_append]
  simp only [runLog, List.append_nil]
  rfl

theorem initialize_logger_level (opens : Bool) (level : LogLevel) (path : List UInt8)
    (l : Logger) :
    (initialize_logger opens level path l).1.level = level ∧
      (initialize_logger opens level path l).1.initialized = true := by
  unfold initialize_logger
  dsimp only
  split_ifs <;> exact ⟨rfl, rfl⟩

theorem initialize_logger_file (opens : Bool) (level : LogLevel) (path : List UInt8)
    (l : Logger) :
    (initialize_logger opens level path l).1.log_file =
      if path = [] then l.log_file else l.log_file.open opens path := by
  unfold initialize_logger
  dsimp only
  split_ifs <;> rfl

/-- The level is the last one that was set. -/
theorem after_level (calls : List Call) : (after calls).level = level_of calls := by
  have hstep : ∀ (l : Logger) (c : Call),
      (called l c).1.level = (level_set c).getD l.level := by
    intro l c
    cases c with
    | initializes opens level path => exact (initialize_logger_level opens level path l).1
    | sets_level level => rfl
    | logs now level message => rfl
  unfold after
  rw [registers.view_run Logger.level hstep, writes_of_inputs]
  rfl

theorem after_initialized (calls : List Call) :
    (after calls).initialized = true ↔ ∃ c ∈ calls, is_initialize c = true := by
  induction calls using List.reverseRecOn with
  | nil => simp [after, Logger.new]
  | append_singleton calls c ih =>
    have hstep : (called (after calls) c).1.initialized = true ↔
        (after calls).initialized = true ∨ is_initialize c = true := by
      cases c with
      | initializes opens level path =>
        simp [called, is_initialize, (initialize_logger_level opens level path _).2]
      | sets_level level => simp [called, set_level, is_initialize]
      | logs now level message => simp [called, is_initialize]
    rw [after_snoc, hstep, ih]
    simp [or_and_right, exists_or]

/-- The stream has the first file open that the calls opened, and has failed
if they named a file after that. -/
def HasOpen (f : OfStream) (calls : List Call) : Prop :=
  f.file = none ∧ (∀ c ∈ calls, file_opened c = none) ∨
    ∃ path since, f.file = some path ∧ FirstOpened calls path since ∧
      (f.failbit = false ↔ ∀ c ∈ since, names_file c = false)

/-- A call that names no file leaves the stream as it was. -/
theorem called_file_of_not_named (l : Logger) (h : names_file c = false) :
    (called l c).1.log_file = l.log_file := by
  cases c with
  | initializes opens level path =>
    have hp : path = [] := by simpa [names_file] using h
    rw [called, initialize_logger_file, if_pos hp]
  | sets_level level => rfl
  | logs now level message => rfl

/-- A call that names a file opens it in the stream. -/
theorem called_file_of_named (l : Logger) (h : names_file c = true) :
    ∃ opens path, (called l c).1.log_file = l.log_file.open opens path ∧
      file_opened c = if opens then some path else none := by
  cases c with
  | initializes opens level path =>
    have hp : path ≠ [] := by simpa [names_file] using h
    refine ⟨opens, path, ?_, ?_⟩
    · rw [called, initialize_logger_file, if_neg hp]
    · cases opens <;> simp [file_opened, hp]
  | sets_level level => cases h
  | logs now level message => cases h

theorem hasOpen_after (calls : List Call) : HasOpen (after calls).log_file calls := by
  induction calls using List.reverseRecOn with
  | nil => exact Or.inl ⟨rfl, List.forall_mem_nil _⟩
  | append_singleton calls c ih =>
    unfold HasOpen
    rw [after_snoc, List.forall_mem_append, List.forall_mem_singleton]
    cases hnames : names_file c with
    | false =>
      have hopens : file_opened c = none := by
        cases ho : file_opened c with
        | none => rfl
        | some path => rw [names_file_of_opened ho] at hnames; cases hnames
      rw [called_file_of_not_named _ hnames]
      rcases ih with ⟨hfile, hall⟩ | ⟨path, since, hfile, hfirst, hfail⟩
      · exact Or.inl ⟨hfile, hall, hopens⟩
      · refine Or.inr ⟨path, since ++ [c], hfile, hfirst.snoc c, ?_⟩
        rw [hfail, List.forall_mem_append, List.forall_mem_singleton, and_iff_left hnames]
    | true =>
      obtain ⟨opens, p, hlog, hopened⟩ := called_file_of_named (after calls) hnames
      rw [hlog]
      rcases ih with ⟨hfile, hall⟩ | ⟨path, since, hfile, hfirst, hfail⟩
      · cases opens with
        | false => exact Or.inl ⟨by simp [OfStream.open, hfile], hall, hopened⟩
        | true =>
          refine Or.inr ⟨p, [], by simp [OfStream.open, hfile], ⟨calls, c, rfl, hopened, hall⟩, ?_⟩
          simp [OfStream.open, hfile]
      · -- an open stream keeps its file, and fails
        refine Or.inr ⟨path, since ++ [c], by simp [OfStream.open, hfile], hfirst.snoc c, ?_⟩
        rw [List.forall_mem_append, List.forall_mem_singleton, hnames]
        simp [OfStream.open, hfile]

theorem FirstOpened.unique {path' : List UInt8} {since' : List Call}
    (h : FirstOpened calls path since) (h' : FirstOpened calls path' since') :
    path = path' ∧ since = since' := by
  obtain ⟨before, c, rfl, hopens, hbefore⟩ := h
  obtain ⟨before', c', heq, hopens', hbefore'⟩ := h'
  obtain ⟨-, rfl, hsince⟩ := first_unique (p := fun c => file_opened c ≠ none) heq
    (by simp [hopens]) (by simp [hopens']) (fun c hc hne => hne (hbefore c hc))
    fun c hc hne => hne (hbefore' c hc)
  rw [hopens] at hopens'
  exact ⟨Option.some.inj hopens', hsince⟩

/-- The file that a line goes to, if it goes to one. -/
theorem after_put (calls : List Call) (line : List UInt8) :
    (∃ path, Attached calls path ∧ (after calls).log_file.put line = [(.file path, line)]) ∨
      (∀ path, ¬ Attached calls path) ∧ (after calls).log_file.put line = [] := by
  rcases hasOpen_after calls with ⟨hfile, hall⟩ | ⟨path, since, hfile, hfirst, hfail⟩
  · refine Or.inr ⟨?_, by simp [OfStream.put, hfile]⟩
    rintro path ⟨since, ⟨before, c, rfl, hopens, -⟩, -⟩
    rw [hall c (by simp)] at hopens
    cases hopens
  · by_cases hnamed : ∀ c ∈ since, names_file c = false
    · refine Or.inl ⟨path, ⟨since, hfirst, hnamed⟩, ?_⟩
      simp [OfStream.put, hfile, hfail.mpr hnamed]
    · refine Or.inr ⟨?_, ?_⟩
      · rintro path' ⟨since', hfirst', hnamed'⟩
        obtain ⟨-, rfl⟩ := hfirst.unique hfirst'
        exact hnamed hnamed'
      · have hfailed : (after calls).log_file.failbit = true := by
          rw [← Bool.not_eq_false, hfail]
          exact hnamed
        simp [OfStream.put, hfile, hfailed]

/-! ## The laws -/

theorem after_passes (calls : List Call) (level : LogLevel) :
    Passes calls level ↔
      ¬ (!(after calls).initialized || level.value < (after calls).level.value) = true := by
  rw [after_level]
  simp only [Bool.or_eq_true, Bool.not_eq_true', decide_eq_true_eq, not_or, Bool.not_eq_false,
    after_initialized, Nat.not_lt]
  exact ⟨fun h => ⟨h.initialized, h.level⟩, fun h => ⟨h.1, h.2⟩⟩

variable {level : LogLevel} (now : Clock) (message : List UInt8)

theorem log_of_not_passes (h : ¬ Passes calls level) :
    log now level message (after calls) = [] := by
  rw [after_passes, not_not] at h
  exact if_pos h

theorem log_of_passes (h : Passes calls level) :
    log now level message (after calls) =
      (console level, formatted_message now level message) ::
        (after calls).log_file.put (formatted_message now level message) := by
  rw [after_passes] at h
  unfold log
  rw [if_neg h]
  unfold OfStream.put
  cases (after calls).log_file.file <;> rfl

/-- After any calls, a message is written just where it passes: on the
console, and in the file that the logger is attached to. -/
theorem a_message_goes_where_the_calls_before_it_say (calls : List Call) (now : Clock)
    (level : LogLevel) (message : List UInt8) :
    let line := formatted_message now level message
    let out := log now level message (after calls)
    (¬ Passes calls level → out = []) ∧
      (Passes calls level →
        (∀ path, Attached calls path → out = [(console level, line), (.file path, line)]) ∧
        ((∀ path, ¬ Attached calls path) → out = [(console level, line)])) := by
  dsimp only
  constructor
  · exact log_of_not_passes now message
  intro h
  rw [log_of_passes now message h]
  rcases after_put calls (formatted_message now level message) with
    ⟨path, hpath, hline⟩ | ⟨hno, hline⟩
  · rw [hline]
    refine ⟨fun path' hpath' => ?_, fun hno => absurd hpath (hno path)⟩
    obtain ⟨since, hfirst, -⟩ := hpath
    obtain ⟨since', hfirst', -⟩ := hpath'
    rw [(hfirst.unique hfirst').1]
  · rw [hline]
    exact ⟨fun path hpath => absurd hpath (hno path), fun _ => rfl⟩

/-! ## The file and the console -/

/-- What a run from a state on writes. -/
def output_from (l : Logger) (calls : List Call) : Output :=
  runLog (fun l c => (called l c).1) (fun l c => (called l c).2) l calls

/-- The lines on the console, in their order. -/
def console_lines (out : Output) : List (List UInt8) :=
  (out.filter fun w => w.1 = .cout ∨ w.1 = .cerr).map Prod.snd

theorem lines_to_append (sink : Sink) (out out' : Output) :
    lines_to sink (out ++ out') = lines_to sink out ++ lines_to sink out' := by
  simp [lines_to]

theorem console_lines_append (out out' : Output) :
    console_lines (out ++ out') = console_lines out ++ console_lines out' := by
  simp [console_lines]

/-- A stream that is closed, or that failed, gets no lines. -/
def Deaf (f : OfStream) : Prop := f.file = none ∨ f.failbit = true

theorem Deaf.put_eq {f : OfStream} (h : Deaf f) (line : List UInt8) : f.put line = [] := by
  unfold OfStream.put
  rcases h with h | h
  · rw [h]
  · cases f.file with
    | none => rfl
    | some path => rw [h]; rfl

theorem console_ne_file (level : LogLevel) (path : List UInt8) : console level ≠ .file path := by
  unfold console
  split_ifs <;> nofun

theorem console_isConsole (level : LogLevel) : console level = .cout ∨ console level = .cerr := by
  unfold console
  split_ifs
  · exact Or.inr rfl
  · exact Or.inl rfl

theorem initialize_logger_unfiled (opens : Bool) (level : LogLevel) (p path : List UInt8)
    (l : Logger) : lines_to (.file path) (initialize_logger opens level p l).2 = [] := by
  unfold initialize_logger
  dsimp only
  split_ifs <;> simp [lines_to]

/-- A call writes to no file where the stream is deaf. -/
theorem Deaf.unfiled {l : Logger} (h : Deaf l.log_file) (c : Call) (path : List UInt8) :
    lines_to (.file path) (called l c).2 = [] := by
  cases c with
  | initializes opens level p => exact initialize_logger_unfiled opens level p path l
  | sets_level level => rfl
  | logs now level message =>
    unfold called log
    dsimp only
    split_ifs
    · rfl
    · simp [lines_to, h.put_eq, console_ne_file]
    · simp [lines_to, console_ne_file]

/-- A stream that failed stays so where a file is open. -/
theorem failed_called {l : Logger} (hopen : l.log_file.file ≠ none)
    (hfail : l.log_file.failbit = true) (c : Call) :
    (called l c).1.log_file.file ≠ none ∧ (called l c).1.log_file.failbit = true := by
  cases hnames : names_file c with
  | false =>
    rw [called_file_of_not_named l hnames]
    exact ⟨hopen, hfail⟩
  | true =>
    obtain ⟨opens, p, hlog, -⟩ := called_file_of_named l hnames
    obtain ⟨path, hpath⟩ := Option.ne_none_iff_exists'.mp hopen
    rw [hlog]
    simp [OfStream.open, hpath]

theorem failed_unfiled {l : Logger} (hopen : l.log_file.file ≠ none)
    (hfail : l.log_file.failbit = true) (calls : List Call) (path : List UInt8) :
    lines_to (.file path) (output_from l calls) = [] := by
  induction calls generalizing l with
  | nil => rfl
  | cons c calls ih =>
    obtain ⟨hopen', hfail'⟩ := failed_called hopen hfail c
    have hrest := ih hopen' hfail'
    unfold output_from at hrest ⊢
    rw [runLog, lines_to_append, Deaf.unfiled (Or.inr hfail), hrest]
    rfl

/-- While no file can be opened, no file gets a line. -/
theorem closed_unfiled {l : Logger} (hclosed : l.log_file.file = none) {calls : List Call}
    (h : ∀ c ∈ calls, file_opened c = none) (path : List UInt8) :
    lines_to (.file path) (output_from l calls) = [] := by
  induction calls generalizing l with
  | nil => rfl
  | cons c calls ih =>
    rw [List.forall_mem_cons] at h
    have hclosed' : (called l c).1.log_file.file = none := by
      cases hnames : names_file c with
      | false => rwa [called_file_of_not_named l hnames]
      | true =>
        obtain ⟨opens, p, hlog, hopened⟩ := called_file_of_named l hnames
        cases opens with
        | false => simp [hlog, OfStream.open, hclosed]
        | true => rw [h.1] at hopened; cases hopened
    have hrest := ih hclosed' h.2
    unfold output_from at hrest ⊢
    rw [runLog, lines_to_append, Deaf.unfiled (Or.inl hclosed), hrest]
    rfl

/-- While the stream is good and no other file is named, its file gets what
the console gets. -/
theorem good_filed {l : Logger} {path : List UInt8}
    (hgood : l.log_file = { file := some path, failbit := false }) {calls : List Call}
    (h : ∀ c ∈ calls, names_file c = false) :
    (calls.foldl (fun l c => (called l c).1) l).log_file = l.log_file ∧
      ∀ p, lines_to (.file p) (output_from l calls) =
        if p = path then console_lines (output_from l calls) else [] := by
  induction calls generalizing l with
  | nil => exact ⟨rfl, fun p => by split_ifs <;> rfl⟩
  | cons c calls ih =>
    rw [List.forall_mem_cons] at h
    have hstep := called_file_of_not_named l h.1
    obtain ⟨hkeeps, hlines⟩ := ih (hstep.trans hgood) h.2
    refine ⟨hkeeps.trans hstep, fun p => ?_⟩
    have hcall : lines_to (.file p) (called l c).2 =
        if p = path then console_lines (called l c).2 else [] := by
      cases c with
      | initializes opens level q =>
        have hq : q = [] := by simpa [names_file] using h.1
        simp [called, initialize_logger, hq, lines_to, console_lines]
      | sets_level level => simp [called, lines_to, console_lines]
      | logs now level message =>
        have hput : ∀ line, (if l.log_file.file ≠ none then l.log_file.put line else []) =
            [(.file path, line)] := by
          intro line
          rw [hgood]
          rfl
        unfold called log
        dsimp only
        simp only [hput]
        split_ifs with hlow hp hp
        · rfl
        · rfl
        · subst hp
          simp [lines_to, console_lines, console_ne_file, console_isConsole]
        · simp [lines_to, console_ne_file, Ne.symm hp]
    have hrest := hlines p
    unfold output_from at hrest ⊢
    rw [runLog, lines_to_append, console_lines_append, hcall, hrest]
    split_ifs <;> rfl

theorem output_from_append (l : Logger) (calls calls' : List Call) :
    output_from l (calls ++ calls') =
      output_from l calls ++
        output_from (calls.foldl (fun l c => (called l c).1) l) calls' :=
  runLog_append l calls calls'

theorem output_from_cons (l : Logger) (c : Call) (calls : List Call) :
    output_from l (c :: calls) = (called l c).2 ++ output_from (called l c).1 calls := rfl

/-- The calls up to the first one that names a file. -/
def until_named (calls : List Call) : List Call := calls.takeWhile fun c => !names_file c

theorem until_named_spec (calls : List Call) :
    (∀ c ∈ until_named calls, names_file c = false) ∧
      (until_named calls = calls ∨
        ∃ c rest, calls = until_named calls ++ c :: rest ∧ names_file c = true) := by
  unfold until_named
  constructor
  · intro c hc
    simpa using List.mem_takeWhile_imp hc
  · cases hrest : calls.dropWhile fun c => !names_file c with
    | nil =>
      left
      have hsplit := List.takeWhile_append_dropWhile (p := fun c => !names_file c) (l := calls)
      rwa [hrest, List.append_nil] at hsplit
    | cons c rest =>
      right
      refine ⟨c, rest, ?_, ?_⟩
      · rw [← hrest, List.takeWhile_append_dropWhile]
      · have := List.head?_dropWhile_not (fun c => !names_file c) calls
        rw [hrest] at this
        simpa using this

/-- A call that names a file writes to no file. -/
theorem named_unfiled (l : Logger) (h : names_file c = true) (p : List UInt8) :
    lines_to (.file p) (called l c).2 = [] := by
  cases c with
  | initializes opens level q => exact initialize_logger_unfiled opens level q p l
  | sets_level level => cases h
  | logs now level message => cases h

/-- A file that is opened gets what the console shows, until a file is named
again. -/
theorem opened_filed {l : Logger} {path : List UInt8}
    (hgood : l.log_file = { file := some path, failbit := false }) (since : List Call)
    (p : List UInt8) :
    lines_to (.file p) (output_from l since) =
      if p = path then console_lines (output_from l (until_named since)) else [] := by
  obtain ⟨hunnamed, hrest⟩ := until_named_spec since
  obtain ⟨hkeeps, hlines⟩ := good_filed hgood hunnamed
  rcases hrest with hall | ⟨c, rest, hsplit, hnames⟩
  · rw [← hlines p, hall]
  have hfailed : (called ((until_named since).foldl (fun l c => (called l c).1) l) c).1.log_file =
      { file := some path, failbit := true } := by
    obtain ⟨opens, q, hlog, -⟩ := called_file_of_named
      ((until_named since).foldl (fun l c => (called l c).1) l) hnames
    rw [hlog, hkeeps, hgood]
    rfl
  have hnone := failed_unfiled (by rw [hfailed]; nofun) (by rw [hfailed]) rest p
  conv_lhs => rw [hsplit]
  rw [output_from_append, output_from_cons, lines_to_append, lines_to_append,
    named_unfiled _ hnames, hnone, hlines p]
  simp

/-- No file ever gets a line, or one file does: the first that could be
opened gets what the console shows, up to the next call that names a file. -/
theorem a_log_file_holds_one_stretch_of_the_console (calls : List Call) :
    (∀ p, lines_to (.file p) (output_of calls) = []) ∨
      ∃ before opening since path, calls = before ++ opening :: since ∧
        (∀ c ∈ before, file_opened c = none) ∧ file_opened opening = some path ∧
        ∀ p, lines_to (.file p) (output_of calls) =
          if p = path then
            console_lines (output_from (after (before ++ [opening])) (until_named since))
          else [] := by
  by_cases hall : ∀ c ∈ calls, file_opened c = none
  · exact Or.inl fun p => closed_unfiled rfl hall p
  rcases hasOpen_after calls with ⟨-, hnone⟩ | ⟨path, since, -, hfirst, -⟩
  · exact absurd hnone hall
  obtain ⟨before, opening, rfl, hopening, hbefore⟩ := hfirst
  refine Or.inr ⟨before, opening, since, path, rfl, hbefore, hopening, fun p => ?_⟩
  have hclosed : (after before).log_file.file = none := by
    rcases hasOpen_after before with ⟨hfile, -⟩ | ⟨q, after_q, -, ⟨as, c, rfl, hc, -⟩, -⟩
    · exact hfile
    · rw [hbefore c (by simp)] at hc
      cases hc
  have hgood : (after (before ++ [opening])).log_file =
      { file := some path, failbit := false } := by
    have hnames := names_file_of_opened hopening
    obtain ⟨opens, q, hlog, hopened⟩ := called_file_of_named (after before) hnames
    rw [hopening] at hopened
    cases opens with
    | false => cases hopened
    | true =>
      cases hopened
      rw [after_snoc, hlog]
      simp [OfStream.open, hclosed]
  have hsplit : output_of (before ++ opening :: since) =
      output_of (before ++ [opening]) ++ output_from (after (before ++ [opening])) since := by
    rw [List.append_cons]
    exact runLog_append _ _ _
  have hbefore' : lines_to (.file p) (output_of before) = [] := closed_unfiled rfl hbefore p
  rw [hsplit, output_of_snoc, lines_to_append, lines_to_append, hbefore',
    Deaf.unfiled (Or.inl hclosed), opened_filed hgood since p]
  rfl

end simple_snmpd.logger
