-- The laws of the program: which command lines it goes on from, with which
-- options, and what these change. Two of the options change nothing.
import SimpleSnmpd.LoggerLaws
import SimpleSnmpd.MainModel

open simple_snmpd.snmp_config simple_snmpd.logger

namespace simple_snmpd.daemon

/-! ## Options as they are spelled -/

/-- The options that the program goes on from. -/
inductive Opt where
  | config (file : List UInt8)
  | background
  | foreground
  | test_config
  | verbose
deriving DecidableEq, Repr

def Opt.apply : Opt → Options → Options
  | .config file, o => { o with config_file := file }
  | .background, o => { o with daemon_mode := true }
  | .foreground, o => { o with daemon_mode := false }
  | .test_config, o => { o with test_config := true }
  | .verbose, o => { o with verbose := true }

/-- The short and the long word of an option, and what stands after it. -/
def Opt.spelling : Opt → List UInt8 × List UInt8 × List (List UInt8)
  | .config file => (text "-c", text "--config", [file])
  | .background => (text "-d", text "--daemon", [])
  | .foreground => (text "-f", text "--foreground", [])
  | .test_config => (text "-t", text "--test-config", [])
  | .verbose => (text "-v", text "--verbose", [])

def Opt.Spells (x : Opt) (words : List (List UInt8)) : Prop :=
  words = x.spelling.1 :: x.spelling.2.2 ∨ words = x.spelling.2.1 :: x.spelling.2.2

/-- The arguments spell the options, one after the other. -/
inductive Spelled : List Opt → List (List UInt8) → Prop
  | nil : Spelled [] []
  | cons {x : Opt} {xs : List Opt} {words args : List (List UInt8)} (h : x.Spells words)
      (t : Spelled xs args) : Spelled (x :: xs) (words ++ args)

/-- What the options set, from the first to the last. -/
def applied (xs : List Opt) (o : Options) : Options := xs.foldl (fun o x => x.apply o) o

/-- The words that the program knows. -/
def known_words : List (List UInt8) :=
  [text "-c", text "--config", text "-d", text "--daemon", text "-f", text "--foreground",
    text "-t", text "--test-config", text "-v", text "--verbose", text "-h", text "--help",
    text "-V", text "--version"]

/-- Arguments that the program returns at, with its code and what it prints. -/
inductive Ends (program : Program) : List (List UInt8) → Nat → Output → Prop
  | help (word : List UInt8) (h : word = text "-h" ∨ word = text "--help")
      (rest : List (List UInt8)) : Ends program (word :: rest) 0 (print_usage program.program_name)
  | version (word : List UInt8) (h : word = text "-V" ∨ word = text "--version")
      (rest : List (List UInt8)) : Ends program (word :: rest) 0 (print_version program.notice)
  | no_file (word : List UInt8) (h : word = text "-c" ∨ word = text "--config") :
      Ends program [word] 1 [(.cerr, text "Error: --config requires a file path")]
  | unknown (word : List UInt8) (h : word ∉ known_words) (rest : List (List UInt8)) :
      Ends program (word :: rest) 1
        ((.cerr, text "Error: Unknown option " ++ word) :: print_usage program.program_name)

variable {program : Program}

theorem parse_args_spelled {x : Opt} {words : List (List UInt8)} (h : x.Spells words)
    (o : Options) (args : List (List UInt8)) :
    parse_args program o (words ++ args) = parse_args program (x.apply o) args := by
  rcases h with rfl | rfl <;> cases x <;>
    (rw [parse_args.eq_def]; simp +decide [Opt.spelling, Opt.apply])

theorem parse_args_all_spelled {xs : List Opt} {words : List (List UInt8)} (h : Spelled xs words)
    (o : Options) (args : List (List UInt8)) :
    parse_args program o (words ++ args) =
      parse_args program (applied xs o) args := by
  induction h generalizing o with
  | nil => rfl
  | cons h t ih =>
    rw [List.append_assoc, parse_args_spelled h, ih]
    rfl

theorem parse_args_ends {args : List (List UInt8)} {code : Nat} {out : Output}
    (h : Ends program args code out) (o : Options) :
    parse_args program o args = .returns code out := by
  cases h with
  | help word h rest =>
    rw [parse_args.eq_def]
    rcases h with rfl | rfl <;> simp +decide
  | version word h rest =>
    rw [parse_args.eq_def]
    rcases h with rfl | rfl <;> simp +decide
  | no_file word h =>
    rw [parse_args.eq_def]
    rcases h with rfl | rfl <;> simp +decide
  | unknown word h rest =>
    simp only [known_words, List.mem_cons, List.not_mem_nil, or_false, not_or] at h
    rw [parse_args.eq_def]
    simp [h]

/-- The arguments spell options, up to their end or up to where the program
returns. -/
def Readable (program : Program) (args : List (List UInt8)) : Prop :=
  (∃ xs, Spelled xs args) ∨
    ∃ xs words rest code out, args = words ++ rest ∧ Spelled xs words ∧
      Ends program rest code out

theorem Readable.cons {x : Opt} {words args : List (List UInt8)} (hx : x.Spells words)
    (h : Readable program args) : Readable program (words ++ args) := by
  rcases h with ⟨xs, hxs⟩ | ⟨xs, words', rest, code, out, rfl, hxs, hends⟩
  · exact Or.inl ⟨x :: xs, hxs.cons hx⟩
  · exact Or.inr ⟨x :: xs, words ++ words', rest, code, out, (List.append_assoc _ _ _).symm,
      hxs.cons hx, hends⟩

theorem Readable.ends {args : List (List UInt8)} {code : Nat} {out : Output}
    (h : Ends program args code out) : Readable program args :=
  Or.inr ⟨[], [], args, code, out, rfl, .nil, h⟩

/-- A word for each option without a file. -/
theorem Readable.word {x : Opt} {word : List UInt8} {args : List (List UInt8)}
    (hx : x.spelling.2.2 = []) (hword : word = x.spelling.1 ∨ word = x.spelling.2.1)
    (h : Readable program args) : Readable program (word :: args) := by
  have hspells : x.Spells [word] := by
    unfold Opt.Spells
    rw [hx]
    exact hword.imp (congrArg (· :: [])) (congrArg (· :: []))
  exact h.cons hspells

/-- Every command line is readable. -/
theorem readable (args : List (List UInt8)) : Readable program args := by
  match args with
  | [] => exact Or.inl ⟨[], .nil⟩
  | word :: rest =>
    by_cases hconfig : word = text "-c" ∨ word = text "--config"
    · match rest with
      | [] => exact .ends (.no_file word hconfig)
      | file :: rest =>
        have hspells : (Opt.config file).Spells [word, file] :=
          hconfig.imp (congrArg (· :: [file])) (congrArg (· :: [file]))
        exact (readable rest).cons hspells
    by_cases hbackground : word = text "-d" ∨ word = text "--daemon"
    · exact Readable.word (x := .background) rfl hbackground (readable rest)
    by_cases hforeground : word = text "-f" ∨ word = text "--foreground"
    · exact Readable.word (x := .foreground) rfl hforeground (readable rest)
    by_cases htest : word = text "-t" ∨ word = text "--test-config"
    · exact Readable.word (x := .test_config) rfl htest (readable rest)
    by_cases hverbose : word = text "-v" ∨ word = text "--verbose"
    · exact Readable.word (x := .verbose) rfl hverbose (readable rest)
    by_cases hhelp : word = text "-h" ∨ word = text "--help"
    · exact .ends (.help word hhelp rest)
    by_cases hversion : word = text "-V" ∨ word = text "--version"
    · exact .ends (.version word hversion rest)
    · refine .ends (.unknown word ?_ rest)
      rw [not_or] at *
      simp [known_words, *]
termination_by args.length

/-- The program goes on from a command line just where it spells options,
with what these set one after the other. It returns from any other one, at
the first argument where it can spell no option. -/
theorem a_command_line_is_read_as_it_is_spelled (program : Program) (o : Options)
    (args : List (List UInt8)) :
    (∀ o', parse_args program o args = .goes_on o' ↔
      ∃ xs, Spelled xs args ∧ applied xs o = o') ∧
    (∀ code out, parse_args program o args = .returns code out ↔
      ∃ xs words rest, args = words ++ rest ∧ Spelled xs words ∧
        Ends program rest code out) := by
  have hspelled : ∀ xs, Spelled xs args →
      parse_args program o args = .goes_on (applied xs o) := by
    intro xs h
    have hall := @parse_args_all_spelled program _ _ h o []
    rwa [List.append_nil] at hall
  have hends : ∀ xs words rest code out, args = words ++ rest → Spelled xs words →
      Ends program rest code out → parse_args program o args = .returns code out := by
    intro xs words rest code out hargs hxs hends
    rw [hargs, parse_args_all_spelled hxs, parse_args_ends hends]
  have hreadable := @readable program args
  constructor
  · intro o'
    constructor
    · intro h
      rcases hreadable with ⟨xs, hxs⟩ | ⟨xs, words, rest, code, out, hargs, hxs, hend⟩
      · rw [hspelled xs hxs] at h
        exact ⟨xs, hxs, Parsed.goes_on.inj h⟩
      · rw [hends xs words rest code out hargs hxs hend] at h
        cases h
    · rintro ⟨xs, hxs, rfl⟩
      exact hspelled xs hxs
  · intro code out
    constructor
    · intro h
      rcases hreadable with ⟨xs, hxs⟩ | ⟨xs, words, rest, code', out', hargs, hxs, hend⟩
      · rw [hspelled xs hxs] at h
        cases h
      · rw [hends xs words rest code' out' hargs hxs hend] at h
        cases h
        exact ⟨xs, words, rest, hargs, hxs, hend⟩
    · rintro ⟨xs, words, rest, hargs, hxs, hend⟩
      exact hends xs words rest code out hargs hxs hend

/-! ## What the options change -/

variable {w : World}

/-- The options but the one for the daemon mode. -/
structure SameRead (o o' : Options) : Prop where
  config_file : o.config_file = o'.config_file
  test_config : o.test_config = o'.test_config
  verbose : o.verbose = o'.verbose

theorem SameRead.apply {o o' : Options} (h : SameRead o o') (x : Opt) :
    SameRead (x.apply o) (x.apply o') := by
  cases x with
  | config file => exact ⟨rfl, h.test_config, h.verbose⟩
  | background => exact ⟨h.config_file, h.test_config, h.verbose⟩
  | foreground => exact ⟨h.config_file, h.test_config, h.verbose⟩
  | test_config => exact ⟨h.config_file, rfl, h.verbose⟩
  | verbose => exact ⟨h.config_file, h.test_config, rfl⟩

theorem SameRead.applied {o o' : Options} (h : SameRead o o') (xs : List Opt) :
    SameRead (applied xs o) (applied xs o') := by
  induction xs generalizing o o' with
  | nil => exact h
  | cons x xs ih => exact ih (h.apply x)

theorem SameRead.run_with {o o' : Options} (h : SameRead o o') :
    run_with w o = run_with w o' := by
  unfold daemon.run_with logger_calls
  rw [h.config_file, h.test_config, h.verbose]

/-- Options that are read the same are read the same from there on. -/
theorem SameRead.run {o o' : Options} (h : SameRead o o') {words words' : List (List UInt8)}
    (hw : ∀ args, parse_args program Options.new (words ++ args) =
      parse_args program o args)
    (hw' : ∀ args, parse_args program Options.new (words' ++ args) =
      parse_args program o' args) (rest : List (List UInt8)) :
    run w program (words ++ rest) = run w program (words' ++ rest) := by
  unfold daemon.run
  rw [hw, hw']
  rcases @readable program rest with
    ⟨xs, hxs⟩ | ⟨xs, before, last, code, out, rfl, hxs, hend⟩
  · have hall := fun o => @parse_args_all_spelled program _ _ hxs o []
    simp only [List.append_nil, parse_args] at hall
    rw [hall, hall]
    exact (h.applied xs).run_with
  · simp only [parse_args_all_spelled hxs, parse_args_ends hend]

/-- The options for the daemon mode and for the foreground change nothing,
wherever they stand. -/
theorem a_daemon_option_changes_nothing (w : World) (program : Program) (xs : List Opt)
    (words : List (List UInt8)) (h : Spelled xs words) (x : Opt)
    (hx : x = .background ∨ x = .foreground) (word : List UInt8)
    (hword : word = x.spelling.1 ∨ word = x.spelling.2.1) (rest : List (List UInt8)) :
    run w program (words ++ word :: rest) = run w program (words ++ rest) := by
  have hspells : x.Spells [word] := by
    unfold Opt.Spells
    rcases hx with rfl | rfl <;> exact hword.imp (congrArg (· :: [])) (congrArg (· :: []))
  have hread : SameRead (x.apply (applied xs Options.new)) (applied xs Options.new) := by
    rcases hx with rfl | rfl <;> exact ⟨rfl, rfl, rfl⟩
  rw [List.append_cons]
  refine hread.run (fun args => ?_) (fun args => parse_args_all_spelled h _ args) rest
  rw [List.append_assoc, parse_args_all_spelled h, parse_args_spelled hspells]

theorem Spelled.one {x : Opt} {words : List (List UInt8)} (h : x.Spells words) :
    Spelled [x] words := by
  rw [← List.append_nil words]
  exact .cons h .nil

/-- A system with an empty file of each name, and one signal for the server
when it runs. -/
def plain_world : World where
  files _ := some []
  socket := 3
  setsockopt := 0
  bind := 0
  threads := true
  what := []
  signals := (0, 0, 1)
  thread_ends := true

def plain_program : Program where
  program_name := text "simple-snmpd"
  notice := ([], [])

/-- A long word for the daemon mode, after an option with a file. -/
theorem a_daemon_option_after_a_file_changes_nothing :
    run plain_world plain_program [text "-c", text "-d", text "--daemon", text "-t"] =
      run plain_world plain_program [text "-c", text "-d", text "-t"] :=
  a_daemon_option_changes_nothing plain_world plain_program [.config (text "-d")]
    [text "-c", text "-d"] (Spelled.one (Or.inl rfl)) .background
    (Or.inl rfl) (text "--daemon") (Or.inr rfl) [text "-t"]

/-! ## How the program ends -/

theorem run_spelled {xs : List Opt} {args : List (List UInt8)} (h : Spelled xs args) :
    run w program args = run_with w (applied xs Options.new) := by
  have hall := @parse_args_all_spelled program _ _ h Options.new []
  rw [List.append_nil] at hall
  unfold run
  rw [hall]
  rfl

theorem run_ends {xs : List Opt} {words rest : List (List UInt8)} {code : Nat} {out : Output}
    (hxs : Spelled xs words) (hend : Ends program rest code out) :
    run w program (words ++ rest) =
      { code, out, logger := [], config := none, server := [] } := by
  unfold run
  rw [parse_args_all_spelled hxs, parse_args_ends hend]

/-- The system lets the server start. -/
structure Starts (w : World) : Prop where
  socket : w.socket ≠ -1
  setsockopt : 0 ≤ w.setsockopt
  bind : 0 ≤ w.bind
  threads : w.threads = true

/-- A signal comes, and the server stops: its thread ends. -/
structure Stops (w : World) : Prop where
  signals : w.signals ≠ (0, 0, 0)
  thread_ends : w.thread_ends = true

theorem initializes_iff (w : World) :
    (snmp_server.initialize_server w.socket w.setsockopt w.bind snmp_server.Lifecycle.new).1 =
      true ↔ w.socket ≠ -1 ∧ 0 ≤ w.setsockopt ∧ 0 ≤ w.bind :=
  snmp_server.initialize_server_returns _ _ _ _

theorem serve_code (w : World) (logger : List logger.Call) (config : SNMPConfig) :
    ((serve w logger config).code = some 0 ↔ Starts w ∧ Stops w) ∧
      ((serve w logger config).code = none ↔ Starts w ∧ ¬ Stops w) := by
  have hsignals : w.signals.1 + w.signals.2.1 + w.signals.2.2 = 0 ↔ w.signals = (0, 0, 0) := by
    constructor
    · intro h
      ext <;> dsimp only <;> omega
    · intro h
      simp [h]
  have hinit := initializes_iff w
  unfold serve
  dsimp only
  split_ifs with h1 h2 h3 h4
  · have hno : ¬ Starts w := by
      intro hs
      rw [hinit.mpr ⟨hs.socket, hs.setsockopt, hs.bind⟩] at h1
      cases h1
    simp [hno]
  · have hno : ¬ Starts w := by
      intro hs
      rw [hs.threads] at h2
      cases h2
    simp [hno]
  all_goals
    simp only [Bool.not_eq_true', Bool.not_eq_false] at h1 h2
    obtain ⟨hs, ho, hb⟩ := hinit.mp h1
    have hstarts : Starts w := ⟨hs, ho, hb, h2⟩
    rw [hsignals] at h3
    simp only [hstarts, true_and]
  · have hno : ¬ Stops w := fun h => h.signals h3
    simp [hno]
  · have hno : ¬ Stops w := by
      intro h
      rw [h.thread_ends] at h4
      cases h4
    simp [hno]
  · have hstops : Stops w := ⟨h3, by simpa using h4⟩
    simp [hstops]

/-- The file of the options can be opened. -/
def Opens (w : World) (o : Options) : Prop := (w.files o.config_file).isSome = true

theorem run_with_unopened {o : Options} (h : ¬ Opens w o) :
    load (w.files o.config_file) SNMPConfig.new = (false, SNMPConfig.new) ∧
      ∃ out, run_with w o =
        { code := some 1, out, logger := logger_calls o, config := none, server := [] } := by
  unfold Opens at h
  rw [Bool.not_eq_true, Option.isSome_eq_false_iff, Option.isNone_iff_eq_none] at h
  unfold run_with
  rw [h]
  exact ⟨rfl, _, rfl⟩

theorem run_with_opened {o : Options} (h : Opens w o) :
    ∃ config, load (w.files o.config_file) SNMPConfig.new = (true, config) ∧
      run_with w o = if o.test_config then
        { code := some 0
          out := [(.cout, text "Configuration test passed")]
          logger := logger_calls o, config := none, server := [] }
      else serve w (logger_calls o) config := by
  obtain ⟨content, hcontent⟩ := Option.isSome_iff_exists.mp h
  unfold run_with
  rw [hcontent]
  exact ⟨_, rfl, rfl⟩

theorem run_with_code (o : Options) :
    ((run_with w o).code = some 0 ↔ Opens w o ∧
      (o.test_config = true ∨ Starts w ∧ Stops w)) ∧
    ((run_with w o).code = none ↔ Opens w o ∧
      o.test_config = false ∧ Starts w ∧ ¬ Stops w) := by
  by_cases hopens : Opens w o
  swap
  · obtain ⟨hload, out, hrun⟩ := run_with_unopened hopens
    rw [hrun]
    simp [hopens]
  obtain ⟨config, hload, hrun⟩ := run_with_opened hopens
  rw [hrun]
  obtain ⟨hzero, hnone⟩ := serve_code w (logger_calls o) config
  cases o.test_config with
  | true => simp [hopens]
  | false => simp [hopens, hzero, hnone]

theorem applied_test_config (xs : List Opt) (o : Options) :
    (applied xs o).test_config = true ↔ .test_config ∈ xs ∨ o.test_config = true := by
  induction xs generalizing o with
  | nil => simp [applied]
  | cons x xs ih =>
    have hcons : applied (x :: xs) o = applied xs (x.apply o) := rfl
    rw [hcons, ih]
    cases x <;> simp [Opt.apply]

theorem tests_iff (xs : List Opt) :
    (applied xs Options.new).test_config = true ↔ .test_config ∈ xs := by
  rw [applied_test_config]
  exact or_iff_left nofun

theorem serve_code_le (w : World) (logger : List logger.Call) (config : SNMPConfig) :
    (serve w logger config).code ∈ [none, some 0, some 1] := by
  unfold serve
  dsimp only
  split_ifs <;> simp

theorem run_with_code_le (o : Options) : (run_with w o).code ∈ [none, some 0, some 1] := by
  by_cases hopens : Opens w o
  · obtain ⟨config, hload, hrun⟩ := run_with_opened hopens
    rw [hrun]
    split_ifs
    · simp
    · exact serve_code_le w (logger_calls o) config
  · obtain ⟨hload, out, hrun⟩ := run_with_unopened hopens
    rw [hrun]
    simp

theorem Ends.code_le {args : List (List UInt8)} {code : Nat} {out : Output}
    (h : Ends program args code out) : code = 0 ∨ code = 1 := by
  cases h with
  | help _ _ _ => exact Or.inl rfl
  | version _ _ _ => exact Or.inl rfl
  | no_file _ _ => exact Or.inr rfl
  | unknown _ _ _ => exact Or.inr rfl

/-- The program returns 0 where it is asked for its usage or its version,
where it tests a file that opens, and where its server starts and a signal
stops it. It runs on where no signal comes, and where the thread of its
server does not end on one. It returns 1 otherwise. -/
theorem the_program_returns_zero_iff_it_did_what_it_was_asked (w : World)
    (program : Program) (args : List (List UInt8)) :
    ((run w program args).code = some 0 ↔
      (∃ xs words rest out, args = words ++ rest ∧ Spelled xs words ∧
        Ends program rest 0 out) ∨
      ∃ xs, Spelled xs args ∧ Opens w (applied xs Options.new) ∧
        (.test_config ∈ xs ∨ Starts w ∧ Stops w)) ∧
    ((run w program args).code = none ↔
      ∃ xs, Spelled xs args ∧ Opens w (applied xs Options.new) ∧ .test_config ∉ xs ∧
        Starts w ∧ ¬ Stops w) ∧
    (run w program args).code ∈ [none, some 0, some 1] := by
  have hspelled : ∀ xs, Spelled xs args →
      ((run w program args).code = some 0 ↔ Opens w (applied xs Options.new) ∧
        (.test_config ∈ xs ∨ Starts w ∧ Stops w)) ∧
      ((run w program args).code = none ↔ Opens w (applied xs Options.new) ∧
        .test_config ∉ xs ∧ Starts w ∧ ¬ Stops w) := by
    intro xs hxs
    rw [run_spelled hxs, ← tests_iff, Bool.not_eq_true]
    exact run_with_code _
  rcases @readable program args with
    ⟨xs, hxs⟩ | ⟨xs, words, rest, code, out, rfl, hxs, hend⟩
  · obtain ⟨hzero, hnone⟩ := hspelled xs hxs
    refine ⟨⟨fun h => Or.inr ⟨xs, hxs, hzero.mp h⟩, ?_⟩,
      ⟨fun h => ⟨xs, hxs, hnone.mp h⟩, ?_⟩, ?_⟩
    · rintro (⟨ys, words, rest, out, rfl, hys, hend⟩ | ⟨ys, hys, hread⟩)
      · rw [run_ends hys hend]
      · exact (hspelled ys hys).1.mpr hread
    · rintro ⟨ys, hys, hread⟩
      exact (hspelled ys hys).2.mpr hread
    · rw [run_spelled hxs]
      exact run_with_code_le _
  · have hrun : run w program (words ++ rest) =
        { code, out, logger := [], config := none, server := [] } := run_ends hxs hend
    refine ⟨⟨fun h => ?_, ?_⟩, ⟨fun h => ?_, ?_⟩, ?_⟩
    · rw [hrun] at h
      cases h
      exact Or.inl ⟨xs, words, rest, out, rfl, hxs, hend⟩
    · rintro (⟨ys, words', rest', out', hargs, hys, hend'⟩ | ⟨ys, hys, hread⟩)
      · rw [hargs, run_ends hys hend']
      · exact (hspelled ys hys).1.mpr hread
    · rw [hrun] at h
      cases h
    · rintro ⟨ys, hys, hread⟩
      exact (hspelled ys hys).2.mpr hread
    · rw [hrun]
      rcases hend.code_le with rfl | rfl <;> simp

/-! ## The server and the logger of the program -/

theorem serve_keepsSocket (w : World) (logger : List logger.Call) (config : SNMPConfig) :
    snmp_server.KeepsSocket (serve w logger config).server := by
  have hall := snmp_server.main_keeps_its_socket w.signals.1 w.signals.2.1 w.signals.2.2 w.socket
    w.setsockopt w.bind w.threads
  unfold serve
  dsimp only
  split_ifs with h1 h2 h3 h4
  · exact hall
  · exact hall
  · -- the server runs on, with the socket that it has bound
    simp only [Bool.not_eq_true', Bool.not_eq_false] at h1
    have hbound := (initializes_iff w).mp h1
    refine snmp_server.keepsSocket_of_inOrder (Or.inr ?_)
    have hready : snmp_server.Phase.idle.next
        (.initializes w.socket w.setsockopt w.bind) = some .ready := if_pos hbound
    unfold snmp_server.phase
    rw [List.foldlM_cons, hready]
    rfl
  · -- it has closed its socket, and waits for its thread
    exact snmp_server.main_keeps_its_socket w.signals.1 w.signals.2.1 0 w.socket w.setsockopt
      w.bind w.threads
  · exact hall

theorem serve_config (w : World) (logger : List logger.Call) (config : SNMPConfig) :
    (serve w logger config).config = some config ∧ (serve w logger config).logger = logger := by
  unfold serve
  dsimp only
  split_ifs <;> exact ⟨rfl, rfl⟩

theorem run_with_keepsSocket (o : Options) : snmp_server.KeepsSocket (run_with w o).server := by
  have hnone : snmp_server.KeepsSocket [] := snmp_server.keepsSocket_of_inOrder (Or.inl rfl)
  by_cases hopens : Opens w o
  · obtain ⟨config, -, hrun⟩ := run_with_opened hopens
    rw [hrun]
    split_ifs
    · exact hnone
    · exact serve_keepsSocket w _ config
  · obtain ⟨-, out, hrun⟩ := run_with_unopened hopens
    rw [hrun]
    exact hnone

theorem run_with_config (o : Options) {M S : Type} (i : snmp_server.Initializers M S)
    (s : snmp_server.Agent M S) :
    (run_with w o).config.map (snmp_server.SNMPServer.new i · s) =
      snmp_server.main i o.test_config (w.files o.config_file) s := by
  unfold snmp_server.main
  by_cases hopens : Opens w o
  · obtain ⟨config, hload, hrun⟩ := run_with_opened hopens
    rw [hrun, hload]
    dsimp only
    split_ifs
    · rfl
    · rw [(serve_config w _ config).1]
      rfl
  · obtain ⟨hload, out, hrun⟩ := run_with_unopened hopens
    rw [hrun, hload]
    rfl

theorem run_with_logger (o : Options) : (run_with w o).logger = logger_calls o := by
  by_cases hopens : Opens w o
  · obtain ⟨config, -, hrun⟩ := run_with_opened hopens
    rw [hrun]
    split_ifs
    · rfl
    · exact (serve_config w _ config).2
  · obtain ⟨-, out, hrun⟩ := run_with_unopened hopens
    rw [hrun]

/-- Whatever the command line, the files and the system, the program keeps
its socket. Its server is the one that is made of its configuration file. -/
theorem the_program_keeps_its_socket (w : World) (program : Program)
    (args : List (List UInt8)) :
    snmp_server.KeepsSocket (run w program args).server ∧
      ∀ xs, Spelled xs args → ∀ (M S : Type) (i : snmp_server.Initializers M S)
        (s : snmp_server.Agent M S),
        (run w program args).config.map (snmp_server.SNMPServer.new i · s) =
          snmp_server.main i (applied xs Options.new).test_config
            (w.files (applied xs Options.new).config_file) s := by
  constructor
  · rcases @readable program args with
      ⟨xs, hxs⟩ | ⟨xs, words, rest, code, out, rfl, hxs, hend⟩
    · rw [run_spelled hxs]
      exact run_with_keepsSocket _
    · rw [run_ends hxs hend]
      exact snmp_server.keepsSocket_of_inOrder (Or.inl rfl)
  · intro xs hxs M S i s
    rw [run_spelled hxs]
    exact run_with_config _ i s

theorem applied_verbose (xs : List Opt) (o : Options) :
    (applied xs o).verbose = true ↔ .verbose ∈ xs ∨ o.verbose = true := by
  induction xs generalizing o with
  | nil => simp [applied]
  | cons x xs ih =>
    have hcons : applied (x :: xs) o = applied xs (x.apply o) := rfl
    rw [hcons, ih]
    cases x <;> simp [Opt.apply]

/-- A message of the program, as a call. -/
def message_call (m : Clock × LogLevel × List UInt8) : logger.Call := .logs m.1 m.2.1 m.2.2

/-- Messages change nothing of the logger. -/
theorem after_messages (calls : List logger.Call)
    (messages : List (Clock × LogLevel × List UInt8)) :
    after (calls ++ messages.map message_call) = after calls := by
  induction messages using List.reverseRecOn with
  | nil => rw [List.map_nil, List.append_nil]
  | append_singleton messages m ih =>
    rw [List.map_append, List.map_singleton, ← List.append_assoc, after_snoc, ih]
    rfl

theorem value_le_iff (level : LogLevel) : LogLevel.INFO.value ≤ level.value ↔ level ≠ .DEBUG := by
  cases level <;> decide

/-- Whatever the configuration says, the program logs to no file, and what
passes is decided by the verbose option alone. -/
theorem the_verbose_option_alone_decides_what_is_logged (w : World) (program : Program)
    (xs : List Opt) (args : List (List UInt8)) (h : Spelled xs args)
    (messages : List (Clock × LogLevel × List UInt8)) :
    let calls := (run w program args).logger ++ messages.map message_call
    (∀ path, lines_to (.file path) (output_of calls) = []) ∧
      ∀ level, Passes calls level ↔ level ≠ .DEBUG ∨ .verbose ∈ xs := by
  have hcalls : (run w program args).logger = logger_calls (applied xs Options.new) := by
    rw [run_spelled h, run_with_logger]
  rw [hcalls]
  dsimp only
  constructor
  · refine closed_unfiled rfl ?_
    intro c hc
    rcases List.mem_append.mp hc with hc | hc
    · rw [List.mem_singleton.mp hc]
      rfl
    · obtain ⟨m, -, rfl⟩ := List.mem_map.mp hc
      rfl
  · intro level
    rw [after_passes, after_messages]
    have hverbose := applied_verbose xs Options.new
    cases hv : (applied xs Options.new).verbose with
    | true =>
      have hmem : Opt.verbose ∈ xs := (hverbose.mp hv).resolve_right nofun
      simp [after, logger_calls, hv, called, initialize_logger, hmem, LogLevel.value]
    | false =>
      have hmem : Opt.verbose ∉ xs := by
        intro hmem
        rw [hverbose.mpr (Or.inl hmem)] at hv
        cases hv
      rw [← value_le_iff]
      simp [after, logger_calls, hv, called, initialize_logger, hmem]

/-- Without the option, no debug message passes. -/
theorem a_quiet_program_shows_no_debug_messages :
    let calls := (run plain_world plain_program [text "-t"]).logger ++
      [((⟨[], 0⟩, .DEBUG, []) : Clock × LogLevel × List UInt8)].map message_call
    (∀ path, lines_to (.file path) (output_of calls) = []) ∧
      ∀ level, Passes calls level ↔ level ≠ .DEBUG ∨ Opt.verbose ∈ [Opt.test_config] :=
  the_verbose_option_alone_decides_what_is_logged plain_world _ [.test_config] _
    (Spelled.one (Or.inl rfl)) _

end simple_snmpd.daemon
