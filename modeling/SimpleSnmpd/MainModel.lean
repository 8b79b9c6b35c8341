-- The program of `main.cpp`: its command line, and what it does from there to
-- its exit code. Files, sockets, threads and signals come from outside.
import SimpleSnmpd.LoggerModel
import SimpleSnmpd.ServerLifecycle
import SimpleSnmpd.ServerModel

open simple_snmpd.snmp_config simple_snmpd.logger

namespace simple_snmpd.daemon

/-! ## The command line -/

/-- The variables that the options set. -/
structure Options where
  config_file : List UInt8
  daemon_mode : Bool
  test_config : Bool
  verbose : Bool
deriving DecidableEq, Repr

def Options.new : Options where
  config_file := text "/etc/simple-snmpd/simple-snmpd.conf"
  daemon_mode := false
  test_config := false
  verbose := false

/-- The program as it is called and built: `argv[0]`, and the second and the
third line of `print_version`, which say whose it is. -/
structure Program where
  program_name : List UInt8
  notice : List UInt8 × List UInt8
deriving DecidableEq, Repr

/-- `print_usage`. -/
def print_usage (program_name : List UInt8) : Output :=
  [text "Usage: " ++ program_name ++ text " [OPTIONS]", text "Options:",
    text "  -c, --config FILE    Configuration file path",
    text "  -d, --daemon         Run as daemon",
    text "  -f, --foreground     Run in foreground (default)",
    text "  -t, --test-config    Test configuration and exit",
    text "  -v, --verbose        Verbose output",
    text "  -h, --help           Show this help message",
    text "  -V, --version        Show version information"].map fun line => (.cout, line)

/-- `print_version`. -/
def print_version (notice : List UInt8 × List UInt8) : Output :=
  [text "simple-snmpd version 0.1.0", notice.1, notice.2].map fun line => (.cout, line)

/-- How the loop over the arguments ends: the program goes on, or it returns
a code. -/
inductive Parsed where
  | goes_on (o : Options)
  | returns (code : Nat) (out : Output)
deriving DecidableEq, Repr

/-- The loop of `main` over the arguments after the first one. -/
def parse_args (program : Program) : Options → List (List UInt8) → Parsed
  | o, [] => .goes_on o
  | o, arg :: rest =>
    if arg = text "-c" ∨ arg = text "--config" then
      match rest with
      | file :: rest => parse_args program { o with config_file := file } rest
      | [] => .returns 1 [(.cerr, text "Error: --config requires a file path")]
    else if arg = text "-d" ∨ arg = text "--daemon" then
      parse_args program { o with daemon_mode := true } rest
    else if arg = text "-f" ∨ arg = text "--foreground" then
      parse_args program { o with daemon_mode := false } rest
    else if arg = text "-t" ∨ arg = text "--test-config" then
      parse_args program { o with test_config := true } rest
    else if arg = text "-v" ∨ arg = text "--verbose" then
      parse_args program { o with verbose := true } rest
    else if arg = text "-h" ∨ arg = text "--help" then
      .returns 0 (print_usage program.program_name)
    else if arg = text "-V" ∨ arg = text "--version" then
      .returns 0 (print_version program.notice)
    else
      .returns 1
        ((.cerr, text "Error: Unknown option " ++ arg) :: print_usage program.program_name)

/-! ## The program -/

/-- What the system brings to the program: the content of each file that can
be opened, what the socket calls return, whether there are threads, how
often a signal comes before the server is initialized, between that and its
start, and while it runs, and whether the thread of the server ends once it
is stopped: closing the socket does not end a `recvfrom` that waits on it. -/
structure World where
  files : List UInt8 → Option (List UInt8)
  socket : Int
  setsockopt : Int
  bind : Int
  threads : Bool
  what : List UInt8
  signals : Nat × Nat × Nat
  thread_ends : Bool

/-- What the program does: its code, unless it runs on, what it prints, how
it sets up the logger, the configuration of its server, and the calls on it. -/
structure Ran where
  code : Option Nat
  out : Output
  logger : List logger.Call
  config : Option SNMPConfig
  server : List snmp_server.Call
deriving DecidableEq, Repr

/-- `main`, from the configuration on: the server runs until a signal comes.
The first `stop` of a running server waits for its thread. Signals come
between the calls on the server; what their handler prints is left out. -/
def serve (w : World) (logger : List logger.Call) (config : SNMPConfig) : Ran :=
  let (before, between, during) := w.signals
  let server := snmp_server.main_calls before between during w.socket w.setsockopt w.bind w.threads
  if !(snmp_server.initialize_server w.socket w.setsockopt w.bind snmp_server.Lifecycle.new).1 then
    { code := some 1
      out := [(.cerr, text "Error: Failed to initialize SNMP server")]
      logger, config, server }
  else if !w.threads then
    { code := some 1
      out := [(.cerr, text "Error: " ++ w.what)]
      logger, config, server }
  else
    let out : Output :=
      [(.cout, text "Simple SNMP Daemon started successfully"),
        (.cout, text "Listening on port " ++ texts.numeral config.port.toNat)]
    if before + between + during = 0 then
      { code := none
        out, logger, config
        server := [.initializes w.socket w.setsockopt w.bind, .starts w.threads] }
    else if !w.thread_ends then
      -- `stop` has closed the socket, and does not return from `join`
      { code := none
        out, logger, config
        server := snmp_server.main_calls before between 0 w.socket w.setsockopt w.bind w.threads }
    else
      { code := some 0
        out := out ++ [(.cout, text "Simple SNMP Daemon stopped")]
        logger, config, server }

/-- How the logger is set up: it is initialized without a file, and no other
call of the program sets its level or its file. -/
def logger_calls (o : Options) : List logger.Call :=
  [.initializes false (if o.verbose then .DEBUG else .INFO) []]

/-- `main`, from its options on. -/
def run_with (w : World) (o : Options) : Ran :=
  let logger := logger_calls o
  match load (w.files o.config_file) SNMPConfig.new with
  | (false, _) =>
    { code := some 1
      out := [(.cerr, text "Error: Failed to load configuration from " ++ o.config_file)]
      logger, config := none, server := [] }
  | (true, config) =>
    if o.test_config then
      { code := some 0
        out := [(.cout, text "Configuration test passed")]
        logger, config := none, server := [] }
    else serve w logger config

/-- `main`. -/
def run (w : World) (program : Program) (args : List (List UInt8)) : Ran :=
  match parse_args program Options.new args with
  | .returns code out => { code, out, logger := [], config := none, server := [] }
  | .goes_on o => run_with w o

end simple_snmpd.daemon
