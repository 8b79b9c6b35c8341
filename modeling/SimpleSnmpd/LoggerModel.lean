-- The logger of `logger.cpp`: its level, its file, and the line that a
-- message becomes. The clock, and whether a file can be opened, come from
-- outside. A line goes to a sink with a newline behind it.
import SimpleSnmpd.ConfigModel
import SimpleSnmpd.WriteLogs

open texts write_logs simple_snmpd.snmp_config

namespace simple_snmpd.logger

/-- `enum class LogLevel`. -/
inductive LogLevel where
  | DEBUG
  | INFO
  | WARNING
  | ERROR
  | FATAL
deriving DecidableEq, Repr

def LogLevel.value : LogLevel → Nat
  | .DEBUG => 0
  | .INFO => 1
  | .WARNING => 2
  | .ERROR => 3
  | .FATAL => 4

/-- The switch of `Logger::log` on the level. -/
def level_str : LogLevel → List UInt8
  | .DEBUG => text "DEBUG"
  | .INFO => text "INFO "
  | .WARNING => text "WARN "
  | .ERROR => text "ERROR"
  | .FATAL => text "FATAL"

/-- A number after `std::setfill('0') << std::setw(width)`. -/
def zero_filled (width n : Nat) : List UInt8 :=
  List.replicate (width - (numeral n).length) 0x30 ++ numeral n

/-- A reading of the clock: what `std::put_time` writes of it, and its
milliseconds. -/
structure Clock where
  put_time : List UInt8
  ms : Nat
deriving DecidableEq, Repr

/-- The time stamp of `Logger::log`. -/
def timestamp (now : Clock) : List UInt8 := now.put_time ++ text "." ++ zero_filled 3 now.ms

/-- The line that a message becomes. -/
def formatted_message (now : Clock) (level : LogLevel) (message : List UInt8) : List UInt8 :=
  text "[" ++ timestamp now ++ text "] [" ++ level_str level ++ text "] " ++ message

/-! ## The streams -/

inductive Sink where
  | cout
  | cerr
  | file (path : List UInt8)
deriving DecidableEq, Repr

/-- Lines, each with the sink that it goes to. -/
abbrev Output := List (Sink × List UInt8)

/-- A `std::ofstream`: the file that is open, and the failbit. -/
structure OfStream where
  file : Option (List UInt8)
  failbit : Bool
deriving DecidableEq, Repr

/-- `open(path, std::ios::app)`. A stream that has a file open keeps it, and
fails. -/
def OfStream.open (opens : Bool) (path : List UInt8) (f : OfStream) : OfStream :=
  match f.file with
  | some _ => { f with failbit := true }
  | none => if opens then { file := some path, failbit := false } else { f with failbit := true }

/-- `<< line << std::endl`. A stream that failed takes nothing. -/
def OfStream.put (line : List UInt8) (f : OfStream) : Output :=
  match f.file with
  | some path => if f.failbit then [] else [(.file path, line)]
  | none => []

/-! ## The logger -/

/-- `Logger`. -/
structure Logger where
  level : LogLevel
  initialized : Bool
  log_file : OfStream
deriving DecidableEq, Repr

/-- `Logger::Logger`. -/
def Logger.new : Logger where
  level := .INFO
  initialized := false
  log_file := { file := none, failbit := false }

/-- `Logger::initialize`, with whether the file can be opened. -/
def initialize_logger (opens : Bool) (level : LogLevel) (log_file_path : List UInt8)
    (l : Logger) : Logger × Output :=
  let l := { l with level, initialized := true }
  if log_file_path = [] then (l, [])
  else
    let l := { l with log_file := l.log_file.open opens log_file_path }
    if l.log_file.file = none then
      (l, [(.cerr, text "Warning: Could not open log file: " ++ log_file_path)])
    else (l, [])

/-- A message, with its level. -/
abbrev Entry := LogLevel × List UInt8

/-- `Logger::set_level`. -/
def set_level (level : LogLevel) (l : Logger) : Logger := { l with level }

/-- Where the console shows a level. -/
def console (level : LogLevel) : Sink :=
  if level.value ≥ LogLevel.WARNING.value then .cerr else .cout

/-- `Logger::log`. -/
def log (now : Clock) (level : LogLevel) (message : List UInt8) (l : Logger) : Output :=
  if !l.initialized || level.value < l.level.value then []
  else
    let line := formatted_message now level message
    (console level, line) :: if l.log_file.file ≠ none then l.log_file.put line else []

/-! ## Calls -/

/-- A call on a logger, with what the system brings to it. -/
inductive Call where
  | initializes (opens : Bool) (level : LogLevel) (path : List UInt8)
  | sets_level (level : LogLevel)
  | logs (now : Clock) (level : LogLevel) (message : List UInt8)
deriving DecidableEq, Repr

def called (l : Logger) : Call → Logger × Output
  | .initializes opens level path => initialize_logger opens level path l
  | .sets_level level => (set_level level l, [])
  | .logs now level message => (l, log now level message l)

def after (calls : List Call) : Logger := calls.foldl (fun l c => (called l c).1) Logger.new

/-- What a run writes. -/
def output_of (calls : List Call) : Output :=
  runLog (fun l c => (called l c).1) (fun l c => (called l c).2) Logger.new calls

/-- The lines that a sink gets. -/
def lines_to (sink : Sink) (out : Output) : List (List UInt8) :=
  (out.filter fun w => w.1 = sink).map Prod.snd

end simple_snmpd.logger
