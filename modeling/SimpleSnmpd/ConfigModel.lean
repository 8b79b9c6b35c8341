-- The configuration of `snmp_config.cpp`: its fields, the loop that reads a
-- file line by line, and the values that a line sets. A number is stored in
-- its field first, and then its range is checked there.
import SimpleSnmpd.Texts
import Mathlib.Algebra.Group.Nat.Defs
import Mathlib.Algebra.Group.Int.Defs

open texts

namespace simple_snmpd.snmp_config

/-! ## Texts -/

/-- The octets of an ASCII text. -/
def text (s : String) : List UInt8 := s.toList.map fun c => UInt8.ofNat c.toNat

/-- `std::isspace` in the C locale. -/
def isspace (c : UInt8) : Bool := c = 0x20 || 0x09 ≤ c && c ≤ 0x0D

/-- `::tolower` in the C locale. -/
def tolower (c : UInt8) : UInt8 := if 0x41 ≤ c ∧ c ≤ 0x5A then c + 0x20 else c

/-- Whether a text begins with a minus, and what follows its sign. -/
def sign (s : List UInt8) : Bool × List UInt8 :=
  match s with
  | c :: rest => if c = 0x2D then (true, rest) else if c = 0x2B then (false, rest) else (false, s)
  | [] => (false, [])

/-- The integer, if it is an `int`. -/
def as_int (n : Int) : Option Int := if -2 ^ 31 ≤ n ∧ n < 2 ^ 31 then some n else none

/-- `std::stoi`: blanks, a sign, and then as many digits as there are. What
follows them is ignored. `none` is an exception: no digit, or no `int`. -/
def stoi (s : List UInt8) : Option Int :=
  let (negative, s) := sign (s.dropWhile isspace)
  let digits := s.takeWhile isDigit
  if digits = [] then none
  else as_int (if negative then -digitsValue digits else digitsValue digits)

/-! ## The configuration -/

/-- `SNMPConfig`. -/
structure SNMPConfig where
  port : UInt16
  community : List UInt8
  max_connections : UInt32
  timeout_seconds : UInt32
  log_level : List UInt8
  enable_ipv6 : Bool
  enable_trap : Bool
  trap_port : UInt16
deriving DecidableEq, Repr

/-- `SNMPConfig::SNMPConfig`. -/
def SNMPConfig.new : SNMPConfig where
  port := 161
  community := text "public"
  max_connections := 100
  timeout_seconds := 30
  log_level := text "info"
  enable_ipv6 := true
  enable_trap := false
  trap_port := 162

/-! ## One value -/

/-- A branch for a number: its field takes what `std::stoi` gives, in the
width of the field, and what the field holds then is checked. -/
def parse_number {α : Type} (narrow : Int → α) (refused : α → Bool) (store : α → SNMPConfig)
    (value : List UInt8) (c : SNMPConfig) : Bool × SNMPConfig :=
  match stoi value with
  | some n => (!refused (narrow n), store (narrow n))
  | none => (false, c)

/-- A branch for a flag. -/
def parse_flag (value : List UInt8) : Bool :=
  let val := value.map tolower
  val = text "true" || val = text "1" || val = text "yes"

/-- The names that `log_level` takes. -/
def is_level (level : List UInt8) : Bool :=
  level = text "debug" || level = text "info" || level = text "warning" ||
    level = text "error" || level = text "fatal"

section

variable (value : List UInt8) (c : SNMPConfig)

def parse_port : Bool × SNMPConfig :=
  parse_number UInt16.ofInt (fun port => port.toNat < 1 || port.toNat > 65535)
    (fun port => { c with port }) value c

def parse_community : Bool × SNMPConfig := (true, { c with community := value })

def parse_max_connections : Bool × SNMPConfig :=
  parse_number UInt32.ofInt (fun max_connections => max_connections.toNat < 1)
    (fun max_connections => { c with max_connections }) value c

def parse_timeout_seconds : Bool × SNMPConfig :=
  parse_number UInt32.ofInt (fun timeout_seconds => timeout_seconds.toNat < 1)
    (fun timeout_seconds => { c with timeout_seconds }) value c

def parse_log_level : Bool × SNMPConfig :=
  let level := value.map tolower
  if is_level level then (true, { c with log_level := level }) else (false, c)

def parse_enable_ipv6 : Bool × SNMPConfig := (true, { c with enable_ipv6 := parse_flag value })

def parse_enable_trap : Bool × SNMPConfig := (true, { c with enable_trap := parse_flag value })

def parse_trap_port : Bool × SNMPConfig :=
  parse_number UInt16.ofInt (fun trap_port => trap_port.toNat < 1 || trap_port.toNat > 65535)
    (fun trap_port => { c with trap_port }) value c

end

/-- `SNMPConfig::parse_config_value`, with the configuration that it leaves. -/
def parse_config_value (key value : List UInt8) (c : SNMPConfig) : Bool × SNMPConfig :=
  if key = text "port" then parse_port value c
  else if key = text "community" then parse_community value c
  else if key = text "max_connections" then parse_max_connections value c
  else if key = text "timeout_seconds" then parse_timeout_seconds value c
  else if key = text "log_level" then parse_log_level value c
  else if key = text "enable_ipv6" then parse_enable_ipv6 value c
  else if key = text "enable_trap" then parse_enable_trap value c
  else if key = text "trap_port" then parse_trap_port value c
  else (false, c)

/-! ## The file -/

/-- The set " \t\r\n". -/
def is_end (c : UInt8) : Bool := c = 0x20 || c = 0x09 || c = 0x0D || c = 0x0A

/-- The set " \t". -/
def is_blank (c : UInt8) : Bool := c = 0x20 || c = 0x09

/-- A line without its comment and without the blanks at its ends. -/
def bare (line : List UInt8) : List UInt8 := trim is_end (line.takeWhile (· ≠ 0x23))

/-- The key and the value of a line, if it has an equals sign. -/
def key_value (line : List UInt8) : Option (List UInt8 × List UInt8) :=
  if 0x3D ∈ bare line then
    some (trim is_blank ((bare line).takeWhile (· ≠ 0x3D)),
      trim is_blank ((bare line).dropWhile (· ≠ 0x3D)).tail)
  else none

/-- One turn of the loop of `load`. -/
def load_line (c : SNMPConfig) (line : List UInt8) : SNMPConfig :=
  match key_value line with
  | some (key, value) => (parse_config_value key value c).2
  | none => c

/-- `std::getline` until the end of the file. -/
def getlines (content : List UInt8) : List (List UInt8) := lines 0x0A content

/-- `SNMPConfig::load`, on the content of the file if it opens. -/
def load (file : Option (List UInt8)) (c : SNMPConfig) : Bool × SNMPConfig :=
  match file with
  | some content => (true, (getlines content).foldl load_line c)
  | none => (false, c)

end simple_snmpd.snmp_config
