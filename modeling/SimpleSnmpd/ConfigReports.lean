-- What the loop of `load` logs, and its law: the warnings name the lines that
-- are refused, by their numbers. Files that load alike are told apart by no
-- configuration: they have the same last write of each setting.
import SimpleSnmpd.ConfigFiles
import SimpleSnmpd.LoggerModel

open texts registers simple_snmpd.logger

namespace simple_snmpd.snmp_config

/-! ## The messages -/

/-- What the branch of a number logs. -/
def number_log {α : Type} (narrow : Int → α) (refuses : α → Bool)
    (invalid unreadable value : List UInt8) : List Entry :=
  match stoi value with
  | some n => if refuses (narrow n) then [(.ERROR, invalid ++ value)] else []
  | none => [(.ERROR, unreadable ++ value)]

def port_log (value : List UInt8) : List Entry :=
  number_log UInt16.ofInt (fun port => port.toNat < 1 || port.toNat > 65535)
    (text "Invalid port number: ") (text "Invalid port value: ") value

def max_connections_log (value : List UInt8) : List Entry :=
  number_log UInt32.ofInt (fun max_connections => max_connections.toNat < 1)
    (text "Invalid max_connections: ") (text "Invalid max_connections value: ") value

def timeout_seconds_log (value : List UInt8) : List Entry :=
  number_log UInt32.ofInt (fun timeout_seconds => timeout_seconds.toNat < 1)
    (text "Invalid timeout_seconds: ") (text "Invalid timeout_seconds value: ") value

def log_level_log (value : List UInt8) : List Entry :=
  if is_level (value.map tolower) then [] else [(.ERROR, text "Invalid log_level: " ++ value)]

def trap_port_log (value : List UInt8) : List Entry :=
  number_log UInt16.ofInt (fun trap_port => trap_port.toNat < 1 || trap_port.toNat > 65535)
    (text "Invalid trap_port: ") (text "Invalid trap_port value: ") value

/-- What `SNMPConfig::parse_config_value` logs. -/
def parse_config_value_log (key value : List UInt8) : List Entry :=
  if key = text "port" then port_log value
  else if key = text "community" then []
  else if key = text "max_connections" then max_connections_log value
  else if key = text "timeout_seconds" then timeout_seconds_log value
  else if key = text "log_level" then log_level_log value
  else if key = text "enable_ipv6" then []
  else if key = text "enable_trap" then []
  else if key = text "trap_port" then trap_port_log value
  else [(.WARNING, text "Unknown config key: " ++ key)]

/-- What one turn of the loop of `load` logs. -/
def load_line_log (c : SNMPConfig) (line_number : Nat) (line : List UInt8) : List Entry :=
  if bare line = [] then []
  else
    match key_value line with
    | none =>
      [(.WARNING, text "Invalid config line " ++ numeral line_number ++ text ": " ++ bare line)]
    | some (key, value) =>
      parse_config_value_log key value ++
        if !(parse_config_value key value c).1 then
          [(.WARNING, text "Invalid config value at line " ++ numeral line_number ++ text ": " ++
            key ++ text "=" ++ value)]
        else []

/-- What the loop logs, after a number of lines. -/
def load_lines_log : SNMPConfig → Nat → List (List UInt8) → List Entry
  | _, _, [] => []
  | c, line_number, line :: ls =>
    load_line_log c (line_number + 1) line ++
      load_lines_log (load_line c line) (line_number + 1) ls

/-- What `SNMPConfig::load` logs. -/
def load_log (config_file : List UInt8) (file : Option (List UInt8)) (c : SNMPConfig) :
    List Entry :=
  match file with
  | none => [(.ERROR, text "Failed to open config file: " ++ config_file)]
  | some content =>
    load_lines_log c 0 (getlines content) ++
      [(.INFO, text "Configuration loaded from: " ++ config_file)]

/-! ## The lines that are refused -/

/-- The line is not blank, and sets no setting to a value that it accepts. -/
def refused (line : List UInt8) : Bool :=
  bare line ≠ [] && !(key_value line).any fun entry =>
    settings.any fun x => entry.1 = x.key && x.accepts entry.2

/-- The numbers of the refused lines, after a number of lines. -/
def refused_numbers : Nat → List (List UInt8) → List Nat
  | _, [] => []
  | line_number, line :: ls =>
    (if refused line then [line_number + 1] else []) ++ refused_numbers (line_number + 1) ls

def line_words : List UInt8 := text "Invalid config line "
def value_words : List UInt8 := text "Invalid config value at line "

/-- The number of the line that a warning names. -/
def warned_line (e : Entry) : Option Nat :=
  ((e.2.dropPrefix? line_words).or (e.2.dropPrefix? value_words)).map numberAt

/-- The numbers that the warnings name, in order. -/
def warned (log : List Entry) : List Nat := log.filterMap warned_line

/-! ## One value -/

theorem warned_line_of_words {level : LogLevel} {w : List UInt8} (x : List UInt8)
    (hw : ∀ p ∈ [line_words, value_words], ¬ p <+: w ∧ ¬ w <+: p) :
    warned_line (level, w ++ x) = none := by
  have hno : ∀ p ∈ [line_words, value_words], (w ++ x).dropPrefix? p = none :=
    fun p hp => dropPrefix?_of_not_prefix (not_prefix_of (List.prefix_append w x) (hw p hp))
  rw [warned_line, hno _ (by simp), hno _ (by simp)]
  rfl

/-- The messages of a branch: none where it accepts, and where it does not,
one that names no line. -/
def Reports (log : List Entry) (accepted : Bool) : Prop :=
  if accepted then log = [] else ∃ e, log = [e] ∧ warned_line e = none

theorem reports_message {level : LogLevel} {w : List UInt8} (x : List UInt8)
    (hw : ∀ p ∈ [line_words, value_words], ¬ p <+: w ∧ ¬ w <+: p) :
    Reports [(level, w ++ x)] false :=
  ⟨_, rfl, warned_line_of_words x hw⟩

theorem number_reports {α : Type} {narrow : Int → α} {refuses : α → Bool} {store : α → SNMPConfig}
    {invalid unreadable value : List UInt8} {c : SNMPConfig}
    (hinvalid : ∀ p ∈ [line_words, value_words], ¬ p <+: invalid ∧ ¬ invalid <+: p)
    (hunreadable : ∀ p ∈ [line_words, value_words], ¬ p <+: unreadable ∧ ¬ unreadable <+: p) :
    Reports (number_log narrow refuses invalid unreadable value)
      (parse_number narrow refuses store value c).1 := by
  unfold number_log parse_number
  cases stoi value with
  | none => exact reports_message value hunreadable
  | some n =>
    simp only
    cases refuses (narrow n) with
    | true => exact reports_message value hinvalid
    | false => rfl

/-- A value is reported exactly where it is not accepted. -/
theorem value_reports (key value : List UInt8) (c : SNMPConfig) :
    Reports (parse_config_value_log key value) (parse_config_value key value c).1 := by
  unfold parse_config_value_log parse_config_value
  split_ifs
  · exact number_reports (by decide) (by decide)
  · rfl
  · exact number_reports (by decide) (by decide)
  · exact number_reports (by decide) (by decide)
  · unfold log_level_log parse_log_level
    simp only
    split_ifs
    · rfl
    · exact reports_message value (by decide)
  · rfl
  · rfl
  · exact number_reports (by decide) (by decide)
  · exact reports_message key (by decide)

/-- What is accepted is a value that the setting of the key accepts. -/
theorem accepted_eq (key value : List UInt8) (c : SNMPConfig) :
    (parse_config_value key value c).1 =
      settings.any fun x => key = x.key && x.accepts value := by
  rw [Bool.eq_iff_iff, List.any_eq_true]
  simp only [Bool.and_eq_true, decide_eq_true_eq]
  by_cases hkey : ∃ x : Setting, key = x.key
  · obtain ⟨x, rfl⟩ := hkey
    rw [(sets_parse_config_value x value c).accepted]
    constructor
    · exact fun h => ⟨x, mem_settings x, rfl, h⟩
    · rintro ⟨y, -, hy, h⟩
      rwa [key_injective x y hy]
  · rw [parse_config_value_unknown fun x hx => hkey ⟨x, hx⟩]
    constructor
    · exact nofun
    · rintro ⟨y, -, hy, -⟩
      exact absurd ⟨y, hy⟩ hkey

/-! ## One line -/

theorem warned_invalid_line (n : Nat) (x : List UInt8) :
    warned_line (.WARNING, line_words ++ numeral n ++ text ": " ++ x) = some n := by
  have hcolon : text ": " = 0x3A :: [0x20] := rfl
  rw [warned_line, List.append_assoc, List.append_assoc, dropPrefix?_append, hcolon]
  exact congrArg some (numberAt_numeral n (by decide) _)

theorem warned_invalid_value (n : Nat) (x : List UInt8) :
    warned_line (.WARNING, value_words ++ (numeral n ++ (text ": " ++ x))) = some n := by
  have hcolon : text ": " = 0x3A :: [0x20] := rfl
  rw [warned_line, dropPrefix?_append, dropPrefix?_of_not_prefix
    (not_prefix_of (List.prefix_append _ _) (by decide)), hcolon]
  exact congrArg some (numberAt_numeral n (by decide) _)

theorem refused_of_entry {line : List UInt8} {key value : List UInt8} (c : SNMPConfig)
    (hbare : bare line ≠ []) (h : key_value line = some (key, value)) :
    refused line = !(parse_config_value key value c).1 := by
  rw [refused, h, accepted_eq]
  simp [hbare]

/-- A line is warned of, by its number, exactly where it is refused, and
then there is nothing else that names a line. -/
theorem warned_load_line (c : SNMPConfig) (n : Nat) (line : List UInt8) :
    warned (load_line_log c n line) = (if refused line then [n] else []) ∧
      (load_line_log c n line = [] ↔ refused line = false) := by
  unfold load_line_log
  by_cases hbare : bare line = []
  · simp [hbare, refused, warned]
  rw [if_neg hbare]
  cases hentry : key_value line with
  | none =>
    have hrefused : refused line = true := by simp [refused, hentry, hbare]
    simp only [hrefused, if_true]
    refine ⟨?_, by simp⟩
    exact congrArg (fun o => o.toList) (warned_invalid_line n (bare line))
  | some entry =>
    obtain ⟨key, value⟩ := entry
    have hreports := value_reports key value c
    rw [refused_of_entry c hbare hentry]
    cases haccepted : (parse_config_value key value c).1 with
    | true =>
      rw [haccepted] at hreports
      simp [show parse_config_value_log key value = [] from hreports, haccepted, warned]
    | false =>
      rw [haccepted] at hreports
      obtain ⟨e, he, hunnumbered⟩ := hreports
      have hwarning := warned_invalid_value n (key ++ (text "=" ++ value))
      simp only [he, haccepted, Bool.not_false, if_true, List.singleton_append]
      refine ⟨?_, by simp⟩
      rw [warned, List.filterMap_cons_none hunnumbered, List.append_assoc, List.append_assoc,
        List.append_assoc, List.append_assoc]
      exact List.filterMap_cons_some hwarning

/-! ## The file -/

theorem warned_append (log log' : List Entry) : warned (log ++ log') = warned log ++ warned log' :=
  List.filterMap_append

theorem warned_load_lines (c : SNMPConfig) (n : Nat) (ls : List (List UInt8)) :
    warned (load_lines_log c n ls) = refused_numbers n ls := by
  induction ls generalizing c n with
  | nil => rfl
  | cons line ls ih =>
    rw [load_lines_log, warned_append, (warned_load_line c (n + 1) line).1, ih, refused_numbers]

theorem load_lines_silent (c : SNMPConfig) (n : Nat) (ls : List (List UInt8)) :
    load_lines_log c n ls = [] ↔ ∀ line ∈ ls, refused line = false := by
  induction ls generalizing c n with
  | nil => simp [load_lines_log]
  | cons line ls ih =>
    rw [load_lines_log, List.append_eq_nil_iff, (warned_load_line c (n + 1) line).2, ih,
      List.forall_mem_cons]

/-- The numbers that a load warns of, read back from its messages, are those
of the lines that are neither blank nor set a setting to a value that it
accepts, from any configuration. With no such line, it logs nothing but that
it is done. -/
theorem a_load_warns_of_exactly_the_lines_that_it_refuses (config_file content : List UInt8)
    (c : SNMPConfig) :
    warned (load_log config_file (some content) c) = refused_numbers 0 (getlines content) ∧
      (load_log config_file (some content) c =
          [(.INFO, text "Configuration loaded from: " ++ config_file)] ↔
        ∀ line ∈ getlines content, refused line = false) := by
  have hdone : warned [(.INFO, text "Configuration loaded from: " ++ config_file)] = [] := by
    rw [warned, List.filterMap_cons, warned_line_of_words config_file (by decide)]
    rfl
  constructor
  · rw [load_log, warned_append, warned_load_lines, hdone, List.append_nil]
  · rw [load_log, List.append_left_eq_self]
    exact load_lines_silent c 0 (getlines content)

-- The second line has no equals sign, and the fourth one sets no setting.
example : refused_numbers 0 (getlines (text "port=80\nhello\n# port\nspeed=1\nport=81")) =
    [2, 4] := by
  decide

/-! ## Files that load alike -/

/-- What the lines of a file last write to a setting, accepted or not, if
they write to it: a number that is refused has been stored. -/
def last_written (content : List UInt8) (x : Setting) : Option Value :=
  lastWrite ((getlines content).map (line_write x))

theorem get_load (content : List UInt8) (c : SNMPConfig) (x : Setting) :
    (load (some content) c).2.get x = (last_written content x).getD (c.get x) :=
  get_load_lines c (getlines content) x

theorem load_eq_iff {content content' : List UInt8} {c c' : SNMPConfig} :
    load (some content) c = load (some content') c' ↔
      ∀ x, (last_written content x).getD (c.get x) = (last_written content' x).getD (c'.get x) := by
  constructor
  · intro h x
    rw [← get_load, ← get_load, h]
  · intro h
    refine Prod.ext rfl (SNMPConfig.ext_get fun x => ?_)
    rw [get_load, get_load, h x]

theorem exists_other (x : Setting) (v : Value) : ∃ c : SNMPConfig, c.get x ≠ v := by
  by_cases hnew : SNMPConfig.new.get x = v
  · refine ⟨tuned, ?_⟩
    rw [← hnew]
    cases x <;> decide
  · exact ⟨SNMPConfig.new, hnew⟩

/-- Two files load to the same configuration from every one exactly where
they last write the same to each setting, accepted or not. A file hides one that was loaded
before it exactly where it writes each setting that the other one writes, so
a file that is loaded again changes nothing. -/
theorem files_load_alike_iff_their_last_writes_are_alike (content content' : List UInt8) :
    ((∀ c, load (some content) c = load (some content') c) ↔
      ∀ x, last_written content x = last_written content' x) ∧
    ((∀ c, load (some content') (load (some content) c).2 = load (some content') c) ↔
      ∀ x, last_written content' x = none → last_written content x = none) := by
  simp only [load_eq_iff, get_load]
  refine ⟨⟨fun h x => ?_, fun h c x => by rw [h x]⟩, ⟨fun h x hnone => ?_, fun h c x => ?_⟩⟩
  · cases hw : last_written content x with
    | none =>
      cases hw' : last_written content' x with
      | none => rfl
      | some v =>
        obtain ⟨c, hc⟩ := exists_other x v
        have hcx := h c x
        rw [hw, hw'] at hcx
        exact absurd hcx hc
    | some v =>
      cases hw' : last_written content' x with
      | none =>
        obtain ⟨c, hc⟩ := exists_other x v
        have hcx := h c x
        rw [hw, hw'] at hcx
        exact absurd hcx.symm hc
      | some v' =>
        have hcx := h SNMPConfig.new x
        rw [hw, hw'] at hcx
        exact congrArg some hcx
  · cases hw : last_written content x with
    | none => rfl
    | some v =>
      obtain ⟨c, hc⟩ := exists_other x v
      have hcx := h c x
      rw [hnone, hw] at hcx
      exact absurd hcx.symm hc
  · cases hw' : last_written content' x with
    | none => rw [h x hw', Option.getD_none, Option.getD_none]
    | some v => rfl

end simple_snmpd.snmp_config
