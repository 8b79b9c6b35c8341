-- What a configuration is for: eight settings, each with the value that was
-- last written to it. A line writes the setting that it names, if its value
-- can be read, whether the value is accepted or not.
import SimpleSnmpd.ConfigModel
import SimpleSnmpd.Registers

open texts registers

namespace simple_snmpd.snmp_config

/-! ## Settings -/

/-- The keys of a configuration file. -/
inductive Setting where
  | port
  | community
  | max_connections
  | timeout_seconds
  | log_level
  | enable_ipv6
  | enable_trap
  | trap_port
deriving DecidableEq, Repr

inductive Value where
  | number (n : Nat)
  | text (t : List UInt8)
  | flag (b : Bool)
deriving DecidableEq, Repr

def Setting.key : Setting → List UInt8
  | .port => text "port"
  | .community => text "community"
  | .max_connections => text "max_connections"
  | .timeout_seconds => text "timeout_seconds"
  | .log_level => text "log_level"
  | .enable_ipv6 => text "enable_ipv6"
  | .enable_trap => text "enable_trap"
  | .trap_port => text "trap_port"

/-- What the getter of a setting gives. -/
def SNMPConfig.get (c : SNMPConfig) : Setting → Value
  | .port => .number c.port.toNat
  | .community => .text c.community
  | .max_connections => .number c.max_connections.toNat
  | .timeout_seconds => .number c.timeout_seconds.toNat
  | .log_level => .text c.log_level
  | .enable_ipv6 => .flag c.enable_ipv6
  | .enable_trap => .flag c.enable_trap
  | .trap_port => .number c.trap_port.toNat

/-- The width of the field of a setting that is a number. -/
def Setting.width : Setting → Option Nat
  | .port => some 16
  | .max_connections => some 32
  | .timeout_seconds => some 32
  | .trap_port => some 16
  | _ => none

/-- What an integer is in a field of the width. -/
def stored (w : Nat) (n : Int) : Nat := (n % 2 ^ w).toNat

/-- What the text of a number writes to a field of the width. -/
def write_number (w : Nat) (value : List UInt8) : Option Value :=
  (stoi value).map fun n => .number (stored w n)

/-- What the text of a value writes to a setting, if it writes. -/
def Setting.write : Setting → List UInt8 → Option Value
  | .port, value => write_number 16 value
  | .community, value => some (.text value)
  | .max_connections, value => write_number 32 value
  | .timeout_seconds, value => write_number 32 value
  | .log_level, value =>
    if is_level (value.map tolower) then some (.text (value.map tolower)) else none
  | .enable_ipv6, value => some (.flag (parse_flag value))
  | .enable_trap, value => some (.flag (parse_flag value))
  | .trap_port, value => write_number 16 value

/-- The text of a value is accepted for a setting. -/
def Setting.accepts (x : Setting) (value : List UInt8) : Bool :=
  match x.write value with
  | some (.number n) => n ≠ 0
  | some _ => true
  | none => false

/-- What a key and a value write to the setting. -/
def written (x : Setting) (entry : List UInt8 × List UInt8) : Option Value :=
  if entry.1 = x.key then x.write entry.2 else none

theorem key_injective : ∀ x y : Setting, x.key = y.key → x = y := by
  intro x y
  cases x <;> cases y <;> decide

/-- The getters fix a configuration. -/
theorem SNMPConfig.ext_get {c c' : SNMPConfig} (h : ∀ x, c.get x = c'.get x) : c = c' := by
  have h1 := Value.number.inj (h .port)
  have h2 := Value.text.inj (h .community)
  have h3 := Value.number.inj (h .max_connections)
  have h4 := Value.number.inj (h .timeout_seconds)
  have h5 := Value.text.inj (h .log_level)
  have h6 := Value.flag.inj (h .enable_ipv6)
  have h7 := Value.flag.inj (h .enable_trap)
  have h8 := Value.number.inj (h .trap_port)
  cases c
  cases c'
  simp only [SNMPConfig.mk.injEq]
  exact ⟨UInt16.toNat_inj.mp h1, h2, UInt32.toNat_inj.mp h3, UInt32.toNat_inj.mp h4, h5, h6, h7,
    UInt16.toNat_inj.mp h8⟩

theorem stored_lt (w : Nat) (n : Int) : stored w n < 2 ^ w := by
  have hpos : (0 : Int) < 2 ^ w := Int.pow_pos (by omega)
  have hlt := Int.emod_lt_of_pos n hpos
  have hcast : ((2 ^ w : Nat) : Int) = 2 ^ w := by simp
  unfold stored
  omega

theorem toNat_ofInt_16 (n : Int) : (UInt16.ofInt n).toNat = stored 16 n := by
  unfold UInt16.ofInt
  rw [UInt16.toNat_ofNat']
  exact Nat.mod_eq_of_lt (stored_lt 16 n)

theorem toNat_ofInt_32 (n : Int) : (UInt32.ofInt n).toNat = stored 32 n := by
  unfold UInt32.ofInt
  rw [UInt32.toNat_ofNat']
  exact Nat.mod_eq_of_lt (stored_lt 32 n)

/-! ## One value -/

/-- The value of a setting was read: the setting has what was written to it,
and the others are kept. -/
structure Sets (x : Setting) (value : List UInt8) (c : SNMPConfig) (r : Bool × SNMPConfig) :
    Prop where
  accepted : r.1 = x.accepts value
  this : r.2.get x = (x.write value).getD (c.get x)
  others : ∀ y, y ≠ x → r.2.get y = c.get y

variable {value : List UInt8} {c : SNMPConfig}

theorem Setting.accepts_number {x : Setting} {w : Nat} (hw : x.write = write_number w) :
    x.accepts value = match stoi value with
      | some n => decide (stored w n ≠ 0)
      | none => false := by
  unfold Setting.accepts
  rw [hw, write_number]
  cases stoi value <;> rfl

/-- The branch of a number sets its setting. -/
theorem sets_number {α : Type} {narrow : Int → α} {refused : α → Bool} {store : α → SNMPConfig}
    {x : Setting} {w : Nat} (hw : x.write = write_number w)
    (hrefused : ∀ n, refused (narrow n) = decide (stored w n = 0))
    (hthis : ∀ n, (store (narrow n)).get x = .number (stored w n))
    (hothers : ∀ a y, y ≠ x → (store a).get y = c.get y) :
    Sets x value c (parse_number narrow refused store value c) := by
  have haccepts := @Setting.accepts_number value x w hw
  unfold parse_number
  cases hn : stoi value with
  | none =>
    rw [hn] at haccepts
    refine ⟨haccepts.symm, ?_, fun _ _ => rfl⟩
    rw [hw, write_number, hn]
    rfl
  | some n =>
    rw [hn] at haccepts
    refine ⟨?_, ?_, hothers _⟩
    · simp only [haccepts, hrefused, ne_eq, decide_not]
    · rw [hw, write_number, hn]
      exact hthis n

theorem sets_port {x : Setting} {store : UInt16 → SNMPConfig} (hw : x.write = write_number 16)
    (hthis : ∀ a, (store a).get x = .number a.toNat)
    (hothers : ∀ a y, y ≠ x → (store a).get y = c.get y) :
    Sets x value c
      (parse_number UInt16.ofInt (fun port => port.toNat < 1 || port.toNat > 65535) store value
        c) := by
  refine sets_number hw (fun n => ?_) (fun n => ?_) hothers
  · have hlt := stored_lt 16 n
    rw [toNat_ofInt_16, Bool.eq_iff_iff]
    simp only [Bool.or_eq_true, decide_eq_true_eq]
    omega
  · rw [hthis, toNat_ofInt_16]

theorem sets_count {x : Setting} {store : UInt32 → SNMPConfig} (hw : x.write = write_number 32)
    (hthis : ∀ a, (store a).get x = .number a.toNat)
    (hothers : ∀ a y, y ≠ x → (store a).get y = c.get y) :
    Sets x value c (parse_number UInt32.ofInt (fun count => count.toNat < 1) store value c) := by
  refine sets_number hw (fun n => ?_) (fun n => ?_) hothers
  · simp only [toNat_ofInt_32, Nat.lt_one_iff]
  · rw [hthis, toNat_ofInt_32]

theorem sets_log_level : Sets .log_level value c (parse_log_level value c) := by
  unfold parse_log_level
  by_cases hlevel : is_level (value.map tolower) = true
  · simp only [if_pos hlevel]
    refine ⟨?_, ?_, ?_⟩
    · simp [Setting.accepts, Setting.write, hlevel]
    · simp [Setting.write, hlevel, SNMPConfig.get]
    · intro y hy
      cases y <;> first | rfl | exact absurd rfl hy
  · simp only [if_neg hlevel]
    refine ⟨?_, ?_, fun _ _ => rfl⟩
    · simp [Setting.accepts, Setting.write, hlevel]
    · simp [Setting.write, hlevel]

theorem parse_config_value_key (x : Setting) (value : List UInt8) (c : SNMPConfig) :
    parse_config_value x.key value c = match x with
      | .port => parse_port value c
      | .community => parse_community value c
      | .max_connections => parse_max_connections value c
      | .timeout_seconds => parse_timeout_seconds value c
      | .log_level => parse_log_level value c
      | .enable_ipv6 => parse_enable_ipv6 value c
      | .enable_trap => parse_enable_trap value c
      | .trap_port => parse_trap_port value c := by
  cases x <;> rfl

/-- A value sets the setting that its key names. -/
theorem sets_parse_config_value (x : Setting) (value : List UInt8) (c : SNMPConfig) :
    Sets x value c (parse_config_value x.key value c) := by
  rw [parse_config_value_key]
  cases x
  case log_level => exact sets_log_level
  case port | trap_port =>
    apply sets_port
    · rfl
    · exact fun _ => rfl
    · intro a y hy
      cases y <;> first | rfl | exact absurd rfl hy
  case max_connections | timeout_seconds =>
    apply sets_count
    · rfl
    · exact fun _ => rfl
    · intro a y hy
      cases y <;> first | rfl | exact absurd rfl hy
  case community | enable_ipv6 | enable_trap =>
    refine ⟨rfl, rfl, ?_⟩
    intro y hy
    cases y <;> first | rfl | exact absurd rfl hy

/-- A key of no setting is rejected, and nothing is set. -/
theorem parse_config_value_unknown {key : List UInt8} (h : ∀ x : Setting, key ≠ x.key) :
    parse_config_value key value c = (false, c) := by
  have h1 : key ≠ text "port" := h .port
  have h2 : key ≠ text "community" := h .community
  have h3 : key ≠ text "max_connections" := h .max_connections
  have h4 : key ≠ text "timeout_seconds" := h .timeout_seconds
  have h5 : key ≠ text "log_level" := h .log_level
  have h6 : key ≠ text "enable_ipv6" := h .enable_ipv6
  have h7 : key ≠ text "enable_trap" := h .enable_trap
  have h8 : key ≠ text "trap_port" := h .trap_port
  unfold parse_config_value
  rw [if_neg h1, if_neg h2, if_neg h3, if_neg h4, if_neg h5, if_neg h6, if_neg h7, if_neg h8]

/-- What a value writes to any setting. -/
theorem get_parse_config_value (key value : List UInt8) (c : SNMPConfig) (x : Setting) :
    (parse_config_value key value c).2.get x = (written x (key, value)).getD (c.get x) := by
  unfold written
  by_cases hkey : ∃ y : Setting, key = y.key
  · obtain ⟨y, rfl⟩ := hkey
    have hsets := sets_parse_config_value y value c
    by_cases hxy : x = y
    · rw [hxy, hsets.this, if_pos rfl]
    · rw [hsets.others x hxy, if_neg fun h => hxy (key_injective y x h).symm]
      rfl
  · rw [parse_config_value_unknown fun y hy => hkey ⟨y, hy⟩, if_neg fun h => hkey ⟨x, h⟩]
    rfl

/-! ## A file -/

/-- What a line writes to a setting. -/
def line_write (x : Setting) (line : List UInt8) : Option Value := (key_value line).bind (written x)

theorem get_load_line (c : SNMPConfig) (line : List UInt8) (x : Setting) :
    (load_line c line).get x = (line_write x line).getD (c.get x) := by
  unfold load_line line_write
  cases key_value line with
  | none => rfl
  | some entry => exact get_parse_config_value entry.1 entry.2 c x

/-- After a run over lines, each setting has what was last written to it. -/
theorem get_load_lines (c : SNMPConfig) (ls : List (List UInt8)) (x : Setting) :
    (ls.foldl load_line c).get x = (lastWrite (ls.map (line_write x))).getD (c.get x) := by
  have hrun := view_run (fun c : SNMPConfig => c.get x)
    (fun c line => get_load_line c line x) c ls
  rwa [writes_of_inputs] at hrun

end simple_snmpd.snmp_config
