-- The laws of configuration values. A number is stored before its range is
-- checked, and its text is read only as far as its digits go, so a rejected
-- value may be stored and an accepted one may be another number.
import SimpleSnmpd.ConfigSpecs

open texts registers

namespace simple_snmpd.snmp_config

/-! ## Numbers -/

/-- The largest number that a setting may have. -/
def Setting.limit : Setting → Nat
  | .port => 65535
  | .trap_port => 65535
  | _ => 2 ^ 31 - 1

theorem as_int_bounds {m n : Int} (h : as_int m = some n) : -2 ^ 31 ≤ n ∧ n < 2 ^ 31 := by
  unfold as_int at h
  split_ifs at h with hrange
  rw [← Option.some.inj h]
  exact hrange

/-- What is read is an `int`. -/
theorem stoi_bounds {s : List UInt8} {n : Int} (h : stoi s = some n) :
    -2 ^ 31 ≤ n ∧ n < 2 ^ 31 := by
  unfold stoi at h
  dsimp only at h
  split at h
  · cases h
  · exact as_int_bounds h

/-- A digit is no blank and no sign. -/
theorem digit_cases {c : UInt8} (h : isDigit c = true) :
    isspace c = false ∧ c ≠ 0x2D ∧ c ≠ 0x2B := by
  refine ⟨?_, ne_of_isDigit h (by decide), ne_of_isDigit h (by decide)⟩
  simp only [isDigit, Bool.and_eq_true, decide_eq_true_eq, UInt8.le_iff_toNat_le,
    UInt8.reduceToNat] at h
  simp only [isspace, Bool.or_eq_false_iff, Bool.and_eq_false_iff, decide_eq_false_iff_not,
    UInt8.le_iff_toNat_le, ← UInt8.toNat_inj, UInt8.reduceToNat]
  omega

/-- A numeral is read as its number. -/
theorem stoi_numeral {s : List UInt8} {n : Nat} (h : IsNumeral s n) (hn : n < 2 ^ 31) :
    stoi s = some (n : Int) := by
  obtain ⟨c, cs, rfl⟩ := List.exists_cons_of_ne_nil h.nonempty
  obtain ⟨hspace, hminus, hplus⟩ := digit_cases (h.digits c List.mem_cons_self)
  have hstart : (c :: cs).dropWhile isspace = c :: cs :=
    List.dropWhile_cons_of_neg (by simp [hspace])
  have hsign : sign (c :: cs) = (false, c :: cs) := by
    rw [sign, if_neg hminus, if_neg hplus]
  have hall : (c :: cs).takeWhile isDigit = c :: cs := List.takeWhile_eq_self_iff.mpr h.digits
  unfold stoi
  simp only [hstart, hsign, hall, h.value, if_neg (List.cons_ne_nil c cs)]
  exact if_pos (by omega)

theorem stored_of_lt {w m : Nat} (h : m < 2 ^ w) : stored w m = m := by
  have hcast : ((2 ^ w : Nat) : Int) = 2 ^ w := by simp
  unfold stored
  rw [← hcast, Int.emod_eq_of_lt (Int.natCast_nonneg m) (Int.ofNat_lt.mpr h), Int.toNat_natCast]

/-- A number in the range of its setting fits its field, and an `int`. -/
theorem limit_lt {x : Setting} {w : Nat} (hw : x.width = some w) :
    x.limit < 2 ^ w ∧ x.limit < 2 ^ 31 := by
  cases x <;> cases hw <;> decide

theorem write_of_width {x : Setting} {w : Nat} (hw : x.width = some w) :
    x.write = write_number w := by
  cases x <;> cases hw <;> rfl

/-! ## One number -/

/-- The text is a numeral of a number that the setting may have. -/
def IsInRange (x : Setting) (value : List UInt8) (m : Nat) : Prop :=
  IsNumeral value m ∧ 1 ≤ m ∧ m ≤ x.limit

/-- A value is accepted if it is a numeral in range, and only then, and the
setting has its number. -/
structure AcceptsExactly (x : Setting) (value : List UInt8) (c : SNMPConfig) : Prop where
  accepted : (parse_config_value x.key value c).1 = true ↔ ∃ m, IsInRange x value m
  exact : ∀ m, IsInRange x value m → (parse_config_value x.key value c).2.get x = .number m

theorem stoi_in_range {x : Setting} {w m : Nat} {value : List UInt8} (hw : x.width = some w)
    (h : IsInRange x value m) : stoi value = some (m : Int) ∧ stored w m = m := by
  have hlimit := limit_lt hw
  have hm := h.2.2
  exact ⟨stoi_numeral h.1 (by omega), stored_of_lt (by omega)⟩

/-- A number is accepted exactly where whatever is read of it is a numeral
in range, or is stored as zero. -/
theorem a_number_is_accepted_exactly_iff_it_is_in_range_or_stored_as_zero (x : Setting) (w : Nat)
    (hw : x.width = some w) (value : List UInt8) (c : SNMPConfig) :
    AcceptsExactly x value c ↔
      ∀ n, stoi value = some n → stored w n = 0 ∨ ∃ m, IsInRange x value m := by
  have hsets := sets_parse_config_value x value c
  have hwrite := write_of_width hw
  have haccepts := @Setting.accepts_number value x w hwrite
  constructor
  · intro h n hn
    by_cases hzero : stored w n = 0
    · exact Or.inl hzero
    · refine Or.inr (h.accepted.mp ?_)
      rw [hsets.accepted, haccepts, hn]
      simp [hzero]
  · intro h
    refine ⟨⟨fun hacc => ?_, ?_⟩, fun m hm => ?_⟩
    · rw [hsets.accepted, haccepts] at hacc
      cases hn : stoi value with
      | none => simp [hn] at hacc
      | some n =>
        rw [hn] at hacc
        exact (h n hn).resolve_left (by simpa using hacc)
    · rintro ⟨m, hm⟩
      obtain ⟨hn, hstored⟩ := stoi_in_range hw hm
      have hpos := hm.2.1
      rw [hsets.accepted, haccepts, hn]
      simp only [hstored, ne_eq, decide_eq_true_eq]
      omega
    · obtain ⟨hn, hstored⟩ := stoi_in_range hw hm
      rw [hsets.this, hwrite, write_number, hn, Option.map_some, hstored]
      rfl

theorem the_port_80_is_accepted_exactly :
    AcceptsExactly .port (text "80") SNMPConfig.new ↔
      ∀ n, stoi (text "80") = some n → stored 16 n = 0 ∨ ∃ m, IsInRange .port (text "80") m :=
  a_number_is_accepted_exactly_iff_it_is_in_range_or_stored_as_zero .port 16 rfl _ _

/-- A port with letters behind it is accepted. -/
theorem a_port_with_letters_is_accepted :
    ¬ ∀ x ∈ [Setting.port, .trap_port, .max_connections, .timeout_seconds],
      ∀ (value : List UInt8) (c : SNMPConfig), AcceptsExactly x value c := by
  intro h
  have haccepted := (h .port List.mem_cons_self (text "80abc") SNMPConfig.new).accepted
  obtain ⟨m, hnumeral, -⟩ := haccepted.mp (by decide)
  have hdigit := hnumeral.digits 0x61 (by decide)
  revert hdigit
  decide

/-! ## A file -/

/-- A value that a setting may have: a number in its range, a known level. -/
def InRange (x : Setting) : Value → Prop
  | .number n => 1 ≤ n ∧ n ≤ x.limit
  | .text t => x = .log_level → is_level t = true
  | .flag _ => True

/-- Every setting has a value that it may have. -/
def SNMPConfig.Valid (c : SNMPConfig) : Prop := ∀ x, InRange x (c.get x)

/-- `parse_config_value` returns false for the line. -/
def rejects (c : SNMPConfig) (line : List UInt8) : Bool :=
  match key_value line with
  | some (key, value) => !(parse_config_value key value c).1
  | none => false

/-- The lines that are not rejected while they are loaded one after the
other. -/
def kept : SNMPConfig → List (List UInt8) → List (List UInt8)
  | _, [] => []
  | c, line :: ls =>
    if rejects c line then kept (load_line c line) ls else line :: kept (load_line c line) ls

/-- The file without the lines that are rejected. -/
def without_rejected (content : List UInt8) : List UInt8 :=
  unlines 0x0A (kept SNMPConfig.new (getlines content))

/-- The file leaves a valid configuration, and its rejected lines have no
effect. -/
structure LoadsValid (content : List UInt8) : Prop where
  valid : (load (some content) SNMPConfig.new).2.Valid
  ignores : load (some content) SNMPConfig.new =
    load (some (without_rejected content)) SNMPConfig.new

/-- The integer that is read from a line of the setting. -/
def taken (x : Setting) (line : List UInt8) : Option Int :=
  (key_value line).bind fun entry => if entry.1 = x.key then stoi entry.2 else none

/-- The integer is stored as a number in the range of its setting. -/
def Fits : Setting → Int → Prop
  | .port, n => n % 2 ^ 16 ≠ 0
  | .trap_port, n => n % 2 ^ 16 ≠ 0
  | .max_connections, n => 0 < n
  | .timeout_seconds, n => 0 < n
  | _, _ => True

theorem SNMPConfig.new_valid : SNMPConfig.new.Valid := by
  intro x
  cases x
  case community => exact fun h => nomatch h
  case log_level => exact fun _ => by decide
  case enable_ipv6 | enable_trap => exact trivial
  all_goals exact ⟨by decide, by decide⟩

/-- Whether a line is rejected does not depend on the configuration. -/
theorem rejects_eq (c c' : SNMPConfig) (line : List UInt8) : rejects c line = rejects c' line := by
  unfold rejects
  cases key_value line with
  | none => rfl
  | some entry =>
    obtain ⟨key, value⟩ := entry
    by_cases hkey : ∃ x : Setting, key = x.key
    · obtain ⟨x, rfl⟩ := hkey
      simp only [(sets_parse_config_value x value _).accepted]
    · simp only [parse_config_value_unknown fun x hx => hkey ⟨x, hx⟩]

theorem kept_eq (c c' : SNMPConfig) (ls : List (List UInt8)) :
    kept c ls = ls.filter fun line => !rejects c' line := by
  induction ls generalizing c with
  | nil => rfl
  | cons line ls ih =>
    rw [kept, ih, rejects_eq c c']
    cases h : rejects c' line with
    | true => rw [List.filter_cons_of_neg (by simp [h])]; rfl
    | false => rw [List.filter_cons_of_pos (by simp [h])]; rfl

theorem getlines_without_rejected (content : List UInt8) :
    getlines (without_rejected content) =
      (getlines content).filter fun line => !rejects SNMPConfig.new line := by
  unfold getlines without_rejected
  rw [kept_eq _ SNMPConfig.new]
  refine lines_unlines fun l hl => ?_
  exact not_mem_of_mem_lines (List.mem_of_mem_filter hl)

/-- What a rejected line writes is out of range. -/
theorem not_inRange_of_rejects {x : Setting} {line : List UInt8} {v : Value}
    (hrejects : rejects SNMPConfig.new line = true) (hv : line_write x line = some v) :
    ¬ InRange x v := by
  unfold rejects at hrejects
  unfold line_write at hv
  cases hentry : key_value line with
  | none =>
    rw [hentry] at hv
    cases hv
  | some entry =>
    obtain ⟨key, value⟩ := entry
    rw [hentry, Option.bind_some, written] at hv
    split_ifs at hv with hkey
    obtain rfl : key = x.key := hkey
    simp only [hentry, (sets_parse_config_value x value _).accepted] at hrejects
    -- only a number that is stored as zero is written and not accepted
    unfold Setting.accepts at hrejects
    rw [show x.write value = some v from hv] at hrejects
    cases v with
    | number n =>
      have hzero : n = 0 := by simpa using hrejects
      rintro ⟨hpos, -⟩
      omega
    | text t => cases hrejects
    | flag b => cases hrejects

/-- What the lines of a number write is what is read from them. -/
theorem line_write_of_width {x : Setting} {w : Nat} (hw : x.width = some w) (line : List UInt8) :
    line_write x line = (taken x line).map fun n => .number (stored w n) := by
  unfold line_write taken written
  cases key_value line with
  | none => rfl
  | some entry =>
    simp only [Option.bind_some]
    split_ifs
    · rw [write_of_width hw]
      rfl
    · rfl

theorem inRange_stored {x : Setting} {w : Nat} (hw : x.width = some w) {n : Int}
    (hn : -2 ^ 31 ≤ n ∧ n < 2 ^ 31) : InRange x (.number (stored w n)) ↔ Fits x n := by
  cases x <;> cases hw
  case port | trap_port =>
    simp only [InRange, Fits, Setting.limit, stored]
    omega
  case max_connections | timeout_seconds =>
    simp only [InRange, Fits, Setting.limit, stored]
    omega

/-- What is read from a line is an `int`. -/
theorem taken_bounds {x : Setting} {line : List UInt8} {n : Int} (h : taken x line = some n) :
    -2 ^ 31 ≤ n ∧ n < 2 ^ 31 := by
  unfold taken at h
  obtain ⟨entry, -, hentry⟩ := Option.bind_eq_some_iff.mp h
  split_ifs at hentry
  exact stoi_bounds hentry

/-- The last integer that is read for a setting is an `int`. -/
theorem last_taken_bounds {x : Setting} {ls : List (List UInt8)} {n : Int}
    (h : lastWrite (ls.map (taken x)) = some n) : -2 ^ 31 ≤ n ∧ n < 2 ^ 31 := by
  obtain ⟨line, -, hline⟩ := List.mem_map.mp (mem_of_lastWrite h)
  exact taken_bounds hline

/-- What a line writes to a setting that is no number is in range. -/
theorem inRange_of_text {x : Setting} (hw : x.width = none) {line : List UInt8} {v : Value}
    (hv : line_write x line = some v) : InRange x v := by
  obtain ⟨entry, -, hentry⟩ := Option.bind_eq_some_iff.mp hv
  unfold written at hentry
  split_ifs at hentry
  cases x
  case log_level =>
    simp only [Setting.write] at hentry
    split_ifs at hentry with hlevel
    rw [← Option.some.inj hentry]
    exact fun _ => hlevel
  case community =>
    rw [← Option.some.inj hentry]
    intro hx
    cases hx
  case enable_ipv6 | enable_trap =>
    rw [← Option.some.inj hentry]
    exact trivial
  all_goals cases hw

/-- A loaded setting is in range exactly where the last integer read for it
fits. -/
theorem inRange_load_iff (content : List UInt8) (x : Setting) :
    InRange x ((load (some content) SNMPConfig.new).2.get x) ↔
      ∀ n, lastWrite ((getlines content).map (taken x)) = some n → Fits x n := by
  have hget := get_load_lines SNMPConfig.new (getlines content) x
  unfold load
  simp only [hget]
  cases hw : x.width with
  | some w =>
    have hwrites : (getlines content).map (line_write x) = ((getlines content).map (taken x)).map
        (Option.map fun n => Value.number (stored w n)) := by
      rw [List.map_map]
      exact List.map_congr_left fun line _ => line_write_of_width hw line
    rw [hwrites, lastWrite_map]
    cases hlast : lastWrite ((getlines content).map (taken x)) with
    | none => exact iff_of_true (SNMPConfig.new_valid x) nofun
    | some n =>
      rw [Option.map_some, Option.getD_some, inRange_stored hw (last_taken_bounds hlast)]
      constructor
      · rintro h _ ⟨⟩
        exact h
      · intro h
        exact h n rfl
  | none =>
    refine iff_of_true ?_ ?_
    · cases hlast : lastWrite ((getlines content).map (line_write x)) with
      | none => exact SNMPConfig.new_valid x
      | some v =>
        obtain ⟨line, -, hline⟩ := List.mem_map.mp (mem_of_lastWrite hlast)
        exact inRange_of_text hw hline
    · intro n _
      cases x <;> first | exact trivial | cases hw

/-- A file leaves a valid configuration, and no rejected line of it matters,
exactly where the last integer read for each number fits its range. -/
theorem a_file_loads_valid_iff_its_last_numbers_fit (content : List UInt8) :
    LoadsValid content ↔
      ∀ x n, lastWrite ((getlines content).map (taken x)) = some n → Fits x n := by
  constructor
  · intro h x
    exact (inRange_load_iff content x).mp (h.valid x)
  · intro h
    have hvalid : (load (some content) SNMPConfig.new).2.Valid :=
      fun x => (inRange_load_iff content x).mpr (h x)
    refine ⟨hvalid, ?_⟩
    have hconfig : (getlines content).foldl load_line SNMPConfig.new =
        (getlines (without_rejected content)).foldl load_line SNMPConfig.new := by
      refine SNMPConfig.ext_get fun x => ?_
      have hx := hvalid x
      unfold load at hx
      rw [get_load_lines] at hx ⊢
      rw [get_load_lines, getlines_without_rejected, lastWrite_filter fun v => ¬ InRange x v]
      · intro line v hkeep hv
        exact not_inRange_of_rejects (by simpa using hkeep) hv
      · intro v hlast
        rw [hlast] at hx
        exact not_not.mpr hx
    simp only [load, hconfig]

/-- A port of 65536 is rejected, and leaves the port zero. -/
theorem a_rejected_port_is_stored : ¬ ∀ content : List UInt8, LoadsValid content := by
  intro h
  obtain ⟨hpos, -⟩ := (h (text "port=65536")).valid .port
  revert hpos
  decide

end simple_snmpd.snmp_config
