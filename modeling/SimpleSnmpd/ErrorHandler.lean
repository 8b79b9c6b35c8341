-- The error handler of `error_handler.cpp` on a logger: reports with the
-- place that they come from, errors and warnings with a number as well. The
-- numbers count up from the last reset, on 32 bits.
import SimpleSnmpd.LoggerModel
import Mathlib.Data.List.DropRight

open texts simple_snmpd.logger simple_snmpd.snmp_config

namespace simple_snmpd.error_handler

/-! ## The handler -/

/-- `ErrorHandler`. -/
structure ErrorHandler where
  error_count : UInt32
  warning_count : UInt32
deriving DecidableEq, Repr

/-- `ErrorHandler::ErrorHandler`. -/
def ErrorHandler.new : ErrorHandler where
  error_count := 0
  warning_count := 0

/-- What a report says, and where it comes from. -/
structure Report where
  message : List UInt8
  file : List UInt8
  line : Int
deriving DecidableEq, Repr

/-- `<<` of an `int`. -/
def int_numeral (n : Int) : List UInt8 :=
  if n < 0 then text "-" ++ numeral n.natAbs else numeral n.natAbs

/-- `"(" << file << ":" << line << ") " << message` -/
def place (r : Report) : List UInt8 :=
  text "(" ++ r.file ++ text ":" ++ int_numeral r.line ++ text ") " ++ r.message

/-- The text of a report with a number. -/
def numbered (word : List UInt8) (count : UInt32) (r : Report) : List UInt8 :=
  word ++ text " [" ++ zero_filled 6 count.toNat ++ text "] " ++ place r

/-- What goes to the standard error output beside the log. -/
def printed (l : Logger) (msg : List UInt8) : Output :=
  if l.level.value ≤ LogLevel.DEBUG.value then [(.cerr, msg)] else []

/-- `ErrorHandler::handle_error`. -/
def handle_error (now : Clock) (r : Report) (l : Logger) (h : ErrorHandler) :
    ErrorHandler × Output :=
  let h := { h with error_count := h.error_count + 1 }
  let error_msg := numbered (text "ERROR") h.error_count r
  (h, log now .ERROR error_msg l ++ printed l error_msg)

/-- `ErrorHandler::handle_warning`. -/
def handle_warning (now : Clock) (r : Report) (l : Logger) (h : ErrorHandler) :
    ErrorHandler × Output :=
  let h := { h with warning_count := h.warning_count + 1 }
  let warning_msg := numbered (text "WARNING") h.warning_count r
  (h, log now .WARNING warning_msg l ++ printed l warning_msg)

/-- `ErrorHandler::handle_info`. -/
def handle_info (now : Clock) (r : Report) (l : Logger) : Output :=
  log now .INFO (text "INFO " ++ place r) l

/-- `ErrorHandler::handle_debug`. -/
def handle_debug (now : Clock) (r : Report) (l : Logger) : Output :=
  log now .DEBUG (text "DEBUG " ++ place r) l

/-- `ErrorHandler::reset_counters`. -/
def reset_counters (h : ErrorHandler) : ErrorHandler :=
  { h with error_count := 0, warning_count := 0 }

/-- `ErrorHandler::get_summary`. -/
def get_summary (h : ErrorHandler) : List UInt8 :=
  text "Error Summary: " ++ numeral h.error_count.toNat ++ text " errors, " ++
    numeral h.warning_count.toNat ++ text " warnings"

/-! ## Calls -/

/-- A call on the handler, or one on the logger beside it. -/
inductive Call where
  | handles_error (now : Clock) (r : Report)
  | handles_warning (now : Clock) (r : Report)
  | handles_info (now : Clock) (r : Report)
  | handles_debug (now : Clock) (r : Report)
  | resets
  | logger (c : logger.Call)
deriving DecidableEq, Repr

def called (s : ErrorHandler × Logger) : Call → (ErrorHandler × Logger) × Output
  | .handles_error now r =>
    let (h, out) := handle_error now r s.2 s.1
    ((h, s.2), out)
  | .handles_warning now r =>
    let (h, out) := handle_warning now r s.2 s.1
    ((h, s.2), out)
  | .handles_info now r => (s, handle_info now r s.2)
  | .handles_debug now r => (s, handle_debug now r s.2)
  | .resets => ((reset_counters s.1, s.2), [])
  | .logger c =>
    let (l, out) := logger.called s.2 c
    ((s.1, l), out)

def after (calls : List Call) : ErrorHandler × Logger :=
  calls.foldl (fun s c => (called s c).1) (.new, .new)

/-! ## Counts -/

/-- The reports with a number. -/
inductive Kind where
  | error
  | warning
deriving DecidableEq, Repr

def Kind.word : Kind → List UInt8
  | .error => text "ERROR"
  | .warning => text "WARNING"

def Kind.level : Kind → LogLevel
  | .error => .ERROR
  | .warning => .WARNING

def ErrorHandler.count (h : ErrorHandler) : Kind → UInt32
  | .error => h.error_count
  | .warning => h.warning_count

/-- A call that reports. -/
def Kind.handles : Kind → Clock → Report → Call
  | .error => .handles_error
  | .warning => .handles_warning

def Kind.reports : Kind → Call → Bool
  | .error, .handles_error _ _ | .warning, .handles_warning _ _ => true
  | _, _ => false

/-- The calls after the last reset. -/
def since_reset (calls : List Call) : List Call := calls.rtakeWhile fun c => c ≠ .resets

/-- How many reports of the kind came after the last reset. -/
def reported (k : Kind) (calls : List Call) : Nat := (since_reset calls).countP k.reports

variable {calls calls' : List Call} {k k' : Kind}

theorem after_snoc (calls : List Call) (c : Call) :
    after (calls ++ [c]) = (called (after calls) c).1 := by
  unfold after
  rw [List.foldl_append]
  rfl

theorem reported_resets (k : Kind) (calls : List Call) : reported k (calls ++ [.resets]) = 0 := by
  unfold reported since_reset
  rw [List.rtakeWhile_concat_neg _ _ _ (by simp), List.countP_nil]

theorem reported_snoc (k : Kind) (calls : List Call) {c : Call} (h : c ≠ .resets) :
    reported k (calls ++ [c]) = reported k calls + if k.reports c then 1 else 0 := by
  unfold reported since_reset
  rw [List.rtakeWhile_concat_pos _ _ _ (by simpa using h), List.countP_append,
    List.countP_singleton]

/-- What one call does to a count. -/
theorem called_count (s : ErrorHandler × Logger) (c : Call) (k : Kind) :
    (called s c).1.1.count k =
      if c = .resets then 0 else if k.reports c then s.1.count k + 1 else s.1.count k := by
  cases c <;> cases k <;> rfl

/-- A count is the number of reports since the last reset, on 32 bits. -/
theorem after_count (calls : List Call) (k : Kind) :
    (after calls).1.count k = UInt32.ofNat (reported k calls) := by
  induction calls using List.reverseRecOn with
  | nil => cases k <;> rfl
  | append_singleton calls c ih =>
    rw [after_snoc, called_count, ih]
    by_cases hc : c = .resets
    · rw [if_pos hc, hc, reported_resets]
      rfl
    · rw [if_neg hc, reported_snoc k calls hc]
      split_ifs
      · rw [UInt32.ofNat_add]
        rfl
      · rfl

/-! ## What a number is read from -/

theorem digitsValue_replicate_zero (n : Nat) (cs : List UInt8) :
    digitsValue (List.replicate n 0x30 ++ cs) = digitsValue cs := by
  induction n with
  | zero => rfl
  | succ n ih =>
    rw [List.replicate_succ, List.cons_append]
    exact ih

theorem zero_filled_isNumeral (width n : Nat) : IsNumeral (zero_filled width n) n where
  nonempty := by simp [zero_filled, (isNumeral_numeral n).nonempty]
  digits := by
    intro c hc
    rcases List.mem_append.mp hc with hc | hc
    · rw [List.eq_of_mem_replicate hc]
      rfl
    · exact (isNumeral_numeral n).digits c hc
  value := by
    unfold zero_filled
    rw [digitsValue_replicate_zero, (isNumeral_numeral n).value]

/-- The number of a report is read from behind its word. -/
theorem numbered_inj {k k' : Kind} {count count' : UInt32} {r r' : Report} :
    numbered k.word count r = numbered k'.word count' r' ↔
      k = k' ∧ count = count' ∧ place r = place r' := by
  constructor
  swap
  · rintro ⟨rfl, rfl, hplace⟩
    unfold numbered
    rw [hplace]
  intro h
  unfold numbered at h
  simp only [List.append_assoc] at h
  have hkind : k = k' := by
    have hpre : k.word <+: k'.word ++ (text " [" ++ (zero_filled 6 count'.toNat ++
        (text "] " ++ place r'))) := by
      rw [← h]
      exact List.prefix_append _ _
    by_contra hne
    refine not_prefix_of (List.prefix_append k'.word _) ?_ hpre
    revert hne
    cases k <;> cases k' <;> decide
  subst hkind
  have hrest := List.append_cancel_left (List.append_cancel_left h)
  have hnumber : ∀ (n : Nat) (p : List UInt8),
      numberAt (zero_filled 6 n ++ (text "] " ++ p)) = n := fun n p =>
    (zero_filled_isNumeral 6 n).numberAt (by decide : isDigit 0x5D = false) (0x20 :: p)
  have hcount : count.toNat = count'.toNat := by
    rw [← hnumber count.toNat (place r), hrest, hnumber]
  have hplace := hrest
  rw [hcount] at hplace
  exact ⟨rfl, UInt32.toNat_inj.mp hcount,
    List.append_cancel_left (List.append_cancel_left hplace)⟩

/-! ## What a place is read from -/

theorem int_numeral_not_mem {c : UInt8} (hc : isDigit c = false) (hsign : c ≠ 0x2D) (n : Int) :
    c ∉ int_numeral n := by
  have hdigits : c ∉ numeral n.natAbs := by
    intro hmem
    rw [(isNumeral_numeral _).digits c hmem] at hc
    cases hc
  unfold int_numeral
  split_ifs
  · intro hmem
    rcases List.mem_append.mp hmem with hmem | hmem
    · exact hsign (List.mem_singleton.mp hmem)
    · exact hdigits hmem
  · exact hdigits

theorem int_numeral_inj {n m : Int} (h : int_numeral n = int_numeral m) : n = m := by
  have hnumeral : ∀ {i j : Nat}, numeral i = numeral j → i = j := by
    intro i j hij
    rw [← (isNumeral_numeral i).value, hij, (isNumeral_numeral j).value]
  -- no numeral starts with the sign
  have hsign : ∀ i j : Nat, text "-" ++ numeral i ≠ numeral j := by
    intro i j hij
    have hmem : (0x2D : UInt8) ∈ numeral j := hij ▸ List.mem_cons_self
    have hdigit : isDigit 0x2D = true := (isNumeral_numeral j).digits _ hmem
    exact absurd hdigit (by decide)
  unfold int_numeral at h
  split_ifs at h with hn hm hm
  · have := hnumeral (List.append_cancel_left h)
    omega
  · exact absurd h (hsign _ _)
  · exact absurd h.symm (hsign _ _)
  · have := hnumeral h
    omega

/-- Where no file has a colon in its name, a place tells the report. -/
theorem place_inj {r r' : Report} (h : 0x3A ∉ r.file) (h' : 0x3A ∉ r'.file) :
    place r = place r' ↔ r = r' := by
  constructor
  swap
  · rintro rfl
    rfl
  intro hplace
  unfold place at hplace
  simp only [List.append_assoc] at hplace
  obtain ⟨hfile, hrest⟩ := append_cons_inj h h' (List.append_cancel_left hplace)
  have hclosing : ∀ n : Int, (0x29 : UInt8) ∉ int_numeral n :=
    int_numeral_not_mem (by decide) (by decide)
  obtain ⟨hline, hmessage⟩ := append_cons_inj (hclosing r.line) (hclosing r'.line) hrest
  obtain ⟨message, file, line⟩ := r
  obtain ⟨message', file', line'⟩ := r'
  simp only [Report.mk.injEq]
  exact ⟨(List.cons.inj hmessage).2, hfile, int_numeral_inj hline⟩

/-! ## The laws -/

/-- The text of a report after some calls. -/
def report_text (k : Kind) (calls : List Call) (r : Report) : List UInt8 :=
  numbered k.word ((after calls).1.count k + 1) r

/-- What a report writes after some calls: its text, in the log and beside
it. -/
theorem handled_output (k : Kind) (calls : List Call) (now : Clock) (r : Report) :
    (called (after calls) (k.handles now r)).2 =
      log now k.level (report_text k calls r) (after calls).2 ++
        printed (after calls).2 (report_text k calls r) := by
  cases k <;> rfl

/-- The summary states how many errors and warnings came since the last
reset, on 32 bits. -/
theorem get_summary_after (calls : List Call) :
    get_summary (after calls).1 =
      text "Error Summary: " ++ numeral (reported .error calls % 2 ^ 32) ++ text " errors, " ++
        numeral (reported .warning calls % 2 ^ 32) ++ text " warnings" := by
  have herrors : (after calls).1.error_count = UInt32.ofNat (reported .error calls) :=
    after_count calls .error
  have hwarnings : (after calls).1.warning_count = UInt32.ofNat (reported .warning calls) :=
    after_count calls .warning
  unfold get_summary
  rw [herrors, hwarnings, UInt32.toNat_ofNat', UInt32.toNat_ofNat']

end simple_snmpd.error_handler
