-- Configuration files that say a configuration: a line for each setting, in
-- any order and spacing, with comments and blank lines between them. Each of
-- them is loaded to the configuration that it says.
import SimpleSnmpd.ConfigLaws

open texts registers

namespace simple_snmpd.snmp_config

/-! ## What a line may look like -/

/-- Spaces and tabs. -/
def IsBlanks (b : List UInt8) : Prop := ∀ c ∈ b, is_blank c = true

instance (b : List UInt8) : Decidable (IsBlanks b) :=
  List.decidableBAll (fun c => is_blank c = true) b

/-- What may end a line: nothing, a carriage return, or a comment. -/
inductive IsTail : List UInt8 → Prop
  | nothing : IsTail []
  | carriage_return : IsTail [0x0D]
  | comment (t : List UInt8) (h : 0x0A ∉ t) : IsTail (0x23 :: t)

/-- A blank line, or one with only a comment. -/
def IsFiller (line : List UInt8) : Prop := ∃ b tail, IsBlanks b ∧ IsTail tail ∧ line = b ++ tail

/-- A key and a value, with blanks around both. -/
def IsSettingLine (key value line : List UInt8) : Prop :=
  ∃ b₁ b₂ b₃ b₄ tail, IsBlanks b₁ ∧ IsBlanks b₂ ∧ IsBlanks b₃ ∧ IsBlanks b₄ ∧ IsTail tail ∧
    line = b₁ ++ (key ++ b₂ ++ 0x3D :: (b₃ ++ value ++ b₄ ++ tail))

/-- A text that can stand as a value: in one line, without a comment, and
without blanks at its ends. -/
structure IsPlain (value : List UInt8) : Prop where
  no_comment : 0x23 ∉ value
  no_newline : 0x0A ∉ value
  begins : BeginsClear is_blank value
  ends : EndsClear is_end value

instance (value : List UInt8) : Decidable (IsPlain value) :=
  decidable_of_iff
    (0x23 ∉ value ∧ 0x0A ∉ value ∧ BeginsClear is_blank value ∧ EndsClear is_end value)
    ⟨fun ⟨h1, h2, h3, h4⟩ => ⟨h1, h2, h3, h4⟩, fun ⟨h1, h2, h3, h4⟩ => ⟨h1, h2, h3, h4⟩⟩

/-- A text that can stand as a key. -/
structure IsKey (key : List UInt8) : Prop where
  nonempty : key ≠ []
  no_comment : 0x23 ∉ key
  no_equals : 0x3D ∉ key
  no_newline : 0x0A ∉ key
  begins : BeginsClear is_end key
  ends : EndsClear is_end key

theorem key_isKey (x : Setting) : IsKey x.key := by
  cases x <;> exact ⟨by decide, by decide, by decide, by decide, by decide, by decide⟩

theorem is_end_of_is_blank (c : UInt8) (h : is_blank c = true) : is_end c = true := by
  simp only [is_blank, is_end, Bool.or_eq_true, decide_eq_true_eq] at *
  tauto

theorem IsBlanks.is_end {b : List UInt8} (h : IsBlanks b) : ∀ c ∈ b, is_end c = true :=
  fun c hc => is_end_of_is_blank c (h c hc)

/-- No blank is one of the characters that split a line. -/
theorem IsBlanks.not_mem {b : List UInt8} (h : IsBlanks b) : 0x23 ∉ b ∧ 0x3D ∉ b ∧ 0x0A ∉ b := by
  refine ⟨?_, ?_, ?_⟩ <;> intro hmem <;> have := h _ hmem <;> revert this <;> decide

theorem IsTail.no_newline {tail : List UInt8} (h : IsTail tail) : 0x0A ∉ tail := by
  cases h with
  | nothing => exact List.not_mem_nil
  | carriage_return => decide
  | comment t ht => exact fun hmem => (List.mem_cons.mp hmem).elim (by decide) ht

/-- Without its comment, the end of a line has only what is trimmed. -/
theorem cut_tail {xs tail : List UInt8} (hxs : 0x23 ∉ xs) (h : IsTail tail) :
    ∃ e, (∀ c ∈ e, is_end c = true) ∧ (xs ++ tail).takeWhile (· ≠ 0x23) = xs ++ e := by
  cases h with
  | nothing => exact ⟨[], nofun, by rw [List.append_nil, takeWhile_ne_self hxs]⟩
  | carriage_return =>
    refine ⟨[0x0D], List.forall_mem_singleton.mpr rfl, takeWhile_ne_self ?_⟩
    rw [List.mem_append, not_or]
    exact ⟨hxs, by decide⟩
  | comment t ht => exact ⟨[], nofun, by rw [takeWhile_ne_append hxs, List.append_nil]⟩

/-! ## What a line says -/

/-- A filler says nothing. -/
theorem key_value_filler {line : List UInt8} (h : IsFiller line) : key_value line = none := by
  obtain ⟨b, tail, hb, htail, rfl⟩ := h
  obtain ⟨e, he, hcut⟩ := cut_tail hb.not_mem.1 htail
  have hbare : bare (b ++ tail) = [] := by
    unfold bare trim
    rw [hcut, List.dropWhile_append_of_pos hb.is_end, List.dropWhile_eq_nil_iff.mpr he,
      List.rdropWhile_nil]
  unfold key_value
  rw [hbare, if_neg List.not_mem_nil]

/-- What is left of a value when the end of its line is trimmed, and then
the value, is the value. -/
theorem trim_value {b value : List UInt8} (hb : IsBlanks b) (hvalue : IsPlain value) :
    trim is_blank ((b ++ value).rdropWhile is_end) = value := by
  by_cases hempty : value = []
  · rw [hempty, List.append_nil, rdropWhile_all hb.is_end]
    rfl
  · have hends : EndsClear is_blank value := hvalue.ends.mono is_end_of_is_blank
    rw [(hvalue.ends.of_append hempty b).rdropWhile_eq]
    have hpad := trim_pad hvalue.begins hends hb (List.forall_mem_nil _)
    rwa [List.append_nil] at hpad

/-- A setting line says its key and its value. -/
theorem key_value_setting {key value line : List UInt8} (hkey : IsKey key)
    (hvalue : IsPlain value) (h : IsSettingLine key value line) :
    key_value line = some (key, value) := by
  obtain ⟨b₁, b₂, b₃, b₄, tail, h₁, h₂, h₃, h₄, htail, rfl⟩ := h
  have hno : 0x23 ∉ b₁ ++ (key ++ b₂ ++ 0x3D :: (b₃ ++ value ++ b₄)) := by
    simp [h₁.not_mem.1, h₂.not_mem.1, h₃.not_mem.1, h₄.not_mem.1, hkey.no_comment,
      hvalue.no_comment]
  obtain ⟨e, he, hcut⟩ := cut_tail hno htail
  have hends : ∀ c ∈ b₄ ++ e, is_end c = true := by
    intro c hc
    exact (List.mem_append.mp hc).elim (h₄.is_end c) (he c)
  have hbare : bare (b₁ ++ (key ++ b₂ ++ 0x3D :: (b₃ ++ value ++ b₄ ++ tail))) =
      key ++ b₂ ++ 0x3D :: (b₃ ++ value).rdropWhile is_end := by
    have hline : b₁ ++ (key ++ b₂ ++ 0x3D :: (b₃ ++ value ++ b₄ ++ tail)) =
        b₁ ++ (key ++ b₂ ++ 0x3D :: (b₃ ++ value ++ b₄)) ++ tail := by simp
    have hbegins : BeginsClear is_end (key ++ b₂ ++ 0x3D :: (b₃ ++ value ++ (b₄ ++ e))) := by
      rw [List.append_assoc]
      exact hkey.begins.append hkey.nonempty _
    unfold bare trim
    rw [hline, hcut, List.append_assoc, List.dropWhile_append_of_pos h₁.is_end]
    rw [show key ++ b₂ ++ 0x3D :: (b₃ ++ value ++ b₄) ++ e =
      key ++ b₂ ++ 0x3D :: (b₃ ++ value ++ (b₄ ++ e)) by simp]
    rw [hbegins.dropWhile_eq, rdropWhile_append_cons _ _ (by decide),
      rdropWhile_append_all _ hends]
  have hequals : 0x3D ∉ key ++ b₂ := by simp [hkey.no_equals, h₂.not_mem.2.1]
  have htrim : trim is_blank (key ++ b₂) = key :=
    trim_pad (hkey.begins.mono is_end_of_is_blank) (hkey.ends.mono is_end_of_is_blank)
      (List.forall_mem_nil _) h₂
  unfold key_value
  rw [hbare, if_pos (by simp), takeWhile_ne_append hequals, dropWhile_ne_append hequals, htrim,
    List.tail_cons, trim_value h₃ hvalue]

example : key_value (text " port\t= 161 # the port\r") = some (text "port", text "161") := by decide

/-! ## Values -/

/-- No digit is a character that splits or trims a line. -/
theorem digit_plain {c : UInt8} (h : isDigit c = true) :
    c ≠ 0x23 ∧ c ≠ 0x0A ∧ is_end c = false := by
  refine ⟨ne_of_isDigit h (by decide), ne_of_isDigit h (by decide), ?_⟩
  simp only [is_end, Bool.or_eq_false_iff, decide_eq_false_iff_not]
  exact ⟨⟨⟨ne_of_isDigit h (by decide), ne_of_isDigit h (by decide)⟩, ne_of_isDigit h (by decide)⟩,
    ne_of_isDigit h (by decide)⟩

theorem numeral_plain {value : List UInt8} {n : Nat} (h : IsNumeral value n) :
    IsPlain value where
  no_comment hmem := (digit_plain (h.digits _ hmem)).1 rfl
  no_newline hmem := (digit_plain (h.digits _ hmem)).2.1 rfl
  begins := by
    have hbegins : BeginsClear is_end value := fun c hc =>
      (digit_plain (h.digits c (List.mem_of_mem_head? hc))).2.2
    exact hbegins.mono is_end_of_is_blank
  ends c hc := (digit_plain (h.digits c (List.mem_of_mem_getLast? hc))).2.2

/-- A level is plain, and in lower case. -/
theorem level_plain {level : List UInt8} (h : is_level level = true) :
    IsPlain level ∧ level.map tolower = level := by
  have hlevel : level = text "debug" ∨ level = text "info" ∨ level = text "warning" ∨
      level = text "error" ∨ level = text "fatal" := by
    simpa [is_level, or_assoc] using h
  rcases hlevel with rfl | rfl | rfl | rfl | rfl <;>
    exact ⟨⟨by decide, by decide, by decide, by decide⟩, by decide⟩

/-! ## What a file says -/

/-- The text of a value says what the setting is. -/
def Says (c : SNMPConfig) (x : Setting) (value : List UInt8) : Prop :=
  match c.get x with
  | .number n => IsNumeral value n
  | .text t => (if x = .log_level then value.map tolower else value) = t
  | .flag b => parse_flag value = b

/-- A line of the setting. -/
def SaysIn (c : SNMPConfig) (x : Setting) (line : List UInt8) : Prop :=
  ∃ value, IsPlain value ∧ Says c x value ∧ IsSettingLine x.key value line

/-- A file that says the configuration: lines, of which the last one need
not end with a newline, that are fillers or say a setting, and each setting
is said. -/
def IsRendering (c : SNMPConfig) (content : List UInt8) : Prop :=
  ∃ ls last, content = unlines 0x0A ls ++ last ∧
    (∀ line ∈ ls ++ [last], IsFiller line ∨ ∃ x, SaysIn c x line) ∧
    ∀ x, ∃ line ∈ ls ++ [last], SaysIn c x line

/-- A line that says a setting, from its parts. -/
theorem saysIn_of_parts {c : SNMPConfig} {x : Setting} {line tail : List UInt8}
    (b₁ b₂ b₃ b₄ value : List UInt8)
    (hblanks : IsBlanks b₁ ∧ IsBlanks b₂ ∧ IsBlanks b₃ ∧ IsBlanks b₄) (hplain : IsPlain value)
    (hvalue : Says c x value) (htail : IsTail tail)
    (hline : line = b₁ ++ (x.key ++ b₂ ++ 0x3D :: (b₃ ++ value ++ b₄ ++ tail))) :
    SaysIn c x line := by
  obtain ⟨h₁, h₂, h₃, h₄⟩ := hblanks
  exact ⟨value, hplain, hvalue, b₁, b₂, b₃, b₄, tail, h₁, h₂, h₃, h₄, htail, hline⟩

theorem SaysIn.no_newline {c : SNMPConfig} {x : Setting} {line : List UInt8}
    (h : SaysIn c x line) : 0x0A ∉ line := by
  obtain ⟨value, hplain, -, b₁, b₂, b₃, b₄, tail, h₁, h₂, h₃, h₄, htail, rfl⟩ := h
  simp [h₁.not_mem.2.2, h₂.not_mem.2.2, h₃.not_mem.2.2, h₄.not_mem.2.2, (key_isKey x).no_newline,
    hplain.no_newline, htail.no_newline]

theorem IsFiller.no_newline {line : List UInt8} (h : IsFiller line) : 0x0A ∉ line := by
  obtain ⟨b, tail, hb, htail, rfl⟩ := h
  simp [hb.not_mem.2.2, htail.no_newline]

/-- A numeral in the range of its setting is read as its number. -/
theorem write_numeral {x : Setting} {w n : Nat} {value : List UInt8} (hw : x.width = some w)
    (hn : n ≤ x.limit) (h : IsNumeral value n) : x.write value = some (.number n) := by
  have hlimit := limit_lt hw
  rw [write_of_width hw, write_number, stoi_numeral h (by omega), Option.map_some,
    stored_of_lt (by omega)]

/-- What says a setting is read as the setting. -/
theorem write_of_says {c : SNMPConfig} (hc : c.Valid) {x : Setting} {value : List UInt8}
    (h : Says c x value) : x.write value = some (c.get x) := by
  have hx := hc x
  cases x
  case community => exact congrArg (fun t => some (Value.text t)) h
  case enable_ipv6 | enable_trap => exact congrArg (fun b => some (Value.flag b)) h
  case log_level =>
    have hvalue : value.map tolower = c.log_level := h
    have hlevel : is_level c.log_level = true := hx rfl
    simp only [Setting.write, hvalue, if_pos hlevel, SNMPConfig.get]
  case port | trap_port | max_connections | timeout_seconds => exact write_numeral rfl hx.2 h

/-- A line of a setting writes the setting, and nothing else. -/
theorem line_write_of_saysIn {c : SNMPConfig} (hc : c.Valid) {x : Setting} {line : List UInt8}
    (h : SaysIn c x line) (y : Setting) :
    line_write y line = if y = x then some (c.get y) else none := by
  obtain ⟨value, hplain, hsays, hline⟩ := h
  unfold line_write written
  rw [key_value_setting (key_isKey x) hplain hline, Option.bind_some]
  by_cases hyx : y = x
  · rw [if_pos (congrArg Setting.key hyx).symm, if_pos hyx, hyx]
    exact write_of_says hc hsays
  · rw [if_neg fun hkey => hyx (key_injective x y hkey).symm, if_neg hyx]

/-- A filler writes nothing. -/
theorem line_write_filler {line : List UInt8} (h : IsFiller line) (y : Setting) :
    line_write y line = none := by
  unfold line_write
  rw [key_value_filler h]
  rfl

/-- The lines of a file are those that it was made of, but for a last line
that is empty. -/
theorem getlines_unlines {ls : List (List UInt8)} {last : List UInt8}
    (h : ∀ line ∈ ls ++ [last], 0x0A ∉ line) :
    getlines (unlines 0x0A ls ++ last) = ls ++ if last = [] then [] else [last] :=
  lines_unlines_append (fun l hl => h l (List.mem_append_left _ hl))
    (h last (List.mem_append_right _ List.mem_cons_self))

/-! ## A file for every configuration -/

/-- The text of a value. -/
def shown : Value → List UInt8
  | .number n => numeral n
  | .text t => t
  | .flag b => if b then text "true" else text "false"

def settings : List Setting :=
  [.port, .community, .max_connections, .timeout_seconds, .log_level, .enable_ipv6, .enable_trap,
    .trap_port]

theorem mem_settings (x : Setting) : x ∈ settings := by
  cases x <;> decide

/-- The line of a setting, without blanks. -/
def plain_line (c : SNMPConfig) (x : Setting) : List UInt8 := x.key ++ 0x3D :: shown (c.get x)

/-- A file with the lines of a configuration, and nothing else. -/
def render (c : SNMPConfig) : List UInt8 := unlines 0x0A (settings.map (plain_line c))

theorem flag_plain (b : Bool) :
    IsPlain (shown (.flag b)) ∧ parse_flag (shown (.flag b)) = b := by
  cases b <;> exact ⟨⟨by decide, by decide, by decide, by decide⟩, by decide⟩

theorem shown_says {c : SNMPConfig} (hc : c.Valid) (hcommunity : IsPlain c.community)
    (x : Setting) : IsPlain (shown (c.get x)) ∧ Says c x (shown (c.get x)) := by
  have hx := hc x
  cases x
  case community => exact ⟨hcommunity, rfl⟩
  case log_level => exact level_plain (hx rfl)
  case enable_ipv6 | enable_trap => exact flag_plain _
  case port | trap_port | max_connections | timeout_seconds =>
    exact ⟨numeral_plain (isNumeral_numeral _), isNumeral_numeral _⟩

theorem saysIn_plain_line {c : SNMPConfig} (hc : c.Valid) (hcommunity : IsPlain c.community)
    (x : Setting) : SaysIn c x (plain_line c x) := by
  obtain ⟨hplain, hsays⟩ := shown_says hc hcommunity x
  refine saysIn_of_parts [] [] [] [] _ (by decide) hplain hsays .nothing ?_
  simp [plain_line]

/-- Every valid configuration whose community is plain is said by a file. -/
theorem render_isRendering {c : SNMPConfig} (hc : c.Valid) (hcommunity : IsPlain c.community) :
    IsRendering c (render c) := by
  refine ⟨settings.map (plain_line c), [], (List.append_nil _).symm, ?_, ?_⟩
  · intro line hline
    rcases List.mem_append.mp hline with hline | hline
    · obtain ⟨x, -, rfl⟩ := List.mem_map.mp hline
      exact Or.inr ⟨x, saysIn_plain_line hc hcommunity x⟩
    · rw [List.mem_singleton.mp hline]
      exact Or.inl ⟨[], [], List.forall_mem_nil _, .nothing, rfl⟩
  · intro x
    refine ⟨plain_line c x, ?_, saysIn_plain_line hc hcommunity x⟩
    exact List.mem_append_left _ (List.mem_map_of_mem (mem_settings x))

/-! ## What is loaded -/

/-- Lines that say a valid configuration are loaded to it. -/
theorem load_lines_of_says {c : SNMPConfig} (hc : c.Valid) {ls : List (List UInt8)}
    (hlines : ∀ line ∈ ls, IsFiller line ∨ ∃ x, SaysIn c x line)
    (hsaid : ∀ x, ∃ line ∈ ls, SaysIn c x line) (start : SNMPConfig) :
    ls.foldl load_line start = c := by
  refine SNMPConfig.ext_get fun y => ?_
  have hwrites : ∀ w ∈ ls.map (line_write y), w = none ∨ w = some (c.get y) := by
    intro w hw
    obtain ⟨line, hline, rfl⟩ := List.mem_map.mp hw
    rcases hlines line hline with hfiller | ⟨x, hx⟩
    · exact Or.inl (line_write_filler hfiller y)
    · rw [line_write_of_saysIn hc hx]
      split_ifs
      · exact Or.inr rfl
      · exact Or.inl rfl
  have hwritten : some (c.get y) ∈ ls.map (line_write y) := by
    obtain ⟨line, hline, hy⟩ := hsaid y
    refine List.mem_map.mpr ⟨line, hline, ?_⟩
    rw [line_write_of_saysIn hc hy, if_pos rfl]
  rw [get_load_lines, lastWrite_of_all hwrites hwritten, Option.getD_some]

/-- A file that says a valid configuration is loaded to it, from any
configuration. That each setting is said once is not needed, nor is their
order. -/
theorem a_file_that_says_a_configuration_is_loaded_to_it {c : SNMPConfig} (hc : c.Valid)
    {content : List UInt8} (h : IsRendering c content) (start : SNMPConfig) :
    load (some content) start = (true, c) := by
  obtain ⟨ls, last, rfl, hlines, hsaid⟩ := h
  have hnl : ∀ line ∈ ls ++ [last], 0x0A ∉ line := by
    intro line hline
    rcases hlines line hline with hfiller | ⟨x, hx⟩
    · exact hfiller.no_newline
    · exact hx.no_newline
  have hloaded : (getlines (unlines 0x0A ls ++ last)).foldl load_line start =
      (ls ++ [last]).foldl load_line start := by
    rw [getlines_unlines hnl]
    split_ifs with hlast
    · -- an empty line says nothing
      rw [hlast, List.append_nil, List.foldl_append]
      rfl
    · rfl
  unfold load
  simp only [hloaded, load_lines_of_says hc hlines hsaid]

/-- A configuration that has no setting of the new one. -/
def tuned : SNMPConfig where
  port := 1161
  community := text "s3cret"
  max_connections := 50
  timeout_seconds := 5
  log_level := text "debug"
  enable_ipv6 := false
  enable_trap := true
  trap_port := 1162

theorem tuned_valid : tuned.Valid := by
  intro x
  cases x
  case community => exact fun h => nomatch h
  case log_level => exact fun _ => by decide
  case enable_ipv6 | enable_trap => exact trivial
  all_goals exact ⟨by decide, by decide⟩

/-- A line for each of its settings, with blanks, comments and carriage
returns. -/
def tuned_line : Setting → List UInt8
  | .port => text "port = 01161"
  | .community => text "  community=s3cret\r"
  | .max_connections => text "max_connections = 50 # enough"
  | .timeout_seconds => text "timeout_seconds\t=\t5\r"
  | .log_level => text "\tlog_level = Debug  \r"
  | .enable_ipv6 => text "enable_ipv6=no"
  | .enable_trap => text "enable_trap = Yes"
  | .trap_port => text "trap_port = 1162\r"

theorem says_tuned (x : Setting) : SaysIn tuned x (tuned_line x) := by
  cases x
  case port =>
    exact saysIn_of_parts [] (text " ") (text " ") [] (text "01161") (by decide) (by decide)
      (by decide : IsNumeral _ 1161) .nothing rfl
  case community =>
    exact saysIn_of_parts (text "  ") [] [] [] (text "s3cret") (by decide) (by decide) rfl
      .carriage_return rfl
  case max_connections =>
    exact saysIn_of_parts [] (text " ") (text " ") (text " ") (text "50") (by decide) (by decide)
      (by decide : IsNumeral _ 50) (.comment (text " enough") (by decide)) rfl
  case timeout_seconds =>
    exact saysIn_of_parts [] (text "\t") (text "\t") [] (text "5") (by decide) (by decide)
      (by decide : IsNumeral _ 5) .carriage_return rfl
  case log_level =>
    exact saysIn_of_parts (text "\t") (text " ") (text " ") (text "  ") (text "Debug") (by decide)
      (by decide) rfl .carriage_return rfl
  case enable_ipv6 =>
    exact saysIn_of_parts [] [] [] [] (text "no") (by decide) (by decide) rfl .nothing rfl
  case enable_trap =>
    exact saysIn_of_parts [] (text " ") (text " ") [] (text "Yes") (by decide) (by decide) rfl
      .nothing rfl
  case trap_port =>
    exact saysIn_of_parts [] (text " ") (text " ") [] (text "1162") (by decide) (by decide)
      (by decide : IsNumeral _ 1162) .carriage_return rfl

/-- The lines in another order, with a comment and an empty line before
them, and without a newline after the last one. -/
def tuned_file : List UInt8 :=
  unlines 0x0A ([text "# tuned\r", text "\r"] ++
    [.trap_port, .enable_trap, .log_level, .community, .enable_ipv6, .timeout_seconds,
      .max_connections].map tuned_line) ++ tuned_line .port

theorem tuned_file_says : IsRendering tuned tuned_file := by
  refine ⟨_, _, rfl, fun line hline => ?_, fun x => ?_⟩
  · simp only [List.map_cons, List.map_nil, List.cons_append, List.nil_append, List.mem_cons,
      List.not_mem_nil, or_false] at hline
    rcases hline with rfl | rfl | hsetting
    · exact Or.inl ⟨[], _, by decide, .comment (text " tuned\r") (by decide), by decide⟩
    · exact Or.inl ⟨[], _, by decide, .carriage_return, by decide⟩
    · rcases hsetting with rfl | rfl | rfl | rfl | rfl | rfl | rfl | rfl <;>
        exact Or.inr ⟨_, says_tuned _⟩
  · refine ⟨tuned_line x, ?_, says_tuned x⟩
    cases x <;> simp

/-- A file that changes every setting. -/
theorem a_file_with_comments_is_loaded :
    load (some tuned_file) SNMPConfig.new = (true, tuned) :=
  a_file_that_says_a_configuration_is_loaded_to_it tuned_valid tuned_file_says SNMPConfig.new

end simple_snmpd.snmp_config
