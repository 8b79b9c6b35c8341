-- Laws of the lines of the log. A message is one line, except where it
-- shows a community with a newline. Such a community is a line of its own,
-- of any text, and it takes no access to have it written.
import SimpleSnmpd.AuditLaws

open texts simple_snmpd.snmp_packet simple_snmpd.snmp_config simple_snmpd.logger write_logs
  simulations ber

namespace simple_snmpd.snmp_server

/-! ## Texts without a newline -/

theorem numeral_no_newline (n : Nat) : 0x0A ∉ numeral n :=
  fun h => absurd ((isNumeral_numeral n).digits _ h) (by decide)

theorem decimal_no_newline (b : UInt8) : 0x0A ∉ decimal b := by
  intro h
  obtain ⟨c, hc, hnl⟩ := List.mem_map.mp h
  have hdigit := Nat.isDigit_of_mem_toDigits (by decide) (by decide) hc
  simp only [Char.isDigit, ge_iff_le, Bool.and_eq_true, decide_eq_true_eq,
    UInt32.le_iff_toNat_le] at hdigit
  have hlow : 48 ≤ c.toNat := hdigit.1
  have hhigh : c.toNat ≤ 57 := hdigit.2
  have hvalue := congrArg UInt8.toNat hnl
  rw [UInt8.toNat_ofNat', Nat.mod_eq_of_lt (by omega)] at hvalue
  have hten : (0x0A : UInt8).toNat = 10 := rfl
  omega

theorem inet_ntoa_no_newline (a : UInt8 × UInt8 × UInt8 × UInt8) : 0x0A ∉ inet_ntoa a := by
  unfold inet_ntoa
  simp [decimal_no_newline]

theorem level_str_no_newline (level : LogLevel) : 0x0A ∉ level_str level := by
  cases level <;> decide

theorem zero_filled_no_newline (width n : Nat) : 0x0A ∉ zero_filled width n := by
  unfold zero_filled
  rw [List.mem_append, List.mem_replicate, not_or]
  exact ⟨fun h => absurd h.2 (by decide), numeral_no_newline n⟩

/-- A line of the log has the newlines of its message. -/
theorem newline_mem_formatted {now : Clock} (h : 0x0A ∉ now.put_time) (level : LogLevel)
    (message : List UInt8) :
    0x0A ∈ formatted_message now level message ↔ 0x0A ∈ message := by
  have hopen : 0x0A ∉ text "[" := by decide
  have hmiddle : 0x0A ∉ text "] [" := by decide
  have hclose : 0x0A ∉ text "] " := by decide
  have hdot : 0x0A ∉ text "." := by decide
  simp only [formatted_message, timestamp, List.mem_append, h, hopen, hmiddle, hclose, hdot,
    zero_filled_no_newline, level_str_no_newline, false_or, or_false]

/-! ## The communities that are shown -/

variable {M S : Type} {k : Managers M S} {s : Agent M S}

/-- A handler shows the community of the request. -/
def Shows (k : Managers M S) (security : S) (request : SNMPPacket) : Prop :=
  request.pdu_type = SNMP_PDU_SET_REQUEST ∧
      k.security.is_write_allowed security request.community = false ∨
    request.pdu_type = SNMP_PDU_TRAP ∧ request.version = SNMP_VERSION_1 ∨
    request.pdu_type = SNMP_PDU_TRAP_V2 ∧ request.version = SNMP_VERSION_2C

instance (k : Managers M S) (security : S) (request : SNMPPacket) :
    Decidable (Shows k security request) :=
  inferInstanceAs (Decidable (_ ∧ _ ∨ _ ∧ _ ∨ _ ∧ _))

/-- The community that the messages of a request show, if they show it. -/
def shown_of_request (k : Managers M S) (now : Nat) (client_address : List UInt8)
    (request : SNMPPacket) (s : Agent M S) : Option (List UInt8) :=
  match judged k now client_address request.community s.security with
  | .community_denied => some request.community
  | .answered =>
    if Shows k (security_after k.security now client_address s.security) request then
      some request.community
    else none
  | _ => none

/-- The community that the messages of a turn show, if they show one. -/
def shown (k : Managers M S) (s : Agent M S) (t : Turn) : Option (List UInt8) :=
  match t.received with
  | .error => none
  | .datagram now client_addr payload =>
    match parse (.bits 64) SNMPPacket.new (into_buffer payload) with
    | .ok () packet => shown_of_request k now (inet_ntoa client_addr.sin_addr) packet s
    | _ => none

/-- A message of the list holds a newline. -/
def HoldsNewline (es : List Entry) : Prop := ∃ e ∈ es, 0x0A ∈ e.2

theorem holdsNewline_nil : ¬ HoldsNewline [] := nofun

theorem holdsNewline_cons {e : Entry} {es : List Entry} :
    HoldsNewline (e :: es) ↔ 0x0A ∈ e.2 ∨ HoldsNewline es := by
  simp [HoldsNewline]

theorem holdsNewline_append {es es' : List Entry} :
    HoldsNewline (es ++ es') ↔ HoldsNewline es ∨ HoldsNewline es' := by
  simp only [HoldsNewline, List.mem_append, or_and_right, exists_or]

/-- The OID texts have no newline. -/
def PlainOids (k : Managers M S) : Prop := ∀ oid, 0x0A ∉ k.oid_to_string oid

theorem trap_newline (hoid : PlainOids k) {version : List UInt8} (hversion : 0x0A ∉ version)
    (request : SNMPPacket) :
    HoldsNewline (trap_log k version request) ↔ 0x0A ∈ request.community := by
  have hreceived : 0x0A ∉ text "Received SNMP " := by decide
  have hfrom : 0x0A ∉ text " trap from " := by decide
  have hwith : 0x0A ∉ text " with " := by decide
  have hvariables : 0x0A ∉ text " variables" := by decide
  have hdetails : ¬ HoldsNewline (request.variable_bindings.map fun varbind =>
      (LogLevel.DEBUG, text "Trap variable: " ++ k.oid_to_string varbind.oid ++ text " (type: " ++
        numeral varbind.value_type.toNat ++ text ", length: " ++ numeral varbind.value.length ++
        text ")")) := by
    rintro ⟨e, he, hnl⟩
    obtain ⟨varbind, -, rfl⟩ := List.mem_map.mp he
    have hvariable : 0x0A ∉ text "Trap variable: " := by decide
    have htype : 0x0A ∉ text " (type: " := by decide
    have hlength : 0x0A ∉ text ", length: " := by decide
    have hclose : 0x0A ∉ text ")" := by decide
    have hname := hoid varbind.oid
    simp only [List.mem_append, hvariable, htype, hlength, hclose, hname, numeral_no_newline,
      or_self] at hnl
  rw [trap_log, holdsNewline_cons]
  simp only [List.mem_append, hreceived, hversion, hfrom, hwith, hvariables, numeral_no_newline,
    hdetails, false_or, or_false]

/-- A message that shows nothing. -/
theorem holdsNewline_words {level : LogLevel} {w : List UInt8} (hw : 0x0A ∉ w) :
    ¬ HoldsNewline [(level, w)] := by
  rw [holdsNewline_cons]
  exact not_or.mpr ⟨hw, holdsNewline_nil⟩

/-- A handler that logs no community does not show it. -/
theorem newline_quiet {security : S} {request : SNMPPacket} {es : List Entry}
    (hes : ¬ HoldsNewline es) (hquiet : ¬ Shows k security request) :
    HoldsNewline es ↔ Shows k security request ∧ 0x0A ∈ request.community :=
  ⟨fun h => absurd h hes, fun h => absurd h.1 hquiet⟩

theorem not_shows {security : S} {request : SNMPPacket}
    (hset : request.pdu_type ≠ SNMP_PDU_SET_REQUEST) (htrap : request.pdu_type ≠ SNMP_PDU_TRAP)
    (htrap2 : request.pdu_type ≠ SNMP_PDU_TRAP_V2) : ¬ Shows k security request := by
  rintro (⟨h, -⟩ | ⟨h, -⟩ | ⟨h, -⟩)
  · exact hset h
  · exact htrap h
  · exact htrap2 h

theorem set_newline {security : S} {request : SNMPPacket}
    (hset : request.pdu_type = SNMP_PDU_SET_REQUEST) :
    HoldsNewline (process_set_request_log k security request) ↔
      Shows k security request ∧ 0x0A ∈ request.community := by
  unfold process_set_request_log
  cases hallowed : k.security.is_write_allowed security request.community with
  | true =>
    refine newline_quiet holdsNewline_nil ?_
    rw [Shows, hset, hallowed]
    rintro (⟨-, h⟩ | ⟨h, -⟩ | ⟨h, -⟩) <;> exact absurd h (by decide)
  | false =>
    have hshows : Shows k security request := Or.inl ⟨hset, hallowed⟩
    have hwords : 0x0A ∉ text "Write access denied for community: " := by decide
    rw [and_iff_right hshows, Bool.not_false, if_pos rfl, holdsNewline_cons]
    simp only [List.mem_append, hwords, false_or, holdsNewline_nil, or_false]

theorem dispatch_newline (hoid : PlainOids k) (security : S) (request : SNMPPacket) :
    HoldsNewline (dispatch_log k security request) ↔
      Shows k security request ∧ 0x0A ∈ request.community := by
  unfold dispatch_log
  split_ifs with hget hnext hbulk hversion hset htrap hone htrap2 htwo
  · exact newline_quiet holdsNewline_nil (not_shows (by rw [hget]; decide) (by rw [hget]; decide)
      (by rw [hget]; decide))
  · exact newline_quiet holdsNewline_nil (not_shows (by rw [hnext]; decide) (by rw [hnext]; decide)
      (by rw [hnext]; decide))
  · exact newline_quiet holdsNewline_nil (not_shows (by rw [hbulk]; decide) (by rw [hbulk]; decide)
      (by rw [hbulk]; decide))
  · exact newline_quiet (holdsNewline_words (by decide)) (not_shows (by rw [hbulk]; decide)
      (by rw [hbulk]; decide) (by rw [hbulk]; decide))
  · exact set_newline hset
  · have hshows : Shows k security request := Or.inr (Or.inl ⟨htrap, hone⟩)
    rw [process_trap_v1_log, trap_newline hoid (by decide), and_iff_right hshows]
  · refine newline_quiet (holdsNewline_words (by decide)) ?_
    rw [Shows, htrap]
    rintro (⟨h, -⟩ | ⟨-, h⟩ | ⟨h, -⟩)
    · exact absurd h (by decide)
    · exact hone h
    · exact absurd h (by decide)
  · have hshows : Shows k security request := Or.inr (Or.inr ⟨htrap2, htwo⟩)
    rw [process_trap_v2_log, trap_newline hoid (by decide), and_iff_right hshows]
  · refine newline_quiet (holdsNewline_words (by decide)) ?_
    rw [Shows, htrap2]
    rintro (⟨h, -⟩ | ⟨h, -⟩ | ⟨-, h⟩)
    · exact absurd h (by decide)
    · exact absurd h (by decide)
    · exact htwo h
  · refine newline_quiet (holdsNewline_words ?_) ?_
    · have hwords : 0x0A ∉ text "Unsupported PDU type: " := by decide
      rw [List.mem_append, not_or]
      exact ⟨hwords, numeral_no_newline _⟩
    · exact not_shows hset htrap htrap2

theorem send_newline (bytes_sent : Int) (response : SNMPPacket) :
    ¬ HoldsNewline (send_response_log bytes_sent response) := by
  rw [send_response_log, serialize_eq]
  simp only
  split_ifs
  · exact holdsNewline_words (by decide)
  · exact holdsNewline_words (by decide)
  · exact holdsNewline_nil

/-- What the messages of a request take from outside is the community that
they show. -/
theorem request_newline (hoid : PlainOids k) {client_address : List UInt8}
    (haddress : 0x0A ∉ client_address) (now : Nat) (bytes_sent : Int) (request : SNMPPacket) :
    HoldsNewline (request_log k now client_address bytes_sent request s) ↔
      ∃ c ∈ shown_of_request k now client_address request s, 0x0A ∈ c := by
  have hprocessing : 0x0A ∉ processing_words := by decide
  have hopens : 0x0A ∉ processing_words ++ client_address := by
    rw [List.mem_append, not_or]
    exact ⟨hprocessing, haddress⟩
  rw [request_log_eq, holdsNewline_cons, or_iff_right hopens]
  unfold shown_of_request
  cases hj : judged k now client_address request.community s.security with
  | unparsed => exact absurd hj judged_ne_unparsed
  | rate_limited =>
    have hwords : 0x0A ∉ rate_words := by decide
    simp [holdsNewline_cons, holdsNewline_nil, hwords, haddress]
  | ip_denied =>
    have hwords : 0x0A ∉ ip_words := by decide
    simp [holdsNewline_cons, holdsNewline_nil, hwords, haddress]
  | community_denied =>
    have hwords : 0x0A ∉ community_words := by decide
    have hfrom : 0x0A ∉ text " from " := by decide
    simp [holdsNewline_cons, holdsNewline_nil, hwords, hfrom, haddress]
  | answered =>
    simp only [holdsNewline_append, dispatch_newline hoid, send_newline, or_false]
    split_ifs with hshows <;> simp [hshows]

theorem report_newline (data : List UInt8) :
    ¬ HoldsNewline (parse_log (.bits 64) SNMPPacket.new data) := by
  rw [report_message_log]
  cases flaw data with
  | none => exact holdsNewline_nil
  | some f => exact holdsNewline_words (by cases f <;> decide)

theorem rejected_newline {client_address : List UInt8} (haddress : 0x0A ∉ client_address)
    (buffer : List UInt8) : ¬ HoldsNewline (rejected_log client_address buffer) := by
  have hwords : 0x0A ∉ unparsed_words := by decide
  rw [rejected_log, holdsNewline_append, not_or]
  refine ⟨report_newline buffer, holdsNewline_words ?_⟩
  rw [List.mem_append, not_or]
  exact ⟨hwords, haddress⟩

theorem turn_newline (hoid : PlainOids k) (s : Agent M S) (t : Turn) :
    HoldsNewline (server_turn_log k s t) ↔ ∃ c ∈ shown k s t, 0x0A ∈ c := by
  obtain ⟨received, running, bytes_sent⟩ := t
  cases received with
  | error =>
    simp only [server_turn_log, shown]
    cases running with
    | false => simp [holdsNewline_nil]
    | true => simpa using holdsNewline_words (by decide)
  | datagram now client_addr payload =>
    have haddress := inet_ntoa_no_newline client_addr.sin_addr
    simp only [server_turn_log, shown]
    split_ifs with hempty
    · have hparse : parse (.bits 64) SNMPPacket.new [] = .fail SNMPPacket.new := rfl
      rw [List.length_eq_zero_iff.mp hempty, hparse]
      exact iff_of_false holdsNewline_nil nofun
    cases hp : parse (.bits 64) SNMPPacket.new (into_buffer payload) with
    | ok u packet =>
      rw [parse_log_of_taken hp, List.nil_append]
      exact request_newline hoid haddress now bytes_sent packet
    | fail p => exact iff_of_false (rejected_newline haddress _) nofun
    | outside => exact iff_of_false (rejected_newline haddress _) nofun
    | running => exact iff_of_false (rejected_newline haddress _) nofun

/-- The communities that the messages of a run show. -/
def shown_communities (k : Managers M S) (s : Agent M S) (turns : List Turn) :
    List (List UInt8) :=
  outputs (server_step k) (shown k) s turns

theorem run_newline (hoid : PlainOids k) (s : Agent M S) (turns : List Turn) :
    HoldsNewline (server_log k s turns) ↔ ∃ c ∈ shown_communities k s turns, 0x0A ∈ c := by
  induction turns generalizing s with
  | nil => simp [server_log, runLog, holdsNewline_nil, shown_communities, outputs]
  | cons t turns ih =>
    have hrest := ih (server_step k s t)
    unfold server_log shown_communities at *
    rw [runLog, holdsNewline_append, turn_newline hoid, hrest, outputs_cons]
    simp only [List.mem_append, Option.mem_toList, Option.mem_def, or_and_right, exists_or]

/-- The lines of a text of log lines, as a reader of the file sees them. -/
def file_lines (log : List (Clock × Entry)) : List (List UInt8) :=
  lines 0x0A (unlines 0x0A (log.map fun w => formatted_message w.1 w.2.1 w.2.2))

/-- Over every run, the messages are the lines of the log exactly when no
community that is shown holds a newline. -/
theorem each_message_is_a_line_iff_no_shown_community_holds_a_newline {k : Managers M S}
    (hoid : PlainOids k) (s : Agent M S) (turns : List Turn) (log : List (Clock × Entry))
    (hlog : log.map Prod.snd = server_log k s turns)
    (hclock : ∀ w ∈ log, 0x0A ∉ w.1.put_time) :
    file_lines log = log.map (fun w => formatted_message w.1 w.2.1 w.2.2) ↔
      ∀ c ∈ shown_communities k s turns, 0x0A ∉ c := by
  have hrun := run_newline hoid s turns
  rw [file_lines, lines_unlines_iff]
  constructor
  · intro hlines c hc hnl
    obtain ⟨e, he, hin⟩ := hrun.mpr ⟨c, hc, hnl⟩
    rw [← hlog] at he
    obtain ⟨w, hw, rfl⟩ := List.mem_map.mp he
    exact hlines _ (List.mem_map_of_mem hw)
      ((newline_mem_formatted (hclock w hw) _ _).mpr hin)
  · intro hno l hl hnl
    obtain ⟨w, hw, rfl⟩ := List.mem_map.mp hl
    have hin := (newline_mem_formatted (hclock w hw) _ _).mp hnl
    have hmem : w.2 ∈ server_log k s turns := by
      rw [← hlog]
      exact List.mem_map_of_mem hw
    obtain ⟨c, hc, hcnl⟩ := hrun.mp ⟨w.2, hmem, hin⟩
    exact hno c hc hcnl

/-! ## Forged lines -/

/-- An SNMPv2c trap with the community, without bindings. -/
def trap_datagram (community : List UInt8) : List UInt8 :=
  wordElement 0x30 ([0x02, 0x01, 0x01] ++ wordElement 0x04 community ++
    [0xA7, 0x08, 0x02, 0x00, 0x02, 0x00, 0x02, 0x00, 0x30, 0x00])

def trap_layout (community : List UInt8) : Layout where
  fields :=
    { version := 0x01
      community := community
      pdu_type := 0xA7
      request_id := []
      error_status := []
      error_index := [] }
  tiles := []
  after := []
  pdu_surplus := 0

theorem trap_datagram_length (community : List UInt8) :
    (trap_datagram community).length = community.length + 21 := by
  simp [trap_datagram]

theorem trap_datagram_taken {community : List UInt8} (h : community.length ≤ 4075) :
    Takes (trap_datagram community) (trap_layout community).packet := by
  have hempty : ∀ tag : UInt8, IsElement 4 tag [] [tag, 0x00] := fun tag => .of_lt tag (by decide)
  have hversion : IsElement 4 0x02 [0x01] [0x02, 0x01, 0x01] := .of_lt 0x02 (by decide)
  have hcommunity : IsElement 4 0x04 community (wordElement 0x04 community) :=
    .of_lt_word (by decide) 0x04 (by omega)
  have hheader : IsHeader 4 0xA7 8 [0xA7, 0x08] := ⟨[0x08], .short 0x08 (by decide), rfl⟩
  have hcontent : IsLoosePduContent 4 (trap_layout community).fields []
      [0x02, 0x00, 0x02, 0x00, 0x02, 0x00, 0x30, 0x00] :=
    ⟨_, [], _, ⟨_, _, _, hempty 0x02, hempty 0x02, hempty 0x02, rfl⟩, .nil, hempty 0x30, rfl⟩
  have hwhole : IsElement 4 0x30 ([0x02, 0x01, 0x01] ++ wordElement 0x04 community ++
      [0xA7, 0x08, 0x02, 0x00, 0x02, 0x00, 0x02, 0x00, 0x30, 0x00]) (trap_datagram community) := by
    refine .of_lt_word (by decide) 0x30 ?_
    simp only [List.length_append, wordElement_length, List.length_cons, List.length_nil]
    omega
  have hbuffer : into_buffer (trap_datagram community) = trap_datagram community :=
    List.take_of_length_le (by rw [trap_datagram_length]; omega)
  refine takes_iff.mpr ⟨trap_layout community, ?_, rfl⟩
  rw [hbuffer]
  exact ⟨Nat.le_refl 0, _, _, _, ⟨_, _, hversion, hcommunity, rfl⟩, hcontent, hheader, hwhole⟩

/-- The community that is a line of its own. -/
def forged (line : List UInt8) : List UInt8 := 0x0A :: (line ++ [0x0A])

/-- The line stands in a message that shows it so. -/
theorem forged_line {line : List UInt8} (h : 0x0A ∉ line) (before after : List UInt8)
    (now : Clock) (level : LogLevel) :
    line ∈ lines 0x0A (formatted_message now level (before ++ (forged line ++ after))) := by
  have hbetween := mem_lines_between h
    (text "[" ++ timestamp now ++ text "] [" ++ level_str level ++ text "] " ++ before) after
  simpa only [formatted_message, forged, List.append_assoc, List.cons_append, List.nil_append]
    using hbetween

theorem log_of_level {l : Logger} (hl : l.initialized = true)
    (hlevel : l.level.value ≤ LogLevel.INFO.value) {level : LogLevel}
    (h : LogLevel.INFO.value ≤ level.value) (now : Clock) (message : List UInt8) :
    (console level, formatted_message now level message) ∈ log now level message l := by
  unfold log
  rw [if_neg (by simp only [hl, Bool.not_true, Bool.false_or, decide_eq_true_eq]; omega)]
  exact List.mem_cons_self

theorem turn_log_of_taken {now : Nat} {client_addr : SockaddrIn} {payload : List UInt8}
    {packet : SNMPPacket} (h : Takes payload packet) (running : Bool) (bytes_sent : Int) :
    server_turn_log k s ⟨.datagram now client_addr payload, running, bytes_sent⟩ =
      request_log k now (inet_ntoa client_addr.sin_addr) bytes_sent packet s := by
  have hparse : parse (.bits 64) SNMPPacket.new (into_buffer payload) = .ok () packet := h
  have hsome : ¬ (into_buffer payload).length = 0 := by
    intro hempty
    rw [List.length_eq_zero_iff.mp hempty] at hparse
    cases hparse
  simp only [server_turn_log]
  rw [if_neg hsome, parse_log_of_taken hparse, hparse, List.nil_append]
  rfl

/-- A client that the rate limit and the IP filter let pass writes any line
that fits a datagram to the log, by one datagram, whatever communities have
access. -/
theorem any_line_can_be_written_without_access {k : Managers M S} {s : Agent M S} {now : Nat}
    {client_addr : SockaddrIn}
    (hrate : (k.security.check_rate_limit s.security now (inet_ntoa client_addr.sin_addr)).1 = true)
    (hip : k.security.is_ip_allowed
      (security_after k.security now (inet_ntoa client_addr.sin_addr) s.security)
      (inet_ntoa client_addr.sin_addr) = true)
    {line : List UInt8} (hline : 0x0A ∉ line) (hfits : line.length ≤ 4073) :
    ∃ payload, payload.length ≤ 4096 ∧ ∀ running bytes_sent,
      ∃ e ∈ server_turn_log k s ⟨.datagram now client_addr payload, running, bytes_sent⟩,
        ∀ (l : Logger) (clock : Clock), l.initialized = true →
          l.level.value ≤ LogLevel.INFO.value →
          ∃ w ∈ log clock e.1 e.2 l, line ∈ lines 0x0A w.2 := by
  have hlength : (forged line).length = line.length + 2 := by simp [forged]
  refine ⟨trap_datagram (forged line), by rw [trap_datagram_length]; omega, ?_⟩
  intro running bytes_sent
  have htaken := trap_datagram_taken (show (forged line).length ≤ 4075 by omega)
  rw [turn_log_of_taken htaken, request_log_eq]
  have hcommunity : (trap_layout (forged line)).packet.community = forged line := rfl
  have hshown : ∀ (before after : List UInt8) (level : LogLevel),
      LogLevel.INFO.value ≤ level.value → ∀ (l : Logger) (clock : Clock), l.initialized = true →
        l.level.value ≤ LogLevel.INFO.value →
        ∃ w ∈ log clock level (before ++ (forged line ++ after)) l, line ∈ lines 0x0A w.2 :=
    fun before after level h l clock hl hlevel =>
      ⟨_, log_of_level hl hlevel h clock _, forged_line hline before after clock level⟩
  cases hj : judged k now (inet_ntoa client_addr.sin_addr)
      (trap_layout (forged line)).packet.community s.security with
  | unparsed => exact absurd hj judged_ne_unparsed
  | rate_limited =>
    unfold judged at hj
    simp only [hrate, Bool.not_true, Bool.false_eq_true, if_false] at hj
    split_ifs at hj
  | ip_denied =>
    unfold judged security_after at *
    simp only [hrate, hip, Bool.not_true, Bool.false_eq_true, if_false] at hj
    split_ifs at hj
  | community_denied =>
    refine ⟨_, List.mem_cons_of_mem _ (List.mem_singleton.mpr rfl), ?_⟩
    exact hshown community_words _ .WARNING (by decide)
  | answered =>
    refine ⟨(.INFO, text "Received SNMP " ++ text "v2c" ++ text " trap from " ++ forged line ++
        text " with " ++ numeral 0 ++ text " variables"),
      List.mem_cons_of_mem _ (List.mem_append_left _ List.mem_cons_self), ?_⟩
    have hmessage := hshown (text "Received SNMP " ++ text "v2c" ++ text " trap from ")
      (text " with " ++ (numeral 0 ++ text " variables")) .INFO (Nat.le_refl _)
    simpa only [List.append_assoc] using hmessage

/-- An agent with one object, whose OID texts are numerals with dots. -/
def dotted_managers : Managers MIBValue Unit :=
  { one_object_managers [0x2b] with
    security := one_community (text "secret")
    oid_to_string := fun oid => (oid.map fun b => 0x2E :: decimal b).flatten }

theorem dotted_plainOids : PlainOids dotted_managers := by
  intro oid h
  obtain ⟨l, hl, hnl⟩ := List.mem_flatten.mp h
  obtain ⟨b, -, rfl⟩ := List.mem_map.mp hl
  rcases List.mem_cons.mp hnl with hdot | hdigit
  · exact absurd hdot (by decide)
  · exact decimal_no_newline b hdigit

/-- A line that says that a write was denied. -/
theorem a_denied_write_is_forged :
    ∃ payload : List UInt8, payload.length ≤ 4096 ∧ ∀ running bytes_sent,
      ∃ e ∈ server_turn_log dotted_managers ⟨⟨⟨0x02⟩, [0x07]⟩, ()⟩
          ⟨.datagram 0 ⟨(127, 0, 0, 1), 4000⟩ payload, running, bytes_sent⟩,
        ∀ (l : Logger) (clock : Clock), l.initialized = true →
          l.level.value ≤ LogLevel.INFO.value →
          ∃ w ∈ log clock e.1 e.2 l,
            text "[WARN ] Write access denied for community: admin" ∈ lines 0x0A w.2 :=
  any_line_can_be_written_without_access rfl rfl (by decide) (by decide)

/-- The log of a trap with the community "public". -/
def public_trap_log : List (Clock × Entry) :=
  (server_log dotted_managers ⟨⟨⟨0x02⟩, [0x07]⟩, ()⟩
    [⟨.datagram 0 ⟨(127, 0, 0, 1), 4000⟩ (trap_datagram (text "public")), true, 22⟩]).map
      fun e => (⟨text "2024-01-01 00:00:00", 7⟩, e)

theorem a_public_trap_has_a_line_for_each_message :
    file_lines public_trap_log =
      public_trap_log.map fun w => formatted_message w.1 w.2.1 w.2.2 :=
  (each_message_is_a_line_iff_no_shown_community_holds_a_newline dotted_plainOids _ _
    public_trap_log (by rw [public_trap_log, List.map_map]; exact List.map_id _) (by
      intro w hw
      obtain ⟨e, -, rfl⟩ := List.mem_map.mp hw
      show 0x0A ∉ text "2024-01-01 00:00:00"
      decide)).mpr (by decide)

end simple_snmpd.snmp_server
