-- Laws of the agent's log. An auditor who has the messages, and nothing
-- else, knows what became of every datagram. One who has the lines does
-- not: a community may hold a newline, and then a line of its own.
import SimpleSnmpd.CommunityChecks
import SimpleSnmpd.ServerLogs
import SimpleSnmpd.Simulations

open texts simple_snmpd.snmp_packet simple_snmpd.snmp_config simple_snmpd.logger write_logs
  simulations

namespace simple_snmpd.snmp_server

/-! ## Reading the messages -/

/-- What became of a datagram. -/
inductive Verdict where
  | unparsed
  | rate_limited
  | ip_denied
  | community_denied
  | answered
deriving DecidableEq, Repr

def unparsed_words : List UInt8 := text "Failed to parse SNMP packet from "
def processing_words : List UInt8 := text "Processing SNMP request from "
def rate_words : List UInt8 := text "Rate limit exceeded for "
def ip_words : List UInt8 := text "Access denied for IP "
def community_words : List UInt8 := text "Access denied for community "

/-- What a message says of the request that the message before it names. -/
def refusal_of (e : Entry) : Verdict :=
  if rate_words <+: e.2 then .rate_limited
  else if ip_words <+: e.2 then .ip_denied
  else if community_words <+: e.2 then .community_denied
  else .answered

/-- The auditor: what became of each datagram, with the address that it
came from. -/
def audit : List Entry → List (Verdict × List UInt8)
  | [] => []
  | e :: es =>
    match e.2.dropPrefix? unparsed_words, e.2.dropPrefix? processing_words with
    | some client_address, _ => (.unparsed, client_address) :: audit es
    | none, some client_address =>
      ((es.head?.map refusal_of).getD .answered, client_address) :: audit es
    | none, none => audit es

/-! ## What becomes of a datagram -/

variable {M S : Type} (k : Managers M S)

/-- What the checks make of a request. -/
def judged (now : Nat) (client_address community : List UInt8) (security : S) : Verdict :=
  let (in_rate, security) := k.security.check_rate_limit security now client_address
  if !in_rate then .rate_limited
  else if !k.security.is_ip_allowed security client_address then .ip_denied
  else if !k.security.is_access_allowed security community client_address then .community_denied
  else .answered

/-- What becomes of what a turn receives. Errors and empty datagrams are no
datagrams. -/
def verdict (s : Agent M S) (t : Turn) : Option (Verdict × List UInt8) :=
  match t.received with
  | .error => none
  | .datagram now client_addr payload =>
    let client_address := inet_ntoa client_addr.sin_addr
    if payload = [] then none
    else
      match parse (.bits 64) SNMPPacket.new (into_buffer payload) with
      | .ok () packet =>
        some (judged k now client_address packet.community s.security, client_address)
      | _ => some (.unparsed, client_address)

/-- What becomes of the datagrams of a run. -/
def verdicts (s : Agent M S) (turns : List Turn) : List (Verdict × List UInt8) :=
  outputs (server_step k) (verdict k) s turns

/-- What a run hands to `sendto`. -/
def sent (s : Agent M S) (turns : List Turn) : List Sent :=
  outputs (server_step k) (fun s t => (server_turn k s t.received).2) s turns

/-! ## Messages that the auditor passes over -/

/-- The first words that the auditor looks for. -/
def known_words : List (List UInt8) :=
  [unparsed_words, processing_words, rate_words, ip_words, community_words]

/-- The message starts with none of these words. -/
def Plain (e : Entry) : Prop := ∀ w ∈ known_words, ¬ w <+: e.2

/-- Words that neither start with the known ones nor are the start of them
make a message plain. -/
theorem plain_of {e : Entry} (q : List UInt8) (h : q <+: e.2)
    (hq : ∀ w ∈ known_words, ¬ w <+: q ∧ ¬ q <+: w) : Plain e :=
  fun w hw => not_prefix_of h (hq w hw)

theorem Plain.audit {e : Entry} (h : Plain e) (es : List Entry) : audit (e :: es) = audit es := by
  rw [snmp_server.audit, dropPrefix?_of_not_prefix (h _ (by simp [known_words])),
    dropPrefix?_of_not_prefix (h _ (by simp [known_words]))]

theorem Plain.refusal {e : Entry} (h : Plain e) : refusal_of e = .answered := by
  rw [refusal_of, if_neg (h _ (by simp [known_words])), if_neg (h _ (by simp [known_words])),
    if_neg (h _ (by simp [known_words]))]

theorem audit_plain {es : List Entry} (h : ∀ e ∈ es, Plain e) (rest : List Entry) :
    audit (es ++ rest) = audit rest := by
  induction es with
  | nil => rfl
  | cons e es ih =>
    rw [List.cons_append, (h e List.mem_cons_self).audit,
      ih fun e' he' => h e' (List.mem_cons_of_mem _ he')]

theorem flaw_plain (f : Flaw) : Plain f.entry :=
  plain_of (text "Invalid SNMP packet: ") (List.prefix_append _ _) (by decide)

theorem trap_plain {version : List UInt8} {request : SNMPPacket} :
    ∀ e ∈ trap_log k version request, Plain e := by
  intro e he
  rw [trap_log, List.mem_cons, List.mem_map] at he
  rcases he with rfl | ⟨varbind, -, rfl⟩
  · refine plain_of (text "Received SNMP ") ?_ (by decide)
    simp only [List.append_assoc]
    exact List.prefix_append _ _
  · refine plain_of (text "Trap variable: ") ?_ (by decide)
    simp only [List.append_assoc]
    exact List.prefix_append _ _

theorem dispatch_plain {security : S} {request : SNMPPacket} :
    ∀ e ∈ dispatch_log k security request, Plain e := by
  intro e he
  unfold dispatch_log at he
  split_ifs at he
  · cases he
  · cases he
  · cases he
  · rw [List.mem_singleton.mp he]
    exact plain_of _ (List.prefix_refl _) (by decide)
  · unfold process_set_request_log at he
    split_ifs at he
    · rw [List.mem_singleton.mp he]
      exact plain_of (text "Write access denied for community: ") (List.prefix_append _ _)
        (by decide)
    · cases he
  · exact trap_plain k e he
  · rw [List.mem_singleton.mp he]
    exact plain_of _ (List.prefix_refl _) (by decide)
  · exact trap_plain k e he
  · rw [List.mem_singleton.mp he]
    exact plain_of _ (List.prefix_refl _) (by decide)
  · rw [List.mem_singleton.mp he]
    exact plain_of (text "Unsupported PDU type: ") (List.prefix_append _ _) (by decide)

theorem send_plain {bytes_sent : Int} {response : SNMPPacket} :
    ∀ e ∈ send_response_log bytes_sent response, Plain e := by
  intro e he
  rw [send_response_log, serialize_eq] at he
  simp only at he
  split_ifs at he
  · rw [List.mem_singleton.mp he]
    exact plain_of _ (List.prefix_refl _) (by decide)
  · rw [List.mem_singleton.mp he]
    exact plain_of _ (List.prefix_refl _) (by decide)
  · cases he

/-! ## The auditor of one turn -/

/-- What follows does not speak of a request that was named before it. -/
def Starts (es : List Entry) : Prop := (es.head?.map refusal_of).getD .answered = .answered

theorem starts_nil : Starts [] := rfl

theorem Plain.starts {e : Entry} (h : Plain e) (es : List Entry) : Starts (e :: es) := h.refusal

theorem starts_plain {es rest : List Entry} (h : ∀ e ∈ es, Plain e) (hrest : Starts rest) :
    Starts (es ++ rest) := by
  cases es with
  | nil => exact hrest
  | cons e es => exact (h e List.mem_cons_self).starts _

/-- A message that opens with words that are not those of a refusal. -/
theorem starts_words {level : LogLevel} {w : List UInt8} (x : List UInt8) (es : List Entry)
    (hw : ∀ r ∈ [rate_words, ip_words, community_words], ¬ r <+: w ∧ ¬ w <+: r) :
    Starts ((level, w ++ x) :: es) := by
  have hno : ∀ r ∈ [rate_words, ip_words, community_words], ¬ r <+: w ++ x :=
    fun r hr => not_prefix_of (List.prefix_append w x) (hw r hr)
  show refusal_of (level, w ++ x) = .answered
  rw [refusal_of, if_neg (hno _ (by simp)), if_neg (hno _ (by simp)), if_neg (hno _ (by simp))]

theorem audit_unparsed {level : LogLevel} (x : List UInt8) (es : List Entry) :
    audit ((level, unparsed_words ++ x) :: es) = (.unparsed, x) :: audit es := by
  rw [audit]
  simp only [dropPrefix?_append]

theorem audit_processing {level : LogLevel} (x : List UInt8) (es : List Entry) :
    audit ((level, processing_words ++ x) :: es) =
      ((es.head?.map refusal_of).getD .answered, x) :: audit es := by
  have hno : ¬ unparsed_words <+: processing_words ++ x :=
    not_prefix_of (List.prefix_append _ x) (by decide)
  rw [audit, dropPrefix?_of_not_prefix hno]
  simp only [dropPrefix?_append]

/-- The message of a refusal names no request. -/
theorem audit_refusal {level : LogLevel} {w : List UInt8} (x : List UInt8) (es : List Entry)
    (hw : ∀ r ∈ [unparsed_words, processing_words], ¬ r <+: w ∧ ¬ w <+: r) :
    audit ((level, w ++ x) :: es) = audit es := by
  have hno : ∀ r ∈ [unparsed_words, processing_words], ¬ r <+: w ++ x :=
    fun r hr => not_prefix_of (List.prefix_append w x) (hw r hr)
  rw [audit, dropPrefix?_of_not_prefix (hno _ (by simp)),
    dropPrefix?_of_not_prefix (hno _ (by simp))]

theorem refusal_rate (level : LogLevel) (x : List UInt8) :
    refusal_of (level, rate_words ++ x) = .rate_limited :=
  if_pos (List.prefix_append _ _)

theorem refusal_ip (level : LogLevel) (x : List UInt8) :
    refusal_of (level, ip_words ++ x) = .ip_denied := by
  rw [refusal_of, if_neg (not_prefix_of (List.prefix_append ip_words x) (by decide)),
    if_pos (List.prefix_append _ _)]

theorem refusal_community (level : LogLevel) (x : List UInt8) :
    refusal_of (level, community_words ++ x) = .community_denied := by
  rw [refusal_of, if_neg (not_prefix_of (List.prefix_append community_words x) (by decide)),
    if_neg (not_prefix_of (List.prefix_append community_words x) (by decide)),
    if_pos (List.prefix_append _ _)]

variable {k : Managers M S} {s : Agent M S} {rest : List Entry}

/-- A refused request is two messages, of which the second says why. -/
theorem audit_refused {level : LogLevel} {v : Verdict} {w x : List UInt8}
    (hv : refusal_of (level, w ++ x) = v)
    (hw : ∀ r ∈ [unparsed_words, processing_words], ¬ r <+: w ∧ ¬ w <+: r)
    (client_address : List UInt8) :
    audit ((LogLevel.DEBUG, processing_words ++ client_address) :: (level, w ++ x) :: rest) =
      (v, client_address) :: audit rest := by
  rw [audit_processing, audit_refusal x rest hw, List.head?_cons, Option.map_some,
    Option.getD_some, hv]

/-- What the agent logs of a packet that it takes. -/
def request_log (k : Managers M S) (now : Nat) (client_address : List UInt8) (bytes_sent : Int)
    (request : SNMPPacket) (s : Agent M S) : List Entry :=
  process_snmp_request_log k now client_address request s ++
    match (process_snmp_request k now client_address request s).2 with
    | some response => send_response_log bytes_sent response
    | none => []

/-- The messages of a request, by what becomes of it. -/
theorem request_log_eq (now : Nat) (client_address : List UInt8) (bytes_sent : Int)
    (request : SNMPPacket) :
    request_log k now client_address bytes_sent request s =
      (.DEBUG, processing_words ++ client_address) ::
        match judged k now client_address request.community s.security with
        | .rate_limited => [(.WARNING, rate_words ++ client_address)]
        | .ip_denied => [(.WARNING, ip_words ++ client_address)]
        | .community_denied =>
          [(.WARNING, community_words ++ (request.community ++ (text " from " ++ client_address)))]
        | _ =>
          let security := security_after k.security now client_address s.security
          dispatch_log k security request ++ send_response_log bytes_sent
            (dispatch k security s.mib request (new_response request)).2 := by
  unfold request_log process_snmp_request_log judged process_snmp_request security_after
  rcases k.security.check_rate_limit s.security now client_address with ⟨in_rate, security⟩
  cases in_rate with
  | false => rfl
  | true =>
    cases hip : k.security.is_ip_allowed security client_address with
    | false =>
      simp only [hip]
      rfl
    | true =>
      cases haccess : k.security.is_access_allowed security request.community client_address with
      | false =>
        simp only [hip, haccess, List.append_assoc]
        rfl
      | true =>
        simp only [hip, haccess]
        rfl

theorem judged_ne_unparsed {now : Nat} {client_address community : List UInt8} {security : S} :
    judged k now client_address community security ≠ .unparsed := by
  unfold judged
  simp only
  split_ifs <;> nofun

theorem audit_request (now : Nat) (client_address : List UInt8) (bytes_sent : Int)
    (request : SNMPPacket) (hrest : Starts rest) :
    audit (request_log k now client_address bytes_sent request s ++ rest) =
      (judged k now client_address request.community s.security, client_address) :: audit rest := by
  rw [request_log_eq]
  cases hj : judged k now client_address request.community s.security with
  | unparsed => exact absurd hj judged_ne_unparsed
  | rate_limited => exact audit_refused (refusal_rate _ _) (by decide) client_address
  | ip_denied => exact audit_refused (refusal_ip _ _) (by decide) client_address
  | community_denied => exact audit_refused (refusal_community _ _) (by decide) client_address
  | answered =>
    simp only
    generalize hes : dispatch_log k _ request ++ send_response_log bytes_sent _ = es
    have hplain : ∀ e ∈ es, Plain e := by
      intro e he
      rw [← hes] at he
      rcases List.mem_append.mp he with he | he
      · exact dispatch_plain k e he
      · exact send_plain e he
    rw [List.cons_append, audit_processing, starts_plain hplain hrest, audit_plain hplain rest]

/-! ## The run -/

/-- The messages of a datagram that is not taken. -/
def rejected_log (client_address buffer : List UInt8) : List Entry :=
  parse_log (.bits 64) SNMPPacket.new buffer ++ [(.ERROR, unparsed_words ++ client_address)]

theorem audit_rejected (client_address buffer : List UInt8) :
    audit (rejected_log client_address buffer ++ rest) = (.unparsed, client_address) :: audit rest ∧
      Starts (rejected_log client_address buffer ++ rest) := by
  have hplain : ∀ e ∈ parse_log (.bits 64) SNMPPacket.new buffer, Plain e := by
    intro e he
    rw [report_message_log, said, Option.mem_toList, Option.map_eq_some_iff] at he
    obtain ⟨f, -, rfl⟩ := he
    exact flaw_plain f
  rw [rejected_log, List.append_assoc]
  refine ⟨?_, starts_plain hplain (starts_words client_address rest (by decide))⟩
  rw [audit_plain hplain]
  exact audit_unparsed client_address rest

theorem audit_turn (t : Turn) (hrest : Starts rest) :
    audit (server_turn_log k s t ++ rest) = (verdict k s t).toList ++ audit rest ∧
      Starts (server_turn_log k s t ++ rest) := by
  obtain ⟨received, running, bytes_sent⟩ := t
  cases received with
  | error =>
    have hplain : Plain (.ERROR, text "Failed to receive data") :=
      plain_of _ (List.prefix_refl _) (by decide)
    simp only [server_turn_log, verdict]
    cases running with
    | false => exact ⟨rfl, hrest⟩
    | true => exact ⟨hplain.audit rest, hplain.starts rest⟩
  | datagram now client_addr payload =>
    simp only [server_turn_log, verdict]
    by_cases hpayload : payload = []
    · rw [if_pos (by rw [hpayload]; rfl), if_pos hpayload]
      exact ⟨rfl, hrest⟩
    have hsome : (into_buffer payload).length ≠ 0 := by
      rw [into_buffer, List.length_take]
      have := List.length_pos_iff.mpr hpayload
      omega
    rw [if_neg hsome, if_neg hpayload]
    cases hp : parse (.bits 64) SNMPPacket.new (into_buffer payload) with
    | ok u packet =>
      rw [parse_log_of_taken hp, List.nil_append]
      exact ⟨audit_request now _ bytes_sent packet hrest, starts_words _ _ (by decide)⟩
    | fail p => exact audit_rejected _ _
    | outside => exact audit_rejected _ _
    | running => exact audit_rejected _ _

theorem audit_run (s : Agent M S) (turns : List Turn) :
    audit (server_log k s turns) = verdicts k s turns ∧ Starts (server_log k s turns) := by
  induction turns generalizing s with
  | nil => exact ⟨rfl, starts_nil⟩
  | cons t turns ih =>
    obtain ⟨haudit, hstarts⟩ := ih (server_step k s t)
    obtain ⟨hturn, hall⟩ := @audit_turn _ _ k s _ t hstarts
    refine ⟨?_, hall⟩
    rw [verdicts, outputs_cons]
    refine hturn.trans ?_
    rw [haudit]
    rfl

theorem judged_iff {now : Nat} {client_address community : List UInt8} {security : S} :
    judged k now client_address community security = .answered ↔
      Admits k.security now client_address community security := by
  unfold judged
  constructor
  · intro h
    simp only at h
    split_ifs at h with hrate hip haccess
    simp only [Bool.not_eq_true', Bool.not_eq_false] at hrate hip haccess
    exact ⟨hrate, hip, haccess⟩
  · rintro ⟨hrate, hip, haccess⟩
    unfold security_after at hip haccess
    simp only [hrate, hip, haccess]
    rfl

/-- A turn sends an answer, to the address that it is for, exactly where its
datagram is answered. -/
theorem sent_of_verdict (s : Agent M S) (t : Turn) :
    ((server_turn k s t.received).2.map fun r => inet_ntoa r.client_addr.sin_addr) =
      ((verdict k s t).filter fun v => v.1 = .answered).map Prod.snd := by
  obtain ⟨received, running, bytes_sent⟩ := t
  cases received with
  | error => rfl
  | datagram now client_addr payload =>
    simp only [verdict]
    by_cases htaken : ∃ packet, Takes payload packet
    · obtain ⟨packet, htakes⟩ := htaken
      have hparse : parse (.bits 64) SNMPPacket.new (into_buffer payload) = .ok () packet := htakes
      have hsome : payload ≠ [] := by
        rintro rfl
        cases hparse
      rw [if_neg hsome, hparse]
      by_cases hadmits : Admits k.security now (inet_ntoa client_addr.sin_addr) packet.community
          s.security
      · rw [server_turn_admitted htakes hadmits]
        simp [judged_iff.mpr hadmits]
      · rw [server_turn_refused htakes hadmits]
        have hno : judged k now (inet_ntoa client_addr.sin_addr) packet.community s.security ≠
            .answered := fun h => hadmits (judged_iff.mp h)
        simp [hno]
    · rw [server_turn_rejected htaken]
      split_ifs with hpayload
      · rfl
      · cases hp : parse (.bits 64) SNMPPacket.new (into_buffer payload) with
        | ok u packet => exact absurd ⟨packet, hp⟩ htaken
        | fail p => rfl
        | outside => rfl
        | running => rfl

end simple_snmpd.snmp_server
