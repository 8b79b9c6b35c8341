-- Request ids on the wire. The parser reads the octets of an id without a
-- sign, and an answer always writes four octets, so a negative id in fewer
-- octets comes back as another one.
import SimpleSnmpd.AnswerSizes
import SimpleSnmpd.ManagerLaws

open simple_snmpd.snmp_packet ber

namespace simple_snmpd.snmp_packet

/-! ## The four octets of an answer -/

/-- The octets that are written for an id denote the integer that was read
where there were four of them, or where its sign bit was clear. -/
theorem beInt_requestIdBytes {c : List UInt8} (hle : c.length ≤ 4) :
    beInt (requestIdBytes (UInt32.ofNat (beValue c))) = beInt c ↔
      c.length = 4 ∨ (c.headD 0).toNat < 128 := by
  have hlt : beValue c < 256 ^ 4 := beValue_lt_of_length_le hle
  have hval : beValue (requestIdBytes (UInt32.ofNat (beValue c))) = beValue c := by
    rw [beValue_requestIdBytes, UInt32.toNat_ofNat']
    exact Nat.mod_eq_of_lt hlt
  have hne : requestIdBytes (UInt32.ofNat (beValue c)) ≠ [] := List.cons_ne_nil _ _
  have hlen : (requestIdBytes (UInt32.ofNat (beValue c))).length = 4 := rfl
  generalize requestIdBytes (UInt32.ofNat (beValue c)) = written at *
  by_cases hfour : c.length = 4
  · exact iff_of_true (beInt_congr (hlen.trans hfour.symm) hne hval) (Or.inl hfour)
  · have hthree : beValue c < 256 ^ 3 := beValue_lt_of_length_le (by omega)
    have hclear : (written.headD 0).toNat < 128 := by
      rw [head_lt_iff hne, hval, hlen]
      exact Nat.lt_of_lt_of_le (Nat.mul_lt_mul_of_pos_left hthree (by omega)) (by decide)
    rw [beInt_clear hclear, hval]
    by_cases hsign : (c.headD 0).toNat < 128
    · exact iff_of_true (beInt_clear hsign).symm (Or.inr hsign)
    · refine iff_of_false (fun h => beInt_set hsign h.symm) ?_
      rintro (h | h)
      · exact hfour h
      · exact hsign h

/-- Where the id of a packet stands: after the outer header, the version,
the community and the header of the PDU. -/
theorem request_id_at (p : SNMPPacket) :
    ((octetElement 0x30 (contentBytes p)).drop (9 + p.community.length)).take 6 =
      0x02 :: 0x04 :: requestIdBytes p.request_id := by
  have hsplit : octetElement 0x30 (contentBytes p) =
      (0x30 :: octet (contentBytes p).length :: (octetElement 0x02 [p.version] ++
        octetElement 0x04 p.community ++ [p.pdu_type, octet (pduBytes p).length])) ++
        pduBytes p := by
    simp [octetElement, contentBytes]
  have hlen : 9 + p.community.length = (0x30 :: octet (contentBytes p).length ::
      (octetElement 0x02 [p.version] ++ octetElement 0x04 p.community ++
        [p.pdu_type, octet (pduBytes p).length])).length := by
    simp only [List.length_cons, List.length_append, octetElement_length, List.length_nil]
    omega
  rw [hsplit, hlen, List.drop_left]
  rfl

/-- Bytes of a packet that are a message have its id. -/
theorem request_id_of_message {f : Fields} {bs : List VariableBinding} {p : SNMPPacket}
    (h : IsMessage 4 f bs (octetElement 0x30 (contentBytes p))) :
    f.request_id = requestIdBytes p.request_id := by
  have hlayout := hasLayout_of_message h
  obtain ⟨-, o, pc, x, ho, -, -, he⟩ := h
  obtain ⟨l, hl, houter⟩ := outer_length he
  obtain ⟨rest, rfl⟩ := ho.head
  obtain ⟨ys, hys⟩ := contentBytes_head p
  have hshort := content_size_lt_of_length hl houter hys rfl (Or.inl (contentBytes_length p))
  have heq := hlayout.unique (hasLayout_of_message (@message_of_short 4 p hshort))
  exact congrArg (fun l : Layout => l.fields.request_id) heq

end simple_snmpd.snmp_packet

namespace simple_snmpd.snmp_server

/-! ## The id of an answer -/

/-- The INTEGER at the place of the request id, behind a community of
`size` bytes, denotes the value. So does the id of any message that the
bytes are. -/
structure StatesId (size : Nat) (bytes : List UInt8) (value : Int) : Prop where
  placed : ∃ id, (bytes.drop (9 + size)).take 6 = 0x02 :: 0x04 :: id ∧ beInt id = value
  read : ∀ f bs, IsMessage 4 f bs bytes → beInt f.request_id = value

theorem statesId_iff {p : SNMPPacket} {value : Int} :
    StatesId p.community.length (octetElement 0x30 (contentBytes p)) value ↔
      beInt (requestIdBytes p.request_id) = value := by
  constructor
  · rintro ⟨⟨id, hid, hvalue⟩, -⟩
    rw [request_id_at, List.cons.injEq, List.cons.injEq] at hid
    rw [hid.2.2, hvalue]
  · intro h
    refine ⟨⟨_, request_id_at p, h⟩, fun f bs hm => ?_⟩
    rw [request_id_of_message hm, h]

variable {M S : Type} {k : Managers M S} {now : Nat} {s : Agent M S} {client_addr : SockaddrIn}
  {payload : List UInt8}

/-- What is sent in answer to a datagram are the bytes of a packet with its
community and its id. -/
theorem sent_packet {packet : SNMPPacket} (h : Takes payload packet) {sent : Sent}
    (hsent : (server_turn k s (.datagram now client_addr payload)).2 = some sent) :
    ∃ p : SNMPPacket, p.community = packet.community ∧ p.request_id = packet.request_id ∧
      sent.bytes = octetElement 0x30 (contentBytes p) := by
  by_cases hpass :
      Admits k.security now (inet_ntoa client_addr.sin_addr) packet.community s.security
  · rw [server_turn_admitted h hpass, Option.some.injEq] at hsent
    refine ⟨_, dispatch_community, ?_, by rw [← hsent]⟩
    rcases dispatch_head with hhead | ⟨hhead, -⟩
    · exact hhead.request_id
    · exact hhead.request_id
  · rw [server_turn_refused h hpass] at hsent
    cases hsent

/-! ## The law -/

/-- An answer states the id of its datagram exactly where the id has four
octets or no sign. -/
theorem an_answer_states_the_id_iff_it_has_four_octets_or_no_sign (k : Managers M S) (now : Nat)
    (s : Agent M S) (client_addr : SockaddrIn) (payload : List UInt8) (l : Layout) (sent : Sent)
    (hl : HasLayout 4 l (into_buffer payload)) (hid : l.fields.request_id.length ≤ 4)
    (hsent : (server_turn k s (.datagram now client_addr payload)).2 = some sent) :
    StatesId l.fields.community.length sent.bytes (beInt l.fields.request_id) ↔
      l.fields.request_id.length = 4 ∨ (l.fields.request_id.headD 0).toNat < 128 := by
  have htakes : Takes payload l.packet := takes_iff.mpr ⟨l, hl, rfl⟩
  obtain ⟨p, hcommunity, hp, hbytes⟩ := sent_packet htakes hsent
  have hsize : l.fields.community.length = p.community.length := by
    rw [hcommunity]
    rfl
  rw [hbytes, hsize, statesId_iff, hp]
  exact beInt_requestIdBytes hid

/-- A GET of one object with an id of one octet. -/
def shortIdGet (id : UInt8) : List UInt8 :=
  [0x30, 0x1a, 0x02, 0x01, 0x01, 0x04, 0x01, 0x70, 0xA0, 0x12, 0x02, 0x01, id, 0x02, 0x01, 0x00,
    0x02, 0x01, 0x00, 0x30, 0x07, 0x30, 0x05, 0x06, 0x01, 0x2b, 0x05, 0x00]

def shortIdFields (id : UInt8) : Fields := ⟨0x01, [0x70], 0xA0, [id], [0x00], [0x00]⟩

theorem the_id_five_is_stated_iff_it_has_no_sign :
    StatesId 1 [0x30, 0x1e, 0x02, 0x01, 0x01, 0x04, 0x01, 0x70, 0xA2, 0x16, 0x02, 0x04, 0x00, 0x00,
        0x00, 0x05, 0x02, 0x01, 0x00, 0x02, 0x01, 0x00, 0x30, 0x08, 0x30, 0x06, 0x06, 0x01, 0x2b,
        0x02, 0x01, 0x01] (beInt [0x05]) ↔
      ([0x05] : List UInt8).length = 4 ∨ (([0x05] : List UInt8).headD 0).toNat < 128 :=
  an_answer_states_the_id_iff_it_has_four_octets_or_no_sign (one_object_managers [0x2b]) 0
    ⟨⟨⟨0x02⟩, [0x01]⟩, ()⟩ ⟨(127, 0, 0, 1), 1024⟩ (shortIdGet 0x05)
    (tightLayout (shortIdFields 0x05) [null_binding [0x2b]]) ⟨⟨(127, 0, 0, 1), 1024⟩, _⟩
    (hasLayout_of_message (decodeMessage_iff.mp (by decide))) (by decide) rfl

/-- The id -1 in one octet is answered with the id 255. -/
theorem a_negative_id_is_answered_with_another :
    ¬ ∀ (M S : Type) (k : Managers M S) (now : Nat) (s : Agent M S) (client_addr : SockaddrIn)
      (payload : List UInt8) (l : Layout) (sent : Sent),
      HasLayout 4 l (into_buffer payload) →
      1 ≤ l.fields.request_id.length ∧ l.fields.request_id.length ≤ 4 →
      (server_turn k s (.datagram now client_addr payload)).2 = some sent →
      StatesId l.fields.community.length sent.bytes (beInt l.fields.request_id) := by
  intro h
  have hl : HasLayout 4 (tightLayout (shortIdFields 0xFF) [null_binding [0x2b]])
      (into_buffer (shortIdGet 0xFF)) :=
    hasLayout_of_message (decodeMessage_iff.mp (by decide))
  obtain ⟨⟨id, hid, hvalue⟩, -⟩ := h MIBValue Unit (one_object_managers [0x2b]) 0
    ⟨⟨⟨0x02⟩, [0x01]⟩, ()⟩ ⟨(127, 0, 0, 1), 1024⟩ (shortIdGet 0xFF) _ _ hl (by decide) rfl
  have hsent : id = [0x00, 0x00, 0x00, 0xFF] := (List.cons.inj (List.cons.inj hid).2).2.symm
  rw [hsent] at hvalue
  revert hvalue
  decide

end simple_snmpd.snmp_server
