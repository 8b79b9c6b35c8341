-- Two agents that take each other's datagrams for requests. What one of them
-- sends is answered by the other, whatever its type, so an exchange that
-- gets to a short answer has no end.
import SimpleSnmpd.AnswerSizes
import SimpleSnmpd.ManagerLaws
import SimpleSnmpd.Relays

open simple_snmpd.snmp_packet relays

namespace simple_snmpd.snmp_server

section

variable {M S : Type} (k : Managers M S)

/-! ## Two agents -/

/-- An agent, and the address that it takes for the other one's. -/
structure Side (M S : Type) where
  agent : Agent M S
  other : SockaddrIn
deriving DecidableEq, Repr

/-- What an agent sends to the other one on a datagram from it. -/
def answer (now : Nat) (a : Side M S) (payload : List UInt8) : Side M S × Option (List UInt8) :=
  let (agent, sent) := server_turn k a.agent (.datagram now a.other payload)
  ({ a with agent }, sent.map (·.bytes))

/-- The security state after some more datagrams from the address. -/
def security_later (sm : SecurityManager S) (client_address : List UInt8) (security : S)
    (clock : List Nat) : S :=
  clock.foldl (fun security now => security_after sm now client_address security) security

/-- The address and the community pass every check, now and as long as
only this address sends. -/
def AlwaysAdmits (sm : SecurityManager S) (client_address community : List UInt8) (security : S) :
    Prop :=
  ∀ clock now, Admits sm now client_address community
    (security_later sm client_address security clock)

/-- The agent admits the other one with the community. -/
def Side.Trusts (a : Side M S) (community : List UInt8) : Prop :=
  AlwaysAdmits k.security (inet_ntoa a.other.sin_addr) community a.agent.security

/-- The agents admit each other with the community of the datagram. -/
def TrustEachOther (a b : Side M S) (payload : List UInt8) : Prop :=
  ∀ p, Takes payload p → a.Trusts k p.community ∧ b.Trusts k p.community

/-- The state of the security manager when the request is handled. -/
def Side.security_at (a : Side M S) (now : Nat) : S :=
  security_after k.security now (inet_ntoa a.other.sin_addr) a.agent.security

end

variable {M S : Type} {k : Managers M S} {a b : Side M S} {payload community : List UInt8}
  {now : Nat} {p : SNMPPacket}

/-! ## One answer -/

theorem Side.Trusts.admits (h : a.Trusts k community) (now : Nat) :
    Admits k.security now (inet_ntoa a.other.sin_addr) community a.agent.security :=
  h [] now

/-- The packet that an agent sends in answer. -/
def answer_packet (k : Managers M S) (now : Nat) (a : Side M S) (p : SNMPPacket) : SNMPPacket :=
  (dispatch k (a.security_at k now) a.agent.mib p (new_response p)).2

theorem answer_taken (now : Nat) (hp : Takes payload p) (ha : a.Trusts k p.community) :
    ∃ a', answer k now a payload =
        (a', some (octetElement 0x30 (contentBytes (answer_packet k now a p)))) ∧
      ∀ c, a.Trusts k c → a'.Trusts k c := by
  unfold answer
  rw [server_turn_admitted hp (ha.admits now)]
  refine ⟨_, rfl, fun c hc clock now' => ?_⟩
  exact hc (now :: clock) now'

theorem answer_rejected (now : Nat) (h : ¬ ∃ p, Takes payload p) :
    (answer k now a payload).2 = none := by
  unfold answer
  rw [server_turn_rejected h]
  rfl

/-- The other agent takes an answer exactly when the answer is short, and
then it takes it for what was sent. -/
theorem takes_answer_iff {q : SNMPPacket} :
    Takes (octetElement 0x30 (contentBytes p)) q ↔ content_size p < 128 ∧ q = p := by
  have hcut : into_buffer (octetElement 0x30 (contentBytes p)) =
      0x30 :: octet (contentBytes p).length :: (contentBytes p).take 4094 := rfl
  unfold Takes
  constructor
  · intro h
    rw [hcut] at h
    have hlt := content_size_lt_of_parse (Or.inr rfl) h
    rw [List.take_of_length_le (by rw [contentBytes_length]; omega)] at h
    refine ⟨hlt, ?_⟩
    have hshort := parse_short SNMPPacket.new hlt
    rw [octetElement, h] at hshort
    cases hshort
    rfl
  · rintro ⟨hlt, rfl⟩
    rw [hcut, List.take_of_length_le (by rw [contentBytes_length]; omega)]
    exact parse_short SNMPPacket.new hlt

/-! ## An answer to an answer -/

/-- The packet is what some answer looks like: a response, or a GET without
bindings where no handler sets the type. -/
def IsAnswer (p : SNMPPacket) : Prop :=
  p.pdu_type = SNMP_PDU_GET_RESPONSE ∨
    p.pdu_type = SNMP_PDU_GET_REQUEST ∧ p.variable_bindings = []

theorem answer_packet_isAnswer : IsAnswer (answer_packet k now a p) := by
  rcases @dispatch_head _ _ k (a.security_at k now) a.agent.mib p (new_response p) with h | ⟨h, hb⟩
  · exact Or.inl h.pdu_type
  · exact Or.inr ⟨h.pdu_type, hb⟩

theorem answer_packet_community : (answer_packet k now a p).community = p.community :=
  dispatch_community

theorem answer_packet_size :
    content_size (answer_packet k now a p) = answer_size k (a.security_at k now) a.agent.mib p :=
  content_size_dispatch

/-- An answer is answered without bindings. -/
theorem answer_to_answer_size (hp : IsAnswer p) :
    content_size (answer_packet k now a p) = 21 + p.community.length := by
  rw [answer_packet_size, answer_size]
  unfold answer_bindings_size
  rcases hp with h | ⟨h, hb⟩
  · have hnext : ¬ AsksNext p := by
      rintro (h' | ⟨h', -⟩)
      · rw [h] at h'
        cases h'
      · rw [h] at h'
        cases h'
    rw [h, if_neg (by decide), if_neg hnext, if_neg fun hset => absurd hset.1 (by decide),
      Nat.add_zero]
  · rw [if_pos h, hb]
    rfl

/-- What keeps a chain going: the datagram is a short answer, and both
agents trust its community. -/
def GoesOn (k : Managers M S) (a b : Side M S) (m : List UInt8) : Prop :=
  ∃ p, Takes m p ∧ IsAnswer p ∧ content_size p < 128 ∧
    a.Trusts k p.community ∧ b.Trusts k p.community

/-- A datagram with a short answer is answered with one that keeps the chain going. -/
theorem short_answer_goes_on {m : List UInt8} (hp : Takes m p) (ha : a.Trusts k p.community)
    (hb : b.Trusts k p.community) (hshort : content_size (answer_packet k now a p) < 128) :
    ∃ a' reply, answer k now a m = (a', some reply) ∧ GoesOn k b a' reply := by
  obtain ⟨a', hsent, htrusts⟩ := answer_taken now hp ha
  refine ⟨a', _, hsent, answer_packet k now a p, takes_answer_iff.mpr ⟨hshort, rfl⟩,
    answer_packet_isAnswer, hshort, ?_, ?_⟩
  · rw [answer_packet_community]
    exact hb
  · rw [answer_packet_community]
    exact htrusts _ ha

/-- What keeps the chain going is answered with what keeps it going. -/
theorem GoesOn.step {m : List UInt8} (h : GoesOn k a b m) (now : Nat) :
    ∃ a' reply, answer k now a m = (a', some reply) ∧ GoesOn k b a' reply := by
  rcases h with ⟨p, hp, hanswer, hsize, ha, hb⟩
  refine short_answer_goes_on hp ha hb ?_
  have hle : 21 + p.community.length ≤ content_size p := Nat.le_add_right _ _
  rw [answer_to_answer_size hanswer]
  omega

/-! ## The chain -/

/-- The datagrams from `m` on, where `a` is the agent that gets it: each one
is the answer to the one before. The clock is read once for each answer. -/
def chain (k : Managers M S) (clock : List Nat) (a b : Side M S) (m : List UInt8) :
    List (List UInt8) :=
  exchange (answer k) clock a b m

/-- The first agent has no short answer to the datagram. -/
def NoShortAnswer (k : Managers M S) (a : Side M S) (m : List UInt8) : Prop :=
  ∀ now p, Takes m p → 127 < answer_size k (a.security_at k now) a.agent.mib p

/-- The chain has at most two datagrams exactly when the first agent has no
short answer. -/
theorem a_chain_is_at_most_a_request_and_a_response_iff_no_answer_is_short (k : Managers M S)
    (a b : Side M S) (m : List UInt8) (h : TrustEachOther k a b m) :
    (∀ clock, (chain k clock a b m).length ≤ 2) ↔ NoShortAnswer k a m := by
  unfold chain
  rw [length_le_two_iff]
  constructor
  · intro hend now p hp
    obtain ⟨ha, hb⟩ := h p hp
    obtain ⟨a', hanswer, -⟩ := answer_taken now hp ha
    by_contra hsize
    rw [← answer_packet_size] at hsize
    have htakes := takes_answer_iff.mpr
      ⟨show content_size (answer_packet k now a p) < 128 by omega, rfl⟩
    rw [← answer_packet_community] at hb
    obtain ⟨b', hnext, -⟩ := answer_taken now htakes hb
    have hnone := hend now a' _ hanswer now
    rw [hnext] at hnone
    cases hnone
  · intro hlong now a' reply hanswer now'
    by_cases hp : ∃ p, Takes m p
    swap
    · have hnone := answer_rejected (k := k) (a := a) now hp
      rw [hanswer] at hnone
      cases hnone
    obtain ⟨p, hp⟩ := hp
    obtain ⟨a'', hsent, -⟩ := answer_taken now hp (h p hp).1
    rw [hsent, Prod.mk.injEq, Option.some.injEq] at hanswer
    rw [← hanswer.2]
    refine answer_rejected now' ?_
    rintro ⟨q, hq⟩
    have hshort := (takes_answer_iff.mp hq).1
    rw [answer_packet_size] at hshort
    have := hlong now p hp
    omega

/-- A short answer to the first datagram is the start of a chain without end. -/
theorem a_short_answer_starts_a_chain_without_end {m : List UInt8} (h : TrustEachOther k a b m)
    (hp : Takes m p)
    (hshort : ∀ now, answer_size k (a.security_at k now) a.agent.mib p ≤ 127) (clock : List Nat) :
    (chain k clock a b m).length = clock.length + 1 := by
  unfold chain
  cases clock with
  | nil => rfl
  | cons now clock =>
    obtain ⟨ha, hb⟩ := h p hp
    have hsize : content_size (answer_packet k now a p) < 128 := by
      have := hshort now
      rw [answer_packet_size]
      omega
    obtain ⟨a', reply, hsent, hgoes⟩ := short_answer_goes_on hp ha hb hsize
    rw [exchange_answered hsent, List.length_cons, List.length_cons,
      never_ends (fun now a b m hm => hm.step now) hgoes]

/-- An open agent at one end of a chain. -/
def openSide : Side MIBValue Unit where
  agent := ⟨⟨⟨0x02⟩, [0x01]⟩, ()⟩
  other := ⟨(0x7f, 0x00, 0x00, 0x01), 161⟩

/-- A trap of version 2c without bindings. -/
def plainTrap : List UInt8 :=
  [0x30, 0x13, 0x02, 0x01, 0x01, 0x04, 0x01, 0x70, 0xA7, 0x0b, 0x02, 0x01, 0x05, 0x02, 0x01, 0x00,
    0x02, 0x01, 0x00, 0x30, 0x00]

theorem open_sides_trust (m : List UInt8) :
    TrustEachOther (one_object_managers [0x2b]) openSide openSide m :=
  fun _ _ => ⟨fun _ _ => ⟨rfl, rfl, rfl⟩, fun _ _ => ⟨rfl, rfl, rfl⟩⟩

theorem a_chain_of_open_agents :
    (∀ clock, (chain (one_object_managers [0x2b]) clock openSide openSide plainTrap).length ≤ 2) ↔
      NoShortAnswer (one_object_managers [0x2b]) openSide plainTrap :=
  a_chain_is_at_most_a_request_and_a_response_iff_no_answer_is_short
    (one_object_managers [0x2b]) openSide openSide plainTrap (open_sides_trust _)

/-- A trap is answered with a GET, the GET with a response, and so on. -/
theorem a_trap_is_answered_and_so_is_its_answer :
    ¬ ∀ (M S : Type) (k : Managers M S) (a b : Side M S) (m : List UInt8),
      TrustEachOther k a b m → ∀ clock, (chain k clock a b m).length ≤ 2 := by
  intro h
  have hlen := h MIBValue Unit (one_object_managers [0x2b]) openSide openSide plainTrap
    (open_sides_trust _) [0, 0]
  revert hlen
  decide

end simple_snmpd.snmp_server
