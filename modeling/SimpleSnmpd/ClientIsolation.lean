-- What clients notice of each other. All that they share is the MIB and the
-- state of the security manager. Where the rate limit counts each client for
-- itself, only a SET gets through from one client to another.
import SimpleSnmpd.ManagerLaws
import SimpleSnmpd.WireLaws

open simple_snmpd.snmp_packet simulations

namespace simple_snmpd.snmp_server

section

variable {S : Type} (sm : SecurityManager S) (visible : List UInt8 → Bool)

/-! ## Whom the clients see -/

/-- The rate limit counts each client for itself: in states that are alike,
the visible clients are treated alike, and what the others do keeps the
states alike. -/
structure CountsEach (Alike : S → S → Prop) : Prop where
  same : ∀ σ, Alike σ σ
  own : ∀ σ τ now a, Alike σ τ → visible a = true →
    (sm.check_rate_limit σ now a).1 = (sm.check_rate_limit τ now a).1 ∧
      Alike (security_after sm now a σ) (security_after sm now a τ)
  others : ∀ σ τ now a, Alike σ τ → visible a = false → Alike (security_after sm now a σ) τ
  ip : ∀ σ τ a, Alike σ τ → visible a = true → sm.is_ip_allowed σ a = sm.is_ip_allowed τ a
  access : ∀ σ τ community a, Alike σ τ → visible a = true →
    sm.is_access_allowed σ community a = sm.is_access_allowed τ community a
  oid : ∀ σ τ community o, Alike σ τ →
    sm.is_oid_allowed σ community o = sm.is_oid_allowed τ community o
  write : ∀ σ τ community, Alike σ τ →
    sm.is_write_allowed σ community = sm.is_write_allowed τ community

/-- The source of what is received is visible. An error has no source. -/
def Received.from_visible : Received → Bool
  | .error => true
  | .datagram _ client_addr _ => visible (inet_ntoa client_addr.sin_addr)

/-- What is sent goes to a visible client. -/
def Sent.to_visible (d : Sent) : Bool := visible (inet_ntoa d.client_addr.sin_addr)

/-- What is received writes nothing: it is no SET, or one of a community
that may not write. -/
def Received.WritesNothing : Received → Prop
  | .error => True
  | .datagram _ _ payload => ∀ p, Takes payload p → p.pdu_type = SNMP_PDU_SET_REQUEST →
    ∀ σ, sm.is_write_allowed σ p.community = false

/-- The agents are alike to the visible clients. -/
def LooksLike {M : Type} (Alike : S → S → Prop) (s t : Agent M S) : Prop :=
  s.mib = t.mib ∧ Alike s.security t.security

end

/-! ## A request of a visible client -/

variable {M S : Type} {k : Managers M S} {visible : List UInt8 → Bool} {Alike : S → S → Prop}
  {s t : Agent M S} {σ τ : S} {now : Nat} {client_addr : SockaddrIn} {payload : List UInt8}

/-- A handler sees no more of the security state than what a community may
write. -/
theorem dispatch_security_congr {request : SNMPPacket}
    (hoid : ∀ o, k.security.is_oid_allowed σ request.community o =
      k.security.is_oid_allowed τ request.community o)
    (hwrite : k.security.is_write_allowed σ request.community =
      k.security.is_write_allowed τ request.community) (mib : M) (response : SNMPPacket) :
    dispatch k σ mib request response = dispatch k τ mib request response := by
  have hset : process_set_request k σ mib request response =
      process_set_request k τ mib request response := by
    have hturn : set_turn k σ request = set_turn k τ request := by
      funext ⟨mib, response⟩ b
      simp only [set_turn, hoid]
    unfold process_set_request
    rw [hwrite, hturn]
  unfold dispatch
  rw [hset]

/-- What is sent on a datagram goes back to where the datagram came from. -/
theorem sent_back {d : Sent}
    (h : (server_turn k s (.datagram now client_addr payload)).2 = some d) :
    d.client_addr = client_addr := by
  rcases server_turn_cases k s now client_addr payload with hno | ⟨p, hp, hrefused | hanswered⟩
  · rw [hno] at h
    cases h
  · rw [hrefused] at h
    cases h
  · simp only [hanswered, Option.some.injEq] at h
    rw [← h]

theorem admits_alike (h : CountsEach k.security visible Alike) (hst : Alike σ τ)
    {a : List UInt8} (ha : visible a = true) (now : Nat) (community : List UInt8) :
    Admits k.security now a community σ ↔ Admits k.security now a community τ := by
  obtain ⟨hrate, hnext⟩ := h.own σ τ now a hst ha
  exact admits_congr hrate (h.ip _ _ a hnext ha) (h.access _ _ community a hnext ha)

/-- Agents that look alike to a client answer it alike. -/
theorem visible_turn (h : CountsEach k.security visible Alike) (hst : LooksLike Alike s t)
    (ha : visible (inet_ntoa client_addr.sin_addr) = true) (now : Nat) (payload : List UInt8) :
    LooksLike Alike (turn k s (.datagram now client_addr payload))
        (turn k t (.datagram now client_addr payload)) ∧
      (server_turn k s (.datagram now client_addr payload)).2 =
        (server_turn k t (.datagram now client_addr payload)).2 := by
  obtain ⟨hmib, hsec⟩ := hst
  unfold turn
  by_cases hp : ∃ p, Takes payload p
  swap
  · rw [server_turn_rejected hp, server_turn_rejected hp]
    exact ⟨⟨hmib, hsec⟩, rfl⟩
  obtain ⟨p, hp⟩ := hp
  have hnext := (h.own _ _ now _ hsec ha).2
  have hadmits := admits_alike h hsec ha now p.community
  by_cases hpass : Admits k.security now (inet_ntoa client_addr.sin_addr) p.community s.security
  · have hsame := dispatch_security_congr (fun o => h.oid _ _ p.community o hnext)
      (h.write _ _ p.community hnext) t.mib (new_response p)
    rw [server_turn_admitted hp hpass, server_turn_admitted hp (hadmits.mp hpass), hmib]
    simp only [hsame]
    exact ⟨⟨rfl, hnext⟩, trivial⟩
  · rw [server_turn_refused hp hpass, server_turn_refused hp fun ht => hpass (hadmits.mpr ht)]
    exact ⟨⟨hmib, hnext⟩, rfl⟩

/-! ## A datagram of another client -/

/-- What may not write leaves the MIB as it is. -/
theorem dispatch_no_write {request response : SNMPPacket} {mib : M}
    (h : request.pdu_type = SNMP_PDU_SET_REQUEST →
      k.security.is_write_allowed σ request.community = false) :
    (dispatch k σ mib request response).1 = mib := by
  by_cases hset : request.pdu_type = SNMP_PDU_SET_REQUEST
  · rw [dispatch_set hset]
    unfold process_set_request
    rw [h hset]
    rfl
  · exact dispatch_mib hset

/-- What another client sends is not noticed, if it writes nothing, and its
answer goes to nobody else. -/
theorem hidden_turn (h : CountsEach k.security visible Alike) (hst : LooksLike Alike s t)
    (ha : visible (inet_ntoa client_addr.sin_addr) = false)
    (hw : (Received.datagram now client_addr payload).WritesNothing k.security) :
    LooksLike Alike (turn k s (.datagram now client_addr payload)) t ∧
      (server_turn k s (.datagram now client_addr payload)).2.filter (Sent.to_visible visible) =
        none := by
  obtain ⟨hmib, hsec⟩ := hst
  have hnext := h.others _ _ now _ hsec ha
  unfold turn
  rcases server_turn_cases k s now client_addr payload with hno | ⟨p, hp, hrefused | hanswered⟩
  · rw [hno]
    exact ⟨⟨hmib, hsec⟩, rfl⟩
  · rw [hrefused]
    exact ⟨⟨hmib, hnext⟩, rfl⟩
  · rw [hanswered]
    refine ⟨⟨?_, hnext⟩, ?_⟩
    · exact (dispatch_no_write fun hset => hw p hp hset _).trans hmib
    · rw [Option.filter_some, if_neg]
      unfold Sent.to_visible
      rw [ha]
      exact Bool.false_ne_true

/-! ## The law -/

/-- The run with all clients follows the one with the visible clients. -/
theorem clients_follow_the_visible (h : CountsEach k.security visible Alike) :
    Follows (@LooksLike S M Alike)
      (fun r => r.from_visible visible = false → r.WritesNothing k.security)
      (Option.guard (Received.from_visible visible)) (turn k)
      (fun s r => (server_turn k s r).2.filter (Sent.to_visible visible)) (turn k)
      (fun s r => (server_turn k s r).2) where
  moves := by
    rintro s t r r' hst - hr
    obtain ⟨rfl, hvisible⟩ := Option.guard_eq_some_iff.mp hr
    cases r with
    | error => exact ⟨hst, rfl⟩
    | datagram now client_addr payload =>
      obtain ⟨hnext, hsent⟩ := visible_turn h hst hvisible now payload
      refine ⟨hnext, ?_⟩
      rw [hsent]
      cases hd : (server_turn k t (.datagram now client_addr payload)).2 with
      | none => rfl
      | some d =>
        rw [Option.filter_some, if_pos]
        unfold Sent.to_visible
        rwa [sent_back hd]
  stays := by
    rintro s t r hst hw hr
    rw [Option.guard_eq_none_iff] at hr
    have hhidden : r.from_visible visible = false := by simpa using hr
    cases r with
    | error => cases hhidden
    | datagram now client_addr payload => exact hidden_turn h hst hhidden (hw hhidden)

/-- A security manager that lets each client have two requests, and lets
nobody write. -/
def two_each : SecurityManager (List UInt8 → Nat) where
  check_rate_limit σ _ a := (σ a < 2, fun b => if b = a then σ a + 1 else σ b)
  is_ip_allowed _ _ := true
  is_access_allowed _ _ _ := true
  is_oid_allowed _ _ _ := true
  is_write_allowed _ _ := false

theorem two_each_counts (visible : List UInt8 → Bool) :
    CountsEach two_each visible fun σ τ => ∀ a, visible a = true → σ a = τ a where
  same _ _ _ := rfl
  own σ τ now a h ha := by
    refine ⟨by simp only [two_each, h a ha], fun b hb => ?_⟩
    simp only [security_after, two_each, h a ha, h b hb]
  others σ τ now a h ha b hb := by
    have hne : b ≠ a := by
      rintro rfl
      rw [ha] at hb
      cases hb
    simp only [security_after, two_each, if_neg hne]
    exact h b hb
  ip _ _ _ _ _ := rfl
  access _ _ _ _ _ _ := rfl
  oid _ _ _ _ _ := rfl
  write _ _ _ _ := rfl

/-- Three traps of one client before one of another. -/
def flood : List Received :=
  [.datagram 0 ⟨(10, 0, 0, 2), 161⟩ plainTrap, .datagram 0 ⟨(10, 0, 0, 2), 161⟩ plainTrap,
    .datagram 0 ⟨(10, 0, 0, 2), 161⟩ plainTrap, .datagram 0 ⟨(10, 0, 0, 1), 161⟩ plainTrap]

def two_each_managers : Managers MIBValue (List UInt8 → Nat) := ⟨one_object [0x2b], two_each, id⟩

end simple_snmpd.snmp_server
