-- The community that a server is configured with, and the communities that
-- it answers. The second ones are those of the security manager, which never
-- sees the configuration.
import SimpleSnmpd.AnswerSizes
import SimpleSnmpd.ManagerLaws
import SimpleSnmpd.ServerModel

open simple_snmpd.snmp_packet simple_snmpd.snmp_config ber

namespace simple_snmpd.snmp_server

/-! ## Communities that fit a datagram -/

/-- A short datagram with the community: every INTEGER of its PDU is empty,
and so is its binding list. -/
def probe (community : List UInt8) : List UInt8 :=
  wordElement 0x30 ([0x02, 0x01, 0x01] ++ wordElement 0x04 community ++
    [0xA0, 0x08, 0x02, 0x00, 0x02, 0x00, 0x02, 0x00, 0x30, 0x00])

def probe_layout (community : List UInt8) : Layout where
  fields :=
    { version := 0x01
      community := community
      pdu_type := 0xA0
      request_id := []
      error_status := []
      error_index := [] }
  tiles := []
  after := []
  pdu_surplus := 0

theorem probe_length (community : List UInt8) :
    (probe community).length = community.length + 21 := by
  simp [probe]

theorem probe_has_layout {community : List UInt8} (h : community.length ≤ 4075) :
    HasLayout 4 (probe_layout community) (probe community) := by
  have hempty : ∀ tag : UInt8, IsElement 4 tag [] [tag, 0x00] := fun tag => .of_lt tag (by decide)
  have hversion : IsElement 4 0x02 [0x01] [0x02, 0x01, 0x01] := .of_lt 0x02 (by decide)
  have hcommunity : IsElement 4 0x04 community (wordElement 0x04 community) :=
    .of_lt_word (by decide) 0x04 (by omega)
  have hheader : IsHeader 4 0xA0 8 [0xA0, 0x08] := ⟨[0x08], .short 0x08 (by decide), rfl⟩
  have hcontent : IsLoosePduContent 4 (probe_layout community).fields []
      [0x02, 0x00, 0x02, 0x00, 0x02, 0x00, 0x30, 0x00] :=
    ⟨_, [], _, ⟨_, _, _, hempty 0x02, hempty 0x02, hempty 0x02, rfl⟩, .nil, hempty 0x30, rfl⟩
  have hwhole : IsElement 4 0x30 ([0x02, 0x01, 0x01] ++ wordElement 0x04 community ++
      [0xA0, 0x08, 0x02, 0x00, 0x02, 0x00, 0x02, 0x00, 0x30, 0x00]) (probe community) := by
    refine .of_lt_word (by decide) 0x30 ?_
    simp only [List.length_append, wordElement_length, List.length_cons, List.length_nil]
    omega
  exact ⟨Nat.le_refl 0, _, _, _, ⟨_, _, hversion, hcommunity, rfl⟩, hcontent, hheader, hwhole⟩

/-- A layout with a long community takes 21 octets more than it. -/
theorem community_length_of_layout {l : Layout} {d : List UInt8} (h : HasLayout 4 l d)
    (hlong : 256 ≤ l.fields.community.length) : l.fields.community.length + 21 ≤ d.length := by
  obtain ⟨-, o, pc, x, ⟨v, c, hv, hc, rfl⟩, ⟨t, vb, e, ⟨i, j, n, hi, hj, hn, rfl⟩, -, he, rfl⟩,
    hx, hd⟩ := h
  have hv' := hv.length_ge
  have hi' := hi.length_ge
  have hj' := hj.length_ge
  have hn' := hn.length_ge
  have he' := he.length_ge
  have hx' := hx.length_ge
  -- the lengths of the community and of the whole take two octets or more
  have hc' := hc.length_gt Nat.one_pos hlong
  have hd' := hd.length_gt Nat.one_pos (by simp only [List.length_append]; omega)
  simp only [List.length_append, List.length_cons, List.length_nil] at *
  omega

/-- Every community that fits a datagram stands in one, and no other does. -/
theorem exists_takes_iff {community : List UInt8} :
    (∃ payload packet, Takes payload packet ∧ packet.community = community) ↔
      community.length ≤ 4075 := by
  constructor
  · rintro ⟨payload, packet, htakes, rfl⟩
    have hbuffer : (into_buffer payload).length ≤ 4096 := List.length_take_le 4096 payload
    obtain ⟨l, hl, rfl⟩ := takes_iff.mp htakes
    by_contra hno
    have hlong : 4075 < l.fields.community.length := Nat.lt_of_not_le hno
    have := community_length_of_layout hl (by omega)
    omega
  · intro h
    refine ⟨probe community, (probe_layout community).packet, ?_, rfl⟩
    have hbuffer : into_buffer (probe community) = probe community :=
      List.take_of_length_le (by rw [probe_length]; omega)
    refine takes_iff.mpr ⟨probe_layout community, ?_, rfl⟩
    rw [hbuffer]
    exact probe_has_layout h

/-! ## Communities that are admitted -/

/-- The states of the security manager that rate checks lead to. -/
inductive Reached {S : Type} (sm : SecurityManager S) (start : S) : S → Prop
  | start : Reached sm start start
  | checked {security : S} (h : Reached sm start security) (now : Nat)
      (client_address : List UInt8) :
      Reached sm start (security_after sm now client_address security)

/-- From a state on, the rate and the address of every client pass, and just
these communities do. -/
structure AdmitsJust {S : Type} (sm : SecurityManager S) (start : S)
    (admitted : List UInt8 → Prop) : Prop where
  in_rate : ∀ security, Reached sm start security → ∀ now client_address,
    (sm.check_rate_limit security now client_address).1 = true
  ip_allowed : ∀ security, Reached sm start security → ∀ client_address,
    sm.is_ip_allowed security client_address = true
  access_allowed : ∀ security, Reached sm start security → ∀ community client_address,
    sm.is_access_allowed security community client_address = true ↔ admitted community

section

variable {M S : Type} {k : Managers M S} {s : Agent M S} {start : S}
  {admitted : List UInt8 → Prop}

theorem AdmitsJust.admits_iff {sm : SecurityManager S} (h : AdmitsJust sm start admitted)
    {security : S} (hs : Reached sm start security) (now : Nat)
    (client_address community : List UInt8) :
    Admits sm now client_address community security ↔ admitted community := by
  have hafter := hs.checked now client_address
  constructor
  · intro hpass
    exact (h.access_allowed _ hafter community client_address).mp hpass.access_allowed
  · intro hadmitted
    exact ⟨h.in_rate _ hs now client_address, h.ip_allowed _ hafter client_address,
      (h.access_allowed _ hafter community client_address).mpr hadmitted⟩

/-- A datagram does to the security manager what one rate check does. -/
theorem reached_server_turn (hs : Reached k.security start s.security) (r : Received) :
    Reached k.security start (server_turn k s r).1.security := by
  cases r with
  | error => exact hs
  | datagram now client_addr payload =>
    by_cases htakes : ∃ packet, Takes payload packet
    · obtain ⟨packet, hp⟩ := htakes
      have hafter := hs.checked now (inet_ntoa client_addr.sin_addr)
      by_cases hpass : Admits k.security now (inet_ntoa client_addr.sin_addr) packet.community
          s.security
      · rw [server_turn_admitted hp hpass]
        exact hafter
      · rw [server_turn_refused hp hpass]
        exact hafter
    · rw [server_turn_rejected htakes]
      exact hs

theorem reached_server_loop (hs : Reached k.security start s.security) (received : List Received) :
    Reached k.security start (server_loop k s received).security := by
  unfold server_loop
  induction received generalizing s with
  | nil => exact hs
  | cons r received ih => exact ih (reached_server_turn hs r)

/-- A datagram is answered exactly where it is taken, for a packet whose
community is admitted. -/
theorem answered_iff (h : AdmitsJust k.security start admitted)
    (hs : Reached k.security start s.security) (now : Nat) (client_addr : SockaddrIn)
    (payload : List UInt8) :
    (∃ sent, (server_turn k s (.datagram now client_addr payload)).2 = some sent) ↔
      ∃ packet, Takes payload packet ∧ admitted packet.community := by
  by_cases htakes : ∃ packet, Takes payload packet
  swap
  · rw [server_turn_rejected htakes]
    refine iff_of_false nofun ?_
    rintro ⟨packet, hp, -⟩
    exact htakes ⟨packet, hp⟩
  obtain ⟨packet, hp⟩ := htakes
  have hpass := h.admits_iff hs now (inet_ntoa client_addr.sin_addr) packet.community
  constructor
  · rintro ⟨sent, hsent⟩
    refine ⟨packet, hp, hpass.mp ?_⟩
    by_contra hno
    rw [server_turn_refused hp hno] at hsent
    cases hsent
  · rintro ⟨packet', hp', hadmitted⟩
    rw [hp'.unique hp] at hadmitted
    rw [server_turn_admitted hp (hpass.mpr hadmitted)]
    exact ⟨_, rfl⟩

end

/-! ## The configured community -/

section

variable {M S : Type} (i : Initializers M S) (k : Managers M S) (s : Agent M S)

/-- The server of the file answers only packets of its community, whatever it
received before. -/
def EnforcesCommunity (content : List UInt8) : Prop :=
  ∀ server, main i false (some content) s = some server →
    ∀ (received : List Received) (now : Nat) (client_addr : SockaddrIn) (payload : List UInt8)
      (sent : Sent), (server_turn k (server_loop k server.agent received)
        (.datagram now client_addr payload)).2 = some sent →
      ∃ packet, Takes payload packet ∧ packet.community = server.config.community

/-- A file that opens always makes a server. -/
theorem main_eq (content : List UInt8) :
    main i false (some content) s =
      some (SNMPServer.new i (load (some content) SNMPConfig.new).2 s) := rfl

/-- A server starts from the defaults of the security manager, whatever its
configuration is. -/
theorem reached_new (config : SNMPConfig) :
    Reached k.security (i.initialize_defaults s.security)
      (SNMPServer.new i config s).agent.security := .start

variable {i k s} {admitted : List UInt8 → Prop}

/-- Where the community of a file is enforced, each admitted community that
fits a datagram is that one. -/
theorem configured_of_enforced
    (h : AdmitsJust k.security (i.initialize_defaults s.security) admitted)
    {content : List UInt8} (henforces : EnforcesCommunity i k s content)
    {community : List UInt8} (hadmitted : admitted community)
    (hfits : community.length ≤ 4075) :
    community = (load (some content) SNMPConfig.new).2.community := by
  obtain ⟨payload, packet, hp, rfl⟩ := exists_takes_iff.mpr hfits
  have hstart := reached_new i k s (load (some content) SNMPConfig.new).2
  obtain ⟨sent, hsent⟩ := (answered_iff h hstart 0 ⟨(0, 0, 0, 0), 0⟩ payload).mpr
    ⟨packet, hp, hadmitted⟩
  obtain ⟨packet', hp', hcommunity⟩ := henforces _ (main_eq i s content) [] 0 _ payload sent hsent
  rwa [← hp.unique hp'] at hcommunity

/-- No choice of communities is right for every file. -/
theorem some_file_is_not_enforced
    (h : AdmitsJust k.security (i.initialize_defaults s.security) admitted)
    {community : List UInt8} (hadmitted : admitted community)
    (hfits : community.length ≤ 4075) : ∃ content, ¬ EnforcesCommunity i k s content := by
  by_cases hpublic : community = text "public"
  · refine ⟨text "community=secret", fun henforces => ?_⟩
    have hsecret := configured_of_enforced h henforces hadmitted hfits
    rw [hpublic] at hsecret
    revert hsecret
    decide
  · exact ⟨[], fun henforces => hpublic (configured_of_enforced h henforces hadmitted hfits)⟩

end

/-- The configured community is enforced exactly where no other is admitted,
of those that fit a datagram. -/
theorem the_configured_community_is_enforced_iff_no_other_is_admitted {M S : Type}
    (i : Initializers M S) (k : Managers M S) (s : Agent M S) (admitted : List UInt8 → Prop)
    (h : AdmitsJust k.security (i.initialize_defaults s.security) admitted)
    (content : List UInt8) :
    EnforcesCommunity i k s content ↔
      ∀ community, admitted community → community.length ≤ 4075 →
        community = (load (some content) SNMPConfig.new).2.community := by
  constructor
  · intro henforces community hadmitted hfits
    exact configured_of_enforced h henforces hadmitted hfits
  · rintro hall _ ⟨⟩ received now client_addr payload sent hsent
    have hstart := reached_new i k s (load (some content) SNMPConfig.new).2
    obtain ⟨packet, hp, hadmitted⟩ := (answered_iff h (reached_server_loop hstart received) now
      client_addr payload).mp ⟨sent, hsent⟩
    exact ⟨packet, hp, hall _ hadmitted (exists_takes_iff.mp ⟨payload, packet, hp, rfl⟩)⟩

/-- A security manager that admits one community. -/
def one_community (community : List UInt8) : SecurityManager Unit :=
  { open_security with is_access_allowed := fun _ c _ => c = community }

theorem one_community_admits (community : List UInt8) :
    AdmitsJust (one_community community) () (· = community) :=
  ⟨fun _ _ _ _ => rfl, fun _ _ _ => rfl, fun _ _ _ _ => decide_eq_true_iff⟩

/-- An agent with one object that admits "public". -/
def public_managers : Managers MIBValue Unit :=
  { one_object_managers [0x2b] with security := one_community (text "public") }

theorem the_community_public_is_enforced :
    EnforcesCommunity ⟨id, id⟩ public_managers ⟨⟨⟨0x02⟩, [0x07]⟩, ()⟩
      (text "community=public") := by
  refine (the_configured_community_is_enforced_iff_no_other_is_admitted _ _ _ _
    (one_community_admits (text "public")) _).mpr ?_
  rintro community rfl -
  decide

/-- With "community=secret" in the file, a GET with the community "public" is
answered. -/
theorem an_unconfigured_community_is_answered :
    ¬ ∀ (M S : Type) (i : Initializers M S) (k : Managers M S) (s : Agent M S)
      (admitted : List UInt8 → Prop), (∃ community, admitted community) →
      AdmitsJust k.security (i.initialize_defaults s.security) admitted →
      ∀ content, EnforcesCommunity i k s content := by
  intro h
  have hadmits := one_community_admits (text "public")
  have htakes : Takes [0x30, 0x1f, 0x02, 0x01, 0x01, 0x04, 0x06, 0x70, 0x75, 0x62, 0x6c, 0x69, 0x63,
      0xA0, 0x12, 0x02, 0x01, 0x05, 0x02, 0x01, 0x00, 0x02, 0x01, 0x00,
      0x30, 0x07, 0x30, 0x05, 0x06, 0x01, 0x2b, 0x05, 0x00]
      { SNMPPacket.new with
        community := text "public", request_id := 5
        variable_bindings := [⟨[0x2b], 0x05, []⟩] } := by
    decide
  obtain ⟨sent, hsent⟩ :=
    (@answered_iff _ _ public_managers ⟨⟨⟨0x02⟩, [0x07]⟩, ()⟩ _ _ hadmits .start
    0 ⟨(127, 0, 0, 1), 4000⟩ _).mpr ⟨_, htakes, rfl⟩
  obtain ⟨packet, hp, hcommunity⟩ := h _ _ ⟨id, id⟩ public_managers ⟨⟨⟨0x02⟩, [0x07]⟩, ()⟩
    (· = text "public") ⟨text "public", rfl⟩ hadmits (text "community=secret") _ rfl [] 0 _ _ sent
    hsent
  rw [← htakes.unique hp] at hcommunity
  revert hcommunity
  decide

end simple_snmpd.snmp_server
