-- The agent on the wire is the agent on packets, as far as packets are
-- short: one of at most 127 bytes after its header gets across as it is, and
-- a longer one, which the serializer writes as readily, does not get across.
import SimpleSnmpd.ReplyChains
import SimpleSnmpd.Simulations
import SimpleSnmpd.WriteIntegrity

open simple_snmpd.snmp_packet simulations

namespace simple_snmpd.snmp_server

/-! ## The agent on packets -/

/-- A packet from a client, or to one. -/
structure Message where
  client_addr : SockaddrIn
  packet : SNMPPacket
deriving DecidableEq, Repr

/-- A packet from a client, with the reading of the clock when it comes. -/
structure Request extends Message where
  now : Nat
deriving DecidableEq, Repr

section

variable {M S : Type} (k : Managers M S)

/-- What the agent does with a packet, where nothing is between it and the
client. -/
def packet_turn (s : Agent M S) (r : Request) : Agent M S × Option Message :=
  let (s, response) :=
    process_snmp_request k r.now (inet_ntoa r.client_addr.sin_addr) r.packet s
  (s, response.map fun packet => { client_addr := r.client_addr, packet })

/-- The agent after a packet. -/
def packet_step (s : Agent M S) (r : Request) : Agent M S := (packet_turn k s r).1

/-- What the agent answers to the packets of a run. -/
def packet_answers (s : Agent M S) (requests : List Request) : List Message :=
  outputs (packet_step k) (fun s r => (packet_turn k s r).2) s requests

end

/-! ## The wire -/

/-- The packet gets across. -/
def Message.Short (m : Message) : Prop := content_size m.packet < 128

instance (m : Message) : Decidable m.Short := inferInstanceAs (Decidable (_ < _))

/-- What the agent receives of a client that serializes its request. -/
def Request.received (r : Request) : Received :=
  .datagram r.now r.client_addr ((serialize r.packet).getD [])

/-- What a client that parses it makes of a datagram from the agent. -/
def Sent.read (d : Sent) : Option Message :=
  match parse (.bits 64) SNMPPacket.new (into_buffer d.bytes) with
  | .ok () packet => some { client_addr := d.client_addr, packet }
  | _ => none

/-- What the agent sends on what it receives in a run. -/
def wire_answers {M S : Type} (k : Managers M S) (s : Agent M S) (received : List Received) :
    List Sent :=
  outputs (turn k) (fun s r => (server_turn k s r).2) s received

/-! ## One packet -/

variable {M S : Type} {k : Managers M S} {s : Agent M S} {r : Request}

theorem serialize_getD (p : SNMPPacket) :
    (serialize p).getD [] = octetElement 0x30 (contentBytes p) := by
  rw [serialize_eq, Option.getD_some]

/-- What a client reads is what was sent, if that is short. -/
theorem read_serialized (client_addr : SockaddrIn) (p : SNMPPacket) :
    (Sent.mk client_addr (octetElement 0x30 (contentBytes p))).read =
      (some (Message.mk client_addr p)).filter fun m => decide m.Short := by
  unfold Sent.read
  by_cases hshort : content_size p < 128
  · have htakes : Takes (octetElement 0x30 (contentBytes p)) p :=
      takes_answer_iff.mpr ⟨hshort, rfl⟩
    unfold Takes at htakes
    rw [htakes, Option.filter_some, if_pos (by rwa [decide_eq_true_iff])]
  · rw [Option.filter_some, if_neg (by rwa [decide_eq_true_iff])]
    cases hp : parse (.bits 64) SNMPPacket.new
        (into_buffer (octetElement 0x30 (contentBytes p))) with
    | ok u q => exact absurd (takes_answer_iff.mp (show Takes _ q from hp)).1 hshort
    | fail _ => rfl
    | outside => rfl
    | running => rfl

/-- A short packet is handled as if it had not been on the wire. -/
theorem short_turn (h : r.Short) :
    turn k s r.received = packet_step k s r ∧
      (server_turn k s r.received).2.bind Sent.read =
        (packet_turn k s r).2.filter fun m => decide m.Short := by
  have htakes : Takes ((serialize r.packet).getD []) r.packet := by
    rw [serialize_getD]
    exact takes_answer_iff.mpr ⟨h, rfl⟩
  unfold turn packet_step Request.received
  rw [server_turn_parsed htakes]
  refine ⟨rfl, ?_⟩
  unfold packet_turn
  cases process_snmp_request k r.now (inet_ntoa r.client_addr.sin_addr) r.packet s with
  | mk s' response =>
    cases response with
    | none => rfl
    | some p =>
      simp only [Option.bind_some, send_response, serialize_eq, Option.map_some]
      exact read_serialized _ p

/-- A long packet does nothing. -/
theorem long_turn (h : ¬ r.Short) :
    turn k s r.received = s ∧ (server_turn k s r.received).2.bind Sent.read = none := by
  have hno : ¬ ∃ p, Takes ((serialize r.packet).getD []) p := by
    rw [serialize_getD]
    rintro ⟨p, hp⟩
    exact h (takes_answer_iff.mp hp).1
  unfold turn Request.received
  rw [server_turn_rejected hno]
  exact ⟨rfl, rfl⟩

/-- The agent on the wire follows the one on packets, over the short ones. -/
theorem wire_follows_packets (k : Managers M S) :
    Follows (· = ·) (fun _ : Request => True) (Option.guard fun r => decide r.Short)
      (fun s r => turn k s r.received)
      (fun s r => (server_turn k s r.received).2.bind Sent.read) (packet_step k)
      (fun s r => (packet_turn k s r).2.filter fun m => decide m.Short) where
  moves := by
    rintro s - r r' rfl - hr
    obtain ⟨rfl, hshort⟩ := Option.guard_eq_some_iff.mp hr
    exact short_turn (of_decide_eq_true hshort)
  stays := by
    rintro s - r rfl - hr
    rw [Option.guard_eq_none_iff] at hr
    exact long_turn (by simpa using hr)

/-! ## The law -/

/-- Whatever clients send, and however long it goes on: the agent ends as it
would on the short packets alone, and of its answers the clients read the
short ones, each as the agent made it. -/
theorem the_wire_carries_the_short_packets_and_no_others (k : Managers M S) (s : Agent M S)
    (requests : List Request) :
    server_loop k s (requests.map Request.received) =
        (requests.filter fun r => r.Short).foldl (packet_step k) s ∧
      (wire_answers k s (requests.map Request.received)).filterMap Sent.read =
        (packet_answers k s (requests.filter fun r => r.Short)).filter fun m => m.Short := by
  obtain ⟨hend, hout⟩ := (wire_follows_packets k).run (rfl : s = s)
    fun r (_ : r ∈ requests) => trivial
  rw [List.filterMap_eq_filter] at hend hout
  constructor
  · unfold server_loop
    rw [List.foldl_map]
    exact hend
  · unfold wire_answers packet_answers
    rw [filterMap_outputs, filter_outputs, outputs_map]
    exact hout

end simple_snmpd.snmp_server
