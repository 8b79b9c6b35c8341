-- Numbers of the MIB on the wire. The constructors of a value write a fixed
-- number of octets without a sign, and a reader takes the content of a
-- number with one.
import SimpleSnmpd.AnswerSizes
import SimpleSnmpd.ManagerLaws

open simple_snmpd.snmp_packet ber

namespace simple_snmpd.snmp_server

/-! ## Values from numbers -/

def SNMPDataType.COUNTER32 : SNMPDataType := ⟨0x41⟩
def SNMPDataType.GAUGE32 : SNMPDataType := ⟨0x42⟩
def SNMPDataType.TIME_TICKS : SNMPDataType := ⟨0x43⟩
def SNMPDataType.COUNTER64 : SNMPDataType := ⟨0x46⟩

/-- `MIBValue(SNMPDataType t, uint32_t val)` -/
def MIBValue.of_uint32 (t : SNMPDataType) (val : UInt32) : MIBValue where
  type := t
  data := [((val >>> 24) &&& 0xFF).toUInt8, ((val >>> 16) &&& 0xFF).toUInt8,
    ((val >>> 8) &&& 0xFF).toUInt8, (val &&& 0xFF).toUInt8]

/-- `MIBValue(SNMPDataType t, uint64_t val)` -/
def MIBValue.of_uint64 (t : SNMPDataType) (val : UInt64) : MIBValue where
  type := t
  data := ([7, 6, 5, 4, 3, 2, 1, 0] : List UInt64).map fun i => ((val >>> (i * 8)) &&& 0xFF).toUInt8

theorem of_uint32_value (t : SNMPDataType) (val : UInt32) :
    beValue (MIBValue.of_uint32 t val).data = val.toNat :=
  beValue_requestIdBytes val

/-- One turn of the loop over the octets. -/
theorem octet_of_uint64 (val : UInt64) {i : UInt64} (hi : i.toNat < 8) :
    ((val >>> (i * 8)) &&& 0xFF).toUInt8 = UInt8.ofNat (val.toNat / 256 ^ i.toNat) := by
  apply UInt8.toNat_inj.mp
  have hshift : (i * 8).toNat = 8 * i.toNat := by
    rw [UInt64.toNat_mul, Nat.mul_comm]
    exact Nat.mod_eq_of_lt (by simp only [UInt64.reduceToNat]; omega)
  have hmask : ∀ k : Nat, k &&& 255 = k % 256 := fun k => Nat.and_two_pow_sub_one_eq_mod k 8
  rw [UInt64.toNat_toUInt8, UInt64.toNat_and, UInt64.toNat_shiftRight, UInt8.toNat_ofNat', hshift,
    Nat.mod_eq_of_lt (show 8 * i.toNat < 64 by omega), Nat.shiftRight_eq_div_pow, pow_mul]
  simp only [UInt64.reduceToNat, hmask, Nat.reducePow, Nat.mod_mod]

theorem of_uint64_value (t : SNMPDataType) (val : UInt64) :
    beValue (MIBValue.of_uint64 t val).data = val.toNat := by
  have hdata : (MIBValue.of_uint64 t val).data = beOctets 8 val.toNat := by
    refine (List.map_congr_left fun i hi => octet_of_uint64 val ?_).trans ?_
    · simp only [List.mem_cons, List.not_mem_nil, or_false] at hi
      rcases hi with rfl | rfl | rfl | rfl | rfl | rfl | rfl | rfl <;> decide
    · rfl
  rw [hdata, beValue_beOctets]
  exact Nat.mod_eq_of_lt val.toNat_lt

/-- A number of the MIB, in one of the types that have no sign. -/
inductive Number where
  | counter32 (v : UInt32)
  | gauge32 (v : UInt32)
  | time_ticks (v : UInt32)
  | counter64 (v : UInt64)
deriving DecidableEq, Repr

def Number.mib_value : Number → MIBValue
  | .counter32 v => .of_uint32 .COUNTER32 v
  | .gauge32 v => .of_uint32 .GAUGE32 v
  | .time_ticks v => .of_uint32 .TIME_TICKS v
  | .counter64 v => .of_uint64 .COUNTER64 v

def Number.toNat : Number → Nat
  | .counter32 v | .gauge32 v | .time_ticks v => v.toNat
  | .counter64 v => v.toNat

/-- How many octets the type takes. -/
def Number.size : Number → Nat
  | .counter32 _ | .gauge32 _ | .time_ticks _ => 4
  | .counter64 _ => 8

/-- The first number of the type that has its top bit set. -/
def Number.half : Number → Nat
  | .counter32 _ | .gauge32 _ | .time_ticks _ => 2 ^ 31
  | .counter64 _ => 2 ^ 63

theorem number_value (n : Number) : beValue n.mib_value.data = n.toNat := by
  cases n with
  | counter32 v => exact of_uint32_value _ v
  | gauge32 v => exact of_uint32_value _ v
  | time_ticks v => exact of_uint32_value _ v
  | counter64 v => exact of_uint64_value _ v

theorem number_size (n : Number) : n.mib_value.data.length = n.size := by
  cases n <;> rfl

theorem half_size (n : Number) : 256 ^ n.size = 2 * n.half := by
  have hword : 256 ^ 4 = 2 * 2 ^ 31 := by decide
  have hlong : 256 ^ 8 = 2 * 2 ^ 63 := by decide
  cases n with
  | counter32 v => exact hword
  | gauge32 v => exact hword
  | time_ticks v => exact hword
  | counter64 v => exact hlong

/-! ## The place of a value in an answer -/

/-- Where the value of a binding stands in a packet, behind a community of
`size` bytes, the bindings before it, and its OID. -/
def value_place (size : Nat) (before : List VariableBinding) (oid : OID) : Nat :=
  -- 23 bytes in front of the list, and the headers of the binding and of its OID
  27 + size + bindings_size before + oid.length

theorem value_stands_at (p : SNMPPacket) {before after : List VariableBinding} {b : VariableBinding}
    (hb : p.variable_bindings = before ++ b :: after) :
    ∃ rest, (octetElement 0x30 (contentBytes p)).drop
        (value_place p.community.length before b.oid) =
      octetElement b.value_type b.value ++ rest := by
  obtain ⟨x, hx⟩ := contentBytes_end p
  have hsize : x.length = 21 + p.community.length := by
    have := congrArg List.length hx
    rw [contentBytes_length, List.length_append, bindingsBytes_length, content_size] at this
    omega
  have hsplit : octetElement 0x30 (contentBytes p) =
      (0x30 :: octet (contentBytes p).length :: (x ++ (bindingsBytes before ++
        (0x30 :: octet (octetElement 0x06 b.oid ++ octetElement b.value_type b.value).length ::
          octetElement 0x06 b.oid)))) ++
        (octetElement b.value_type b.value ++ bindingsBytes after) := by
    rw [octetElement, hx, hb]
    simp [bindingsBytes, bindingBytes, octetElement]
  refine ⟨bindingsBytes after, ?_⟩
  rw [hsplit]
  refine List.drop_left' ?_
  simp only [List.length_cons, List.length_append, octetElement_length, bindingsBytes_length,
    value_place, hsize]
  omega

/-- At the place, the bytes have an element with the tag, and its content
denotes the number. -/
def StatesNumber (place : Nat) (bytes : List UInt8) (tag : UInt8) (n : Nat) : Prop :=
  ∃ c rest, readElement 4 (bytes.drop place) = some (tag, c, rest) ∧ beInt c = n

theorem statesNumber_iff {place n : Nat} {bytes c rest : List UInt8} {tag : UInt8}
    (h : bytes.drop place = octetElement tag c ++ rest) (hc : c.length < 128) :
    StatesNumber place bytes tag n ↔ beInt c = n := by
  have hread := readElement_append (@octetElement_isElement 4 tag c hc) rest
  rw [← h] at hread
  unfold StatesNumber
  rw [hread]
  constructor
  · rintro ⟨_, _, heq, hvalue⟩
    cases heq
    exact hvalue
  · intro hvalue
    exact ⟨c, rest, rfl, hvalue⟩

/-! ## The law -/

variable {M S : Type}

/-- The answer to a GET states a number of the MIB exactly where the top bit
of the number is clear. -/
theorem a_number_is_stated_iff_its_top_bit_is_clear (k : Managers M S) (mib : M)
    (request : SNMPPacket) (before after : List VariableBinding) (b : VariableBinding)
    (n : Number) (bytes : List UInt8) (hb : request.variable_bindings = before ++ b :: after)
    (hn : k.mib.get_value mib b.oid = some n.mib_value)
    (hbytes : send_response (process_get_request k mib request (new_response request)) =
      some bytes) :
    StatesNumber (value_place request.community.length
        (before.map fun b => get_binding k mib b.oid) b.oid) bytes n.mib_value.type.toOctet
        n.toNat ↔
      n.toNat < n.half := by
  have hcommunity : (process_get_request k mib request (new_response request)).community =
      request.community := get_request_head.community
  have hanswer : get_binding k mib b.oid = value_binding b.oid n.mib_value := by
    rw [get_binding, hn]
  have hbindings := get_bindings (k := k) mib request (new_response request)
  rw [hb, List.map_append, List.map_cons, hanswer] at hbindings
  obtain ⟨rest, hplace⟩ := value_stands_at _ hbindings
  rw [hcommunity] at hplace
  rw [send_response, serialize_eq, Option.some.injEq] at hbytes
  have hpos : 0 < n.size ∧ n.size < 128 := by
    cases n <;> simp [Number.size]
  have hne : n.mib_value.data ≠ [] := by
    rw [← List.length_pos_iff, number_size]
    exact hpos.1
  have hshort : n.mib_value.data.length < 128 := by
    rw [number_size]
    exact hpos.2
  have hsign := beInt_eq_beValue_iff hne
  rw [number_value, number_size, half_size] at hsign
  rw [← hbytes]
  calc StatesNumber _ _ n.mib_value.type.toOctet n.toNat
      ↔ beInt n.mib_value.data = n.toNat := statesNumber_iff hplace hshort
    _ ↔ 2 * n.toNat < 2 * n.half := hsign
    _ ↔ n.toNat < n.half := by omega

/-- A GET of one object, as the agent has parsed it. -/
def one_object_get : SNMPPacket :=
  { SNMPPacket.new with variable_bindings := [null_binding [0x2b]] }

/-- The answer to it, for a Counter32 with the octets. -/
def counter_answer (c : List UInt8) : List UInt8 :=
  [0x30, 0x20, 0x02, 0x01, 0x01, 0x04, 0x00, 0xA2, 0x19, 0x02, 0x04, 0x00, 0x00, 0x00, 0x00, 0x02,
    0x01, 0x00, 0x02, 0x01, 0x00, 0x30, 0x0b, 0x30, 0x09, 0x06, 0x01, 0x2b, 0x41, 0x04] ++ c

theorem a_counter_of_five_is_stated :
    StatesNumber 28 (counter_answer [0x00, 0x00, 0x00, 0x05]) 0x41 5 :=
  (a_number_is_stated_iff_its_top_bit_is_clear (one_object_managers [0x2b])
    (Number.counter32 5).mib_value one_object_get [] [] (null_binding [0x2b]) (.counter32 5) _
    rfl rfl rfl).mpr (by decide)

/-- A counter of 2^31 is read as a negative number. -/
theorem a_counter_of_half_its_range_is_not_stated :
    ¬ ∀ (M S : Type) (k : Managers M S) (mib : M) (request : SNMPPacket)
      (before after : List VariableBinding) (b : VariableBinding) (n : Number) (bytes : List UInt8),
      request.variable_bindings = before ++ b :: after →
      k.mib.get_value mib b.oid = some n.mib_value →
      send_response (process_get_request k mib request (new_response request)) = some bytes →
      StatesNumber (value_place request.community.length
        (before.map fun b => get_binding k mib b.oid) b.oid) bytes n.mib_value.type.toOctet
        n.toNat := by
  intro h
  obtain ⟨c, rest, hread, hvalue⟩ := h MIBValue Unit (one_object_managers [0x2b])
    (Number.counter32 0x80000000).mib_value one_object_get [] [] (null_binding [0x2b])
    (.counter32 0x80000000) (counter_answer [0x80, 0x00, 0x00, 0x00]) rfl rfl rfl
  have hplace : readElement 4 ((counter_answer [0x80, 0x00, 0x00, 0x00]).drop 28) =
      some (0x41, [0x80, 0x00, 0x00, 0x00], []) := by decide
  obtain rfl : [0x80, 0x00, 0x00, 0x00] = c := by
    have hsame := hplace.symm.trans hread
    simp only [Option.some.injEq, Prod.mk.injEq] at hsame
    exact hsame.2.1
  revert hvalue
  decide

end simple_snmpd.snmp_server
