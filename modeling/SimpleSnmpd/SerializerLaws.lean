-- The laws of the serializer: the bytes of a packet in closed form, when
-- they are a message, and what the parser makes of them. A length of one
-- octet says the size of its content only below 128.
import SimpleSnmpd.ParserLaws

open routines ber

namespace simple_snmpd.snmp_packet

/-! ## The bytes of a packet -/

/-- An element with one octet for its length, whatever the size of its
content. -/
def octetElement (tag : UInt8) (content : List UInt8) : List UInt8 :=
  tag :: octet content.length :: content

def bindingBytes (b : VariableBinding) : List UInt8 :=
  octetElement 0x30 (octetElement 0x06 b.oid ++ octetElement b.value_type b.value)

/-- The four octets of a request id. -/
def requestIdBytes (n : UInt32) : List UInt8 :=
  [((n >>> 24) &&& 0xFF).toUInt8, ((n >>> 16) &&& 0xFF).toUInt8, ((n >>> 8) &&& 0xFF).toUInt8,
    (n &&& 0xFF).toUInt8]

def bindingsBytes (bs : List VariableBinding) : List UInt8 := (bs.map bindingBytes).flatten

def pduBytes (p : SNMPPacket) : List UInt8 :=
  octetElement 0x02 (requestIdBytes p.request_id) ++ octetElement 0x02 [p.error_status] ++
    octetElement 0x02 [p.error_index] ++ octetElement 0x30 (bindingsBytes p.variable_bindings)

/-- The bytes after the two of the outer header. -/
def contentBytes (p : SNMPPacket) : List UInt8 :=
  octetElement 0x02 [p.version] ++ octetElement 0x04 p.community ++
    octetElement p.pdu_type (pduBytes p)

/-- How many bytes the bindings of a packet take. -/
def bindings_size (bs : List VariableBinding) : Nat :=
  (bs.map fun b => 6 + b.oid.length + b.value.length).sum

/-- How many bytes a packet takes after the outer header. -/
def content_size (p : SNMPPacket) : Nat :=
  21 + p.community.length + bindings_size p.variable_bindings

@[simp] theorem octetElement_length (tag : UInt8) (content : List UInt8) :
    (octetElement tag content).length = content.length + 2 := rfl

@[simp] theorem bindings_size_cons (b : VariableBinding) (bs : List VariableBinding) :
    bindings_size (b :: bs) = 6 + b.oid.length + b.value.length + bindings_size bs := rfl

@[simp] theorem bindings_size_append (bs bs' : List VariableBinding) :
    bindings_size (bs ++ bs') = bindings_size bs + bindings_size bs' := by
  simp [bindings_size]

theorem bindingsBytes_length (bs : List VariableBinding) :
    (bindingsBytes bs).length = bindings_size bs := by
  induction bs with
  | nil => rfl
  | cons b bs ih =>
    have hcons : bindingsBytes (b :: bs) = bindingBytes b ++ bindingsBytes bs := rfl
    rw [hcons, List.length_append, ih, bindings_size_cons]
    simp only [bindingBytes, octetElement_length, List.length_append]
    omega

theorem pduBytes_length (p : SNMPPacket) :
    (pduBytes p).length = 14 + bindings_size p.variable_bindings := by
  simp only [pduBytes, requestIdBytes, List.length_append, octetElement_length,
    bindingsBytes_length, List.length_cons, List.length_nil]
  omega

theorem contentBytes_length (p : SNMPPacket) : (contentBytes p).length = content_size p := by
  simp only [contentBytes, content_size, List.length_append, octetElement_length, pduBytes_length,
    List.length_cons, List.length_nil]
  omega

/-! ## The serializer writes these bytes -/

/-- A length filled in behind its placeholder makes an element. -/
theorem fill_length_element (buffer content : List UInt8) (tag : UInt8) :
    fill_length (buffer ++ tag :: 0x00 :: content) (buffer.length + 1) =
      buffer ++ octetElement tag content := by
  have hsize : (buffer ++ tag :: 0x00 :: content).length - (buffer.length + 1) - 1 =
      content.length := by
    simp only [List.length_append, List.length_cons]
    omega
  unfold fill_length
  rw [hsize, List.set_append_right _ _ (by omega), Nat.add_sub_cancel_left]
  rfl

theorem serialize_variable_binding_eq (buffer : List UInt8) (b : VariableBinding) :
    serialize_variable_binding buffer b = buffer ++ bindingBytes b := by
  have h := fill_length_element buffer
    (octetElement 0x06 b.oid ++ octetElement b.value_type b.value) 0x30
  rw [bindingBytes, ← h]
  simp [serialize_variable_binding, octetElement]

theorem serialize_variable_bindings_eq (p : SNMPPacket) (buffer : List UInt8) :
    serialize_variable_bindings p buffer =
      some (buffer ++ bindingsBytes p.variable_bindings) := by
  have hloop : ∀ (bs : List VariableBinding) (buffer : List UInt8),
      bs.foldl serialize_variable_binding buffer = buffer ++ bindingsBytes bs := by
    intro bs
    induction bs with
    | nil => intro buffer; simp [bindingsBytes]
    | cons b bs ih =>
      intro buffer
      rw [List.foldl_cons, ih, serialize_variable_binding_eq, List.append_assoc]
      rfl
  unfold serialize_variable_bindings
  rw [hloop]

theorem serialize_pdu_fields_eq (p : SNMPPacket) (buffer : List UInt8) :
    serialize_pdu_fields p buffer = some (buffer ++ pduBytes p) := by
  have h := fill_length_element
    (buffer ++ (octetElement 0x02 (requestIdBytes p.request_id) ++
      octetElement 0x02 [p.error_status] ++ octetElement 0x02 [p.error_index]))
    (bindingsBytes p.variable_bindings) 0x30
  rw [pduBytes, ← List.append_assoc, ← h]
  simp [serialize_pdu_fields, serialize_variable_bindings_eq, octetElement, requestIdBytes, octet]

/-- `serialize` always returns true, with the bytes of the packet. -/
theorem serialize_eq (p : SNMPPacket) :
    serialize p = some (octetElement 0x30 (contentBytes p)) := by
  have hpdu := fill_length_element ([0x30, 0x00] ++ (octetElement 0x02 [p.version] ++
    octetElement 0x04 p.community)) (pduBytes p) p.pdu_type
  have hall := fill_length_element [] (contentBytes p) 0x30
  have hopen : [0x30, 0x00] ++ (octetElement 0x02 [p.version] ++ octetElement 0x04 p.community) ++
      octetElement p.pdu_type (pduBytes p) = 0x30 :: 0x00 :: contentBytes p := by
    simp [contentBytes]
  rw [hopen] at hpdu
  rw [List.nil_append, List.nil_append] at hall
  rw [← hall, ← hpdu]
  simp [serialize, serialize_pdu_fields_eq, octetElement, octet]

/-! ## Packets of one shape -/

/-- The bindings have lengths alike. -/
def SameShape (b b' : VariableBinding) : Prop :=
  b.oid.length = b'.oid.length ∧ b.value.length = b'.value.length

theorem bindings_size_of_shape {bs bs' : List VariableBinding} (h : List.Forall₂ SameShape bs bs') :
    bindings_size bs = bindings_size bs' := by
  induction h with
  | nil => rfl
  | cons hb _ ih =>
    rw [bindings_size_cons, bindings_size_cons, hb.1, hb.2, ih]

theorem bindingsBytes_inj {bs bs' : List VariableBinding} (h : List.Forall₂ SameShape bs bs')
    (he : bindingsBytes bs = bindingsBytes bs') : bs = bs' := by
  induction h with
  | nil => rfl
  | @cons b b' bs bs' hb _ ih =>
    change bindingBytes b ++ bindingsBytes bs = bindingBytes b' ++ bindingsBytes bs' at he
    have hlen : (bindingBytes b).length = (bindingBytes b').length := by
      simp only [bindingBytes, octetElement_length, List.length_append, hb.1, hb.2]
    obtain ⟨hhead, htail⟩ := List.append_inj he hlen
    simp only [bindingBytes, octetElement, List.cons_append, List.cons.injEq] at hhead
    rcases hhead with ⟨-, -, -, -, hpair⟩
    obtain ⟨hoid, hvalue⟩ := List.append_inj hpair hb.1
    simp only [List.cons.injEq] at hvalue
    have hone : b = b' := by
      cases b; cases b'
      simp_all
    rw [hone, ih htail]

/-- The bindings stand at the end of the bytes of a packet. -/
theorem contentBytes_end (p : SNMPPacket) :
    ∃ x, contentBytes p = x ++ bindingsBytes p.variable_bindings := by
  refine ⟨octetElement 0x02 [p.version] ++ octetElement 0x04 p.community ++
    (p.pdu_type :: octet (pduBytes p).length :: (octetElement 0x02 (requestIdBytes p.request_id) ++
      octetElement 0x02 [p.error_status] ++ octetElement 0x02 [p.error_index] ++
        [0x30, octet (bindingsBytes p.variable_bindings).length])), ?_⟩
  simp [contentBytes, pduBytes, octetElement]

/-- Packets that are written alike, with bindings of one shape, have the
same bindings. -/
theorem bindings_eq_of_serialize {p q : SNMPPacket}
    (h : List.Forall₂ SameShape p.variable_bindings q.variable_bindings)
    (he : serialize p = serialize q) : p.variable_bindings = q.variable_bindings := by
  rw [serialize_eq, serialize_eq, Option.some.injEq, octetElement, octetElement, List.cons.injEq,
    List.cons.injEq] at he
  obtain ⟨x, hx⟩ := contentBytes_end p
  obtain ⟨y, hy⟩ := contentBytes_end q
  rw [hx, hy] at he
  refine bindingsBytes_inj h (List.append_inj_right' he.2.2 ?_)
  rw [bindingsBytes_length, bindingsBytes_length, bindings_size_of_shape h]

/-! ## A short packet is a message -/

/-- The fields of a packet as the serializer writes them. -/
def wireFields (p : SNMPPacket) : Fields where
  version := p.version
  community := p.community
  pdu_type := p.pdu_type
  request_id := requestIdBytes p.request_id
  error_status := [p.error_status]
  error_index := [p.error_index]

/-- The four octets of a request id are its value. -/
theorem beValue_requestIdBytes (n : UInt32) : beValue (requestIdBytes n) = n.toNat := by
  have h := n.toNat_lt
  have hmask : ∀ k : Nat, k &&& 255 = k % 256 := fun k => Nat.and_two_pow_sub_one_eq_mod k 8
  simp only [requestIdBytes, beValue, beFrom_cons, beFrom_nil, UInt32.toNat_toUInt8,
    UInt32.toNat_and, UInt32.toNat_shiftRight, UInt32.reduceToNat, Nat.reduceMod, hmask,
    Nat.shiftRight_eq_div_pow, Nat.reducePow]
  omega

@[simp] theorem wireFields_packet (p : SNMPPacket) :
    (wireFields p).packet p.variable_bindings = p := by
  have hid : UInt32.ofNat (beValue (requestIdBytes p.request_id)) = p.request_id := by
    rw [beValue_requestIdBytes, UInt32.ofNat_toNat]
  have hone : ∀ b : UInt8, UInt8.ofNat (beValue [b]) = b := by
    intro b
    simp [beValue]
  simp only [Fields.packet, wireFields, hid, hone]

theorem octetElement_isElement {most : Nat} (tag : UInt8) {content : List UInt8}
    (h : content.length < 128) : IsElement most tag content (octetElement tag content) :=
  .of_lt tag h

theorem bindingsBytes_each {most : Nat} {bs : List VariableBinding} (h : bindings_size bs < 128) :
    Each (IsBinding most) bs (bindingsBytes bs) := by
  induction bs with
  | nil => exact .nil
  | cons b bs ih =>
    rw [bindings_size_cons] at h
    have hoid : IsElement most 0x06 b.oid (octetElement 0x06 b.oid) :=
      octetElement_isElement _ (by omega)
    have hvalue : IsElement most b.value_type b.value (octetElement b.value_type b.value) :=
      octetElement_isElement _ (by omega)
    refine .cons ⟨_, ⟨_, _, hoid, hvalue, rfl⟩, octetElement_isElement _ ?_⟩ (ih (by omega))
    simp only [List.length_append, octetElement_length]
    omega

/-- A packet of at most 127 bytes after its header is written as a message. -/
theorem message_of_short {most : Nat} {p : SNMPPacket} (h : content_size p < 128) :
    IsMessage most (wireFields p) p.variable_bindings (octetElement 0x30 (contentBytes p)) := by
  have hcontent := contentBytes_length p
  have hpdu := pduBytes_length p
  have hlist := bindingsBytes_length p.variable_bindings
  unfold content_size at h hcontent
  have hone : ∀ (tag b : UInt8), IsElement most tag [b] (octetElement tag [b]) :=
    fun tag b => octetElement_isElement tag (by simp)
  have hid : (requestIdBytes p.request_id).length < 128 := by simp [requestIdBytes]
  have hopening : IsOpening most (wireFields p)
      (octetElement 0x02 [p.version] ++ octetElement 0x04 p.community) :=
    ⟨_, _, hone 0x02 p.version,
      octetElement_isElement 0x04 (show p.community.length < 128 by omega), rfl⟩
  have htriple : IsTriple most (wireFields p) (octetElement 0x02 (requestIdBytes p.request_id) ++
      octetElement 0x02 [p.error_status] ++ octetElement 0x02 [p.error_index]) :=
    ⟨_, _, _, octetElement_isElement 0x02 hid, hone 0x02 p.error_status,
      hone 0x02 p.error_index, rfl⟩
  have hbindings : Each (IsBinding most) p.variable_bindings (bindingsBytes p.variable_bindings) :=
    bindingsBytes_each (by omega)
  have hfields : IsPduContent most (wireFields p) p.variable_bindings (pduBytes p) :=
    ⟨_, _, _, htriple, hbindings, octetElement_isElement 0x30 (by omega), rfl⟩
  have houter : IsElement most 0x30 (contentBytes p) (octetElement 0x30 (contentBytes p)) :=
    octetElement_isElement 0x30 (by omega)
  exact ⟨⟨nofun, nofun, nofun⟩, _, pduBytes p, _, hopening, hfields,
    octetElement_isElement _ (by omega), houter⟩

/-! ## A long packet is not -/

/-- The octet of a length of 128 or more can not stand before the content
of a packet, whole or cut to what a buffer of 4096 bytes holds of it: as the
first octet of a long form it would take the first bytes of the content for
a length, and none of these lengths fits. -/
theorem content_size_lt_of_length {p : SNMPPacket} {l body rest xs ys : List UInt8}
    (hl : LengthOctets 4 l body.length) (he : octet (content_size p) :: xs = l ++ body)
    (hxs : xs = 0x02 :: 0x01 :: p.version :: 0x04 :: ys) (hb : body = 0x02 :: rest)
    (hsize : xs.length = content_size p ∨ xs.length = 4094) : content_size p < 128 := by
  have hoct : (octet (content_size p)).toNat = content_size p % 256 := UInt8.toNat_ofNat'
  have hv := p.version.toNat_lt
  generalize hn : body.length = n at hl
  cases hl with
  | short b hlt =>
    rw [List.cons_append, List.nil_append, List.cons.injEq] at he
    rw [← he.2] at hn
    omega
  | long b os hos hpos hle =>
    rw [List.cons_append, List.cons.injEq] at he
    rcases he with ⟨rfl, he⟩
    have hsum : xs.length = os.length + beValue os := by
      rw [he, List.length_append, hn]
    rw [he] at hxs
    exfalso
    match os with
    | [o1] =>
      obtain ⟨rfl, -⟩ : o1 = 0x02 ∧ _ := by simpa using hxs
      simp only [List.length_singleton, beValue, beFrom_cons, beFrom_nil,
        UInt8.reduceToNat] at hos hsum
      omega
    | [o1, o2] =>
      obtain ⟨rfl, rfl, -⟩ : o1 = 0x02 ∧ o2 = 0x01 ∧ _ := by simpa using hxs
      simp only [List.length_cons, List.length_nil, beValue, beFrom_cons, beFrom_nil,
        UInt8.reduceToNat] at hos hsum
      omega
    | [o1, o2, o3] =>
      -- the body would start with the tag of the community
      rw [hb] at hxs
      simp at hxs
    | [o1, o2, o3, o4] =>
      obtain ⟨rfl, rfl, rfl, rfl, -⟩ : o1 = 0x02 ∧ o2 = 0x01 ∧ o3 = p.version ∧ o4 = 0x04 ∧ _ := by
        simpa using hxs
      simp only [List.length_cons, List.length_nil, beValue, beFrom_cons, beFrom_nil,
        UInt8.reduceToNat] at hos hsum
      omega

theorem contentBytes_head (p : SNMPPacket) :
    ∃ ys, contentBytes p = 0x02 :: 0x01 :: p.version :: 0x04 :: ys := ⟨_, rfl⟩

theorem IsOpening.head {most : Nat} {f : Fields} {o : List UInt8} (h : IsOpening most f o) :
    ∃ rest, o = 0x02 :: rest := by
  rcases h with ⟨_, c, ⟨_, ⟨l, -, rfl⟩, rfl⟩, -, rfl⟩
  exact ⟨_, rfl⟩

/-- What an element that is the bytes of a packet says about its length. -/
theorem outer_length {most : Nat} {p : SNMPPacket} {body : List UInt8}
    (h : IsElement most 0x30 body (octetElement 0x30 (contentBytes p))) :
    ∃ l, LengthOctets most l body.length ∧
      octet (content_size p) :: contentBytes p = l ++ body := by
  rcases h with ⟨_, ⟨l, hl, rfl⟩, he⟩
  refine ⟨l, hl, ?_⟩
  rw [octetElement, contentBytes_length, List.cons_append, List.cons.injEq] at he
  exact he.2

theorem bindings_size_le {most : Nat} {bs : List VariableBinding} {x : List UInt8}
    (h : Each (IsBinding most) bs x) : bindings_size bs ≤ x.length := by
  induction h with
  | nil => exact Nat.zero_le _
  | cons hb _ ih =>
    rcases hb with ⟨_, ⟨o, v, ho, hv, rfl⟩, hx⟩
    have h1 := ho.length_ge
    have h2 := hv.length_ge
    have h3 := hx.length_ge
    rw [List.length_append] at h3
    rw [bindings_size_cons, List.length_append]
    omega

theorem length_pos_of_ne_nil {c : List UInt8} (h : c ≠ []) : 0 < c.length :=
  List.length_pos_iff.mpr h

/-- A message has at most three bytes less than the serializer writes for
the same fields: only its request id may be shorter. -/
theorem content_size_le {most : Nat} {f : Fields} {bs : List VariableBinding} {o pc x : List UInt8}
    (hf : f.Filled) (ho : IsOpening most f o) (hpc : IsPduContent most f bs pc)
    (hx : IsElement most f.pdu_type pc x) :
    content_size (f.packet bs) ≤ (o ++ x).length + 3 := by
  rcases ho with ⟨v, c, hv, hc, rfl⟩
  rcases hpc with ⟨_, vb, l, ⟨i, j, k, hi, hj, hk, rfl⟩, hvb, hl, rfl⟩
  have hid := length_pos_of_ne_nil hf.1
  have hstatus := length_pos_of_ne_nil hf.2.1
  have hindex := length_pos_of_ne_nil hf.2.2
  have h1 := hv.length_ge
  have h2 := hc.length_ge
  have h3 := hi.length_ge
  have h4 := hj.length_ge
  have h5 := hk.length_ge
  have h6 := hl.length_ge
  have h7 := hx.length_ge
  have h8 := bindings_size_le hvb
  simp only [List.length_append, List.length_singleton] at h1 h7 ⊢
  simp only [content_size, Fields.packet]
  omega

/-- A packet that is written as a message has at most 127 bytes after its
header. -/
theorem content_size_lt_of_message {most : Nat} {f : Fields} {p : SNMPPacket}
    (hm : IsMessage most f p.variable_bindings (octetElement 0x30 (contentBytes p)))
    (hp : f.packet p.variable_bindings = p) : content_size p < 128 := by
  rcases hm with ⟨hfill, o, pc, x, ho, hpc, hx, he⟩
  have hle := content_size_le hfill ho hpc hx
  rw [hp] at hle
  obtain ⟨l, hl, houter⟩ := outer_length he
  obtain ⟨rest, rfl⟩ := ho.head
  have hlen := congrArg List.length houter
  rw [List.length_cons, contentBytes_length, List.length_append] at hlen
  obtain ⟨ys, hys⟩ := contentBytes_head p
  exact content_size_lt_of_length (hl.of_length_le (by omega)) houter hys rfl
    (Or.inl (contentBytes_length p))

/-- So has a packet whose bytes are taken as a layout, whole or cut to what
a buffer of 4096 bytes holds of them. -/
theorem content_size_lt_of_layout {p : SNMPPacket} {l : Layout} {xs : List UInt8}
    (h : HasLayout 4 l (0x30 :: octet (content_size p) :: xs))
    (hxs : xs = contentBytes p ∨ xs = (contentBytes p).take 4094) : content_size p < 128 := by
  rcases h with ⟨-, o, pc, x, ho, -, -, c, ⟨l, hl, rfl⟩, he⟩
  rw [List.cons_append, List.cons.injEq] at he
  obtain ⟨rest, rfl⟩ := ho.head
  have hlen := contentBytes_length p
  obtain ⟨ys, hys⟩ := contentBytes_head p
  rcases hxs with rfl | rfl
  · exact content_size_lt_of_length hl he.2 hys rfl (Or.inl hlen)
  · have htake : (contentBytes p).take 4094 =
        0x02 :: 0x01 :: p.version :: 0x04 :: ys.take 4090 := by rw [hys]; rfl
    refine content_size_lt_of_length hl he.2 htake rfl ?_
    rw [List.length_take, hlen]
    omega

/-! ## What the parser makes of a packet -/

/-- The bytes of a short packet are taken for the packet. -/
theorem parse_short (this : SNMPPacket) {p : SNMPPacket} (h : content_size p < 128) :
    parse (.bits 64) this (octetElement 0x30 (contentBytes p)) = .ok () p := by
  have hok := parse_ok (suits_64 _) this (hasLayout_of_message (message_of_short h))
  rwa [tightLayout_packet, wireFields_packet] at hok

/-- The bytes of a long packet are not taken. -/
theorem content_size_lt_of_parse {this p q : SNMPPacket} {xs : List UInt8}
    (hxs : xs = contentBytes p ∨ xs = (contentBytes p).take 4094)
    (h : parse (.bits 64) this (0x30 :: octet (contentBytes p).length :: xs) = .ok () q) :
    content_size p < 128 := by
  rw [contentBytes_length] at h
  rcases parse_64_cases this (0x30 :: octet (content_size p) :: xs) with ⟨l, hl, -⟩ | ⟨-, r, hr⟩
  · exact content_size_lt_of_layout hl hxs
  · rw [h] at hr
    cases hr

/-! ## The laws -/

/-- A packet is written as a message that says the packet exactly when it
has at most 127 bytes after its header. -/
theorem a_packet_is_written_as_a_message_iff_it_is_short (p : SNMPPacket) :
    (∀ buffer, serialize p = some buffer →
      ∃ f, IsMessage 126 f p.variable_bindings buffer ∧ f.packet p.variable_bindings = p) ↔
      content_size p ≤ 127 := by
  rw [serialize_eq]
  constructor
  · intro h
    obtain ⟨f, hm, hp⟩ := h _ rfl
    exact Nat.le_of_lt_succ (content_size_lt_of_message hm hp)
  · rintro h _ ⟨⟩
    exact ⟨wireFields p, message_of_short (by omega), wireFields_packet p⟩

/-- A community of 107 bytes makes a packet without bindings too long. -/
theorem a_long_community_is_not_written_as_a_message :
    ¬ ∀ (p : SNMPPacket) (buffer : List UInt8), serialize p = some buffer →
      ∃ f, IsMessage 126 f p.variable_bindings buffer ∧ f.packet p.variable_bindings = p := by
  intro h
  let p : SNMPPacket := { SNMPPacket.new with community := List.replicate 107 0x70 }
  obtain ⟨f, hm, hp⟩ := h p _ (serialize_eq p)
  have hlt := content_size_lt_of_message hm hp
  have hsize : content_size p = 128 := by simp [content_size, p, SNMPPacket.new, bindings_size]
  omega

/-- What the serializer writes is taken exactly when it is short, and then
it is taken for the same packet. -/
theorem a_written_packet_is_never_read_as_another (this p : SNMPPacket) :
    ∃ buffer, serialize p = some buffer ∧
      ((∃ q, parse (.bits 64) this buffer = .ok () q) ↔ buffer.length - 2 ≤ 127) ∧
      ∀ q, parse (.bits 64) this buffer = .ok () q → q = p := by
  refine ⟨_, serialize_eq p, ?_⟩
  rw [octetElement_length, Nat.add_sub_cancel, contentBytes_length]
  have hlt : ∀ q, parse (.bits 64) this (octetElement 0x30 (contentBytes p)) = .ok () q →
      content_size p < 128 :=
    fun q hq => content_size_lt_of_parse (Or.inl rfl) hq
  refine ⟨⟨?_, ?_⟩, ?_⟩
  · rintro ⟨q, hq⟩
    exact Nat.le_of_lt_succ (hlt q hq)
  · intro h
    exact ⟨p, parse_short this (by omega)⟩
  · intro q hq
    rw [parse_short this (hlt q hq)] at hq
    cases hq
    rfl

end simple_snmpd.snmp_packet
