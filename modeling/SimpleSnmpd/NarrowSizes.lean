-- The parser in a narrow `size_t` beside the parser in exact integers. They
-- say the same of a datagram as long as no length that the parser uses
-- wraps, and only then.
import SimpleSnmpd.ParserLaws

open routines routines.Routine ber

namespace simple_snmpd.snmp_packet

variable {z : SizeT} {data : List UInt8}

/-! ## The parser comes to each field -/

/-- How each INTEGER of the PDU is cleared and shifted, by the number of
INTEGERs after it. -/
def integerField : Nat → (SNMPPacket → SNMPPacket) × (UInt8 → SNMPPacket → SNMPPacket)
  | 2 => (fun p => { p with request_id := 0 }, shift_request_id)
  | 1 => (fun p => { p with error_status := 0 }, shift_error_status)
  | _ => (fun p => { p with error_index := 0 }, shift_error_index)

/-- The fields of the PDU from the last `k` INTEGERs on. -/
def pduFrom (z : SizeT) (data : List UInt8) (e : Nat) : Nat → Routine Cursor Unit
  | 0 => do
    expect z data e 0x30
    let n ← parse_length_within z data e
    parse_variable_bindings z data n
  | k + 1 => do
    parse_integer z data e (integerField k).1 (integerField k).2
    pduFrom z data e k

/-- The loop over the bindings, up to the end `e` of the list. -/
def bindingLoop (z : SizeT) (data : List UInt8) (e fuel : Nat) : Routine Cursor Unit :=
  loop (fun s => s.offset < e) (parse_next_binding z data e) fuel

/-- One binding of `n` bytes, and then the loop over the bindings. -/
def bindingFrom (z : SizeT) (data : List UInt8) (n e fuel : Nat) : Routine Cursor Unit := do
  let varbind ← parse_variable_binding z data n
  assign (push varbind)
  bindingLoop z data e fuel

/-- The call of the parser from `s₀` comes to the inside of a binding. -/
def ReachesBinding (z : SizeT) (data : List UInt8) (s₀ : Cursor) (l o e : Nat) : Prop :=
  l ≤ data.length ∧ ∃ n p fuel, e = o + n ∧ e ≤ l ∧ l ≤ o + fuel ∧
    parse_message z data s₀ = bindingFrom z data n l fuel ⟨o, p⟩

/-- The call of the parser from `s₀` comes to the field of the kind: what it
does in all is what it does from there. -/
def Reaches (z : SizeT) (data : List UInt8) (s₀ : Cursor) : Site → Nat → Nat → Prop
  | .version, o, e => e = data.length ∧ ∃ p, parse_message z data s₀ =
      (do parse_version z data; parse_community z data; parse_pdu z data) ⟨o, p⟩
  | .community, o, e => e = data.length ∧ ∃ p, parse_message z data s₀ =
      (do parse_community z data; parse_pdu z data) ⟨o, p⟩
  | .pdu, o, e => e = data.length ∧ ∃ p, parse_message z data s₀ = parse_pdu z data ⟨o, p⟩
  | .integer k, o, e => e ≤ data.length ∧ ∃ p, parse_message z data s₀ = pduFrom z data e k ⟨o, p⟩
  | .binding, o, e => e ≤ data.length ∧ ∃ p fuel, e ≤ o + fuel ∧
      parse_message z data s₀ = bindingLoop z data e fuel ⟨o, p⟩
  | .oid l, o, e => ReachesBinding z data s₀ l o e
  | .value l, o, e => ∃ o' c x, IsElement 4 0x06 c x ∧ Reads data o' e x ∧ o = o' + x.length ∧
      ReachesBinding z data s₀ l o' e

/-- The parser comes to each field that a reader of the datagram stands
before. -/
theorem reaches (hz : Suits z data) {site : Site} {o e : Nat} (h : Stands data site o e)
    (s₀ : Cursor) (hs : s₀.offset = 0) : Reaches z data s₀ site o e := by
  have hfits := hz.whole h.data_lt
  induction h with
  | version hx h hn =>
    refine ⟨rfl, s₀.packet, ?_⟩
    unfold parse_message
    rw [bind_ok (parse_header_ok hz.header hx hs (by rwa [hs]) hn)]
  | community _ hx h ih =>
    rcases ih with ⟨rfl, p, hp⟩
    exact ⟨rfl, _, by rw [hp, bind_ok (parse_version_ok hfits hx h)]⟩
  | pdu _ hx h ih =>
    rcases ih with ⟨rfl, p, hp⟩
    exact ⟨rfl, _, by rw [hp, bind_ok (parse_community_ok hfits hx h)]⟩
  | @first_integer o e n t x _ hx h hn ih =>
    rcases ih with ⟨rfl, p, hp⟩
    refine ⟨hn, { p with pdu_type := t }, ?_⟩
    rw [hp, parse_pdu_enters hfits hx h hn, parse_pdu_fields, get_bind_run,
      hfits.small _ (by simp only; omega)]
    rfl
  | next_integer _ hx h ih =>
    rcases ih with ⟨he, p, hp⟩
    exact ⟨he, _, by rw [hp, pduFrom, bind_ok (parse_integer_ok hfits _ _ hx h he)]⟩
  | @first_binding o e n x _ hx h hn ih =>
    rcases ih with ⟨he, p, hp⟩
    refine ⟨by omega, { p with variable_bindings := [] }, data.length, by omega, ?_⟩
    rw [hp, pduFrom, header_fits_ok hfits hx h he hn, parse_variable_bindings, get_bind_run,
      hfits.small _ (by simp only; omega), bind_ok (assign_run _ _)]
    rfl
  | @oid o e n x _ hx h hn ih =>
    rcases ih with ⟨he, p, fuel, hfuel, hp⟩
    have hpos := hx.length_ge
    obtain ⟨fuel, rfl⟩ : ∃ k, fuel = k + 1 := ⟨fuel - 1, by omega⟩
    have hnext : parse_next_binding z data e ⟨o, p⟩ =
        (parse_variable_binding z data n >>= fun b => assign (push b)) ⟨o + x.length, p⟩ := by
      unfold parse_next_binding
      rw [header_fits_ok hfits hx h he hn]
      rfl
    refine ⟨he, n, p, fuel, rfl, hn, by omega, ?_⟩
    rw [hp, bindingLoop, loop_turn (by simp only [decide_eq_true_eq]; omega), bind_of_run hnext,
      bind_assoc_run]
    rfl
  | value _ hx h ih => exact ⟨_, _, _, hx, h, rfl, ih⟩
  | @next_binding _ _ _ t v x _ hx h ih =>
    rcases ih with ⟨o, c, y, hy, hr, rfl, hl, n, p, fuel, rfl, hnl, hfuel, hp⟩
    have hle := h.le
    have hpair : IsPair 4 ⟨c, t, v⟩ (y ++ x) := ⟨y, x, hy, hx, rfl⟩
    refine ⟨hl, push ⟨c, t, v⟩ p, fuel, by omega, ?_⟩
    rw [hp, bindingFrom, bind_ok (parse_variable_binding_ok hfits hpair (reads_append.mpr ⟨hr, h⟩)
      (by simp only; omega)), bind_ok (assign_run _ _), List.length_append, Nat.add_assoc]

/-! ## A length that wraps -/

/-- A length that wraps passes its check, and reaches past the datagram. -/
theorem wrapped_length (hz : Fits z data.length) {o e n : Nat} {t : UInt8} {x : List UInt8}
    (hx : IsHeader 4 t n x) (h : Reads data o e x) (he : e ≤ data.length)
    (hw : z.wrap (o + x.length + n) ≠ o + x.length + n) :
    z.wrap (o + x.length + n) < o + x.length ∧ data.length < o + x.length + n := by
  have hle := h.le
  rcases hx with ⟨l, hl, -⟩
  refine ⟨(hz.sum _ (by omega) n (length_lt hl)).resolve_left hw, ?_⟩
  by_contra hfit
  exact hw (hz.small _ (by omega))

theorem community_outside (hz : Fits z data.length) {n : Nat} {x : List UInt8} {s : Cursor}
    (hx : IsHeader 4 0x04 n x) (h : Reads data s.offset data.length x)
    (hw : z.wrap (s.offset + x.length + n) ≠ s.offset + x.length + n) :
    parse_community z data s = .outside := by
  have hle := h.le
  obtain ⟨hlow, hhigh⟩ := wrapped_length hz hx h (Nat.le_refl _) hw
  unfold parse_community
  rw [header_ok hz hx h (Nat.le_refl _) (by omega), get_bind_run]
  exact bind_outside (bytes_at_outside hhigh _) _

theorem parse_integer_outside (hz : Fits z data.length) {e n : Nat} {x : List UInt8} {s : Cursor}
    (clear : SNMPPacket → SNMPPacket) (shift : UInt8 → SNMPPacket → SNMPPacket)
    (hx : IsHeader 4 0x02 n x) (h : Reads data s.offset e x) (he : e ≤ data.length)
    (hw : z.wrap (s.offset + x.length + n) ≠ s.offset + x.length + n) :
    parse_integer z data e clear shift s = .outside := by
  have hle := h.le
  obtain ⟨hlow, hhigh⟩ := wrapped_length hz hx h he hw
  unfold parse_integer
  rw [header_ok hz hx h he (by omega), bind_ok (assign_run _ _)]
  exact times_shift_outside hz shift (by simp only; omega) hhigh

theorem oid_outside (hz : Fits z data.length) {n k : Nat} {x : List UInt8} {s : Cursor}
    (hx : IsHeader 4 0x06 k x) (h : Reads data s.offset (s.offset + n) x)
    (he : s.offset + n ≤ data.length)
    (hw : z.wrap (s.offset + x.length + k) ≠ s.offset + x.length + k) :
    parse_variable_binding z data n s = .outside := by
  have hle := h.le
  obtain ⟨hlow, hhigh⟩ := wrapped_length hz hx h he hw
  unfold parse_variable_binding
  rw [get_bind_run, hz.small _ (by omega),
    header_ok hz hx h he (by omega), get_bind_run]
  exact bind_outside (bytes_at_outside hhigh _) _

theorem value_outside (hz : Fits z data.length) {e n : Nat} {t : UInt8} {oid x : List UInt8}
    {s : Cursor} (hx : IsHeader 4 t n x) (h : Reads data s.offset e x) (he : e ≤ data.length)
    (hw : z.wrap (s.offset + x.length + n) ≠ s.offset + x.length + n) :
    valueFrom z data e oid s = .outside := by
  have hle := h.le
  obtain ⟨hlow, hhigh⟩ := wrapped_length hz hx h he hw
  rcases hx with ⟨l, hl, rfl⟩
  obtain ⟨hlt, hty, h1⟩ := reads_cons.mp h
  have heq : s.offset + (l.length + 1) = s.offset + 1 + l.length := by omega
  rw [List.length_cons, heq] at hlow hhigh hle
  unfold valueFrom
  rw [get_bind_run, bind_ok (rejectIf_neg (by omega) _),
    bind_ok (next_byte_ok hz hty (by omega)),
    bind_ok (parse_length_within_ok hz hl h1 he (by simp only; omega)), get_bind_run]
  exact bind_outside (bytes_at_outside hhigh _) _

/-- A binding list whose length wraps is taken, and taken to be empty. -/
theorem list_accepted (hz : Fits z data.length) {e n : Nat} {x : List UInt8} {s : Cursor}
    (hx : IsHeader 4 0x30 n x) (h : Reads data s.offset e x) (he : e ≤ data.length)
    (hw : z.wrap (s.offset + x.length + n) ≠ s.offset + x.length + n) :
    ∃ s', pduFrom z data e 0 s = .ok () s' := by
  have hle := h.le
  obtain ⟨hlow, -⟩ := wrapped_length hz hx h he hw
  rw [pduFrom, header_ok hz hx h he (by omega), parse_variable_bindings, get_bind_run,
    bind_ok (assign_run _ _), loop_done (by simp only [decide_eq_false_iff_not]; omega)]
  exact ⟨_, rfl⟩

/-- In exact integers it is not taken. -/
theorem list_rejected {e n : Nat} {x : List UInt8} {s : Cursor} (hx : IsHeader 4 0x30 n x)
    (h : Reads data s.offset e x) (he : e ≤ data.length) (hn : e < s.offset + x.length + n) :
    ∃ s', pduFrom .exact data e 0 s = .fail s' := by
  rw [pduFrom, header_fail (fits_exact _) hx h he hn]
  exact ⟨_, rfl⟩

/-! ## The law -/

/-- Two calls return the same and, when they return true, fill in the same
packet. Neither of them asked for a byte outside its data. -/
def Agrees (x y : Exit SNMPPacket Unit) : Prop :=
  match x, y with
  | .ok _ p, .ok _ q => p = q
  | .fail _, .fail _ => True
  | _, _ => False

theorem parse_eq_outside {this : SNMPPacket}
    (h : parse_message z data ⟨0, this⟩ = .outside) : parse z this data = .outside := by
  rw [parse, h]

/-- Where a used length wraps, the parser asks for bytes outside the
datagram, or it takes a binding list that exact integers do not take. -/
theorem not_agrees_of_wraps (hz : Suits z data) (this : SNMPPacket) (h : Wraps z data) :
    ¬ Agrees (parse z this data) (parse .exact this data) := by
  rcases h with ⟨site, hu, o, e, t, n, x, hs, ht, hx, hr, hw⟩
  have hfits := hz.whole hs.data_lt
  have hreach := reaches hz hs ⟨0, this⟩ rfl
  cases site with
  | version => exact hu.elim
  | pdu => exact hu.elim
  | binding => exact hu.elim
  | community =>
    rcases hreach with ⟨rfl, p, hp⟩
    obtain rfl : t = 0x04 := ht
    rw [bind_outside (community_outside hfits hx hr hw)] at hp
    rw [parse_eq_outside hp]
    exact id
  | integer k =>
    rcases hreach with ⟨he, p, hp⟩
    cases k with
    | zero =>
      obtain rfl : t = 0x30 := ht
      obtain ⟨s, hok⟩ := list_accepted hfits (s := ⟨o, p⟩) hx hr he hw
      obtain ⟨-, q, hq⟩ := reaches (suits_exact data) hs ⟨0, this⟩ rfl
      obtain ⟨s', hfail⟩ := list_rejected (s := ⟨o, q⟩) hx hr he
        (Nat.lt_of_le_of_lt he (wrapped_length hfits hx hr he hw).2)
      simp only [parse, hp, hok, hq, hfail]
      exact id
    | succ k =>
      obtain rfl : t = 0x02 := ht
      rw [pduFrom, bind_outside (parse_integer_outside hfits _ _ hx hr he hw)] at hp
      rw [parse_eq_outside hp]
      exact id
  | oid l =>
    rcases hreach with ⟨hl, k, p, fuel, rfl, hle, -, hp⟩
    obtain rfl : t = 0x06 := ht
    have hout := oid_outside (s := ⟨o, p⟩) hfits hx hr (Nat.le_trans hle hl) hw
    rw [bindingFrom, bind_outside hout] at hp
    rw [parse_eq_outside hp]
    exact id
  | value l =>
    rcases hreach with ⟨o', c, y, hy, hry, rfl, hl, k, p, fuel, rfl, hle, -, hp⟩
    have hbound := Nat.le_trans hle hl
    have hout : parse_variable_binding z data k ⟨o', p⟩ = .outside := by
      rw [parse_variable_binding_enters hfits hy hry hbound]
      exact value_outside hfits hx hr hbound hw
    rw [bindingFrom, bind_outside hout] at hp
    rw [parse_eq_outside hp]
    exact id

/-- A build agrees with exact integers on a datagram exactly when no length
that it uses wraps. -/
theorem agrees_iff_no_length_wraps (hz : Suits z data) (this : SNMPPacket) :
    Agrees (parse z this data) (parse .exact this data) ↔ ¬ Wraps z data := by
  constructor
  · intro h hw
    exact not_agrees_of_wraps hz this hw h
  · intro hnw
    have hexact : ¬ Wraps .exact data := by
      rintro ⟨_, _, _, _, _, _, _, _, _, _, _, hw⟩
      exact hw rfl
    rcases parse_cases hz hnw this with ⟨l, hl, h⟩ | ⟨hno, p, h⟩
    · rw [h, parse_ok (suits_exact data) this hl]
      rfl
    · rcases parse_cases (suits_exact data) hexact this with ⟨l, hl, -⟩ | ⟨-, q, hq⟩
      · exact absurd ⟨l, hl⟩ hno
      · rw [h, hq]
        trivial

/-- With a `size_t` of 32 bits, a datagram of the receive buffer is parsed
as in exact integers exactly when no length that the parser uses wraps. -/
theorem a_narrow_build_agrees_iff_no_length_wraps (this : SNMPPacket) (data : List UInt8)
    (hlen : data.length ≤ 4096) :
    Agrees (parse (.bits 32) this data) (parse .exact this data) ↔ ¬ Wraps (.bits 32) data :=
  agrees_iff_no_length_wraps
    ⟨fits_bits (by omega) (by omega), fun _ => fits_bits (by omega) (by omega)⟩ this

/-- A GET of one object, with the length of its community in the long form. -/
def short_get : List UInt8 :=
  [0x30, 0x1f, 0x02, 0x01, 0x01, 0x04, 0x81, 0x06, 0x70, 0x75, 0x62, 0x6c, 0x69, 0x63, 0xA0, 0x11,
    0x02, 0x01, 0x05, 0x02, 0x01, 0x00, 0x02, 0x01, 0x00, 0x30, 0x06, 0x30, 0x04, 0x06, 0x00,
    0x05, 0x00]

/-- No length of the GET wraps, so both builds take it for the same packet. -/
theorem a_narrow_build_agrees_on_a_short_get :
    (Agrees (parse (.bits 32) SNMPPacket.new short_get) (parse .exact SNMPPacket.new short_get) ↔
      ¬ Wraps (.bits 32) short_get) ∧ ¬ Wraps (.bits 32) short_get := by
  have h := a_narrow_build_agrees_iff_no_length_wraps SNMPPacket.new short_get (by decide)
  refine ⟨h, h.mp ?_⟩
  have hsame : parse (.bits 32) SNMPPacket.new short_get =
      parse .exact SNMPPacket.new short_get := by
    decide
  have htaken : ∃ p, parse .exact SNMPPacket.new short_get = .ok () p :=
    ⟨{ SNMPPacket.new with
      version := 0x01, community := [0x70, 0x75, 0x62, 0x6c, 0x69, 0x63], pdu_type := 0xA0,
      request_id := 5, variable_bindings := [⟨[], 0x05, []⟩] }, by decide⟩
  obtain ⟨p, hp⟩ := htaken
  rw [hsame, hp]
  rfl

/-- A community that declares 4294967295 bytes: the sum is 10 in 32 bits,
and the copy reaches past the datagram. -/
theorem a_narrow_build_copies_past_the_datagram :
    ¬ ∀ (this : SNMPPacket) (data : List UInt8), 1 ≤ data.length → data.length ≤ 4096 →
      Agrees (parse (.bits 32) this data) (parse .exact this data) := by
  intro h
  have hagree := h SNMPPacket.new
    [0x30, 0x09, 0x02, 0x01, 0x01, 0x04, 0x84, 0xFF, 0xFF, 0xFF, 0xFF] (by decide) (by decide)
  have hout : parse (.bits 32) SNMPPacket.new
      [0x30, 0x09, 0x02, 0x01, 0x01, 0x04, 0x84, 0xFF, 0xFF, 0xFF, 0xFF] = .outside := by
    decide
  rw [hout] at hagree
  exact hagree

end simple_snmpd.snmp_packet
