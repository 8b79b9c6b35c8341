-- The parser and the layouts. Where no used length wraps, `parse` takes
-- exactly the datagrams that have a layout, and fills in the packet of the
-- layout.
import SimpleSnmpd.ParserSpecs

open routines routines.Routine ber

namespace simple_snmpd.snmp_packet

variable {z : SizeT} {data : List UInt8}

/-! ## One binding -/

/-- What `parse_variable_binding` does after the OID, up to the end `e` of
the binding. -/
def valueFrom (z : SizeT) (data : List UInt8) (e : Nat) (oid : List UInt8) :
    Routine Cursor VariableBinding := do
  let s ← get
  rejectIf (s.offset ≥ e)
  let value_type ← next_byte z data
  let value_length ← parse_length_within z data e
  let s ← get
  let value ← bytes_at data s.offset value_length
  advance z value_length
  return { oid, value_type, value }

/-- The OID, and then the value. -/
theorem parse_variable_binding_enters (hz : Fits z data.length) {n : Nat} {c x : List UInt8}
    {s : Cursor} (hx : IsElement 4 0x06 c x) (h : Reads data s.offset (s.offset + n) x)
    (he : s.offset + n ≤ data.length) :
    parse_variable_binding z data n s =
      valueFrom z data (s.offset + n) c ⟨s.offset + x.length, s.packet⟩ := by
  obtain ⟨hd, hh, rfl⟩ := hx
  obtain ⟨h1, h2⟩ := reads_append.mp h
  have hle := h2.le
  unfold parse_variable_binding
  rw [get_bind_run, hz.small _ (by omega), header_fits_ok hz hh h1 he hle,
    get_bind_run, bind_ok (bytes_at_ok h2 he _), bind_ok (advance_ok hz (by simp only; omega)),
    List.length_append, ← Nat.add_assoc]
  rfl

theorem valueFrom_ok (hz : Fits z data.length) {e : Nat} {t : UInt8} {oid c x : List UInt8}
    {s : Cursor} (hx : IsElement 4 t c x) (h : Reads data s.offset e x) (he : e ≤ data.length) :
    valueFrom z data e oid s = .ok ⟨oid, t, c⟩ ⟨s.offset + x.length, s.packet⟩ := by
  obtain ⟨_, ⟨l, hl, rfl⟩, rfl⟩ := hx
  rw [List.cons_append] at h
  obtain ⟨hlt, hty, h1⟩ := reads_cons.mp h
  obtain ⟨h1, h2⟩ := reads_append.mp h1
  have hle := h2.le
  unfold valueFrom
  rw [get_bind_run, bind_ok (rejectIf_neg (by omega) _),
    bind_ok (next_byte_ok hz hty (by omega)),
    bind_ok (parse_length_within_ok hz hl h1 he
      (by rw [hz.small _ (by simp only; omega)]; exact hle)),
    get_bind_run, bind_ok (bytes_at_ok h2 he _), bind_ok (advance_ok hz (by simp only; omega))]
  simp only [pure_run, List.length_append, List.length_cons]
  congr 2
  omega

theorem parse_variable_binding_ok (hz : Fits z data.length) {n : Nat} {b : VariableBinding}
    {c : List UInt8} {s : Cursor} (hc : IsPair 4 b c)
    (h : Reads data s.offset (s.offset + n) c) (he : s.offset + n ≤ data.length) :
    parse_variable_binding z data n s = .ok b ⟨s.offset + c.length, s.packet⟩ := by
  obtain ⟨o, v, ho, hv, rfl⟩ := hc
  obtain ⟨h1, h2⟩ := reads_append.mp h
  rw [parse_variable_binding_enters hz ho h1 he, valueFrom_ok hz hv h2 he, List.length_append,
    Nat.add_assoc]

/-- A binding whose bound is no more than its start is rejected. -/
theorem parse_variable_binding_fail {n : Nat} {s : Cursor} (h : z.wrap (s.offset + n) ≤ s.offset) :
    parse_variable_binding z data n s = .fail s := by
  unfold parse_variable_binding
  rw [get_bind_run, bind_fail (expect_fail 0x06 h)]

section

variable {m : Nat} {S : Site → Nat → Nat → Prop} {O : Prop}

theorem valueFrom_meetsOr (hz : Fits z m) (hd : data.length ≤ m + 1) (ho : WrapsOnlyIf z data S O)
    {e l : Nat} {oid : List UInt8} {s : Cursor} (hs : S (.value l) s.offset e)
    (he : e ≤ data.length) :
    (valueFrom z data e oid s).MeetsOr O
      (fun b s' => ∃ x, b.oid = oid ∧ IsElement 4 b.value_type b.value x ∧
        Reads data s.offset e x ∧ s' = ⟨s.offset + x.length, s.packet⟩) (fun _ => True) := by
  unfold valueFrom
  rw [get_bind_run]
  apply meetsOr_rejectIf (fun _ => trivial)
  intro hlt
  have hty : data[s.offset]? = some data[s.offset] := List.getElem?_eq_getElem (by omega)
  rw [bind_ok (next_byte_ok hz hty (by omega))]
  generalize data[s.offset] = ty at hty
  apply meetsOr_bind
  apply ((parse_length_within_meets hz hd he (by simp only; omega)).or O).mono _
    (fun _ _ => trivial)
  rintro n s' ⟨k, hk, hr, hn, rfl⟩
  simp only at hr hn
  have hread : Reads data s.offset e (ty :: k) := reads_cons.mpr ⟨by omega, hty, hr⟩
  have heq : s.offset + (ty :: k).length = s.offset + 1 + k.length := by
    simp only [List.length_cons]
    omega
  rw [get_bind_run]
  simp only
  rw [← heq] at hn ⊢
  by_cases hfit : z.wrap (s.offset + (ty :: k).length + n) = s.offset + (ty :: k).length + n
  swap
  · -- the length of the value is used, and it wraps: the copy is outside
    have hbig : ¬ s.offset + (ty :: k).length + n ≤ m + 1 := fun hc => hfit (hz.small _ hc)
    rw [bind_outside (bytes_at_outside (by omega) _)]
    exact ho (.value l) trivial hs trivial ⟨k, hk, rfl⟩ hread hfit
  rw [hfit] at hn
  obtain ⟨hv, hlen⟩ := reads_range hn he
  generalize (data.drop _).take n = value at hv hlen
  subst hlen
  rw [bind_ok (bytes_at_ok hv he _), bind_ok (advance_ok hz (by simp only; omega))]
  refine ⟨(ty :: k) ++ value, rfl, ⟨_, ⟨k, hk, rfl⟩, rfl⟩, reads_append.mpr ⟨hread, hv⟩, ?_⟩
  rw [List.length_append, ← Nat.add_assoc]

theorem parse_variable_binding_meetsOr (hz : Fits z m) (hd : data.length ≤ m + 1)
    (hf : Follows data S) (ho : WrapsOnlyIf z data S O) {n l : Nat} {s : Cursor}
    (hs : S (.oid l) s.offset (s.offset + n)) (he : s.offset + n ≤ data.length) :
    (parse_variable_binding z data n s).MeetsOr O
      (fun b s' => ∃ c, IsPair 4 b c ∧ Reads data s.offset (s.offset + n) c ∧
        s' = ⟨s.offset + c.length, s.packet⟩) (fun _ => True) := by
  unfold parse_variable_binding
  rw [get_bind_run, hz.small _ (by omega)]
  apply header_meetsOr hz hd he
  · intro k hd hh h1 hk
    obtain ⟨h2, hlen⟩ := reads_range hk he
    generalize (data.drop (s.offset + hd.length)).take k = oid at h2 hlen
    subst hlen
    have hread : Reads data s.offset (s.offset + n) (hd ++ oid) := reads_append.mpr ⟨h1, h2⟩
    have hst := hf.value hs ⟨hd, hh, rfl⟩ hread
    rw [List.length_append, ← Nat.add_assoc] at hst
    rw [get_bind_run, bind_ok (bytes_at_ok h2 he _),
      bind_ok (advance_ok hz (by simp only; omega))]
    apply (valueFrom_meetsOr hz ‹_› ho hst he).mono _ (fun _ h => h)
    rintro b s' ⟨x, hb, hx, h3, rfl⟩
    refine ⟨(hd ++ oid) ++ x, ⟨_, x, ⟨hd, hb ▸ hh, by rw [hb]⟩, hx, rfl⟩, ?_, ?_⟩
    · exact reads_append.mpr ⟨hread, by rwa [List.length_append, ← Nat.add_assoc]⟩
    · simp only [List.length_append, Nat.add_assoc]
  · -- the length of the OID is used, and it wraps: the copy is outside
    intro k hd hh h1 hw _
    have hbig : ¬ s.offset + hd.length + k ≤ m + 1 := fun hc => hw (hz.small _ hc)
    rw [get_bind_run, bind_outside (bytes_at_outside (by simp only; omega) _)]
    exact ho (.oid l) trivial hs rfl hh h1 hw

end

/-! ## The binding list -/

/-- A packet with one more binding. -/
def push (b : VariableBinding) (p : SNMPPacket) : SNMPPacket :=
  { p with variable_bindings := p.variable_bindings ++ [b] }

theorem parse_next_binding_ok (hz : Fits z data.length) {e n : Nat} {b : VariableBinding}
    {x c : List UInt8} {s : Cursor} (hx : IsHeader 4 0x30 n x) (hc : IsPair 4 b c)
    (h : Reads data s.offset e (x ++ c)) (hcn : c.length ≤ n)
    (hn : s.offset + x.length + n ≤ e) (he : e ≤ data.length) :
    parse_next_binding z data e s =
      .ok () ⟨s.offset + x.length + c.length, push b s.packet⟩ := by
  obtain ⟨h1, h2⟩ := reads_append.mp h
  unfold parse_next_binding
  rw [header_fits_ok hz hx h1 he hn,
    bind_ok (parse_variable_binding_ok hz hc (h2.mono (by simp only; omega))
      (by simp only; omega))]
  rfl

section

variable {m : Nat} {S : Site → Nat → Nat → Prop} {O : Prop}

theorem parse_next_binding_meetsOr (hz : Fits z m) (hd : data.length ≤ m + 1)
    (hf : Follows data S) (ho : WrapsOnlyIf z data S O) {e : Nat} {s : Cursor}
    (he : e ≤ data.length) (hs : S .binding s.offset e) :
    (parse_next_binding z data e s).MeetsOr O
      (fun _ s' => ∃ n x b c, IsHeader 4 0x30 n x ∧ IsPair 4 b c ∧
        Reads data s.offset e (x ++ c) ∧ c.length ≤ n ∧ s.offset + x.length + n ≤ e ∧
        s' = ⟨s.offset + x.length + c.length, push b s.packet⟩) (fun _ => True) := by
  unfold parse_next_binding
  apply header_meetsOr hz hd he
  · intro n x hx h1 hn
    apply meetsOr_bind
    apply (parse_variable_binding_meetsOr hz hd hf ho (hf.oid hs hx h1 hn)
      (by simp only; omega)).mono _ (fun _ _ => trivial)
    rintro b s' ⟨c, hc, h2, rfl⟩
    have hle := h2.le
    simp only at hle h2
    exact ⟨n, x, b, c, hx, hc, reads_append.mpr ⟨h1, h2.mono (by omega)⟩, by omega, hn, rfl⟩
  · -- a length that wraps leaves no room for the OID
    intro n x hx h1 hw hwe
    have hle := h1.le
    obtain ⟨l, hl, -⟩ := hx
    have hroom : z.wrap (s.offset + x.length + n) ≤ s.offset + x.length := by
      by_cases hm : s.offset + x.length ≤ m
      · exact Nat.le_of_lt ((hz.sum _ hm n (length_lt hl)).resolve_left hw)
      · omega
    rw [bind_fail (parse_variable_binding_fail hroom)]
    trivial

end

/-- What the loop over the bindings does up to the end `e` of the list. -/
def TilesTo (data : List UInt8) (e : Nat) (s s' : Cursor) : Prop :=
  ∃ ts x, Tiles 4 ts x ∧ Reads data s.offset e x ∧ s.offset + x.length = e ∧
    s' = ⟨e, { s.packet with
      variable_bindings := s.packet.variable_bindings ++ ts.map Prod.fst }⟩

/-- One tile, and then the tiles after it. -/
theorem TilesTo.step {e n : Nat} {b : VariableBinding} {x c : List UInt8} {s s' : Cursor}
    (hx : IsHeader 4 0x30 n x) (hc : IsPair 4 b c) (h : Reads data s.offset e (x ++ c))
    (hcn : c.length ≤ n) (hn : s.offset + x.length + n ≤ e)
    (ht : TilesTo data e ⟨s.offset + x.length + c.length, push b s.packet⟩ s') :
    TilesTo data e s s' := by
  obtain ⟨ts, y, htiles, hr, hlen, rfl⟩ := ht
  simp only at hr hlen
  obtain ⟨k, rfl⟩ := Nat.exists_eq_add_of_le hcn
  refine ⟨(b, k) :: ts, x ++ c ++ y, .cons hx hc (by omega) htiles, ?_, ?_, ?_⟩
  · rw [reads_append, List.length_append, ← Nat.add_assoc]
    exact ⟨h, hr⟩
  · simp only [List.length_append]
    omega
  · simp [push]

theorem loop_bindings_ok (hz : Fits z data.length) {e : Nat} (he : e ≤ data.length)
    {ts : List (VariableBinding × Nat)} {x : List UInt8} (ht : Tiles 4 ts x) (fuel : Nat)
    (s : Cursor)
    (h : Reads data s.offset e x) (hlen : s.offset + x.length = e) (hf : x.length ≤ fuel) :
    loop (fun s => s.offset < e) (parse_next_binding z data e) fuel s =
      .ok () ⟨e, { s.packet with
        variable_bindings := s.packet.variable_bindings ++ ts.map Prod.fst }⟩ := by
  induction ht generalizing fuel s with
  | nil =>
    simp only [List.length_nil, Nat.add_zero] at hlen
    rw [loop_done (by simp only [hlen, Nat.lt_irrefl, decide_false])]
    simp [← hlen]
  | @cons b n hd c rest ts hh hc hs ht ih =>
    have hpos := hh.length_ge
    simp only [List.length_append] at hlen hf
    obtain ⟨h1, h2⟩ := reads_append.mp h
    obtain ⟨fuel, rfl⟩ : ∃ k, fuel = k + 1 := ⟨fuel - 1, by omega⟩
    rw [loop_turn (by simp only [decide_eq_true_eq]; omega),
      bind_ok (parse_next_binding_ok hz hh hc h1 (by omega) (by omega) he)]
    rw [List.length_append, ← Nat.add_assoc] at h2
    rw [ih fuel ⟨s.offset + hd.length + c.length, push b s.packet⟩ h2 (by simp only; omega)
      (by omega)]
    simp [push]

theorem parse_variable_bindings_ok (hz : Fits z data.length)
    {ts : List (VariableBinding × Nat)} {x : List UInt8} {s : Cursor} (ht : Tiles 4 ts x)
    (h : Reads data s.offset (s.offset + x.length) x) (he : s.offset + x.length ≤ data.length) :
    parse_variable_bindings z data x.length s =
      .ok () ⟨s.offset + x.length, { s.packet with variable_bindings := ts.map Prod.fst }⟩ := by
  have hl := loop_bindings_ok hz he ht data.length
    ⟨s.offset, { s.packet with variable_bindings := [] }⟩ h rfl (by omega)
  unfold parse_variable_bindings
  rw [get_bind_run, hz.small _ (by omega), bind_ok (assign_run _ _), hl]
  simp

/-- The loop over the bindings ends. It takes the whole section, and the
section is a run of tiles. -/
theorem parse_variable_bindings_meetsOr {m : Nat} {S : Site → Nat → Nat → Prop} {O : Prop}
    (hz : Fits z m) (hd : data.length ≤ m + 1) (hf : Follows data S) (ho : WrapsOnlyIf z data S O)
    {n : Nat} {s : Cursor} (hs : S .binding s.offset (s.offset + n))
    (he : s.offset + n ≤ data.length) :
    (parse_variable_bindings z data n s).MeetsOr O
      (fun _ s' => ∃ ts x, Tiles 4 ts x ∧ Reads data s.offset (s.offset + n) x ∧ x.length = n ∧
        s' = ⟨s.offset + n, { s.packet with variable_bindings := ts.map Prod.fst }⟩)
      (fun _ => True) := by
  unfold parse_variable_bindings
  rw [get_bind_run, hz.small _ (by omega), bind_ok (assign_run _ _)]
  generalize hs₀ : (⟨s.offset, { s.packet with variable_bindings := [] }⟩ : Cursor) = s₀
  have hmeets : (loop (fun s' => s'.offset < s.offset + n)
      (parse_next_binding z data (s.offset + n)) data.length s₀).MeetsOr O
      (fun _ s' => TilesTo data (s.offset + n) s₀ s') (fun _ => True) := by
    apply meetsOr_loop
      (fun s' => s'.offset ≤ s.offset + n ∧ S .binding s'.offset (s.offset + n))
      (fun s' => s.offset + n - s'.offset) (TilesTo data (s.offset + n))
    · intro s' _ hc
      simp only [decide_eq_true_eq] at hc
      omega
    · rintro s' ⟨hle, -⟩ hc
      simp only [decide_eq_false_iff_not] at hc
      have heq : s'.offset = s.offset + n := by omega
      exact ⟨[], [], .nil, reads_nil.mpr hle, heq, by rw [← heq]; simp⟩
    · rintro s' ⟨-, hst⟩ _
      apply (parse_next_binding_meetsOr hz hd hf ho he hst).mono _ (fun _ h => h)
      rintro _ s₁ ⟨k, x, b, c, hx, hc, hr, hck, hk, rfl⟩
      have hpos := hx.length_ge
      obtain ⟨h1, h2⟩ := reads_append.mp hr
      have hnext := hf.pair (hf.oid hst hx h1 hk) hc (h2.mono (by omega))
      exact ⟨⟨by simp only; omega, hnext⟩, by simp only; omega,
        fun s₂ ht => TilesTo.step hx hc hr hck hk ht⟩
    · rw [← hs₀]
      exact ⟨Nat.le_add_right _ _, hs⟩
    · rw [← hs₀]
      simp only
      omega
  apply hmeets.mono _ (fun _ h => h)
  rintro _ s' ⟨ts, x, ht, hr, hlen, rfl⟩
  subst hs₀
  exact ⟨ts, x, ht, hr, by simp only at hlen; omega, by simp⟩

/-! ## The PDU -/

/-- A packet with the INTEGERs and the bindings of a PDU. -/
def withPdu (f : Fields) (bs : List VariableBinding) (p : SNMPPacket) : SNMPPacket :=
  { p with
    request_id := UInt32.ofNat (beValue f.request_id)
    error_status := UInt8.ofNat (beValue f.error_status)
    error_index := UInt8.ofNat (beValue f.error_index)
    variable_bindings := bs }

theorem parse_pdu_fields_ok (hz : Fits z data.length) {n : Nat} {f : Fields}
    {ts : List (VariableBinding × Nat)} {x : List UInt8} {s : Cursor}
    (hx : IsLoosePduContent 4 f ts x) (h : Reads data s.offset (s.offset + n) x)
    (he : s.offset + n ≤ data.length) :
    parse_pdu_fields z data n s =
      .ok () ⟨s.offset + x.length, withPdu f (ts.map Prod.fst) s.packet⟩ := by
  obtain ⟨t, vb, l, ⟨i, j, k, hi, hj, hk, rfl⟩, ht, ⟨hd, hh, rfl⟩, rfl⟩ := hx
  simp only [List.append_assoc] at h
  obtain ⟨h1, h⟩ := reads_append.mp h
  obtain ⟨h2, h⟩ := reads_append.mp h
  obtain ⟨h3, h⟩ := reads_append.mp h
  obtain ⟨h4, h5⟩ := reads_append.mp h
  have hle := h5.le
  unfold parse_pdu_fields
  rw [get_bind_run, hz.small _ (by omega),
    bind_ok (parse_integer_ok hz _ _ hi h1 he), bind_ok (parse_integer_ok hz _ _ hj h2 he),
    bind_ok (parse_integer_ok hz _ _ hk h3 he), header_fits_ok hz hh h4 he hle,
    parse_variable_bindings_ok hz ht (h5.mono (Nat.le_refl _)) (by simp only; omega),
    shifted_request_id, shifted_error_status, shifted_error_index]
  simp only [List.length_append]
  congr 2
  omega

theorem parse_pdu_fields_fail {n : Nat} {s : Cursor} (h : z.wrap (s.offset + n) ≤ s.offset) :
    parse_pdu_fields z data n s = .fail s := by
  unfold parse_pdu_fields
  rw [get_bind_run]
  exact bind_fail (by rw [parse_integer, bind_fail (expect_fail 0x02 h)]) _

theorem parse_pdu_fields_meets (hz : Fits z data.length) (hnw : ¬ Wraps z data) {n : Nat}
    {s : Cursor} (hs : Stands data (.integer 3) s.offset (s.offset + n))
    (he : s.offset + n ≤ data.length) :
    (parse_pdu_fields z data n s).Meets
      (fun _ s' => ∃ f ts x, f.version = s.packet.version ∧ f.community = s.packet.community ∧
        f.pdu_type = s.packet.pdu_type ∧ IsLoosePduContent 4 f ts x ∧
        Reads data s.offset (s.offset + n) x ∧
        s' = ⟨s.offset + x.length, withPdu f (ts.map Prod.fst) s.packet⟩) (fun _ => True) := by
  unfold parse_pdu_fields
  rw [get_bind_run, hz.small _ (by omega)]
  apply meets_bind
  apply (parse_integer_meets hz hnw _ _ he hs).mono _ (fun _ h => h)
  rintro _ s₁ - ⟨c1, i, hi, h1, rfl⟩
  have hs₁ := hs.next_integer hi h1
  apply meets_bind
  apply (parse_integer_meets hz hnw _ _ he hs₁).mono _ (fun _ h => h)
  rintro _ s₂ - ⟨c2, j, hj, h2, rfl⟩
  have hs₂ := hs₁.next_integer hj h2
  apply meets_bind
  apply (parse_integer_meets hz hnw _ _ he hs₂).mono _ (fun _ h => h)
  rintro _ s₃ - ⟨c3, k, hk, h3, rfl⟩
  have hs₃ := hs₂.next_integer hk h3
  refine field_meets hz hnw he hs₃ (show Site.Used (.integer 0) from trivial) rfl ?_
  intro m hd hh h4 hm
  simp only at h1 h2 h3 h4 hm ⊢
  apply ((parse_variable_bindings_meetsOr hz (Nat.le_succ _) (follows_stands data)
    (wraps_only_if_not hnw) (hs₃.first_binding hh h4 hm)
    (by simp only; omega)).meets id).mono _ (fun _ h => h)
  rintro _ s' - ⟨ts, vb, ht, h5, rfl, rfl⟩
  simp only at h5
  let f : Fields := ⟨s.packet.version, s.packet.community, s.packet.pdu_type, c1, c2, c3⟩
  refine ⟨f, ts, i ++ j ++ k ++ (hd ++ vb), rfl, rfl, rfl,
    ⟨_, vb, _, ⟨i, j, k, hi, hj, hk, rfl⟩, ht, ⟨hd, hh, rfl⟩, rfl⟩, ?_, ?_⟩
  · simp only [List.append_assoc]
    exact reads_append.mpr ⟨h1, reads_append.mpr ⟨h2, reads_append.mpr ⟨h3,
      reads_append.mpr ⟨h4, h5.mono hm⟩⟩⟩⟩
  · rw [shifted_request_id, shifted_error_status, shifted_error_index]
    simp only [List.length_append, Cursor.mk.injEq]
    exact ⟨by omega, rfl⟩

/-! ## The message -/

theorem parse_header_ok (hz : Fits z 6) {n : Nat} {x : List UInt8} {s : Cursor}
    (hx : IsHeader 4 0x30 n x) (hs : s.offset = 0) (h : Reads data s.offset data.length x)
    (hn : x.length + n = data.length) :
    parse_header z data s = .ok () ⟨x.length, s.packet⟩ := by
  have hpos := hx.length_ge
  obtain ⟨l, hl, rfl⟩ := hx
  obtain ⟨ho, ht, hr⟩ := reads_cons.mp h
  simp only [List.length_cons] at hn
  unfold parse_header
  rw [bind_ok (rejectIf_neg (by omega) s),
    bind_ok (expect_ok hz ho ht (by omega)),
    bind_ok (parse_length_ok hz hl hr (by simp only; omega)), get_bind_run,
    rejectIf_neg (by simp only [hs]; omega)]
  simp only [hs, List.length_cons]
  congr 2
  omega

theorem parse_header_meets (hz : Fits z 6) {s : Cursor} (hs : s.offset = 0) :
    (parse_header z data s).Meets
      (fun _ s' => ∃ n x, IsHeader 4 0x30 n x ∧ Reads data 0 data.length x ∧
        x.length + n = data.length ∧ s' = ⟨x.length, s.packet⟩) (fun _ => True) := by
  unfold parse_header
  apply meets_rejectIf (fun _ => trivial)
  intro _
  apply meets_bind
  apply (expect_meets hz (Nat.le_refl _) (by omega)).mono _ (fun _ _ => trivial)
  rintro _ s₁ - ⟨ho, ht, rfl⟩
  apply meets_bind
  apply (parse_length_meets hz (Nat.le_refl _) (by simp only; omega) (by simp only; omega)).mono _
    (fun _ _ => trivial)
  rintro n s₂ - ⟨l, hl, hr, rfl⟩
  have hle := hr.le
  simp only [hs] at ho ht hr hle
  rw [get_bind_run]
  by_cases hn : n ≠ data.length - (0 + 1 + l.length)
  · rw [rejectIf_pos (by simpa only [hs] using hn)]
    trivial
  · rw [rejectIf_neg (by simpa only [hs] using hn)]
    refine ⟨n, 0x30 :: l, ⟨l, hl, rfl⟩, reads_cons.mpr ⟨ho, ht, hr⟩, ?_, ?_⟩
    · simp only [List.length_cons]
      omega
    · simp only [hs, List.length_cons, Cursor.mk.injEq, and_true]
      omega

theorem parse_version_ok (hz : Fits z data.length) {v : UInt8} {x : List UInt8} {s : Cursor}
    (hx : IsElement 4 0x02 [v] x) (h : Reads data s.offset data.length x) :
    parse_version z data s =
      .ok () ⟨s.offset + x.length, { s.packet with version := v }⟩ := by
  obtain ⟨hd, hh, rfl⟩ := hx
  obtain ⟨h1, h2⟩ := reads_append.mp h
  obtain ⟨hlt, hv, -⟩ := reads_cons.mp h2
  unfold parse_version
  rw [header_fits_ok hz hh h1 (Nat.le_refl _) h2.le,
    bind_ok (rejectIf_neg (by simp) _), get_bind_run, bind_ok (byte_at_ok hv _),
    bind_ok (assign_run _ _),
    advance_ok hz (Nat.le_succ_of_le h2.le)]
  simp [Nat.add_assoc]

theorem parse_version_meets (hz : Fits z data.length) {s : Cursor} :
    (parse_version z data s).Meets
      (fun _ s' => ∃ v x, IsElement 4 0x02 [v] x ∧ Reads data s.offset data.length x ∧
        s' = ⟨s.offset + x.length, { s.packet with version := v }⟩) (fun _ => True) := by
  unfold parse_version
  apply meets_iff.mpr
  apply header_meetsOr hz (Nat.le_succ _) (Nat.le_refl _)
  · intro n x hx hr hn
    apply meetsOr_rejectIf (fun _ => trivial)
    intro hone
    obtain rfl : n = 1 := not_ne_iff.mp hone
    have hv : data[s.offset + x.length]? = some data[s.offset + x.length] :=
      List.getElem?_eq_getElem (by omega)
    rw [get_bind_run, bind_ok (byte_at_ok hv _), bind_ok (assign_run _ _),
      advance_ok hz (Nat.le_succ_of_le hn)]
    refine ⟨data[s.offset + x.length], x ++ [data[s.offset + x.length]], ⟨x, hx, rfl⟩, ?_, ?_⟩
    · exact reads_append.mpr ⟨hr, reads_cons.mpr ⟨by omega, hv, reads_nil.mpr hn⟩⟩
    · simp [Nat.add_assoc]
  · -- a length that wraps is not 1
    intro n x _ hr hw _
    have hle := hr.le
    apply meetsOr_rejectIf (fun _ => trivial)
    intro hone
    obtain rfl : n = 1 := not_ne_iff.mp hone
    exact absurd (hz.small _ (by omega)) hw

theorem parse_community_ok (hz : Fits z data.length) {c x : List UInt8} {s : Cursor}
    (hx : IsElement 4 0x04 c x) (h : Reads data s.offset data.length x) :
    parse_community z data s =
      .ok () ⟨s.offset + x.length, { s.packet with community := c }⟩ := by
  obtain ⟨hd, hh, rfl⟩ := hx
  obtain ⟨h1, h2⟩ := reads_append.mp h
  unfold parse_community
  rw [header_fits_ok hz hh h1 (Nat.le_refl _) h2.le, get_bind_run,
    bind_ok (bytes_at_ok h2 (Nat.le_refl _) _), bind_ok (assign_run _ _),
    advance_ok hz (Nat.le_succ_of_le h2.le)]
  simp [Nat.add_assoc]

theorem parse_community_meets (hz : Fits z data.length) (hnw : ¬ Wraps z data) {s : Cursor}
    (hs : Stands data .community s.offset data.length) :
    (parse_community z data s).Meets
      (fun _ s' => ∃ c x, IsElement 4 0x04 c x ∧ Reads data s.offset data.length x ∧
        s' = ⟨s.offset + x.length, { s.packet with community := c }⟩) (fun _ => True) := by
  unfold parse_community
  apply field_meets hz hnw (Nat.le_refl _) hs trivial rfl
  intro n x hx hr hn
  obtain ⟨h2, hlen⟩ := reads_range hn (Nat.le_refl _)
  generalize (data.drop (s.offset + x.length)).take n = c at h2 hlen
  subst hlen
  rw [get_bind_run, bind_ok (bytes_at_ok h2 (Nat.le_refl _) _), bind_ok (assign_run _ _),
    advance_ok hz (Nat.le_succ_of_le hn)]
  exact ⟨c, x ++ c, ⟨x, hx, rfl⟩, reads_append.mpr ⟨hr, h2⟩, by simp [Nat.add_assoc]⟩

/-- The PDU header, and then the fields of the PDU. -/
theorem parse_pdu_enters (hz : Fits z data.length) {n : Nat} {t : UInt8} {x : List UInt8}
    {s : Cursor} (hx : IsHeader 4 t n x) (h : Reads data s.offset data.length x)
    (hn : s.offset + x.length + n ≤ data.length) :
    parse_pdu z data s =
      parse_pdu_fields z data n ⟨s.offset + x.length, { s.packet with pdu_type := t }⟩ := by
  obtain ⟨l, hl, rfl⟩ := hx
  obtain ⟨ho, ht, hr⟩ := reads_cons.mp h
  have heq : s.offset + (l.length + 1) = s.offset + 1 + l.length := by omega
  rw [List.length_cons, heq] at hn
  unfold parse_pdu
  rw [get_bind_run, bind_ok (rejectIf_neg (by omega) s), bind_ok (byte_at_ok ht s),
    bind_ok (assign_run _ _), bind_ok (advance_ok hz (by simp only; omega)),
    bind_ok (parse_length_within_ok hz hl hr (Nat.le_refl _)
      (by rw [hz.small _ (by simp only; omega)]; exact hn)), List.length_cons, heq]

theorem parse_pdu_ok (hz : Fits z data.length) {n : Nat} {f : Fields}
    {ts : List (VariableBinding × Nat)} {x y : List UInt8} {s : Cursor}
    (hx : IsHeader 4 f.pdu_type n x)
    (hy : IsLoosePduContent 4 f ts y) (h : Reads data s.offset data.length (x ++ y))
    (hyn : y.length ≤ n) (hn : s.offset + x.length + n ≤ data.length) :
    parse_pdu z data s = .ok () ⟨s.offset + x.length + y.length,
      withPdu f (ts.map Prod.fst) { s.packet with pdu_type := f.pdu_type }⟩ := by
  obtain ⟨h1, h2⟩ := reads_append.mp h
  rw [parse_pdu_enters hz hx h1 hn,
    parse_pdu_fields_ok hz hy (h2.mono (by simp only; omega)) (by simp only; omega)]

theorem parse_pdu_meets (hz : Fits z data.length) (hnw : ¬ Wraps z data) {s : Cursor}
    (hs : Stands data .pdu s.offset data.length) :
    (parse_pdu z data s).Meets
      (fun _ s' => ∃ n f ts x y, f.version = s.packet.version ∧
        f.community = s.packet.community ∧ IsHeader 4 f.pdu_type n x ∧
        IsLoosePduContent 4 f ts y ∧ Reads data s.offset data.length (x ++ y) ∧ y.length ≤ n ∧
        s.offset + x.length + n ≤ data.length ∧
        s'.packet = withPdu f (ts.map Prod.fst) { s.packet with pdu_type := f.pdu_type })
      (fun _ => True) := by
  unfold parse_pdu
  rw [get_bind_run]
  apply meets_rejectIf (fun _ => trivial)
  intro ho
  have ht : data[s.offset]? = some data[s.offset] := List.getElem?_eq_getElem (by omega)
  rw [bind_ok (byte_at_ok ht s), bind_ok (assign_run _ _),
    bind_ok (advance_ok hz (by simp only; omega))]
  generalize data[s.offset] = t at ht
  apply meets_bind
  apply (parse_length_within_meets hz (Nat.le_succ _) (Nat.le_refl _) (by simp only; omega)).mono _
    (fun _ _ => trivial)
  rintro n s₁ - ⟨l, hl, hr, hn, rfl⟩
  simp only at hn hr
  have hle := hr.le
  by_cases hfit : s.offset + 1 + l.length + n ≤ data.length
  swap
  · -- a length that wraps leaves no room for the request id
    have hlt := (hz.sum (s.offset + 1 + l.length) (by omega) n (length_lt hl)).resolve_left
      (fun hexact => hfit (by rwa [hexact] at hn))
    rw [parse_pdu_fields_fail (by simp only; omega)]
    trivial
  have hread : Reads data s.offset data.length (t :: l) := reads_cons.mpr ⟨by omega, ht, hr⟩
  have heq : s.offset + (t :: l).length = s.offset + 1 + l.length := by
    simp only [List.length_cons]
    omega
  have hst := hs.first_integer ⟨l, hl, rfl⟩ hread (by rw [heq]; exact hfit)
  rw [heq] at hst
  apply (parse_pdu_fields_meets hz hnw hst hfit).mono _ (fun _ _ => trivial)
  rintro _ s' - ⟨f, ts, y, hv, hc, hp, hy, hry, rfl⟩
  have hle := hry.le
  simp only at hle hp hry hv hc
  subst hp
  refine ⟨n, f, ts, f.pdu_type :: l, y, hv, hc, ⟨l, hl, rfl⟩, hy, ?_, by omega, ?_, rfl⟩
  · rw [List.cons_append]
    exact reads_cons.mpr ⟨by omega, ht, reads_append.mpr ⟨hr, hry.mono (by omega)⟩⟩
  · simp only [List.length_cons]
    omega

/-- A header and what it declares are less than 2^33 bytes. -/
theorem header_sum_lt {n : Nat} {t : UInt8} {x : List UInt8} (hx : IsHeader 4 t n x) :
    x.length + n < 2 ^ 33 := by
  obtain ⟨l, hl, rfl⟩ := hx
  have h1 := hl.length_le
  have h2 := length_lt hl
  simp only [List.length_cons]
  omega

/-- A datagram that has a layout gives the packet of the layout. -/
theorem parse_message_ok (hz : Fits z 6) (hz' : Fits z data.length) {l : Layout} {s : Cursor}
    (hs : s.offset = 0) (h : HasLayout 4 l data) :
    ∃ o, parse_message z data s = .ok () ⟨o, l.packet⟩ := by
  obtain ⟨hsur, o, pc, hd, ⟨v, c, hv, hc, rfl⟩, hpc, hh, ⟨x, hx, hdata⟩⟩ := h
  have hlen := congrArg List.length hdata
  have hr : Reads data 0 data.length (x ++ (v ++ c ++ (hd ++ (pc ++ l.after)))) := by
    rw [← hdata]
    exact reads_data
  have hl1 := hr.le
  obtain ⟨h1, hr⟩ := reads_append.mp hr
  rw [List.append_assoc] at hr
  obtain ⟨h2, hr⟩ := reads_append.mp hr
  obtain ⟨h3, hr⟩ := reads_append.mp hr
  rw [← List.append_assoc] at hr
  obtain ⟨h4, -⟩ := reads_append.mp hr
  simp only [List.length_append, Nat.zero_add] at hlen hl1 h2 h3 h4
  unfold parse_message
  rw [bind_ok (parse_header_ok hz hx hs (by rw [hs]; exact h1)
    (by simp only [List.length_append]; omega)), bind_ok (parse_version_ok hz' hv h2),
    bind_ok (parse_community_ok hz' hc h3),
    parse_pdu_ok hz' hh hpc h4 (by omega) (by simp only; omega)]
  exact ⟨_, rfl⟩

/-- Where no used length wraps, the parser ends on the datagram, asks for
no byte outside it, and takes it only if it has a layout. -/
theorem parse_message_meets (hz : Fits z 6) (hz' : data.length < 2 ^ 33 → Fits z data.length)
    (hnw : ¬ Wraps z data) {s : Cursor} (hs : s.offset = 0) :
    (parse_message z data s).Meets
      (fun _ s' => ∃ l, HasLayout 4 l data ∧ s'.packet = l.packet) (fun _ => True) := by
  unfold parse_message
  apply meets_bind
  apply (parse_header_meets hz hs).mono _ (fun _ h => h)
  rintro _ s₁ - ⟨n, x, hx, h1, hn, rfl⟩
  have hz := hz' (by rw [← hn]; exact header_sum_lt hx)
  have hst := Stands.version hx h1 hn
  apply meets_bind
  apply (parse_version_meets hz).mono _ (fun _ h => h)
  rintro _ s₂ - ⟨v, xv, hv, h2, rfl⟩
  have hst := hst.community hv h2
  apply meets_bind
  apply (parse_community_meets hz hnw hst).mono _ (fun _ h => h)
  rintro _ s₃ - ⟨c, xc, hc, h3, rfl⟩
  have hst := hst.pdu hc h3
  apply (parse_pdu_meets hz hnw hst).mono _ (fun _ h => h)
  rintro _ s₄ - ⟨k, f, ts, hd, y, rfl, rfl, hh, hy, h4, hyk, hk, hp⟩
  simp only at h2 h3 h4 hk hp
  have hall : Reads data 0 data.length (x ++ (xv ++ (xc ++ (hd ++ y)))) := by
    refine reads_append.mpr ⟨h1, ?_⟩
    rw [Nat.zero_add]
    exact reads_append.mpr ⟨h2, reads_append.mpr ⟨h3, h4⟩⟩
  obtain ⟨after, hafter⟩ := hall.2
  rw [List.drop_zero] at hafter
  have hlen := congrArg List.length hafter
  simp only [List.length_append] at hlen
  refine ⟨⟨f, ts, after, k - y.length⟩, ⟨by simp only; omega, xv ++ xc, y, hd,
    ⟨xv, xc, hv, hc, rfl⟩, hy, ?_, x, ?_, ?_⟩, hp⟩
  · rwa [Nat.add_sub_cancel' hyk]
  · have hbody : n = (xv ++ xc ++ (hd ++ (y ++ after))).length := by
      simp only [List.length_append]
      omega
    rwa [hbody] at hx
  · rw [← hafter]
    simp only [List.append_assoc]

/-! ## `parse` -/

theorem HasLayout.length_lt {l : Layout} (h : HasLayout 4 l data) : data.length < 2 ^ 33 := by
  obtain ⟨-, o, pc, hd, -, -, -, x, hx, rfl⟩ := h
  rw [List.length_append]
  exact header_sum_lt hx

/-- The build computes exactly on the header, and on all of a datagram that
is not too long for one. -/
structure Suits (z : SizeT) (data : List UInt8) : Prop where
  header : Fits z 6
  whole : data.length < 2 ^ 33 → Fits z data.length

theorem suits_exact (data : List UInt8) : Suits .exact data :=
  ⟨fits_exact _, fun _ => fits_exact _⟩

theorem suits_64 (data : List UInt8) : Suits (.bits 64) data :=
  ⟨fits_bits (by omega) (by omega), fun h => fits_bits (by omega) (by omega)⟩

theorem parse_ok (hz : Suits z data) (this : SNMPPacket) {l : Layout} (h : HasLayout 4 l data) :
    parse z this data = .ok () l.packet := by
  obtain ⟨o, ho⟩ := @parse_message_ok z data hz.header (hz.whole h.length_lt) l ⟨0, this⟩ rfl h
  rw [parse, ho]

/-- What `parse` does where no used length wraps: it takes exactly the
datagrams with a layout. -/
theorem parse_cases (hz : Suits z data) (hnw : ¬ Wraps z data) (this : SNMPPacket) :
    (∃ l, HasLayout 4 l data ∧ parse z this data = .ok () l.packet) ∨
      ((¬ ∃ l, HasLayout 4 l data) ∧ ∃ p, parse z this data = .fail p) := by
  have hm := @parse_message_meets z data hz.header hz.whole hnw ⟨0, this⟩ rfl
  cases hp : parse_message z data ⟨0, this⟩ with
  | ok u s =>
    rw [hp] at hm
    obtain ⟨l, hl, -⟩ := hm
    exact Or.inl ⟨l, hl, parse_ok hz this hl⟩
  | fail s =>
    have hfail : parse z this data = .fail s.packet := by rw [parse, hp]
    refine Or.inr ⟨?_, s.packet, hfail⟩
    rintro ⟨l, hl⟩
    rw [parse_ok hz this hl] at hfail
    cases hfail
  | outside => rw [hp] at hm; exact hm.elim
  | running => rw [hp] at hm; exact hm.elim

end simple_snmpd.snmp_packet
