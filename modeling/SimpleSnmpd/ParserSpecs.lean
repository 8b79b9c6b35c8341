-- What the routines of the parser do with one field: which bytes they take,
-- and that they ask for no byte outside the datagram.
import SimpleSnmpd.FieldPositions
import Mathlib.Tactic.Ring

open routines routines.Routine ber

namespace simple_snmpd.snmp_packet

variable {z : SizeT} {data : List UInt8} {m : Nat}

/-! ## Reads of the data -/

theorem byte_at_ok {o : Nat} {b : UInt8} (h : data[o]? = some b) (s : Cursor) :
    byte_at data o s = .ok b s := by
  simp [byte_at, h]

theorem bytes_at_ok {o e : Nat} {x : List UInt8} (h : Reads data o e x) (he : e ≤ data.length)
    (s : Cursor) : bytes_at data o x.length s = .ok x s := by
  have hle := h.le
  have htake : (data.drop o).take x.length = x := (List.prefix_iff_eq_take.mp h.2).symm
  unfold bytes_at
  rw [if_pos (by omega), htake]

theorem bytes_at_outside {o n : Nat} (h : data.length < o + n) (s : Cursor) :
    bytes_at data o n s = .outside := by
  unfold bytes_at
  rw [if_neg (by omega)]

theorem advance_ok (hz : Fits z m) {n : Nat} {s : Cursor} (h : s.offset + n ≤ m + 1) :
    advance z n s = .ok () ⟨s.offset + n, s.packet⟩ := by
  unfold advance
  rw [modify_run, hz.small _ h]

theorem assign_run (f : SNMPPacket → SNMPPacket) (s : Cursor) :
    assign f s = .ok () { s with packet := f s.packet } := rfl

theorem next_byte_ok (hz : Fits z m) {b : UInt8} {s : Cursor} (h : data[s.offset]? = some b)
    (hm : s.offset + 1 ≤ m + 1) :
    next_byte z data s = .ok b { s with offset := s.offset + 1 } := by
  unfold next_byte
  rw [get_bind_run, bind_ok (byte_at_ok h s), bind_ok (advance_ok hz hm)]
  rfl

theorem next_byte_outside {s : Cursor} (h : data.length ≤ s.offset) :
    next_byte z data s = .outside := by
  have hnone : data[s.offset]? = none := List.getElem?_eq_none h
  unfold next_byte
  rw [get_bind_run]
  exact bind_outside (by simp [byte_at, hnone]) _

theorem expect_ok (hz : Fits z m) {e : Nat} {tag : UInt8} {s : Cursor} (ho : s.offset < e)
    (h : data[s.offset]? = some tag) (hm : min e (s.offset + 5) ≤ m + 1) :
    expect z data e tag s = .ok () { s with offset := s.offset + 1 } := by
  unfold expect
  rw [get_bind_run, bind_ok (rejectIf_neg (by omega) s), bind_ok (byte_at_ok h s),
    bind_ok (rejectIf_neg (by simp) s)]
  exact advance_ok hz (by omega)

theorem expect_fail {e : Nat} (tag : UInt8) {s : Cursor} (ho : e ≤ s.offset) :
    expect z data e tag s = .fail s := by
  unfold expect
  rw [get_bind_run, bind_fail (rejectIf_pos ho s)]

theorem expect_meets (hz : Fits z m) {e : Nat} {tag : UInt8} {s : Cursor}
    (he : e ≤ data.length) (hm : min e (s.offset + 5) ≤ m + 1) :
    (expect z data e tag s).Meets
      (fun _ s' => s.offset < e ∧ data[s.offset]? = some tag ∧
        s' = { s with offset := s.offset + 1 }) (fun s' => s' = s) := by
  unfold expect
  rw [get_bind_run]
  refine meets_rejectIf (fun _ => rfl) (fun ho => ?_)
  have hb : data[s.offset]? = some data[s.offset] := List.getElem?_eq_getElem (by omega)
  rw [bind_ok (byte_at_ok hb s)]
  refine meets_rejectIf (fun _ => rfl) (fun htag => ?_)
  rw [advance_ok hz (by omega)]
  exact ⟨by omega, by rw [hb, not_ne_iff.mp htag], rfl⟩

/-! ## Lengths -/

theorem shift_or (n : Nat) (b : UInt8) : n <<< 8 ||| b.toNat = n * 256 + b.toNat := by
  rw [← Nat.shiftLeft_add_eq_or_of_lt b.toNat_lt, Nat.shiftLeft_eq]

/-- The top bit of an octet says which form it starts. -/
theorem top_bit (b : UInt8) : (b &&& 0x80 = 0 ↔ b.toNat < 128) ∧
    (128 ≤ b.toNat → (b &&& 0x7F).toNat = b.toNat - 128) := by
  have h : ∀ n < 256, (UInt8.ofNat n &&& 0x80 = 0 ↔ n < 128) ∧
      (128 ≤ n → (UInt8.ofNat n &&& 0x7F).toNat = n - 128) := by decide +kernel
  have := h b.toNat b.toNat_lt
  rwa [UInt8.ofNat_toNat] at this

/-- One octet shifted into a length. With at most four octets in all, no
bit is lost. -/
theorem shift_length (hz : Fits z m) {k len : Nat} (b : UInt8) (hk : len < 256 ^ k)
    (hk4 : k < 4) : z.wrap (len <<< 8) ||| b.toNat = len * 256 + b.toNat := by
  have hpow : 256 ^ k ≤ 256 ^ 3 := Nat.pow_le_pow_right (by omega) (by omega)
  rw [hz.word _ (by rw [Nat.shiftLeft_eq]; omega), shift_or]

theorem length_octets_ok (hz : Fits z m) {e k : Nat} {os : List UInt8} {len : Nat} {s : Cursor}
    (h : Reads data s.offset e os) (hm : min e (s.offset + os.length) ≤ m + 1) (hk : len < 256 ^ k)
    (hk4 : k + os.length ≤ 4) :
    length_octets z data e os.length len s =
      .ok (beFrom len os) { s with offset := s.offset + os.length } := by
  induction os generalizing k len s with
  | nil => rfl
  | cons b os ih =>
    obtain ⟨ho, hb, hr⟩ := reads_cons.mp h
    simp only [List.length_cons] at hm hk4
    have hlt := b.toNat_lt
    rw [List.length_cons, length_octets, get_bind_run, bind_ok (rejectIf_neg (by omega) s),
      bind_ok (next_byte_ok hz hb (by omega)), shift_length hz b hk (by omega),
      @ih (k + 1) _ _ hr (by simp only; omega) (by rw [pow_succ]; omega) (by omega), beFrom_cons]
    congr 2
    simp only
    omega

theorem length_octets_meetsOr (hz : Fits z m) {e j k len : Nat} {s : Cursor}
    (ho : s.offset ≤ e) (hm : min e (s.offset + k) ≤ m + 1) (hj : len < 256 ^ j)
    (hj4 : j + k ≤ 4) :
    (length_octets z data e k len s).MeetsOr (data.length < e)
      (fun n s' => ∃ os, os.length = k ∧ Reads data s.offset e os ∧ n = beFrom len os ∧
        s' = { s with offset := s.offset + os.length })
      (fun s' => s.offset ≤ s'.offset ∧ s'.offset ≤ e ∧ s'.packet = s.packet) := by
  induction k generalizing j len s with
  | zero => exact ⟨[], rfl, reads_nil.mpr ho, rfl, rfl⟩
  | succ k ih =>
    rw [length_octets, get_bind_run]
    apply meetsOr_rejectIf (fun _ => ⟨Nat.le_refl _, ho, rfl⟩)
    intro hlt
    by_cases hin : s.offset < data.length
    swap
    · rw [bind_outside (next_byte_outside (by omega))]
      show data.length < e
      omega
    have hb : data[s.offset]? = some data[s.offset] := List.getElem?_eq_getElem hin
    have hbyte := data[s.offset].toNat_lt
    rw [bind_ok (next_byte_ok hz hb (by omega)), shift_length hz _ hj (by omega)]
    have h1 := @ih (j + 1) (len * 256 + data[s.offset].toNat) { s with offset := s.offset + 1 }
      (by simp only; omega) (by simp only; omega) (by rw [pow_succ]; omega) (by omega)
    apply h1.mono
    · rintro n s' ⟨os, hos, hr, rfl, rfl⟩
      refine ⟨data[s.offset] :: os, by simp [hos], reads_cons.mpr ⟨by omega, hb, hr⟩, ?_, ?_⟩
      · rw [beFrom_cons]
      · simp only [List.length_cons, Cursor.mk.injEq, and_true]
        omega
    · rintro s' ⟨h2, h3, h4⟩
      exact ⟨by simp only at h2; omega, h3, h4⟩

/-- `parse_length` takes each definite length of up to four octets. -/
theorem parse_length_ok (hz : Fits z m) {e n : Nat} {l : List UInt8} {s : Cursor}
    (hl : LengthOctets 4 l n) (h : Reads data s.offset e l) (hm : min e (s.offset + 5) ≤ m + 1) :
    parse_length z data e s = .ok n { s with offset := s.offset + l.length } := by
  cases hl with
  | short b hb =>
    obtain ⟨ho, hd, -⟩ := reads_cons.mp h
    unfold parse_length
    rw [get_bind_run, bind_ok (rejectIf_neg (by omega) s),
      bind_ok (next_byte_ok hz hd (by omega)), if_pos ((top_bit b).1.mpr hb)]
    rfl
  | long b os hb hpos hle =>
    obtain ⟨ho, hd, hr⟩ := reads_cons.mp h
    have hform : ¬ (b &&& 0x80 = 0) := fun hc => by have := (top_bit b).1.mp hc; omega
    have hcount : (b &&& 0x7F).toNat = os.length := by
      rw [(top_bit b).2 (by omega)]
      omega
    unfold parse_length
    rw [get_bind_run, bind_ok (rejectIf_neg (by omega) s),
      bind_ok (next_byte_ok hz hd (by omega)), if_neg hform, hcount,
      bind_ok (rejectIf_neg (by omega) _),
      @length_octets_ok _ _ _ hz _ 0 _ _ _ hr (by simp only; omega) (by simp) (by omega)]
    simp only [List.length_cons, beValue]
    congr 2
    omega

/-- `parse_length` takes only such a length, and stays below its limit. It
asks for a byte outside the data only where the limit is outside. -/
theorem parse_length_meetsOr (hz : Fits z m) {e : Nat} {s : Cursor} (ho : s.offset ≤ e)
    (hm : min e (s.offset + 5) ≤ m + 1) :
    (parse_length z data e s).MeetsOr (data.length < e)
      (fun n s' => ∃ l, LengthOctets 4 l n ∧ Reads data s.offset e l ∧
        s' = { s with offset := s.offset + l.length })
      (fun s' => s.offset ≤ s'.offset ∧ s'.offset ≤ e ∧ s'.packet = s.packet) := by
  unfold parse_length
  rw [get_bind_run]
  apply meetsOr_rejectIf (fun _ => ⟨Nat.le_refl _, ho, rfl⟩)
  intro hlt
  by_cases hin : s.offset < data.length
  swap
  · rw [bind_outside (next_byte_outside (by omega))]
    show data.length < e
    omega
  have hb : data[s.offset]? = some data[s.offset] := List.getElem?_eq_getElem hin
  rw [bind_ok (next_byte_ok hz hb (by omega))]
  generalize data[s.offset] = b at hb
  split
  · rename_i hform
    exact ⟨[b], .short b ((top_bit b).1.mp hform), reads_cons.mpr ⟨by omega, hb, by
      rw [reads_nil]; omega⟩, rfl⟩
  · rename_i hform
    have hge : 128 ≤ b.toNat := by
      by_contra hc
      exact hform ((top_bit b).1.mpr (by omega))
    have hcount := (top_bit b).2 hge
    apply meetsOr_rejectIf (fun _ => ⟨by simp only; omega, by simp only; omega, rfl⟩)
    intro hk
    apply (@length_octets_meetsOr _ _ _ hz _ 0 _ 0 _ (by simp only; omega)
      (by simp only; omega) (by simp) (by omega)).mono
    · rintro n s' ⟨os, hos, hr, rfl, rfl⟩
      refine ⟨b :: os, .long b os (by omega) (by omega) (by omega),
        reads_cons.mpr ⟨by omega, hb, hr⟩, ?_⟩
      simp only [List.length_cons, Cursor.mk.injEq, and_true]
      omega
    · rintro s' ⟨h2, h3, h4⟩
      exact ⟨by simp only at h2; omega, h3, h4⟩

theorem parse_length_meets (hz : Fits z m) {e : Nat} {s : Cursor} (he : e ≤ data.length)
    (ho : s.offset ≤ e) (hm : min e (s.offset + 5) ≤ m + 1) :
    (parse_length z data e s).Meets
      (fun n s' => ∃ l, LengthOctets 4 l n ∧ Reads data s.offset e l ∧
        s' = { s with offset := s.offset + l.length })
      (fun s' => s.offset ≤ s'.offset ∧ s'.offset ≤ e ∧ s'.packet = s.packet) :=
  (parse_length_meetsOr hz ho hm).meets (by omega)

theorem length_lt {l : List UInt8} {n : Nat} (hl : LengthOctets 4 l n) : n < 2 ^ 32 :=
  hl.value_lt (by omega)

theorem parse_length_within_ok (hz : Fits z data.length) {e n : Nat} {l : List UInt8}
    {s : Cursor} (hl : LengthOctets 4 l n) (h : Reads data s.offset e l) (he : e ≤ data.length)
    (hn : z.wrap (s.offset + l.length + n) ≤ e) :
    parse_length_within z data e s = .ok n { s with offset := s.offset + l.length } := by
  unfold parse_length_within
  rw [bind_ok (parse_length_ok hz hl h (by omega)), get_bind_run,
    bind_ok (rejectIf_neg (by simp only; omega) _)]
  rfl

/-- A declared length that is taken ends inside the bound, as a `size_t`. -/
theorem parse_length_within_meets (hz : Fits z m) (hd : data.length ≤ m + 1) {e : Nat}
    {s : Cursor} (he : e ≤ data.length) (ho : s.offset ≤ e) :
    (parse_length_within z data e s).Meets
      (fun n s' => ∃ l, LengthOctets 4 l n ∧ Reads data s.offset e l ∧
        z.wrap (s.offset + l.length + n) ≤ e ∧ s' = { s with offset := s.offset + l.length })
      (fun _ => True) := by
  apply meets_bind
  apply (parse_length_meets hz he ho (by omega)).mono _ (fun _ _ => trivial)
  rintro n s' - ⟨l, hl, hr, rfl⟩
  rw [get_bind_run]
  apply meets_rejectIf (fun _ => trivial)
  intro hn
  exact ⟨l, hl, hr, Nat.le_of_not_lt hn, rfl⟩

/-! ## Headers -/

variable {β : Type}

theorem header_ok (hz : Fits z data.length) {e n : Nat} {tag : UInt8} {x : List UInt8}
    {s : Cursor} (hx : IsHeader 4 tag n x) (h : Reads data s.offset e x) (he : e ≤ data.length)
    (hn : z.wrap (s.offset + x.length + n) ≤ e) (f : Nat → Routine Cursor β) :
    (expect z data e tag >>= fun _ => parse_length_within z data e >>= f) s =
      f n { s with offset := s.offset + x.length } := by
  obtain ⟨l, hl, rfl⟩ := hx
  obtain ⟨ho, ht, hr⟩ := reads_cons.mp h
  have heq : s.offset + (l.length + 1) = s.offset + 1 + l.length := by omega
  rw [List.length_cons, heq] at hn
  rw [bind_ok (expect_ok hz ho ht (by omega)), bind_ok (parse_length_within_ok hz hl hr he hn),
    List.length_cons, heq]

/-- A header that fits its bound is as it should be. -/
theorem header_fits_ok (hz : Fits z data.length) {e n : Nat} {tag : UInt8} {x : List UInt8}
    {s : Cursor} (hx : IsHeader 4 tag n x) (h : Reads data s.offset e x) (he : e ≤ data.length)
    (hn : s.offset + x.length + n ≤ e) (f : Nat → Routine Cursor β) :
    (expect z data e tag >>= fun _ => parse_length_within z data e >>= f) s =
      f n { s with offset := s.offset + x.length } :=
  header_ok hz hx h he (by rw [hz.small _ (by omega)]; exact hn) f

/-- A header that declares more than its bound holds is rejected. -/
theorem header_fail (hz : Fits z data.length) {e n : Nat} {tag : UInt8} {x : List UInt8}
    {s : Cursor} (hx : IsHeader 4 tag n x) (h : Reads data s.offset e x) (he : e ≤ data.length)
    (hn : e < z.wrap (s.offset + x.length + n)) (f : Nat → Routine Cursor β) :
    (expect z data e tag >>= fun _ => parse_length_within z data e >>= f) s =
      .fail { s with offset := s.offset + x.length } := by
  obtain ⟨l, hl, rfl⟩ := hx
  obtain ⟨ho, ht, hr⟩ := reads_cons.mp h
  have heq : s.offset + (l.length + 1) = s.offset + 1 + l.length := by omega
  rw [List.length_cons, heq] at hn
  have hwithin : parse_length_within z data e { s with offset := s.offset + 1 } =
      .fail { s with offset := s.offset + 1 + l.length } := by
    unfold parse_length_within
    rw [bind_ok (parse_length_ok hz hl hr (by simp only; omega)), get_bind_run]
    exact bind_fail (rejectIf_pos hn _) _
  rw [bind_ok (expect_ok hz ho ht (by omega)), bind_fail hwithin, List.length_cons, heq]

/-- The end that a field declares is less than 2^33 bytes past the end of
the datagram. -/
theorem declared_end_lt {o e n : Nat} {t : UInt8} {x : List UInt8} (hx : IsHeader 4 t n x)
    (h : Reads data o e x) : o + x.length + n < data.length + 2 ^ 32 := by
  have hpos := hx.length_ge
  obtain ⟨l, hl, -⟩ := hx
  have hn := length_lt hl
  have := h.le_length (by omega)
  omega

theorem header_meetsOr (hz : Fits z m) (hd : data.length ≤ m + 1) {O : Prop} {e : Nat}
    {tag : UInt8} {s : Cursor} {f : Nat → Routine Cursor β} {Q : β → Cursor → Prop}
    (he : e ≤ data.length)
    (h : ∀ n x, IsHeader 4 tag n x → Reads data s.offset e x → s.offset + x.length + n ≤ e →
      (f n { s with offset := s.offset + x.length }).MeetsOr O Q (fun _ => True))
    (hw : ∀ n x, IsHeader 4 tag n x → Reads data s.offset e x →
      z.wrap (s.offset + x.length + n) ≠ s.offset + x.length + n →
      z.wrap (s.offset + x.length + n) ≤ e →
      (f n { s with offset := s.offset + x.length }).MeetsOr O Q (fun _ => True)) :
    ((expect z data e tag >>= fun _ => parse_length_within z data e >>= f) s).MeetsOr O Q
      (fun _ => True) := by
  apply meetsOr_bind
  apply ((expect_meets hz he (by omega)).or O).mono _ (fun _ _ => trivial)
  rintro _ s' ⟨ho, ht, rfl⟩
  apply meetsOr_bind
  apply ((parse_length_within_meets hz hd he (by simp only; omega)).or O).mono _
    (fun _ _ => trivial)
  rintro n s' ⟨l, hl, hr, hn, rfl⟩
  have heq : s.offset + (tag :: l).length = s.offset + 1 + l.length := by
    simp only [List.length_cons]
    omega
  have hread : Reads data s.offset e (tag :: l) := reads_cons.mpr ⟨ho, ht, hr⟩
  simp only
  rw [← heq] at hn ⊢
  by_cases hfit : z.wrap (s.offset + (tag :: l).length + n) = s.offset + (tag :: l).length + n
  · exact h n _ ⟨l, hl, rfl⟩ hread (by rwa [hfit] at hn)
  · exact hw n _ ⟨l, hl, rfl⟩ hread hfit hn

/-- In a datagram where no used length wraps, a field that the reader
stands before has its content inside its bound. -/
theorem field_meets (hz : Fits z data.length) (hnw : ¬ Wraps z data) {site : Site} {e : Nat}
    {tag : UInt8} {s : Cursor} {f : Nat → Routine Cursor β} {Q : β → Cursor → Prop}
    (he : e ≤ data.length) (hs : Stands data site s.offset e) (hu : site.Used)
    (ht : site.Allows tag)
    (h : ∀ n x, IsHeader 4 tag n x → Reads data s.offset e x → s.offset + x.length + n ≤ e →
      (f n { s with offset := s.offset + x.length }).Meets Q (fun _ => True)) :
    ((expect z data e tag >>= fun _ => parse_length_within z data e >>= f) s).Meets Q
      (fun _ => True) := by
  apply meets_iff.mpr
  apply header_meetsOr hz (Nat.le_succ _) he
  · intro n x hx hr hn
    exact meets_iff.mp (h n x hx hr hn)
  · intro n x hx hr hw _
    exact (wraps_only_if_not hnw site hu hs ht hx hr hw).elim

/-! ## The INTEGERs of the PDU -/

/-- The octets of an INTEGER, shifted into a cleared field. -/
def shifted (clear : SNMPPacket → SNMPPacket) (shift : UInt8 → SNMPPacket → SNMPPacket)
    (c : List UInt8) (p : SNMPPacket) : SNMPPacket :=
  c.foldl (fun p b => shift b p) (clear p)

/-- One octet shifted in. -/
theorem shift_turn_ok (hz : Fits z data.length) (shift : UInt8 → SNMPPacket → SNMPPacket)
    {b : UInt8} {s : Cursor} (h : data[s.offset]? = some b) :
    (next_byte z data >>= fun b => assign (shift b)) s =
      .ok () ⟨s.offset + 1, shift b s.packet⟩ := by
  have hlt : s.offset < data.length := (List.getElem?_eq_some_iff.mp h).1
  rw [bind_ok (next_byte_ok hz h (by omega))]
  rfl

theorem times_shift_ok (hz : Fits z data.length) {e : Nat}
    (shift : UInt8 → SNMPPacket → SNMPPacket) {c : List UInt8} {s : Cursor}
    (h : Reads data s.offset e c) :
    times c.length (next_byte z data >>= fun b => assign (shift b)) s =
      .ok () ⟨s.offset + c.length, c.foldl (fun p b => shift b p) s.packet⟩ := by
  induction c generalizing s with
  | nil => rfl
  | cons b c ih =>
    obtain ⟨-, hb, hr⟩ := reads_cons.mp h
    rw [List.length_cons, times_succ_run, bind_ok (shift_turn_ok hz shift hb), ih hr]
    simp only [List.foldl_cons]
    congr 2
    omega

/-- A loop over more octets than the datagram has asks for one outside it. -/
theorem times_shift_outside (hz : Fits z data.length)
    (shift : UInt8 → SNMPPacket → SNMPPacket) {n : Nat} {s : Cursor}
    (ho : s.offset ≤ data.length) (h : data.length < s.offset + n) :
    times n (next_byte z data >>= fun b => assign (shift b)) s = .outside := by
  induction n generalizing s with
  | zero => omega
  | succ n ih =>
    rw [times_succ_run]
    by_cases hlt : s.offset < data.length
    · have hb : data[s.offset]? = some data[s.offset] := List.getElem?_eq_getElem hlt
      rw [bind_ok (shift_turn_ok hz shift hb)]
      exact ih (by simp only; omega) (by simp only; omega)
    · exact bind_outside (bind_outside (next_byte_outside (by omega)) _) _

theorem parse_integer_ok (hz : Fits z data.length) {e : Nat} (clear : SNMPPacket → SNMPPacket)
    (shift : UInt8 → SNMPPacket → SNMPPacket) {c x : List UInt8} {s : Cursor}
    (hx : IsElement 4 0x02 c x) (h : Reads data s.offset e x) (he : e ≤ data.length) :
    parse_integer z data e clear shift s =
      .ok () ⟨s.offset + x.length, shifted clear shift c s.packet⟩ := by
  obtain ⟨hd, hh, rfl⟩ := hx
  obtain ⟨h1, h2⟩ := reads_append.mp h
  unfold parse_integer
  rw [header_fits_ok hz hh h1 he h2.le, bind_ok (assign_run clear _),
    times_shift_ok hz shift h2]
  simp only [List.length_append, shifted]
  congr 2
  omega

theorem parse_integer_meets (hz : Fits z data.length) (hnw : ¬ Wraps z data) {e k : Nat}
    (clear : SNMPPacket → SNMPPacket) (shift : UInt8 → SNMPPacket → SNMPPacket) {s : Cursor}
    (he : e ≤ data.length) (hs : Stands data (.integer (k + 1)) s.offset e) :
    (parse_integer z data e clear shift s).Meets
      (fun _ s' => ∃ c x, IsElement 4 0x02 c x ∧ Reads data s.offset e x ∧
        s' = ⟨s.offset + x.length, shifted clear shift c s.packet⟩) (fun _ => True) := by
  unfold parse_integer
  apply field_meets hz hnw he hs trivial rfl
  intro n x hx hr hn
  obtain ⟨hc, hlen⟩ := reads_range hn he
  generalize (data.drop (s.offset + x.length)).take n = c at hc hlen
  subst hlen
  rw [bind_ok (assign_run clear _), times_shift_ok hz shift hc]
  refine ⟨c, x ++ c, ⟨x, hx, rfl⟩, reads_append.mpr ⟨hr, hc⟩, ?_⟩
  simp only [List.length_append, shifted, Cursor.mk.injEq, and_true]
  omega

/-- A field that keeps its value under shifts holds the value of the octets
shifted into it. Here `v n` is the packet whose field holds `n`. -/
theorem shifted_value {clear : SNMPPacket → SNMPPacket} {shift : UInt8 → SNMPPacket → SNMPPacket}
    {p : SNMPPacket} {v : Nat → SNMPPacket} (hclear : clear p = v 0)
    (hshift : ∀ n b, shift b (v n) = v (n * 256 + b.toNat)) (c : List UInt8) :
    shifted clear shift c p = v (beValue c) := by
  have h : ∀ n, c.foldl (fun p b => shift b p) (v n) = v (beFrom n c) := by
    induction c with
    | nil => intro n; rfl
    | cons b c ih =>
      intro n
      rw [List.foldl_cons, hshift, ih, beFrom_cons]
  unfold shifted
  rw [hclear, h]
  rfl

/-- A field of 32 bits keeps the low 32 bits. -/
theorem word_shift (n : Nat) (b : UInt8) :
    (UInt32.ofNat n <<< 8) ||| b.toUInt32 = UInt32.ofNat (n * 256 + b.toNat) := by
  apply UInt32.toNat_inj.mp
  have hlt := b.toNat_lt
  have hshift : (UInt32.ofNat n <<< 8).toNat = (n % 2 ^ 24) <<< 8 := by
    rw [UInt32.toNat_shiftLeft, UInt32.toNat_ofNat', Nat.shiftLeft_eq, Nat.shiftLeft_eq]
    simp only [UInt32.reduceToNat, Nat.reduceMod, Nat.reducePow]
    omega
  rw [UInt32.toNat_or, UInt8.toNat_toUInt32, hshift, shift_or, UInt32.toNat_ofNat']
  omega

/-- A field of eight bits keeps the last octet. -/
theorem octet_shift (n : Nat) (b : UInt8) :
    octet ((UInt8.ofNat n).toNat <<< 8 ||| b.toNat) = UInt8.ofNat (n * 256 + b.toNat) := by
  apply UInt8.toNat_inj.mp
  rw [shift_or, octet, UInt8.toNat_ofNat', UInt8.toNat_ofNat', UInt8.toNat_ofNat']
  omega

theorem shifted_request_id (c : List UInt8) (p : SNMPPacket) :
    shifted (fun p => { p with request_id := 0 }) shift_request_id c p =
      { p with request_id := UInt32.ofNat (beValue c) } :=
  shifted_value (v := fun n => { p with request_id := UInt32.ofNat n }) rfl
    (fun n b => by simp only [shift_request_id, word_shift]) c

theorem shifted_error_status (c : List UInt8) (p : SNMPPacket) :
    shifted (fun p => { p with error_status := 0 }) shift_error_status c p =
      { p with error_status := UInt8.ofNat (beValue c) } :=
  shifted_value (v := fun n => { p with error_status := UInt8.ofNat n }) rfl
    (fun n b => by simp only [shift_error_status, octet_shift]) c

theorem shifted_error_index (c : List UInt8) (p : SNMPPacket) :
    shifted (fun p => { p with error_index := 0 }) shift_error_index c p =
      { p with error_index := UInt8.ofNat (beValue c) } :=
  shifted_value (v := fun n => { p with error_index := UInt8.ofNat n }) rfl
    (fun n b => by simp only [shift_error_index, octet_shift]) c

end simple_snmpd.snmp_packet
