-- Laws of two routines of the parser on their own, at any offset and with
-- any bound that a caller may give: the reader of lengths, and the loop over
-- a section of bindings.
import SimpleSnmpd.MessageSpecs
import Mathlib.Algebra.BigOperators.Group.List.Basic

open routines ber

namespace simple_snmpd.snmp_packet

variable {data : List UInt8}

/-- A `size_t` of 64 bits is exact on every offset of a datagram. -/
theorem fits_64 {e : Nat} (h : e < 2 ^ 64) : Fits (.bits 64) (e - 1) :=
  fits_bits (by omega) (by omega)

/-! ## Lengths -/

/-- What `parse_length` does at an offset, up to a limit. -/
structure TakesLengths (data : List UInt8) (limit : Nat) (s : Cursor) : Prop where
  /-- It returns true exactly on a definite length below the limit, and moves
  past it. -/
  takes_iff : ∀ n s', parse_length (.bits 64) data limit s = .ok n s' ↔
    ∃ l, LengthOctets 4 l n ∧ Reads data s.offset limit l ∧
      s' = { s with offset := s.offset + l.length }
  value_lt : ∀ n s', parse_length (.bits 64) data limit s = .ok n s' → n < 2 ^ 32
  between_of_ok : ∀ n s', parse_length (.bits 64) data limit s = .ok n s' →
    s.offset ≤ s'.offset ∧ s'.offset ≤ limit
  between_of_fail : ∀ s', parse_length (.bits 64) data limit s = .fail s' →
    s.offset ≤ s'.offset ∧ s'.offset ≤ limit
  ends : parse_length (.bits 64) data limit s ≠ .running
  inside : limit ≤ data.length → parse_length (.bits 64) data limit s ≠ .outside
  /-- It takes a long form of any number of octets that hold the length. -/
  takes_long_form : ∀ m n after, 1 ≤ m → m ≤ 4 → n < 256 ^ m → s.offset + (m + 1) ≤ limit →
    data.drop s.offset = longForm m n ++ after →
    parse_length (.bits 64) data limit s = .ok n { s with offset := s.offset + (m + 1) }

/-- `parse_length` takes exactly the definite lengths of up to four octets,
wherever they stand below its limit. -/
theorem parse_length_takes_exactly_the_definite_lengths (data : List UInt8) (limit : Nat)
    (hlimit : limit < 2 ^ 64) (s : Cursor) (hs : s.offset ≤ limit) :
    TakesLengths data limit s := by
  have hz := fits_64 hlimit
  have htakes : ∀ n l, LengthOctets 4 l n → Reads data s.offset limit l →
      parse_length (.bits 64) data limit s =
        .ok n { s with offset := s.offset + l.length } :=
    fun n l hl hr => parse_length_ok hz hl hr (by omega)
  have hmeets := @parse_length_meetsOr _ data _ hz limit s hs (by omega)
  constructor
  case takes_iff =>
    intro n s'
    constructor
    · intro h
      rwa [h] at hmeets
    · rintro ⟨l, hl, hr, rfl⟩
      exact htakes n l hl hr
  case value_lt =>
    intro n s' h
    rw [h] at hmeets
    obtain ⟨l, hl, -⟩ := hmeets
    exact length_lt hl
  case between_of_ok =>
    intro n s' h
    rw [h] at hmeets
    obtain ⟨l, -, hr, rfl⟩ := hmeets
    exact ⟨Nat.le_add_right _ _, hr.le⟩
  case between_of_fail =>
    intro s' h
    rw [h] at hmeets
    exact ⟨hmeets.1, hmeets.2.1⟩
  case ends =>
    intro h
    rw [h] at hmeets
    exact hmeets
  case inside =>
    intro hin h
    rw [h] at hmeets
    exact Nat.not_lt.mpr hin hmeets
  case takes_long_form =>
    intro m n after hpos hle hn hlim hd
    have h := htakes n _ (.longForm hpos hle (by omega) hn)
      ⟨by rwa [longForm_length], hd ▸ List.prefix_append _ _⟩
    rwa [longForm_length] at h

/-- The length 5 in three octets, which is not minimal, and a byte after it. -/
theorem a_long_form_of_five_is_taken :
    parse_length (.bits 64) [0x83, 0x00, 0x00, 0x05, 0xFF] 5 ⟨0, SNMPPacket.new⟩ =
      .ok 5 ⟨4, SNMPPacket.new⟩ :=
  (parse_length_takes_exactly_the_definite_lengths [0x83, 0x00, 0x00, 0x05, 0xFF] 5 (by decide)
    ⟨0, SNMPPacket.new⟩ (by decide)).takes_long_form 3 5 [0xFF] (by decide) (by decide)
    (by decide) (by decide) rfl

/-! ## The binding list -/

/-- A chunk of the section: one binding. Its OID and its value have the sizes
that they declare. The length of the binding itself may be any. -/
def IsChunk (b : VariableBinding) (chunk : List UInt8) : Prop :=
  ∃ n l lo lv, LengthOctets 4 l n ∧ LengthOctets 4 lo b.oid.length ∧
    LengthOctets 4 lv b.value.length ∧
    chunk = 0x30 :: l ++ (0x06 :: lo ++ b.oid) ++ (b.value_type :: lv ++ b.value)

theorem IsChunk.length_ge {b : VariableBinding} {chunk : List UInt8} (h : IsChunk b chunk) :
    6 + (b.oid.length + b.value.length) ≤ chunk.length := by
  obtain ⟨n, l, lo, lv, hl, hlo, hlv, rfl⟩ := h
  have h1 := hl.length_pos
  have h2 := hlo.length_pos
  have h3 := hlv.length_pos
  simp only [List.length_append, List.length_cons]
  omega

/-- The bytes that bindings store. -/
def storedBytes (bs : List VariableBinding) : Nat :=
  (bs.map fun b => b.oid.length + b.value.length).sum

/-- Without what a tile declares, a run of tiles is a run of chunks. -/
theorem Tiles.chunks {ts : List (VariableBinding × Nat)} {x : List UInt8} (h : Tiles 4 ts x) :
    Each IsChunk (ts.map Prod.fst) x := by
  induction h with
  | nil => exact .nil
  | cons hh hc _ _ ih =>
    obtain ⟨l, hl, rfl⟩ := hh
    obtain ⟨o, v, ⟨_, ⟨lo, hlo, rfl⟩, rfl⟩, ⟨_, ⟨lv, hlv, rfl⟩, rfl⟩, rfl⟩ := hc
    refine .cons ⟨_, l, lo, lv, hl, hlo, hlv, ?_⟩ ih
    simp only [List.cons_append, List.append_assoc]

/-- Bindings cost six bytes each, besides what they store. -/
theorem stored_le {bs : List VariableBinding} {x : List UInt8} (h : Each IsChunk bs x) :
    6 * bs.length + storedBytes bs ≤ x.length := by
  have hsum := h.sum_le _ fun _ _ hc => hc.length_ge
  rw [List.sum_map_add] at hsum
  simpa [storedBytes, Nat.mul_comm] using hsum

/-- A `size_t` of 64 bits holds the end of every declared length, in data of
any size that there can be. -/
theorem wraps_only_if_64 (data : List UInt8) (S : Site → Nat → Nat → Prop) :
    WrapsOnlyIf (.bits 64) data S (2 ^ 64 < data.length + 2 ^ 32) := by
  intro site o e n t x _ _ _ hx hr hw
  by_contra hsmall
  have hend := declared_end_lt hx hr
  exact hw (Nat.mod_eq_of_lt (by omega))

/-- The loop over a section of bindings ends. Where it returns true it stands
at the end of the section, and the section is the chunks of the bindings,
one after the other. So the bindings are not more than the section pays for. -/
theorem a_binding_list_is_tiled_by_its_bindings (data : List UInt8) (hdata : data.length < 2 ^ 64)
    (n : Nat) (s : Cursor) (hs : s.offset + n ≤ data.length) :
    parse_variable_bindings (.bits 64) data n s ≠ .running ∧
    (data.length + 2 ^ 32 ≤ 2 ^ 64 → parse_variable_bindings (.bits 64) data n s ≠ .outside) ∧
    ∀ s', parse_variable_bindings (.bits 64) data n s = .ok () s' →
      s'.offset = s.offset + n ∧
      Each IsChunk s'.packet.variable_bindings ((data.drop s.offset).take n) ∧
      6 * s'.packet.variable_bindings.length ≤ n ∧
      storedBytes s'.packet.variable_bindings ≤ n - 6 * s'.packet.variable_bindings.length := by
  have hmeets := parse_variable_bindings_meetsOr (fits_64 hdata) (by omega)
    (follows_anywhere data) (wraps_only_if_64 data _) trivial hs
  refine ⟨?_, ?_, ?_⟩
  · intro h
    rw [h] at hmeets
    exact hmeets
  · intro hsmall h
    rw [h] at hmeets
    exact Nat.not_lt.mpr hsmall hmeets
  · intro s' h
    rw [h] at hmeets
    obtain ⟨ts, x, ht, hr, hlen, rfl⟩ := hmeets
    obtain rfl : x = (data.drop s.offset).take n := by
      rw [← hlen]
      exact List.prefix_iff_eq_take.mp hr.2
    have hstored := stored_le ht.chunks
    exact ⟨rfl, ht.chunks, by simp only; omega, by simp only; omega⟩

/-- Two bindings in thirteen bytes. The first one declares the second one as
its own. -/
theorem two_bindings_tile_thirteen_bytes :
    Each IsChunk [⟨[0x2b], 0x05, []⟩, ⟨[], 0x05, []⟩]
      [0x30, 0x0b, 0x06, 0x01, 0x2b, 0x05, 0x00, 0x30, 0x04, 0x06, 0x00, 0x05, 0x00] :=
  ((a_binding_list_is_tiled_by_its_bindings
    [0x30, 0x0b, 0x06, 0x01, 0x2b, 0x05, 0x00, 0x30, 0x04, 0x06, 0x00, 0x05, 0x00] (by decide)
    13 ⟨0, SNMPPacket.new⟩ (by decide)).2.2
    ⟨13, { SNMPPacket.new with
      variable_bindings := [⟨[0x2b], 0x05, []⟩, ⟨[], 0x05, []⟩] }⟩ (by decide)).2.1

end simple_snmpd.snmp_packet
