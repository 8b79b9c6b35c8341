-- What the parser logs as it rejects a datagram. It reports the first flaw
-- of the header, the version or the community, and is silent on the others.
import SimpleSnmpd.LoggerModel
import SimpleSnmpd.ParserLaws
import SimpleSnmpd.ReportingRoutines

open routines routines.Routine routines.Reporting ber simple_snmpd.snmp_config
  simple_snmpd.logger

namespace simple_snmpd.snmp_packet

/-! ## The messages -/

/-- What `SNMPPacket::parse` reports. -/
inductive Flaw where
  | missing_sequence_header
  | invalid_length
  | length_mismatch
  | missing_version
  | invalid_version_length
  | missing_community
  | missing_pdu
deriving DecidableEq, Repr

/-- The end of the message. -/
def Flaw.what : Flaw → List UInt8
  | .missing_sequence_header => text "missing sequence header"
  | .invalid_length => text "invalid length"
  | .length_mismatch => text "length mismatch"
  | .missing_version => text "missing version"
  | .invalid_version_length => text "invalid version length"
  | .missing_community => text "missing community"
  | .missing_pdu => text "missing PDU"

def Flaw.entry (f : Flaw) : Entry := (.ERROR, text "Invalid SNMP packet: " ++ f.what)

variable (z : SizeT) (data : List UInt8)

/-- `parse_header`, with what it logs. -/
def report_header : Reporting Entry Cursor Unit := do
  quiet (rejectIf (data.length = 0))
  orReport Flaw.missing_sequence_header.entry (expect z data data.length 0x30)
  let packet_length ← orReport Flaw.invalid_length.entry (parse_length z data data.length)
  let s ← quiet get
  orReport Flaw.length_mismatch.entry (rejectIf (packet_length ≠ data.length - s.offset))

/-- `parse_version`, with what it logs. -/
def report_version : Reporting Entry Cursor Unit := do
  orReport Flaw.missing_version.entry (expect z data data.length 0x02)
  let version_length ← quiet (parse_length_within z data data.length)
  orReport Flaw.invalid_version_length.entry (rejectIf (version_length ≠ 1))
  quiet do
    let s ← get
    let version ← byte_at data s.offset
    assign fun p => { p with version }
    advance z version_length

/-- `parse_community`, with what it logs. -/
def report_community : Reporting Entry Cursor Unit := do
  orReport Flaw.missing_community.entry (expect z data data.length 0x04)
  quiet do
    let community_length ← parse_length_within z data data.length
    let s ← get
    let community ← bytes_at data s.offset community_length
    assign fun p => { p with community }
    advance z community_length

/-- `parse_pdu`, with what it logs. -/
def report_pdu : Reporting Entry Cursor Unit := do
  let s ← quiet get
  orReport Flaw.missing_pdu.entry (rejectIf (s.offset ≥ data.length))
  quiet do
    let pdu_type ← byte_at data s.offset
    assign fun p => { p with pdu_type }
    advance z 1
    let pdu_length ← parse_length_within z data data.length
    parse_pdu_fields z data pdu_length

def report_message : Reporting Entry Cursor Unit := do
  report_header z data
  report_version z data
  report_community z data
  report_pdu z data

/-- What `SNMPPacket::parse` logs. -/
def parse_log (this : SNMPPacket) (data : List UInt8) : List Entry :=
  (report_message z data { offset := 0, packet := this }).2

/-- Without the messages, this is the parser. -/
theorem exits_report_message : exits (report_message z data) = parse_message z data := by
  simp only [report_message, report_header, report_version, report_community, report_pdu,
    exits_bind, exits_quiet, exits_orReport]
  rfl

/-! ## The flaws, read off the front -/

/-- The first flaw of what stands after the community. -/
def pdu_flaw : List UInt8 → Option Flaw
  | [] => some .missing_pdu
  | _ :: _ => none

/-- The first flaw of what stands after the version. -/
def community_flaw : List UInt8 → Option Flaw
  | [] => some .missing_community
  | tag :: rest =>
    if tag ≠ 0x04 then some .missing_community
    else
      match readLength 4 rest with
      | some (n, rest) => if n ≤ rest.length then pdu_flaw (rest.drop n) else none
      | none => none

/-- The first flaw of what stands after the sequence header. -/
def version_flaw : List UInt8 → Option Flaw
  | [] => some .missing_version
  | tag :: rest =>
    if tag ≠ 0x02 then some .missing_version
    else
      match readLength 4 rest with
      | some (n, rest) =>
        if n ≤ rest.length then
          if n ≠ 1 then some .invalid_version_length else community_flaw (rest.drop n)
        else none
      | none => none

/-- The first flaw of a datagram that the parser reports. -/
def flaw : List UInt8 → Option Flaw
  | [] => none
  | tag :: rest =>
    if tag ≠ 0x30 then some .missing_sequence_header
    else
      match readLength 4 rest with
      | some (n, rest) => if n ≠ rest.length then some .length_mismatch else version_flaw rest
      | none => some .invalid_length

/-- The messages of a flaw, where there is one. -/
def said (f : Option Flaw) : List Entry := (f.map Flaw.entry).toList

/-! ## The parser before what stands there -/

variable {z : SizeT} {data : List UInt8} {m : Nat} {rest : List UInt8} {s : Cursor}

theorem length_of_drop {o : Nat} {b : UInt8} (h : data.drop o = b :: rest) :
    o + rest.length + 1 = data.length := by
  have hlen := congrArg List.length h
  rw [List.length_drop, List.length_cons] at hlen
  omega

theorem getElem?_of_drop {o : Nat} {b : UInt8} (h : data.drop o = b :: rest) :
    data[o]? = some b := by
  rw [← List.head?_drop, h]
  rfl

theorem drop_next {o : Nat} {b : UInt8} (h : data.drop o = b :: rest) :
    data.drop (o + 1) = rest := by
  rw [← List.drop_drop, h]
  rfl

theorem expect_head (hz : Fits z m) {tag : UInt8} (h : data.drop s.offset = tag :: rest)
    (hm : min data.length (s.offset + 5) ≤ m + 1) :
    expect z data data.length tag s = .ok () { s with offset := s.offset + 1 } := by
  have hlen := length_of_drop h
  exact expect_ok hz (by omega) (getElem?_of_drop h) hm

theorem expect_other {tag b : UInt8} (h : data.drop s.offset = b :: rest) (hb : b ≠ tag) :
    expect z data data.length tag s = .fail s := by
  have hlen := length_of_drop h
  unfold expect
  rw [get_bind_run, bind_ok (rejectIf_neg (by omega) s),
    bind_ok (byte_at_ok (getElem?_of_drop h) s), bind_fail (rejectIf_pos hb s)]

theorem expect_end {tag : UInt8} (h : data.drop s.offset = []) :
    expect z data data.length tag s = .fail s :=
  expect_fail tag (List.drop_eq_nil_iff.mp h)

/-- The length that stands there is read. -/
theorem parse_length_read (hz : Fits z m) {n : Nat}
    (h : readLength 4 (data.drop s.offset) = some (n, rest))
    (hm : min data.length (s.offset + 5) ≤ m + 1) :
    ∃ o, parse_length z data data.length s = .ok n { s with offset := o } ∧
      data.drop o = rest ∧ o + rest.length = data.length ∧ o ≤ s.offset + 5 := by
  obtain ⟨l, hl, hdrop⟩ := readLength_iff.mp h
  have hlen := congrArg List.length hdrop
  have hpos := hl.length_pos
  have hle := hl.length_le
  rw [List.length_drop, List.length_append] at hlen
  refine ⟨s.offset + l.length, parse_length_ok hz hl ⟨by omega, ?_⟩ hm, ?_, by omega, by omega⟩
  · rw [hdrop]
    exact List.prefix_append _ _
  · rw [← List.drop_drop, hdrop, List.drop_left]

/-- Where no length stands, the parser returns false. -/
theorem parse_length_unread (hz : Fits z m) (h : readLength 4 (data.drop s.offset) = none)
    (ho : s.offset ≤ data.length) (hm : min data.length (s.offset + 5) ≤ m + 1) :
    ∃ s', parse_length z data data.length s = .fail s' := by
  have hmeets := @parse_length_meets z data m hz data.length s (Nat.le_refl _) ho hm
  cases hp : parse_length z data data.length s with
  | ok n s' =>
    rw [hp] at hmeets
    obtain ⟨l, hl, ⟨-, xs, hxs⟩, -⟩ := hmeets
    rw [← hxs, readLength_append hl] at h
    cases h
  | fail s' => exact ⟨s', rfl⟩
  | outside => rw [hp] at hmeets; exact hmeets.elim
  | running => rw [hp] at hmeets; exact hmeets.elim

section

-- From here on, the build of 64 bits, and a datagram that fits its sums.
variable (hlong : data.length < 2 ^ 33)
include hlong

theorem fits_whole : Fits (.bits 64) data.length := (suits_64 data).whole hlong

/-- A declared length is taken where the bytes are there. -/
theorem parse_length_within_read {n : Nat}
    (h : readLength 4 (data.drop s.offset) = some (n, rest)) (hn : n ≤ rest.length) :
    ∃ o, parse_length_within (.bits 64) data data.length s = .ok n { s with offset := o } ∧
      data.drop o = rest ∧ o + rest.length = data.length := by
  obtain ⟨o, hok, hdrop, ho, -⟩ := parse_length_read (fits_whole hlong) h (by omega)
  refine ⟨o, ?_, hdrop, ho⟩
  unfold parse_length_within
  rw [bind_ok hok, get_bind_run, bind_ok (rejectIf_neg ?_ _)]
  · rfl
  · simp only [SizeT.wrap, Nat.not_lt]
    rw [Nat.mod_eq_of_lt (by omega)]
    omega

theorem parse_length_within_unread (h : ∀ n rest,
    readLength 4 (data.drop s.offset) = some (n, rest) → rest.length < n)
    (ho : s.offset ≤ data.length) :
    ∃ s', parse_length_within (.bits 64) data data.length s = .fail s' := by
  unfold parse_length_within
  cases hread : readLength 4 (data.drop s.offset) with
  | none =>
    obtain ⟨s', hfail⟩ := parse_length_unread (fits_whole hlong) hread ho (by omega)
    exact ⟨s', bind_fail hfail _⟩
  | some read =>
    obtain ⟨n, rest⟩ := read
    have hn := h n rest hread
    obtain ⟨l, hl, -⟩ := readLength_iff.mp hread
    have hword := length_lt hl
    obtain ⟨o, hok, -, ho, -⟩ := parse_length_read (fits_whole hlong) hread (by omega)
    refine ⟨⟨o, s.packet⟩, ?_⟩
    rw [bind_ok hok, get_bind_run, bind_fail (rejectIf_pos ?_ _)]
    simp only [SizeT.wrap]
    rw [Nat.mod_eq_of_lt (by omega)]
    omega

/-! ## What each part reports -/

omit hlong in
theorem report_pdu_log :
    (report_pdu (.bits 64) data s).2 = said (pdu_flaw (data.drop s.offset)) := by
  unfold report_pdu
  rw [quiet_get]
  cases h : data.drop s.offset with
  | nil =>
    rw [orReport_fail (rejectIf_pos (List.drop_eq_nil_iff.mp h) s)]
    rfl
  | cons b rest =>
    have hlen := length_of_drop h
    rw [orReport_ok (rejectIf_neg (by omega) s)]
    rfl

theorem report_community_log :
    ((report_community (.bits 64) data >>= fun _ => report_pdu (.bits 64) data) s).2 =
      said (community_flaw (data.drop s.offset)) := by
  unfold report_community
  rw [bind_assoc_reporting]
  cases h : data.drop s.offset with
  | nil =>
    rw [orReport_fail (expect_end h)]
    rfl
  | cons b rest =>
    by_cases hb : b = 0x04
    swap
    · rw [orReport_fail (expect_other h hb), community_flaw, if_pos hb]
      rfl
    subst hb
    have hlen := length_of_drop h
    rw [orReport_ok (expect_head (fits_whole hlong) h (by omega)), community_flaw,
      if_neg (not_not.mpr rfl)]
    rw [← drop_next h]
    by_cases hread : ∃ n rest', readLength 4 (data.drop (s.offset + 1)) = some (n, rest') ∧
        n ≤ rest'.length
    · obtain ⟨n, rest', hread, hn⟩ := hread
      obtain ⟨o, hok, hdrop, ho⟩ := @parse_length_within_read data rest'
        ⟨s.offset + 1, s.packet⟩ hlong n hread hn
      have hbytes := (reads_range (by omega : o + n ≤ data.length) (Nat.le_refl _)).1
      have hcopy := bytes_at_ok hbytes (Nat.le_refl _)
      rw [(reads_range (by omega : o + n ≤ data.length) (Nat.le_refl _)).2] at hcopy
      rw [quiet_ok (by
        rw [bind_ok hok, get_bind_run, bind_ok (hcopy _), bind_ok (assign_run _ _),
          advance_ok (fits_whole hlong) (by simp only; omega)])]
      rw [report_pdu_log, hread]
      simp only
      rw [if_pos hn, ← hdrop, List.drop_drop]
    · obtain ⟨s', hfail⟩ := @parse_length_within_unread data ⟨s.offset + 1, s.packet⟩ hlong
        (by
          intro n rest' hn
          by_contra hle
          exact hread ⟨n, rest', hn, by omega⟩)
        (by simp only; omega)
      rw [quiet_fail (bind_fail hfail _)]
      cases hr : readLength 4 (data.drop (s.offset + 1)) with
      | none => rfl
      | some read =>
        simp only
        rw [if_neg fun hn => hread ⟨read.1, read.2, hr, hn⟩]
        rfl

theorem report_version_log :
    ((report_version (.bits 64) data >>= fun _ => report_community (.bits 64) data >>= fun _ =>
      report_pdu (.bits 64) data) s).2 = said (version_flaw (data.drop s.offset)) := by
  unfold report_version
  rw [bind_assoc_reporting]
  cases h : data.drop s.offset with
  | nil =>
    rw [orReport_fail (expect_end h)]
    rfl
  | cons b rest =>
    by_cases hb : b = 0x02
    swap
    · rw [orReport_fail (expect_other h hb), version_flaw, if_pos hb]
      rfl
    subst hb
    have hlen := length_of_drop h
    rw [orReport_ok (expect_head (fits_whole hlong) h (by omega)), version_flaw,
      if_neg (not_not.mpr rfl), bind_assoc_reporting, ← drop_next h]
    by_cases hread : ∃ n rest', readLength 4 (data.drop (s.offset + 1)) = some (n, rest') ∧
        n ≤ rest'.length
    · obtain ⟨n, rest', hread, hn⟩ := hread
      obtain ⟨o, hok, hdrop, ho⟩ := @parse_length_within_read data rest'
        ⟨s.offset + 1, s.packet⟩ hlong n hread hn
      rw [quiet_ok hok, hread]
      simp only
      rw [if_pos hn, bind_assoc_reporting]
      by_cases hone : n = 1
      swap
      · rw [orReport_fail (rejectIf_pos hone _), if_pos hone]
        rfl
      subst hone
      obtain ⟨v, hv⟩ : ∃ v, data[o]? = some v := ⟨_, List.getElem?_eq_getElem (by omega)⟩
      rw [orReport_ok (rejectIf_neg (not_not.mpr rfl) _), if_neg (not_not.mpr rfl), quiet_ok (by
        rw [get_bind_run, bind_ok (byte_at_ok hv _), bind_ok (assign_run _ _),
          advance_ok (fits_whole hlong) (by simp only; omega)])]
      rw [report_community_log hlong, ← hdrop, List.drop_drop]
    · obtain ⟨s', hfail⟩ := @parse_length_within_unread data ⟨s.offset + 1, s.packet⟩ hlong
        (by
          intro n rest' hn
          by_contra hle
          exact hread ⟨n, rest', hn, by omega⟩)
        (by simp only; omega)
      rw [quiet_fail hfail]
      cases hr : readLength 4 (data.drop (s.offset + 1)) with
      | none => rfl
      | some read =>
        simp only
        rw [if_neg fun hn => hread ⟨read.1, read.2, hr, hn⟩]
        rfl

end

theorem report_message_log (this : SNMPPacket) (data : List UInt8) :
    parse_log (.bits 64) this data = said (flaw data) := by
  unfold parse_log report_message report_header
  rw [bind_assoc_reporting]
  cases data with
  | nil =>
    have hempty : rejectIf (([] : List UInt8).length = 0) (⟨0, this⟩ : Cursor) = .fail _ :=
      rejectIf_pos rfl _
    rw [quiet_fail hempty]
    rfl
  | cons b rest =>
    have hz := (suits_64 (b :: rest)).header
    have hsome : ¬ (b :: rest).length = 0 := Nat.succ_ne_zero _
    rw [quiet_ok (rejectIf_neg hsome _), bind_assoc_reporting]
    by_cases hb : b = 0x30
    swap
    · rw [orReport_fail (@expect_other _ (b :: rest) rest ⟨0, this⟩ _ _ rfl hb), flaw, if_pos hb]
      rfl
    subst hb
    rw [orReport_ok (@expect_head _ (0x30 :: rest) _ rest ⟨0, this⟩ hz _ rfl (by simp only; omega)),
      flaw, if_neg (not_not.mpr rfl), bind_assoc_reporting]
    cases hread : readLength 4 rest with
    | none =>
      obtain ⟨s', hfail⟩ := @parse_length_unread _ (0x30 :: rest) _ ⟨1, this⟩ hz hread
        (by simp) (by simp only; omega)
      rw [orReport_fail hfail]
      rfl
    | some read =>
      obtain ⟨n, body⟩ := read
      obtain ⟨l, hl, -⟩ := readLength_iff.mp hread
      have hword := length_lt hl
      obtain ⟨o, hok, hdrop, ho, ho5⟩ :=
        @parse_length_read _ (0x30 :: rest) _ body ⟨1, this⟩ hz _ hread (by simp only; omega)
      rw [orReport_ok hok, bind_assoc_reporting, quiet_get]
      simp only
      by_cases hn : n = body.length
      · simp only at ho5
        rw [orReport_ok (rejectIf_neg (by omega) _), if_neg (not_not.mpr hn),
          report_version_log (by omega), hdrop]
      · rw [orReport_fail (rejectIf_pos (by omega) _), if_pos hn]
        rfl

/-! ## The law -/

theorem reportsOnce_report_message (z : SizeT) (data : List UInt8) :
    ReportsOnce (report_message z data) := by
  have hheader : ReportsOnce (report_header z data) :=
    reportsOnce_bind (reportsOnce_quiet _) fun _ =>
      reportsOnce_bind (reportsOnce_orReport _ _) fun _ =>
        reportsOnce_bind (reportsOnce_orReport _ _) fun _ =>
          reportsOnce_bind (reportsOnce_quiet _) fun _ => reportsOnce_orReport _ _
  have hversion : ReportsOnce (report_version z data) :=
    reportsOnce_bind (reportsOnce_orReport _ _) fun _ =>
      reportsOnce_bind (reportsOnce_quiet _) fun _ =>
        reportsOnce_bind (reportsOnce_orReport _ _) fun _ => reportsOnce_quiet _
  have hcommunity : ReportsOnce (report_community z data) :=
    reportsOnce_bind (reportsOnce_orReport _ _) fun _ => reportsOnce_quiet _
  have hpdu : ReportsOnce (report_pdu z data) :=
    reportsOnce_bind (reportsOnce_quiet _) fun _ =>
      reportsOnce_bind (reportsOnce_orReport _ _) fun _ => reportsOnce_quiet _
  exact reportsOnce_bind hheader fun _ => reportsOnce_bind hversion fun _ =>
    reportsOnce_bind hcommunity fun _ => hpdu

theorem parse_of_report {z : SizeT} {this : SNMPPacket} {data : List UInt8} {s : Cursor}
    {es : List Entry} (h : report_message z data ⟨0, this⟩ = (.fail s, es)) :
    parse z this data = .fail s.packet := by
  have hfail : parse_message z data ⟨0, this⟩ = .fail s := by
    rw [← exits_report_message, exits, h]
  rw [parse, hfail]

theorem parse_of_flaw (this : SNMPPacket) {data : List UInt8} {f : Flaw} (h : flaw data = some f) :
    ∃ p, parse (.bits 64) this data = .fail p := by
  have hlog := report_message_log this data
  rw [h] at hlog
  rcases reportsOnce_report_message (.bits 64) data ⟨0, this⟩ with hnone | ⟨e, s, hfail⟩
  · rw [parse_log, hnone] at hlog
    cases hlog
  · exact ⟨s.packet, parse_of_report hfail⟩

/-- A datagram that is taken is not reported. -/
theorem parse_log_of_taken {this p : SNMPPacket} {data : List UInt8}
    (h : parse (.bits 64) this data = .ok () p) : parse_log (.bits 64) this data = [] := by
  rw [report_message_log]
  cases hf : flaw data with
  | none => rfl
  | some f =>
    obtain ⟨q, hfail⟩ := parse_of_flaw this hf
    rw [h] at hfail
    cases hfail

-- A datagram that ends inside its header, and one that ends before its PDU.
example : parse_log (.bits 64) SNMPPacket.new [0x30, 0x82, 0x01] = [Flaw.invalid_length.entry] ∧
    parse_log (.bits 64) SNMPPacket.new [0x30, 0x06, 0x02, 0x01, 0x00, 0x04, 0x01, 0x70] =
      [Flaw.missing_pdu.entry] := by
  decide

end simple_snmpd.snmp_packet
