-- Where the fields of a datagram stand. A reader that goes from field to
-- field by the lengths that the fields declare stands before each of them
-- in turn. What a declared length does to a `size_t` sum is said here too.
import SimpleSnmpd.MessageGrammar
import SimpleSnmpd.PacketParser

open ber

namespace simple_snmpd.snmp_packet

/-! ## Bytes that stand in the data -/

/-- The bytes `x` stand in the data from `o` on, and end at `e` or before. -/
def Reads (data : List UInt8) (o e : Nat) (x : List UInt8) : Prop :=
  o + x.length ≤ e ∧ x <+: data.drop o

variable {data : List UInt8}

theorem reads_nil {o e : Nat} : Reads data o e [] ↔ o ≤ e := by
  simp [Reads]

theorem reads_cons {o e : Nat} {b : UInt8} {x : List UInt8} :
    Reads data o e (b :: x) ↔ o < e ∧ data[o]? = some b ∧ Reads data (o + 1) e x := by
  unfold Reads
  by_cases h : o < data.length
  · rw [List.drop_eq_getElem_cons h, List.cons_prefix_cons, List.getElem?_eq_getElem h]
    simp only [List.length_cons, Option.some.injEq]
    constructor
    · rintro ⟨h1, rfl, h2⟩
      exact ⟨by omega, rfl, by omega, h2⟩
    · rintro ⟨-, rfl, h1, h2⟩
      exact ⟨by omega, rfl, h2⟩
  · rw [List.drop_eq_nil_of_le (by omega), List.getElem?_eq_none (by omega)]
    simp

theorem reads_append {o e : Nat} {x y : List UInt8} :
    Reads data o e (x ++ y) ↔ Reads data o e x ∧ Reads data (o + x.length) e y := by
  induction x generalizing o with
  | nil =>
    simp only [List.nil_append, reads_nil, List.length_nil, Nat.add_zero]
    exact ⟨fun h => ⟨by have := h.1; omega, h⟩, fun h => h.2⟩
  | cons b x ih =>
    rw [List.cons_append, reads_cons, reads_cons, ih, List.length_cons, Nat.add_right_comm,
      Nat.add_assoc, and_assoc, and_assoc]

theorem Reads.le {o e : Nat} {x : List UInt8} (h : Reads data o e x) : o + x.length ≤ e := h.1

theorem Reads.le_length {o e : Nat} {x : List UInt8} (h : Reads data o e x) (hx : 0 < x.length) :
    o + x.length ≤ data.length := by
  have := h.2.length_le
  rw [List.length_drop] at this
  omega

theorem Reads.mono {o e e' : Nat} {x : List UInt8} (h : Reads data o e x)
    (he : o + x.length ≤ e') : Reads data o e' x := ⟨he, h.2⟩

theorem reads_data : Reads data 0 data.length data := by
  simp [Reads]

/-- The range of `n` bytes at `o` stands there. -/
theorem reads_range {o e n : Nat} (h : o + n ≤ e) (he : e ≤ data.length) :
    Reads data o e ((data.drop o).take n) ∧ ((data.drop o).take n).length = n := by
  have hl : ((data.drop o).take n).length = n := by
    rw [List.length_take, List.length_drop]
    omega
  exact ⟨⟨by omega, List.take_prefix _ _⟩, hl⟩

/-! ## Sums in `size_t` -/

/-- The build computes exactly up to `m + 1` and below 2^32, and a sum with
a declared length is exact, or it wraps to less than its first term. -/
structure Fits (z : SizeT) (m : Nat) : Prop where
  small : ∀ x ≤ m + 1, z.wrap x = x
  word : ∀ x < 2 ^ 32, z.wrap x = x
  sum : ∀ x ≤ m, ∀ n < 2 ^ 32, z.wrap (x + n) = x + n ∨ z.wrap (x + n) < x

theorem fits_exact (m : Nat) : Fits .exact m :=
  ⟨fun _ _ => rfl, fun _ _ => rfl, fun _ _ _ _ => Or.inl rfl⟩

theorem fits_bits {w m : Nat} (hw : 32 ≤ w) (hm : m + 1 < 2 ^ w) : Fits (.bits w) m := by
  have hpow : 2 ^ 32 ≤ 2 ^ w := Nat.pow_le_pow_right (by omega) hw
  refine ⟨fun x hx => Nat.mod_eq_of_lt (by omega), fun x hx => Nat.mod_eq_of_lt (by omega), ?_⟩
  intro x hx n hn
  simp only [SizeT.wrap]
  by_cases h : x + n < 2 ^ w
  · exact Or.inl (Nat.mod_eq_of_lt h)
  · right
    rw [Nat.mod_eq_sub_mod (by omega), Nat.mod_eq_of_lt (by omega)]
    omega

/-! ## The positions of the fields -/

/-- A kind of field. The number is how many INTEGERs of the PDU still come:
at 0 comes the binding list. The kinds inside a binding keep the end of
the list. -/
inductive Site where
  | version
  | community
  | pdu
  | integer (left : Nat)
  | binding
  | oid (list_end : Nat)
  | value (list_end : Nat)
deriving DecidableEq, Repr

/-- The tags that a field of the kind may have. -/
def Site.Allows : Site → UInt8 → Prop
  | .version, t => t = 0x02
  | .community, t => t = 0x04
  | .pdu, _ => True
  | .integer 0, t => t = 0x30
  | .integer (_ + 1), t => t = 0x02
  | .binding, t => t = 0x30
  | .oid _, t => t = 0x06
  | .value _, _ => True

/-- The reader stands before a field of the kind at `o`, inside an element
that ends at `e`. -/
inductive Stands (data : List UInt8) : Site → Nat → Nat → Prop
  | version {n : Nat} {x : List UInt8} (hx : IsHeader 4 0x30 n x)
      (h : Reads data 0 data.length x) (hn : x.length + n = data.length) :
      Stands data .version x.length data.length
  | community {o e : Nat} {v : UInt8} {x : List UInt8} (hs : Stands data .version o e)
      (hx : IsElement 4 0x02 [v] x) (h : Reads data o e x) :
      Stands data .community (o + x.length) e
  | pdu {o e : Nat} {c x : List UInt8} (hs : Stands data .community o e)
      (hx : IsElement 4 0x04 c x) (h : Reads data o e x) : Stands data .pdu (o + x.length) e
  | first_integer {o e n : Nat} {t : UInt8} {x : List UInt8} (hs : Stands data .pdu o e)
      (hx : IsHeader 4 t n x) (h : Reads data o e x) (hn : o + x.length + n ≤ e) :
      Stands data (.integer 3) (o + x.length) (o + x.length + n)
  | next_integer {o e k : Nat} {c x : List UInt8} (hs : Stands data (.integer (k + 1)) o e)
      (hx : IsElement 4 0x02 c x) (h : Reads data o e x) :
      Stands data (.integer k) (o + x.length) e
  | first_binding {o e n : Nat} {x : List UInt8} (hs : Stands data (.integer 0) o e)
      (hx : IsHeader 4 0x30 n x) (h : Reads data o e x) (hn : o + x.length + n ≤ e) :
      Stands data .binding (o + x.length) (o + x.length + n)
  | oid {o e n : Nat} {x : List UInt8} (hs : Stands data .binding o e)
      (hx : IsHeader 4 0x30 n x) (h : Reads data o e x) (hn : o + x.length + n ≤ e) :
      Stands data (.oid e) (o + x.length) (o + x.length + n)
  | value {o e l : Nat} {c x : List UInt8} (hs : Stands data (.oid l) o e)
      (hx : IsElement 4 0x06 c x) (h : Reads data o e x) :
      Stands data (.value l) (o + x.length) e
  | next_binding {o e l : Nat} {t : UInt8} {c x : List UInt8} (hs : Stands data (.value l) o e)
      (hx : IsElement 4 t c x) (h : Reads data o e x) : Stands data .binding (o + x.length) l

/-- What a reader of a binding list knows of where it stands: `S` goes with
it from field to field. -/
structure Follows (data : List UInt8) (S : Site → Nat → Nat → Prop) : Prop where
  oid : ∀ {o e n : Nat} {x : List UInt8}, S .binding o e → IsHeader 4 0x30 n x →
    Reads data o e x → o + x.length + n ≤ e → S (.oid e) (o + x.length) (o + x.length + n)
  value : ∀ {o e l : Nat} {c x : List UInt8}, S (.oid l) o e → IsElement 4 0x06 c x →
    Reads data o e x → S (.value l) (o + x.length) e
  next_binding : ∀ {o e l : Nat} {t : UInt8} {c x : List UInt8}, S (.value l) o e →
    IsElement 4 t c x → Reads data o e x → S .binding (o + x.length) l

theorem follows_stands (data : List UInt8) : Follows data (Stands data) :=
  ⟨.oid, .value, .next_binding⟩

/-- A reader need not know where it stands. -/
theorem follows_anywhere (data : List UInt8) : Follows data fun _ _ _ => True :=
  ⟨fun _ _ _ _ => trivial, fun _ _ _ => trivial, fun _ _ _ => trivial⟩

/-- After the OID and the value of a binding, the reader stands before the
next binding. -/
theorem Follows.pair {S : Site → Nat → Nat → Prop} (hf : Follows data S) {o e l : Nat}
    {b : VariableBinding} {c : List UInt8} (hs : S (.oid l) o e) (hc : IsPair 4 b c)
    (h : Reads data o e c) : S .binding (o + c.length) l := by
  obtain ⟨x, y, hx, hy, rfl⟩ := hc
  obtain ⟨h1, h2⟩ := reads_append.mp h
  rw [List.length_append, ← Nat.add_assoc]
  exact hf.next_binding (hf.value hs hx h1) hy h2

/-- A field at `o` declares a length whose end is no `size_t`: the sum of
the offset and the length wraps. -/
def WrapsAt (z : SizeT) (data : List UInt8) (site : Site) : Prop :=
  ∃ o e t n x, Stands data site o e ∧ site.Allows t ∧ IsHeader 4 t n x ∧ Reads data o e x ∧
    z.wrap (o + x.length + n) ≠ o + x.length + n

/-- The kinds of field whose length the parser uses for a copy, for a loop
over octets, or for the end of the binding list. -/
def Site.Used : Site → Prop
  | .community | .integer _ | .oid _ | .value _ => True
  | .version | .pdu | .binding => False

/-- A length that the parser uses wraps in `size_t`. -/
def Wraps (z : SizeT) (data : List UInt8) : Prop := ∃ site : Site, site.Used ∧ WrapsAt z data site

/-- A used length can wrap only where `O` holds, as far as `S` tells where
the reader stands. -/
def WrapsOnlyIf (z : SizeT) (data : List UInt8) (S : Site → Nat → Nat → Prop) (O : Prop) : Prop :=
  ∀ (site : Site) {o e n : Nat} {t : UInt8} {x : List UInt8}, site.Used → S site o e →
    site.Allows t → IsHeader 4 t n x → Reads data o e x →
    z.wrap (o + x.length + n) ≠ o + x.length + n → O

theorem wraps_only_if_not {z : SizeT} (h : ¬ Wraps z data) :
    WrapsOnlyIf z data (Stands data) False := by
  intro site o e n t x hu hs ht hx hr hw
  exact h ⟨site, hu, o, e, t, n, x, hs, ht, hx, hr, hw⟩

end simple_snmpd.snmp_packet
