-- The grammar of an SNMP message, and the layouts that the parser takes.
-- A message has the exact length at each level. A layout may have bytes
-- after the binding list, and bindings that declare more than they hold.
import SimpleSnmpd.BerEncodings
import SimpleSnmpd.PacketModel

open ber

namespace simple_snmpd.snmp_packet

/-- The contents of the fields of a message, as they stand on the wire. -/
structure Fields where
  version : UInt8
  community : List UInt8
  pdu_type : UInt8
  request_id : List UInt8
  error_status : List UInt8
  error_index : List UInt8
deriving DecidableEq, Repr

/-- No INTEGER of the PDU is empty. -/
def Fields.Filled (f : Fields) : Prop :=
  f.request_id ≠ [] ∧ f.error_status ≠ [] ∧ f.error_index ≠ []

instance (f : Fields) : Decidable f.Filled :=
  inferInstanceAs (Decidable (f.request_id ≠ [] ∧ f.error_status ≠ [] ∧ f.error_index ≠ []))

/-- The packet that fields and bindings say: each INTEGER in the width of
its field. -/
def Fields.packet (f : Fields) (bs : List VariableBinding) : SNMPPacket where
  version := f.version
  pdu_type := f.pdu_type
  community := f.community
  request_id := UInt32.ofNat (beValue f.request_id)
  error_status := UInt8.ofNat (beValue f.error_status)
  error_index := UInt8.ofNat (beValue f.error_index)
  variable_bindings := bs

section

-- The most octets that a long form has after its first octet.
variable (most : Nat)

/-! ## Messages -/

/-- The content of a binding: the OID element and the value element. -/
def IsPair (b : VariableBinding) (bytes : List UInt8) : Prop :=
  ∃ o v, IsElement most 0x06 b.oid o ∧ IsElement most b.value_type b.value v ∧ bytes = o ++ v

/-- A binding: a SEQUENCE of one pair. -/
def IsBinding (b : VariableBinding) (bytes : List UInt8) : Prop :=
  ∃ c, IsPair most b c ∧ IsElement most 0x30 c bytes

/-- The version and the community. -/
def IsOpening (f : Fields) (bytes : List UInt8) : Prop :=
  ∃ v c, IsElement most 0x02 [f.version] v ∧ IsElement most 0x04 f.community c ∧ bytes = v ++ c

/-- The three INTEGERs of the PDU. -/
def IsTriple (f : Fields) (bytes : List UInt8) : Prop :=
  ∃ i j k, IsElement most 0x02 f.request_id i ∧ IsElement most 0x02 f.error_status j ∧
    IsElement most 0x02 f.error_index k ∧ bytes = i ++ j ++ k

/-- The content of the PDU: the three INTEGERs, and the list of bindings. -/
def IsPduContent (f : Fields) (bs : List VariableBinding) (bytes : List UInt8) : Prop :=
  ∃ t vb l, IsTriple most f t ∧ Each (IsBinding most) bs vb ∧ IsElement most 0x30 vb l ∧
    bytes = t ++ l

/-- A message, with the exact length at each level and no INTEGER empty. -/
def IsMessage (f : Fields) (bs : List VariableBinding) (d : List UInt8) : Prop :=
  f.Filled ∧ ∃ o pc p, IsOpening most f o ∧ IsPduContent most f bs pc ∧
    IsElement most f.pdu_type pc p ∧ IsElement most 0x30 (o ++ p) d

/-! ## The reference decoder -/

/-- Decodes a pair. -/
def decodePair (bytes : List UInt8) : Option VariableBinding :=
  match readTagged most 0x06 bytes with
  | some (oid, rest) =>
    match readElement most rest with
    | some (value_type, value, []) => some { oid, value_type, value }
    | _ => none
  | none => none

/-- Decodes a run of bindings, with fuel for their number. -/
def decodeBindings : Nat → List UInt8 → Option (List VariableBinding)
  | _, [] => some []
  | 0, _ => none
  | n + 1, bytes =>
    match readTagged most 0x30 bytes with
    | some (c, rest) =>
      match decodePair most c, decodeBindings n rest with
      | some b, some bs => some (b :: bs)
      | _, _ => none
    | none => none

/-- Decodes the content of a PDU: the three INTEGERs and the bindings. -/
def decodePduContent (bytes : List UInt8) :
    Option (List UInt8 × List UInt8 × List UInt8 × List VariableBinding) := do
  let (i, rest) ← readTagged most 0x02 bytes
  let (j, rest) ← readTagged most 0x02 rest
  let (k, rest) ← readTagged most 0x02 rest
  let (vb, rest) ← readTagged most 0x30 rest
  let bs ← decodeBindings most vb.length vb
  if rest = [] then some (i, j, k, bs) else none

/-- Decodes a message. -/
def decodeMessage (d : List UInt8) : Option (Fields × List VariableBinding) := do
  let (body, rest) ← readTagged most 0x30 d
  let (v, body) ← readTagged most 0x02 body
  let (community, body) ← readTagged most 0x04 body
  let (pdu_type, pc, after) ← readElement most body
  let (request_id, error_status, error_index, bs) ← decodePduContent most pc
  let f : Fields :=
    { version := v.headD 0, community, pdu_type, request_id, error_status, error_index }
  if f.Filled ∧ v = [f.version] ∧ rest = [] ∧ after = [] then some (f, bs) else none

/-! ## Layouts -/

/-- The content of a binding list, tile by tile. A tile declares the bytes
of its pair and a surplus, and the surplus reaches into the tiles after it. -/
inductive Tiles : List (VariableBinding × Nat) → List UInt8 → Prop
  | nil : Tiles [] []
  | cons {b : VariableBinding} {surplus : Nat} {h c rest : List UInt8}
      {ts : List (VariableBinding × Nat)} (hh : IsHeader most 0x30 (c.length + surplus) h)
      (hc : IsPair most b c) (hs : surplus ≤ rest.length) (ht : Tiles ts rest) :
      Tiles ((b, surplus) :: ts) (h ++ c ++ rest)

end

/-- A layout: the fields, the bindings with their surplus, the bytes after
the binding list, and how many of these the PDU declares as its own. -/
structure Layout where
  fields : Fields
  tiles : List (VariableBinding × Nat)
  after : List UInt8
  pdu_surplus : Nat
deriving DecidableEq, Repr

def Layout.bindings (l : Layout) : List VariableBinding := l.tiles.map Prod.fst

def Layout.packet (l : Layout) : SNMPPacket := l.fields.packet l.bindings

/-- Every level of the layout holds what it declares, and no INTEGER is
empty. -/
def Layout.Tight (l : Layout) : Prop :=
  l.fields.Filled ∧ (∀ t ∈ l.tiles, t.2 = 0) ∧ l.after = []

/-- The content of the PDU in a layout, up to the end of the binding list. -/
def IsLoosePduContent (most : Nat) (f : Fields) (ts : List (VariableBinding × Nat))
    (bytes : List UInt8) : Prop :=
  ∃ t vb l, IsTriple most f t ∧ Tiles most ts vb ∧ IsElement most 0x30 vb l ∧ bytes = t ++ l

/-- The datagram has the layout. -/
def HasLayout (most : Nat) (l : Layout) (d : List UInt8) : Prop :=
  l.pdu_surplus ≤ l.after.length ∧ ∃ o pc h, IsOpening most l.fields o ∧
    IsLoosePduContent most l.fields l.tiles pc ∧
    IsHeader most l.fields.pdu_type (pc.length + l.pdu_surplus) h ∧
    IsElement most 0x30 (o ++ (h ++ (pc ++ l.after))) d

/-! ## The decoder decodes exactly the messages -/

section

variable {most : Nat}

theorem decodePair_iff {b : VariableBinding} {c : List UInt8} :
    decodePair most c = some b ↔ IsPair most b c := by
  constructor
  · intro h
    unfold decodePair at h
    split at h
    · rename_i oid rest hoid
      split at h
      · rename_i ty v hv
        cases h
        obtain ⟨o, ho, rfl⟩ := readTagged_iff.mp hoid
        obtain ⟨x, hx, rfl⟩ := readElement_iff.mp hv
        exact ⟨o, x, ho, hx, by rw [List.append_nil]⟩
      · cases h
    · cases h
  · rintro ⟨o, v, ho, hv, rfl⟩
    have hread := readElement_append hv []
    rw [List.append_nil] at hread
    simp only [decodePair, readTagged_append ho, hread]

/-- A decoded binding is in front of the decoded run after it. -/
theorem decodeBindings_cons {n : Nat} {b : VariableBinding} {bs : List VariableBinding}
    {x rest : List UInt8} (hb : IsBinding most b x) (h : decodeBindings most n rest = some bs) :
    decodeBindings most (n + 1) (x ++ rest) = some (b :: bs) := by
  rcases hb with ⟨c, hc, he⟩
  have hread := readTagged_append he rest
  have hge := he.length_ge
  cases hx : x ++ rest with
  | nil =>
    have := congrArg List.length hx
    simp only [List.length_append, List.length_nil] at this
    omega
  | cons t y =>
    rw [hx] at hread
    simp only [decodeBindings, hread, decodePair_iff.mpr hc, h]

theorem decodeBindings_iff {n : Nat} {bs : List VariableBinding} {x : List UInt8}
    (hn : x.length ≤ n) : decodeBindings most n x = some bs ↔ Each (IsBinding most) bs x := by
  constructor
  · intro h
    induction n generalizing bs x with
    | zero =>
      obtain rfl := List.length_eq_zero_iff.mp (Nat.le_zero.mp hn)
      cases h
      exact .nil
    | succ n ih =>
      cases x with
      | nil => cases h; exact .nil
      | cons t y =>
        rw [decodeBindings] at h
        · split at h
          · rename_i c rest hc
            split at h
            · rename_i b us hb hus
              cases h
              obtain ⟨e, he, hx⟩ := readTagged_iff.mp hc
              have hge := he.length_ge
              have hlen := congrArg List.length hx
              simp only [List.length_cons, List.length_append] at hlen hn
              rw [hx]
              exact .cons ⟨c, decodePair_iff.mp hb, he⟩ (ih (by omega) hus)
            · cases h
          · cases h
        · exact nofun
  · intro h
    induction h generalizing n with
    | nil => cases n <;> rfl
    | @cons b bs x rest hb _ ih =>
      have hge := hb.choose_spec.2.length_ge
      rw [List.length_append] at hn
      obtain ⟨n, rfl⟩ : ∃ k, n = k + 1 := ⟨n - 1, by omega⟩
      exact decodeBindings_cons hb (ih (by omega))

theorem decodePduContent_iff {f : Fields} {bs : List VariableBinding} {pc : List UInt8} :
    decodePduContent most pc = some (f.request_id, f.error_status, f.error_index, bs) ↔
      IsPduContent most f bs pc := by
  constructor
  · intro h
    simp only [decodePduContent, Option.bind_eq_bind, Option.bind_eq_some_iff, Prod.exists,
      readTagged_iff] at h
    obtain ⟨i, _, ⟨bi, hi, rfl⟩, j, _, ⟨bj, hj, rfl⟩, k, _, ⟨bk, hk, rfl⟩, vb, rest,
      ⟨l, hl, rfl⟩, bs', hbs, h⟩ := h
    by_cases hrest : rest = []
    · rw [if_pos hrest] at h
      cases h
      refine ⟨_, vb, l, ⟨bi, bj, bk, hi, hj, hk, rfl⟩,
        (decodeBindings_iff (Nat.le_refl _)).mp hbs, hl, ?_⟩
      simp only [hrest, List.append_nil, List.append_assoc]
    · rw [if_neg hrest] at h
      cases h
  · rintro ⟨t, vb, l, ⟨i, j, k, hi, hj, hk, rfl⟩, hvb, hl, rfl⟩
    have hread := readTagged_append hl []
    rw [List.append_nil] at hread
    simp [decodePduContent, readTagged_append hi, readTagged_append hj, readTagged_append hk, hread,
      (decodeBindings_iff (Nat.le_refl _)).mpr hvb]

/-- The reference decoder decodes exactly the messages. -/
theorem decodeMessage_iff {f : Fields} {bs : List VariableBinding} {d : List UInt8} :
    decodeMessage most d = some (f, bs) ↔ IsMessage most f bs d := by
  constructor
  · intro h
    simp only [decodeMessage, Option.bind_eq_bind, Option.bind_eq_some_iff, Prod.exists,
      readTagged_iff, readElement_iff] at h
    obtain ⟨body, rest, ⟨x, hx, rfl⟩, v, _, ⟨bv, hv, rfl⟩, c, _, ⟨bc, hc, rfl⟩, t, pc, after,
      ⟨bp, hp, rfl⟩, i, j, k, bs', hpc, h⟩ := h
    split at h
    · rename_i hall
      rcases hall with ⟨hfill, hver, rfl, rfl⟩
      cases h
      rw [hver] at hv
      rw [List.append_nil] at hx ⊢
      refine ⟨hfill, bv ++ bc, pc, bp, ⟨bv, bc, hv, hc, rfl⟩, decodePduContent_iff.mp hpc, hp, ?_⟩
      rwa [List.append_assoc]
    · cases h
  · rintro ⟨hfill, _, pc, p, ⟨v, c, hv, hc, rfl⟩, hpc, hp, hd⟩
    have h1 := readTagged_append hd []
    have h2 := readElement_append hp []
    rw [List.append_nil] at h1 h2
    rw [List.append_assoc] at h1
    simp [decodeMessage, h1, readTagged_append hv, readTagged_append hc, h2,
      decodePduContent_iff.mpr hpc, hfill]

end

/-! ## A datagram has one layout -/

section

variable {m m' : Nat} {f f' : Fields} {b b' : VariableBinding} {x x' xs xs' : List UInt8}

theorem IsPair.unique (h : IsPair m b x) (h' : IsPair m' b' x') (he : x ++ xs = x' ++ xs') :
    b = b' ∧ x = x' ∧ xs = xs' := by
  rcases h with ⟨o, v, ho, hv, rfl⟩
  rcases h' with ⟨o', v', ho', hv', rfl⟩
  rw [List.append_assoc, List.append_assoc] at he
  obtain ⟨-, hoid, rfl, hr⟩ := ho.unique ho' he
  obtain ⟨hty, hval, rfl, rfl⟩ := hv.unique hv' hr
  refine ⟨?_, rfl, rfl⟩
  cases b; cases b'
  simp_all

theorem IsOpening.unique (h : IsOpening m f x) (h' : IsOpening m' f' x')
    (he : x ++ xs = x' ++ xs') :
    f.version = f'.version ∧ f.community = f'.community ∧ xs = xs' := by
  rcases h with ⟨v, c, hv, hc, rfl⟩
  rcases h' with ⟨v', c', hv', hc', rfl⟩
  rw [List.append_assoc, List.append_assoc] at he
  obtain ⟨-, hver, rfl, hr⟩ := hv.unique hv' he
  obtain ⟨-, hcom, rfl, rfl⟩ := hc.unique hc' hr
  simp only [List.cons.injEq, and_true] at hver
  exact ⟨hver, hcom, rfl⟩

theorem IsTriple.unique (h : IsTriple m f x) (h' : IsTriple m' f' x')
    (he : x ++ xs = x' ++ xs') :
    f.request_id = f'.request_id ∧ f.error_status = f'.error_status ∧
      f.error_index = f'.error_index ∧ x = x' ∧ xs = xs' := by
  rcases h with ⟨i, j, k, hi, hj, hk, rfl⟩
  rcases h' with ⟨i', j', k', hi', hj', hk', rfl⟩
  simp only [List.append_assoc] at he
  obtain ⟨-, h1, rfl, hr⟩ := hi.unique hi' he
  obtain ⟨-, h2, rfl, hr'⟩ := hj.unique hj' hr
  obtain ⟨-, h3, rfl, rfl⟩ := hk.unique hk' hr'
  exact ⟨h1, h2, h3, rfl, rfl⟩

/-- A run of tiles is empty, or it starts with one. -/
theorem Tiles.cases_first {ts : List (VariableBinding × Nat)} (h : Tiles m ts x) :
    (ts = [] ∧ x = []) ∨ ∃ b n hd c rest us, IsHeader m 0x30 (c.length + n) hd ∧
      IsPair m b c ∧ n ≤ rest.length ∧ Tiles m us rest ∧ ts = (b, n) :: us ∧
      x = hd ++ c ++ rest := by
  cases h with
  | nil => exact Or.inl ⟨rfl, rfl⟩
  | cons hh hc hs ht => exact Or.inr ⟨_, _, _, _, _, _, hh, hc, hs, ht, rfl, rfl⟩

theorem Tiles.unique {ts ts' : List (VariableBinding × Nat)} (h : Tiles m ts x)
    (h' : Tiles m' ts' x) : ts = ts' := by
  induction h generalizing ts' with
  | nil =>
    rcases h'.cases_first with ⟨rfl, -⟩ | ⟨b, n, hd, c, rest, us, hh, -, -, -, -, he⟩
    · rfl
    · have hl := hh.length_ge
      have := congrArg List.length he
      simp only [List.length_nil, List.length_append] at this
      omega
  | @cons b n hd c rest us hh hc hs ht ih =>
    rcases h'.cases_first with ⟨-, he⟩ | ⟨b', n', hd', c', rest', us', hh', hc', -, ht', rfl, he⟩
    · have hl := hh.length_ge
      have := congrArg List.length he
      simp only [List.length_nil, List.length_append] at this
      omega
    · rw [List.append_assoc, List.append_assoc] at he
      obtain ⟨-, hn, rfl, hr⟩ := hh.unique hh' he
      obtain ⟨rfl, rfl, rfl⟩ := hc.unique hc' hr
      rw [ih ht', Nat.add_left_cancel hn]

theorem IsLoosePduContent.unique {ts ts' : List (VariableBinding × Nat)}
    (h : IsLoosePduContent m f ts x) (h' : IsLoosePduContent m' f' ts' x')
    (he : x ++ xs = x' ++ xs') :
    f.request_id = f'.request_id ∧ f.error_status = f'.error_status ∧
      f.error_index = f'.error_index ∧ ts = ts' ∧ x = x' ∧ xs = xs' := by
  rcases h with ⟨t, vb, l, ht, htiles, hl, rfl⟩
  rcases h' with ⟨t', vb', l', ht', htiles', hl', rfl⟩
  rw [List.append_assoc, List.append_assoc] at he
  obtain ⟨h1, h2, h3, rfl, hr⟩ := ht.unique ht' he
  obtain ⟨-, rfl, rfl, rfl⟩ := hl.unique hl' hr
  exact ⟨h1, h2, h3, htiles.unique htiles', rfl, rfl⟩

/-- A datagram has at most one layout. -/
theorem HasLayout.unique {l l' : Layout} {d : List UInt8} (h : HasLayout m l d)
    (h' : HasLayout m' l' d) : l = l' := by
  rcases h with ⟨-, o, pc, hd, ho, hpc, hh, he⟩
  rcases h' with ⟨-, o', pc', hd', ho', hpc', hh', he'⟩
  obtain ⟨-, hbody, -, -⟩ := he.unique he' (rfl : d ++ [] = d ++ [])
  obtain ⟨hv, hc, hr⟩ := ho.unique ho' hbody
  obtain ⟨ht, hn, rfl, hr'⟩ := hh.unique hh' hr
  obtain ⟨h1, h2, h3, h4, rfl, h5⟩ := hpc.unique hpc' hr'
  rcases l with ⟨⟨_, _, _, _, _, _⟩, _, _, _⟩
  rcases l' with ⟨⟨_, _, _, _, _, _⟩, _, _, _⟩
  simp only at *
  subst hv hc ht h1 h2 h3 h4 h5
  rw [Nat.add_left_cancel hn]

end

/-! ## Messages are the tight layouts -/

section

variable {m : Nat} {f : Fields} {x : List UInt8}

theorem tiles_of_each {bs : List VariableBinding} (h : Each (IsBinding m) bs x) :
    Tiles m (bs.map fun b => (b, 0)) x := by
  induction h with
  | nil => exact .nil
  | cons hb _ ih =>
    rcases hb with ⟨c, hc, hd, hh, rfl⟩
    exact .cons hh hc (Nat.zero_le _) ih

theorem each_of_tiles {ts : List (VariableBinding × Nat)} (h : Tiles m ts x)
    (h0 : ∀ t ∈ ts, t.2 = 0) : Each (IsBinding m) (ts.map Prod.fst) x := by
  induction h with
  | nil => exact .nil
  | @cons b n hd c rest us hh hc hs ht ih =>
    have hn : n = 0 := h0 (b, n) List.mem_cons_self
    subst hn
    exact .cons ⟨c, hc, hd, hh, rfl⟩ (ih fun t hu => h0 t (List.mem_cons_of_mem _ hu))

/-- The tight layout of a message. -/
def tightLayout (f : Fields) (bs : List VariableBinding) : Layout where
  fields := f
  tiles := bs.map fun b => (b, 0)
  after := []
  pdu_surplus := 0

@[simp] theorem tightLayout_packet (f : Fields) (bs : List VariableBinding) :
    (tightLayout f bs).packet = f.packet bs := by
  simp [Layout.packet, Layout.bindings, tightLayout, Function.comp_def]

theorem tightLayout_tight (bs : List VariableBinding) (h : f.Filled) :
    (tightLayout f bs).Tight := by
  refine ⟨h, ?_, rfl⟩
  intro t ht
  obtain ⟨b, -, rfl⟩ := List.mem_map.mp ht
  rfl

theorem hasLayout_of_message {bs : List VariableBinding} {d : List UInt8}
    (h : IsMessage m f bs d) : HasLayout m (tightLayout f bs) d := by
  rcases h with ⟨-, o, pc, p, ho, ⟨t, vb, l, ht, hvb, hl, rfl⟩, ⟨hd, hh, rfl⟩, hd⟩
  refine ⟨Nat.le_refl _, o, _, _, ho, ⟨t, vb, l, ht, tiles_of_each hvb, hl, rfl⟩, hh, ?_⟩
  simpa [tightLayout] using hd

theorem message_of_tight {l : Layout} {d : List UInt8} (h : HasLayout m l d) (ht : l.Tight) :
    IsMessage m l.fields l.bindings d := by
  rcases ht with ⟨hfill, h0, hafter⟩
  rcases h with ⟨hs, o, pc, hd, ho, ⟨t, vb, lb, htr, htiles, hl, rfl⟩, hh, he⟩
  rw [hafter, List.length_nil, Nat.le_zero] at hs
  rw [hs] at hh
  rw [hafter, List.append_nil] at he
  exact ⟨hfill, o, _, _, ho, ⟨t, vb, lb, htr, each_of_tiles htiles h0, hl, rfl⟩, ⟨hd, hh, rfl⟩, he⟩

/-- A datagram is a message exactly when its layout is tight. -/
theorem layout_tight_of_message {l : Layout} {bs : List VariableBinding} {d : List UInt8}
    (hm : IsMessage m f bs d) (hl : HasLayout m l d) : l.Tight := by
  rw [hl.unique (hasLayout_of_message hm)]
  exact tightLayout_tight bs hm.1

end

end simple_snmpd.snmp_packet
