-- Definite-length encodings of the basic encoding rules: length octets,
-- headers, and elements with a tag, a length and a content. An encoding
-- never is the start of another one, so a run of elements reads in one way.
import Mathlib.Data.List.Basic
import Mathlib.Tactic.Ring

namespace ber

/-! ## Big-endian values -/

/-- The number that bytes denote, the most significant byte first, on top
of a number `n` read before them. -/
def beFrom (n : Nat) (bs : List UInt8) : Nat := bs.foldl (fun n b => n * 256 + b.toNat) n

/-- The number that bytes denote, the most significant byte first. -/
def beValue (bs : List UInt8) : Nat := beFrom 0 bs

@[simp] theorem beFrom_nil (n : Nat) : beFrom n [] = n := rfl

@[simp] theorem beFrom_cons (n : Nat) (b : UInt8) (bs : List UInt8) :
    beFrom n (b :: bs) = beFrom (n * 256 + b.toNat) bs := rfl

theorem beFrom_eq (n : Nat) (bs : List UInt8) :
    beFrom n bs = n * 256 ^ bs.length + beValue bs := by
  induction bs generalizing n with
  | nil => simp [beValue]
  | cons b bs ih =>
    have h0 := ih (0 * 256 + b.toNat)
    simp only [beValue, beFrom_cons, List.length_cons] at *
    rw [ih, h0]
    ring

theorem beValue_cons (b : UInt8) (bs : List UInt8) :
    beValue (b :: bs) = b.toNat * 256 ^ bs.length + beValue bs := by
  unfold beValue
  rw [beFrom_cons, beFrom_eq]
  simp [beValue]

theorem beValue_lt (bs : List UInt8) : beValue bs < 256 ^ bs.length := by
  induction bs with
  | nil => simp [beValue]
  | cons b bs ih =>
    rw [beValue_cons, List.length_cons, pow_succ]
    have hb := b.toNat_lt
    calc b.toNat * 256 ^ bs.length + beValue bs
        < b.toNat * 256 ^ bs.length + 256 ^ bs.length := by omega
      _ = (b.toNat + 1) * 256 ^ bs.length := by ring
      _ ≤ 256 * 256 ^ bs.length := Nat.mul_le_mul_right _ (by omega)
      _ = 256 ^ bs.length * 256 := by ring

theorem beValue_lt_of_length_le {bs : List UInt8} {k : Nat} (h : bs.length ≤ k) :
    beValue bs < 256 ^ k :=
  Nat.lt_of_lt_of_le (beValue_lt bs) (Nat.pow_le_pow_right (by omega) h)

/-- The last `m` bytes of a number, the most significant byte first. -/
def beOctets : Nat → Nat → List UInt8
  | 0, _ => []
  | m + 1, n => UInt8.ofNat (n / 256 ^ m) :: beOctets m n

@[simp] theorem beOctets_length (m n : Nat) : (beOctets m n).length = m := by
  induction m with
  | zero => rfl
  | succ m ih => simp [beOctets, ih]

theorem beValue_beOctets (m n : Nat) : beValue (beOctets m n) = n % 256 ^ m := by
  induction m with
  | zero => simp [beOctets, beValue, Nat.mod_one]
  | succ m ih =>
    have hsplit : n % 256 ^ (m + 1) = n % 256 ^ m + 256 ^ m * (n / 256 ^ m % 256) :=
      Nat.mod_pow_succ
    rw [beOctets, beValue_cons, ih, beOctets_length, UInt8.toNat_ofNat', hsplit, Nat.add_comm,
      Nat.mul_comm]

/-! ## Two's complement -/

/-- The integer that bytes denote in two's complement, the most significant
byte first. -/
def beInt (bs : List UInt8) : Int :=
  if (bs.headD 0).toNat < 128 then beValue bs else beValue bs - 256 ^ bs.length

theorem beInt_clear {bs : List UInt8} (h : (bs.headD 0).toNat < 128) : beInt bs = beValue bs :=
  if_pos h

/-- With the first bit set, the integer is not the value without a sign. -/
theorem beInt_set {bs : List UInt8} (h : ¬ (bs.headD 0).toNat < 128) : beInt bs ≠ beValue bs := by
  have hpow : (0 : Int) < 256 ^ bs.length := Int.pow_pos (by omega)
  rw [beInt, if_neg h]
  omega

/-- The first bit is clear exactly where the value is in the lower half. -/
theorem head_lt_iff {bs : List UInt8} (h : bs ≠ []) :
    (bs.headD 0).toNat < 128 ↔ 2 * beValue bs < 256 ^ bs.length := by
  obtain ⟨b, t, rfl⟩ := List.exists_cons_of_ne_nil h
  have hlt := beValue_lt t
  rw [List.headD_cons, beValue_cons, List.length_cons, pow_succ, Nat.mul_comm _ 256]
  generalize 256 ^ t.length = w at *
  constructor
  · intro hb
    have := Nat.mul_le_mul_right w (by omega : b.toNat ≤ 127)
    omega
  · intro hsum
    by_contra hb
    have := Nat.mul_le_mul_right w (by omega : 128 ≤ b.toNat)
    omega

/-- The integer is the value without a sign exactly in the lower half. -/
theorem beInt_eq_beValue_iff {bs : List UInt8} (h : bs ≠ []) :
    beInt bs = beValue bs ↔ 2 * beValue bs < 256 ^ bs.length := by
  rw [← head_lt_iff h]
  constructor
  · intro heq
    by_contra hset
    exact beInt_set hset heq
  · exact beInt_clear

/-- In the same number of bytes, the value without a sign fixes the integer. -/
theorem beInt_congr {bs bs' : List UInt8} (hlen : bs.length = bs'.length) (h : bs ≠ [])
    (hval : beValue bs = beValue bs') : beInt bs = beInt bs' := by
  have h' : bs' ≠ [] := by
    intro hnil
    rw [hnil, List.length_nil] at hlen
    exact h (List.eq_nil_of_length_eq_zero hlen)
  have hhead : (bs.headD 0).toNat < 128 ↔ (bs'.headD 0).toNat < 128 := by
    rw [head_lt_iff h, head_lt_iff h', hval, hlen]
  unfold beInt
  rw [hval, hlen]
  simp only [hhead]

/-! ## Length octets -/

/-- The octets of a definite length: the short form in one octet, or the
long form with up to `most` octets after the first. The long form need not
be minimal. -/
inductive LengthOctets (most : Nat) : List UInt8 → Nat → Prop
  | short (b : UInt8) (h : b.toNat < 128) : LengthOctets most [b] b.toNat
  | long (b : UInt8) (os : List UInt8) (hb : b.toNat = 128 + os.length)
      (hpos : 0 < os.length) (hle : os.length ≤ most) : LengthOctets most (b :: os) (beValue os)

theorem LengthOctets.length_pos {most n : Nat} {l : List UInt8} (h : LengthOctets most l n) :
    0 < l.length := by
  cases h <;> simp

theorem LengthOctets.length_le {most n : Nat} {l : List UInt8} (h : LengthOctets most l n) :
    l.length ≤ most + 1 := by
  cases h with
  | short => simp
  | long b os hb hpos hle => simpa using hle

theorem LengthOctets.of_length_le {most most' n : Nat} {l : List UInt8}
    (h : LengthOctets most l n) (hl : l.length ≤ most' + 1) : LengthOctets most' l n := by
  cases h with
  | short b hb => exact .short b hb
  | long b os hb hpos hle => exact .long b os hb hpos (by simpa using hl)

theorem LengthOctets.value_lt {most n : Nat} {l : List UInt8} (h : LengthOctets most l n)
    (hm : 0 < most) : n < 256 ^ most := by
  cases h with
  | short b hb =>
    calc b.toNat < 256 ^ 1 := by omega
      _ ≤ 256 ^ most := Nat.pow_le_pow_right (by omega) hm
  | long b os hb hpos hle => exact beValue_lt_of_length_le hle

/-- A value that does not fit some octets takes more of them. -/
theorem LengthOctets.length_gt {most n k : Nat} {l : List UInt8} (h : LengthOctets most l n)
    (hk : 0 < k) (hn : 256 ^ k ≤ n) : k + 1 < l.length := by
  cases h with
  | short b hb =>
    have hone : 256 ^ 1 ≤ 256 ^ k := Nat.pow_le_pow_right (by omega) hk
    omega
  | long b os hb hpos hle =>
    by_contra hlen
    rw [List.length_cons] at hlen
    have hlt : beValue os < 256 ^ k := beValue_lt_of_length_le (by omega)
    omega

/-- The first octet fixes how many octets there are. -/
theorem LengthOctets.unique {m m' n n' : Nat} {l l' xs xs' : List UInt8}
    (h : LengthOctets m l n) (h' : LengthOctets m' l' n') (he : l ++ xs = l' ++ xs') :
    l = l' ∧ n = n' ∧ xs = xs' := by
  cases h with
  | short b hb =>
    cases h' with
    | short b' hb' =>
      simp only [List.cons_append, List.nil_append, List.cons.injEq] at he
      rcases he with ⟨rfl, rfl⟩
      exact ⟨rfl, rfl, rfl⟩
    | long b' os' hb' =>
      simp only [List.cons_append, List.nil_append, List.cons.injEq] at he
      rcases he with ⟨rfl, -⟩
      omega
  | long b os hos =>
    cases h' with
    | short b' hb' =>
      simp only [List.cons_append, List.nil_append, List.cons.injEq] at he
      rcases he with ⟨rfl, -⟩
      omega
    | long b' os' hos' =>
      simp only [List.cons_append, List.cons.injEq] at he
      rcases he with ⟨rfl, he⟩
      obtain ⟨rfl, rfl⟩ := List.append_inj he (by omega)
      exact ⟨rfl, rfl, rfl⟩

/-- Every length below 128 has a short form. -/
theorem LengthOctets.of_lt {most n : Nat} (h : n < 128) :
    LengthOctets most [UInt8.ofNat n] n := by
  have hn : (UInt8.ofNat n).toNat = n := by
    rw [UInt8.toNat_ofNat']
    omega
  have := @LengthOctets.short most (UInt8.ofNat n) (by omega)
  rwa [hn] at this

/-- Every length of two octets has a long form. -/
theorem LengthOctets.of_lt_word {most n : Nat} (hm : 2 ≤ most) (h : n < 65536) :
    LengthOctets most [0x82, UInt8.ofNat (n / 256), UInt8.ofNat (n % 256)] n := by
  have hhigh : (UInt8.ofNat (n / 256)).toNat = n / 256 := by
    rw [UInt8.toNat_ofNat']
    omega
  have hlow : (UInt8.ofNat (n % 256)).toNat = n % 256 := by
    rw [UInt8.toNat_ofNat']
    omega
  have hvalue : beValue [UInt8.ofNat (n / 256), UInt8.ofNat (n % 256)] = n := by
    simp only [beValue, beFrom_cons, beFrom_nil, hhigh, hlow]
    omega
  have := @LengthOctets.long most 0x82 [UInt8.ofNat (n / 256), UInt8.ofNat (n % 256)] rfl
    Nat.two_pos hm
  rwa [hvalue] at this

/-- The long form with `m` octets for a length. -/
def longForm (m n : Nat) : List UInt8 := UInt8.ofNat (128 + m) :: beOctets m n

@[simp] theorem longForm_length (m n : Nat) : (longForm m n).length = m + 1 := by
  simp [longForm]

/-- A length has a long form in every number of octets that hold it. -/
theorem LengthOctets.longForm {most m n : Nat} (hpos : 0 < m) (hle : m ≤ most) (hm : m < 128)
    (hn : n < 256 ^ m) : LengthOctets most (longForm m n) n := by
  have hfirst : (UInt8.ofNat (128 + m)).toNat = 128 + (beOctets m n).length := by
    rw [UInt8.toNat_ofNat', beOctets_length]
    omega
  have h := @LengthOctets.long most _ _ hfirst (by simpa using hpos) (by simpa using hle)
  rwa [beValue_beOctets, Nat.mod_eq_of_lt hn] at h

/-! ## Headers and elements -/

/-- A tag and the octets of a length. -/
def IsHeader (most : Nat) (tag : UInt8) (n : Nat) (bytes : List UInt8) : Prop :=
  ∃ l, LengthOctets most l n ∧ bytes = tag :: l

/-- An element: a header whose length is the size of the content, and then
the content. -/
def IsElement (most : Nat) (tag : UInt8) (content bytes : List UInt8) : Prop :=
  ∃ h, IsHeader most tag content.length h ∧ bytes = h ++ content

theorem IsHeader.length_ge {most n : Nat} {tag : UInt8} {h : List UInt8}
    (hh : IsHeader most tag n h) : 2 ≤ h.length := by
  rcases hh with ⟨l, hl, rfl⟩
  have := hl.length_pos
  simp only [List.length_cons]
  omega

theorem IsHeader.unique {m m' n n' : Nat} {t t' : UInt8} {h h' xs xs' : List UInt8}
    (hh : IsHeader m t n h) (hh' : IsHeader m' t' n' h') (he : h ++ xs = h' ++ xs') :
    t = t' ∧ n = n' ∧ h = h' ∧ xs = xs' := by
  rcases hh with ⟨l, hl, rfl⟩
  rcases hh' with ⟨l', hl', rfl⟩
  simp only [List.cons_append, List.cons.injEq] at he
  obtain ⟨rfl, rfl, rfl⟩ := hl.unique hl' he.2
  exact ⟨he.1, rfl, by rw [he.1], rfl⟩

theorem IsElement.length_ge {most : Nat} {tag : UInt8} {content bytes : List UInt8}
    (h : IsElement most tag content bytes) : content.length + 2 ≤ bytes.length := by
  rcases h with ⟨hd, hh, rfl⟩
  have := hh.length_ge
  simp only [List.length_append]
  omega

/-- A content whose size does not fit some octets has more of them in front. -/
theorem IsElement.length_gt {most k : Nat} {tag : UInt8} {content bytes : List UInt8}
    (h : IsElement most tag content bytes) (hk : 0 < k) (hc : 256 ^ k ≤ content.length) :
    content.length + k + 2 < bytes.length := by
  rcases h with ⟨hd, ⟨l, hl, rfl⟩, rfl⟩
  have := hl.length_gt hk hc
  simp only [List.length_append, List.length_cons]
  omega

/-- An element never is the start of another element. -/
theorem IsElement.unique {m m' : Nat} {t t' : UInt8} {c c' b b' xs xs' : List UInt8}
    (h : IsElement m t c b) (h' : IsElement m' t' c' b') (he : b ++ xs = b' ++ xs') :
    t = t' ∧ c = c' ∧ b = b' ∧ xs = xs' := by
  rcases h with ⟨hd, hh, rfl⟩
  rcases h' with ⟨hd', hh', rfl⟩
  rw [List.append_assoc, List.append_assoc] at he
  obtain ⟨rfl, hn, rfl, hc⟩ := hh.unique hh' he
  obtain ⟨rfl, rfl⟩ := List.append_inj hc hn
  exact ⟨rfl, rfl, rfl, rfl⟩

/-- The element with the short form of its length. -/
theorem IsElement.of_lt {most : Nat} (tag : UInt8) {content : List UInt8}
    (h : content.length < 128) :
    IsElement most tag content (tag :: UInt8.ofNat content.length :: content) :=
  ⟨_, ⟨_, .of_lt h, rfl⟩, rfl⟩

/-- The element with two octets for its length. -/
def wordElement (tag : UInt8) (content : List UInt8) : List UInt8 :=
  tag :: 0x82 :: UInt8.ofNat (content.length / 256) :: UInt8.ofNat (content.length % 256) :: content

@[simp] theorem wordElement_length (tag : UInt8) (content : List UInt8) :
    (wordElement tag content).length = content.length + 4 := rfl

theorem IsElement.of_lt_word {most : Nat} (hm : 2 ≤ most) (tag : UInt8) {content : List UInt8}
    (h : content.length < 65536) : IsElement most tag content (wordElement tag content) :=
  ⟨_, ⟨_, .of_lt_word hm h, rfl⟩, rfl⟩

/-! ## Readers -/

/-- Reads the octets of a length off the front: the length, and the bytes
after its octets. -/
def readLength (most : Nat) : List UInt8 → Option (Nat × List UInt8)
  | [] => none
  | b :: xs =>
    if b.toNat < 128 then some (b.toNat, xs)
    else
      let k := b.toNat - 128
      if 0 < k ∧ k ≤ most ∧ k ≤ xs.length then some (beValue (xs.take k), xs.drop k) else none

theorem readLength_append {most n : Nat} {l : List UInt8} (hl : LengthOctets most l n)
    (xs : List UInt8) : readLength most (l ++ xs) = some (n, xs) := by
  cases hl with
  | short b hb => simp [readLength, hb]
  | long b os hb hpos hle =>
    have hk : b.toNat - 128 = os.length := by omega
    have hc : 0 < os.length ∧ os.length ≤ most ∧ os.length ≤ (os ++ xs).length :=
      ⟨hpos, hle, by simp⟩
    rw [List.cons_append, readLength, if_neg (by omega), hk, if_pos hc, List.take_left,
      List.drop_left]

theorem readLength_iff {most n : Nat} {bs rest : List UInt8} :
    readLength most bs = some (n, rest) ↔ ∃ l, LengthOctets most l n ∧ bs = l ++ rest := by
  constructor
  · intro h
    cases bs with
    | nil => cases h
    | cons b xs =>
      rw [readLength] at h
      by_cases hb : b.toNat < 128
      · rw [if_pos hb] at h
        cases h
        exact ⟨[b], .short b hb, rfl⟩
      · rw [if_neg hb] at h
        by_cases hk : 0 < b.toNat - 128 ∧ b.toNat - 128 ≤ most ∧ b.toNat - 128 ≤ xs.length
        · simp only [if_pos hk, Option.some.injEq, Prod.mk.injEq] at h
          rcases h with ⟨rfl, rfl⟩
          have hl : (xs.take (b.toNat - 128)).length = b.toNat - 128 := by
            rw [List.length_take]
            omega
          exact ⟨b :: xs.take (b.toNat - 128), .long b _ (by omega) (by omega) (by omega),
            by rw [List.cons_append, List.take_append_drop]⟩
        · rw [if_neg hk] at h
          cases h
  · rintro ⟨l, hl, rfl⟩
    exact readLength_append hl rest

/-- Reads an element off the front: its tag, its content, and the bytes
after it. -/
def readElement (most : Nat) : List UInt8 → Option (UInt8 × List UInt8 × List UInt8)
  | [] => none
  | tag :: bs =>
    match readLength most bs with
    | some (n, rest) => if n ≤ rest.length then some (tag, rest.take n, rest.drop n) else none
    | none => none

theorem readElement_append {most : Nat} {tag : UInt8} {c b : List UInt8}
    (h : IsElement most tag c b) (xs : List UInt8) :
    readElement most (b ++ xs) = some (tag, c, xs) := by
  rcases h with ⟨_, ⟨l, hl, rfl⟩, rfl⟩
  rw [List.append_assoc, List.cons_append, readElement, readLength_append hl]
  dsimp only
  rw [if_pos (by simp), List.take_left, List.drop_left]

theorem readElement_iff {most : Nat} {tag : UInt8} {c bs rest : List UInt8} :
    readElement most bs = some (tag, c, rest) ↔ ∃ b, IsElement most tag c b ∧ bs = b ++ rest := by
  constructor
  · intro h
    cases bs with
    | nil => cases h
    | cons t xs =>
      rw [readElement] at h
      cases hr : readLength most xs with
      | none => rw [hr] at h; cases h
      | some p =>
        rcases p with ⟨n, r⟩
        simp only [hr] at h
        obtain ⟨l, hl, rfl⟩ := readLength_iff.mp hr
        by_cases hn : n ≤ r.length
        · rw [if_pos hn] at h
          obtain ⟨rfl, rfl, rfl⟩ : t = tag ∧ r.take n = c ∧ r.drop n = rest := by simpa using h
          have hlen : (r.take n).length = n := by
            rw [List.length_take]
            omega
          refine ⟨t :: l ++ r.take n, ⟨_, ⟨l, by rwa [hlen], rfl⟩, rfl⟩, ?_⟩
          rw [List.append_assoc, List.take_append_drop, List.cons_append]
        · rw [if_neg hn] at h
          cases h
  · rintro ⟨b, hb, rfl⟩
    exact readElement_append hb rest

/-- Reads an element with the tag off the front: its content, and the bytes
after it. -/
def readTagged (most : Nat) (tag : UInt8) (bs : List UInt8) : Option (List UInt8 × List UInt8) :=
  match readElement most bs with
  | some (t, c, rest) => if t = tag then some (c, rest) else none
  | none => none

theorem readTagged_iff {most : Nat} {tag : UInt8} {c bs rest : List UInt8} :
    readTagged most tag bs = some (c, rest) ↔ ∃ b, IsElement most tag c b ∧ bs = b ++ rest := by
  rw [← readElement_iff]
  unfold readTagged
  cases hr : readElement most bs with
  | none => exact ⟨nofun, nofun⟩
  | some p =>
    rcases p with ⟨t, c', r⟩
    by_cases ht : t = tag
    · simp [ht]
    · simp [ht]

theorem readTagged_append {most : Nat} {tag : UInt8} {c b : List UInt8}
    (h : IsElement most tag c b) (xs : List UInt8) : readTagged most tag (b ++ xs) = some (c, xs) :=
  readTagged_iff.mpr ⟨b, h, rfl⟩

/-! ## Runs of encodings -/

/-- The bytes are the encodings of the items, one after the other. -/
inductive Each {α : Type} (P : α → List UInt8 → Prop) : List α → List UInt8 → Prop
  | nil : Each P [] []
  | cons {a : α} {as : List α} {b bs : List UInt8} (h : P a b) (t : Each P as bs) :
      Each P (a :: as) (b ++ bs)

/-- What the items take is bounded by the bytes, if what each takes is
bounded by its encoding. -/
theorem Each.sum_le {α : Type} {P : α → List UInt8 → Prop} {as : List α} {bs : List UInt8}
    (h : Each P as bs) (w : α → Nat) (hw : ∀ a b, P a b → w a ≤ b.length) :
    (as.map w).sum ≤ bs.length := by
  induction h with
  | nil => simp
  | @cons a as b bs hab _ ih =>
    have := hw a b hab
    simp only [List.map_cons, List.sum_cons, List.length_append]
    omega

end ber
