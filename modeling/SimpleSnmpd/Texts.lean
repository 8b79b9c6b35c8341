-- Texts as lists: the lines that a newline ends, what is trimmed from the
-- ends of a text, and decimal numerals.
import Mathlib.Data.List.DropRight

namespace texts

variable {α : Type}

/-! ## Lines -/

section

variable [DecidableEq α] (nl : α)

/-- The lines of a text whose first line has begun with `line`. -/
def linesFrom (line : List α) : List α → List (List α)
  | [] => if line = [] then [] else [line]
  | c :: cs => if c = nl then line :: linesFrom [] cs else linesFrom (line ++ [c]) cs

/-- The lines of a text. A newline ends a line, and what stands after the
last one is a line too. -/
def lines (cs : List α) : List (List α) := linesFrom nl [] cs

/-- The text of lines, with a newline after each. -/
def unlines (ls : List (List α)) : List α := (ls.map (· ++ [nl])).flatten

variable {nl}

theorem linesFrom_line {xs : List α} (h : nl ∉ xs) (line rest : List α) :
    linesFrom nl line (xs ++ nl :: rest) = (line ++ xs) :: linesFrom nl [] rest := by
  induction xs generalizing line with
  | nil => rw [List.nil_append, linesFrom, if_pos rfl, List.append_nil]
  | cons c xs ih =>
    rw [List.mem_cons, not_or] at h
    rw [List.cons_append, linesFrom, if_neg (Ne.symm h.1), ih h.2, List.append_assoc]
    rfl

theorem linesFrom_last {xs : List α} (h : nl ∉ xs) (line : List α) :
    linesFrom nl line xs = if line ++ xs = [] then [] else [line ++ xs] := by
  induction xs generalizing line with
  | nil => rw [linesFrom, List.append_nil]
  | cons c xs ih =>
    rw [List.mem_cons, not_or] at h
    rw [linesFrom, if_neg (Ne.symm h.1), ih h.2, List.append_assoc]
    rfl

/-- The lines of a text are those that it was made of. -/
theorem lines_unlines_append {ls : List (List α)} {last : List α} (h : ∀ l ∈ ls, nl ∉ l)
    (hlast : nl ∉ last) :
    lines nl (unlines nl ls ++ last) = ls ++ if last = [] then [] else [last] := by
  unfold lines
  induction ls with
  | nil => exact linesFrom_last hlast []
  | cons l ls ih =>
    have htext : unlines nl (l :: ls) ++ last = l ++ nl :: (unlines nl ls ++ last) := by
      simp [unlines]
    rw [htext, linesFrom_line (h l List.mem_cons_self),
      ih fun l' hl => h l' (List.mem_cons_of_mem _ hl)]
    rfl

theorem lines_unlines {ls : List (List α)} (h : ∀ l ∈ ls, nl ∉ l) :
    lines nl (unlines nl ls) = ls := by
  have := lines_unlines_append h (List.not_mem_nil (a := nl))
  rwa [List.append_nil, if_pos rfl, List.append_nil] at this

/-- The lines after a newline are those of the text after it. -/
theorem linesFrom_append_newline (xs line rest : List α) :
    ∃ ls, linesFrom nl line (xs ++ nl :: rest) = ls ++ linesFrom nl [] rest := by
  induction xs generalizing line with
  | nil => exact ⟨[line], by rw [List.nil_append, linesFrom, if_pos rfl, List.singleton_append]⟩
  | cons c xs ih =>
    rw [List.cons_append, linesFrom]
    split_ifs with hc
    · obtain ⟨ls, hls⟩ := ih []
      exact ⟨line :: ls, by rw [hls, List.cons_append]⟩
    · exact ih (line ++ [c])

/-- What stands between two newlines is a line. -/
theorem mem_lines_between {l : List α} (h : nl ∉ l) (before after : List α) :
    l ∈ lines nl (before ++ nl :: (l ++ nl :: after)) := by
  obtain ⟨ls, hls⟩ := @linesFrom_append_newline _ _ nl before [] (l ++ nl :: after)
  rw [lines, hls, linesFrom_line h, List.nil_append]
  exact List.mem_append_right _ List.mem_cons_self

theorem not_mem_of_mem_linesFrom {cs line l : List α} (hline : nl ∉ line)
    (h : l ∈ linesFrom nl line cs) : nl ∉ l := by
  induction cs generalizing line with
  | nil =>
    rw [linesFrom] at h
    split_ifs at h
    · cases h
    · rw [List.mem_singleton.mp h]
      exact hline
  | cons c cs ih =>
    rw [linesFrom] at h
    split_ifs at h with hc
    · rcases List.mem_cons.mp h with rfl | h
      · exact hline
      · exact ih List.not_mem_nil h
    · refine ih ?_ h
      rw [List.mem_append, List.mem_singleton, not_or]
      exact ⟨hline, Ne.symm hc⟩

/-- No line of a text has a newline. -/
theorem not_mem_of_mem_lines {cs l : List α} (h : l ∈ lines nl cs) : nl ∉ l :=
  not_mem_of_mem_linesFrom List.not_mem_nil h

/-- Each of these is a line of their text exactly when none has a newline. -/
theorem lines_unlines_iff {ls : List (List α)} :
    lines nl (unlines nl ls) = ls ↔ ∀ l ∈ ls, nl ∉ l := by
  refine ⟨fun h l hl => ?_, lines_unlines⟩
  rw [← h] at hl
  exact not_mem_of_mem_lines hl

end

/-! ## Trimming -/

/-- The text without the characters at its ends. -/
def trim (p : α → Bool) (xs : List α) : List α := (xs.dropWhile p).rdropWhile p

/-- The text does not begin with a character that is trimmed. -/
def BeginsClear (p : α → Bool) (xs : List α) : Prop := ∀ a ∈ xs.head?, p a = false

/-- The text does not end with a character that is trimmed. -/
def EndsClear (p : α → Bool) (xs : List α) : Prop := ∀ a ∈ xs.getLast?, p a = false

instance (p : α → Bool) (xs : List α) : Decidable (BeginsClear p xs) :=
  inferInstanceAs (Decidable (∀ a ∈ xs.head?, _))

instance (p : α → Bool) (xs : List α) : Decidable (EndsClear p xs) :=
  inferInstanceAs (Decidable (∀ a ∈ xs.getLast?, _))

variable {p : α → Bool}

theorem BeginsClear.dropWhile_eq {xs : List α} (h : BeginsClear p xs) : xs.dropWhile p = xs := by
  cases xs with
  | nil => rfl
  | cons x xs => exact List.dropWhile_cons_of_neg (by simp [h x rfl])

theorem EndsClear.rdropWhile_eq {xs : List α} (h : EndsClear p xs) : xs.rdropWhile p = xs := by
  rcases List.eq_nil_or_concat' xs with rfl | ⟨ys, y, rfl⟩
  · rfl
  · have hy : p y = false := h y List.getLast?_concat
    exact List.rdropWhile_concat_neg _ _ _ (by simp [hy])

theorem rdropWhile_all {xs : List α} (h : ∀ a ∈ xs, p a = true) : xs.rdropWhile p = [] :=
  List.rdropWhile_eq_nil_iff.mpr h

theorem rdropWhile_append_all {ys : List α} (xs : List α) (h : ∀ a ∈ ys, p a = true) :
    (xs ++ ys).rdropWhile p = xs.rdropWhile p := by
  unfold List.rdropWhile
  rw [List.reverse_append, List.dropWhile_append_of_pos]
  intro a ha
  exact h a (List.mem_reverse.mp ha)

/-- Trimming at the right stops at a character that stays. -/
theorem rdropWhile_append_cons (xs ys : List α) {a : α} (h : p a = false) :
    (xs ++ a :: ys).rdropWhile p = xs ++ a :: ys.rdropWhile p := by
  induction ys using List.reverseRecOn with
  | nil =>
    rw [List.rdropWhile_nil]
    exact List.rdropWhile_concat_neg _ _ _ (by simp [h])
  | append_singleton ys y ih =>
    rw [← List.cons_append, ← List.append_assoc]
    by_cases hy : p y = true
    · rw [List.rdropWhile_concat_pos _ _ _ hy, ih, List.rdropWhile_concat_pos _ _ _ hy]
    · rw [List.rdropWhile_concat_neg _ _ _ hy, List.rdropWhile_concat_neg _ _ _ hy,
        List.append_assoc, List.cons_append]

/-- What is trimmed at the ends of a text leaves the text. -/
theorem trim_pad {xs : List α} (h : BeginsClear p xs) (h' : EndsClear p xs) {b b' : List α}
    (hb : ∀ a ∈ b, p a = true) (hb' : ∀ a ∈ b', p a = true) : trim p (b ++ xs ++ b') = xs := by
  unfold trim
  rw [List.append_assoc, List.dropWhile_append_of_pos hb]
  cases xs with
  | nil => rw [List.nil_append, List.dropWhile_eq_nil_iff.mpr hb', List.rdropWhile_nil]
  | cons x xs =>
    have hx : BeginsClear p (x :: xs ++ b') := h
    rw [hx.dropWhile_eq, rdropWhile_append_all _ hb', h'.rdropWhile_eq]

theorem BeginsClear.mono {q : α → Bool} {xs : List α} (h : BeginsClear q xs)
    (hpq : ∀ a, p a = true → q a = true) : BeginsClear p xs := by
  intro a ha
  have hq := h a ha
  by_contra hp
  rw [hpq a (by simpa using hp)] at hq
  cases hq

theorem EndsClear.mono {q : α → Bool} {xs : List α} (h : EndsClear q xs)
    (hpq : ∀ a, p a = true → q a = true) : EndsClear p xs := by
  intro a ha
  have hq := h a ha
  by_contra hp
  rw [hpq a (by simpa using hp)] at hq
  cases hq

theorem EndsClear.of_append {xs : List α} (h : EndsClear p xs) (hne : xs ≠ []) (b : List α) :
    EndsClear p (b ++ xs) := by
  intro a ha
  rw [List.getLast?_append_of_ne_nil _ hne] at ha
  exact h a ha

theorem BeginsClear.append {xs : List α} (h : BeginsClear p xs) (hne : xs ≠ []) (ys : List α) :
    BeginsClear p (xs ++ ys) := by
  intro a ha
  rw [List.head?_append_of_ne_nil _ hne] at ha
  exact h a ha

/-! ## Splitting -/

section

variable [DecidableEq α] {a : α}

theorem all_ne {xs : List α} (h : a ∉ xs) : ∀ x ∈ xs, decide (x ≠ a) = true := by
  intro x hx
  rw [decide_eq_true_eq]
  rintro rfl
  exact h hx

theorem takeWhile_ne_append {xs : List α} (h : a ∉ xs) (ys : List α) :
    (xs ++ a :: ys).takeWhile (· ≠ a) = xs := by
  rw [List.takeWhile_append_of_pos (all_ne h), List.takeWhile_cons_of_neg (by simp),
    List.append_nil]

theorem dropWhile_ne_append {xs : List α} (h : a ∉ xs) (ys : List α) :
    (xs ++ a :: ys).dropWhile (· ≠ a) = a :: ys := by
  rw [List.dropWhile_append_of_pos (all_ne h), List.dropWhile_cons_of_neg (by simp)]

/-- A text is parted at its first separator. -/
theorem append_cons_inj {xs xs' ys ys' : List α} (h : a ∉ xs) (h' : a ∉ xs')
    (he : xs ++ a :: ys = xs' ++ a :: ys') : xs = xs' ∧ ys = ys' := by
  have hxs : xs = xs' := by
    rw [← takeWhile_ne_append h ys, he, takeWhile_ne_append h']
  subst hxs
  exact ⟨rfl, (List.cons.inj (List.append_cancel_left he)).2⟩

theorem takeWhile_ne_self {xs : List α} (h : a ∉ xs) : xs.takeWhile (· ≠ a) = xs :=
  List.takeWhile_eq_self_iff.mpr (all_ne h)

end

/-! ## The start of a text -/

section

variable {p q l : List α}

/-- Two texts of which neither starts the other do not start the same one. -/
theorem not_prefix_of (h : q <+: l) (hq : ¬ p <+: q ∧ ¬ q <+: p) : ¬ p <+: l := by
  intro hprefix
  rcases List.prefix_or_prefix_of_prefix hprefix h with hle | hle
  · exact hq.1 hle
  · exact hq.2 hle

variable [BEq α] [LawfulBEq α]

theorem dropPrefix?_of_not_prefix (h : ¬ p <+: l) : l.dropPrefix? p = none := by
  cases hd : l.dropPrefix? p with
  | none => rfl
  | some x =>
    obtain ⟨p', rfl, hp⟩ := List.dropPrefix?_eq_some_iff.mp hd
    rw [beq_iff_eq] at hp
    exact absurd ⟨x, by rw [hp]⟩ h

theorem dropPrefix?_append (p x : List α) : (p ++ x).dropPrefix? p = some x :=
  List.dropPrefix?_append_of_beq x (beq_self_eq_true p)

end

/-! ## Numerals -/

/-- An octet from `0` to `9`. -/
def isDigit (c : UInt8) : Bool := 0x30 ≤ c && c ≤ 0x39

theorem ne_of_isDigit {c d : UInt8} (h : isDigit c = true) (hd : isDigit d = false) : c ≠ d := by
  rintro rfl
  rw [h] at hd
  cases hd

/-- The number that decimal digits denote. -/
def digitsValue (cs : List UInt8) : Nat := cs.foldl (fun n c => n * 10 + (c.toNat - 0x30)) 0

/-- The text is a decimal numeral of the number: digits, and nothing else. -/
structure IsNumeral (cs : List UInt8) (n : Nat) : Prop where
  nonempty : cs ≠ []
  digits : ∀ c ∈ cs, isDigit c = true
  value : digitsValue cs = n

instance (cs : List UInt8) (n : Nat) : Decidable (IsNumeral cs n) :=
  decidable_of_iff (cs ≠ [] ∧ cs.all isDigit = true ∧ digitsValue cs = n)
    ⟨fun ⟨h1, h2, h3⟩ => ⟨h1, List.all_eq_true.mp h2, h3⟩,
      fun ⟨h1, h2, h3⟩ => ⟨h1, List.all_eq_true.mpr h2, h3⟩⟩

/-- The shortest numeral of a number. -/
def numeral (n : Nat) : List UInt8 :=
  if n < 10 then [UInt8.ofNat (0x30 + n)] else numeral (n / 10) ++ [UInt8.ofNat (0x30 + n % 10)]

theorem toNat_digit {d : Nat} (h : d < 10) : (UInt8.ofNat (0x30 + d)).toNat = 0x30 + d := by
  rw [UInt8.toNat_ofNat']
  omega

theorem isDigit_digit {d : Nat} (h : d < 10) : isDigit (UInt8.ofNat (0x30 + d)) = true := by
  simp only [isDigit, Bool.and_eq_true, decide_eq_true_eq, UInt8.le_iff_toNat_le, toNat_digit h,
    UInt8.reduceToNat]
  omega

theorem digitsValue_append (cs : List UInt8) (c : UInt8) :
    digitsValue (cs ++ [c]) = digitsValue cs * 10 + (c.toNat - 0x30) := by
  unfold digitsValue
  rw [List.foldl_append]
  rfl

/-- A numeral with one more digit. -/
theorem IsNumeral.append {cs : List UInt8} {n d : Nat} (h : IsNumeral cs n) (hd : d < 10) :
    IsNumeral (cs ++ [UInt8.ofNat (0x30 + d)]) (n * 10 + d) where
  nonempty := by simp
  digits := by
    intro c hc
    rcases List.mem_append.mp hc with hc | hc
    · exact h.digits c hc
    · rw [List.mem_singleton.mp hc]
      exact isDigit_digit hd
  value := by
    rw [digitsValue_append, h.value, toNat_digit hd, Nat.add_sub_cancel_left]

theorem isNumeral_numeral (n : Nat) : IsNumeral (numeral n) n := by
  induction n using numeral.induct with
  | case1 n hlt =>
    rw [numeral, if_pos hlt]
    have hvalue : digitsValue [UInt8.ofNat (0x30 + n)] = n := by
      have := digitsValue_append [] (UInt8.ofNat (0x30 + n))
      rw [List.nil_append, toNat_digit hlt] at this
      rw [this, Nat.add_sub_cancel_left]
      exact Nat.zero_add n
    refine ⟨List.cons_ne_nil _ _, ?_, hvalue⟩
    intro c hc
    rw [List.mem_singleton.mp hc]
    exact isDigit_digit hlt
  | case2 n hge ih =>
    rw [numeral, if_neg hge]
    have := ih.append (Nat.mod_lt n (by decide : 0 < 10))
    rwa [Nat.div_add_mod'] at this

/-- The number that a text begins with, as a numeral. -/
def numberAt (cs : List UInt8) : Nat := digitsValue (cs.takeWhile isDigit)

theorem IsNumeral.numberAt {xs : List UInt8} {n : Nat} (h : IsNumeral xs n) {c : UInt8}
    (hc : isDigit c = false) (cs : List UInt8) : numberAt (xs ++ c :: cs) = n := by
  rw [texts.numberAt, List.takeWhile_append_of_pos h.digits,
    List.takeWhile_cons_of_neg (by simp [hc]), List.append_nil, h.value]

theorem numberAt_numeral (n : Nat) {c : UInt8} (h : isDigit c = false) (cs : List UInt8) :
    numberAt (numeral n ++ c :: cs) = n :=
  (isNumeral_numeral n).numberAt h cs

end texts
