import Mathlib

/-!
# Text as a C library reads it

A text is a list of characters that a zero ends. `tokens` is a loop over
`strtok_r` with one separator, `strtoull` the conversion of the standard library:
blanks, a sign, a hexadecimal mark, digits, and the text behind them.
-/

namespace TeeOs.Lib.CText

abbrev Text := List Char

instance : LawfulBEq Text := inferInstance

variable (base : Nat) (c : Char) (t : Text)

/-- The text in front of the first zero. -/
def cstr : Text := t.takeWhile fun c => c.toNat ≠ 0

/-- The nonempty pieces between separators. -/
def tokens (sep : Char) (t : Text) : List Text := (t.splitOn sep).filter fun p => p ≠ []

/-- Whether the first `n` characters agree as C strings. -/
def strncmpEq (a b : Text) (n : Nat) : Bool := cstr (a.take n) = cstr (b.take n)

theorem cstr_cstr : cstr (cstr t) = cstr t := by
  simp only [cstr, List.takeWhile_idem]

theorem eq_of_length_cstr {t : Text} (h : (cstr t).length = t.length) : cstr t = t :=
  (List.takeWhile_prefix _).eq_of_length h

/-- Texts of one length are compared whole if one of them has no zero. -/
theorem strncmpEq_iff {a b : Text} {n : Nat} (hb : cstr b = b) (hl : a.length = b.length)
    (hn : b.length ≤ n) : strncmpEq a b n = true ↔ a = b := by
  have ha : a.length ≤ n := hl ▸ hn
  simp only [strncmpEq, List.take_of_length_le ha, List.take_of_length_le hn, hb, decide_eq_true_eq]
  constructor
  · intro h
    have hwhole : (cstr a).length = a.length := by rw [h, hl]
    rw [← eq_of_length_cstr hwhole, h]
  · rintro rfl
    exact hb

def isSpace : Bool := c.toNat = 32 ∨ (9 ≤ c.toNat ∧ c.toNat ≤ 13)

/-- The value of a digit or a letter. -/
def digit : Option Nat :=
  if 48 ≤ c.toNat ∧ c.toNat ≤ 57 then some (c.toNat-48)
  else if 65 ≤ c.toNat ∧ c.toNat ≤ 90 then some (c.toNat-55)
  else if 97 ≤ c.toNat ∧ c.toNat ≤ 122 then some (c.toNat-87)
  else none

def isDigit : Bool :=
  match digit c with
  | some d => d < base
  | none => false

def sign : Text → Bool × Text
  | '-' :: t => (true, t)
  | '+' :: t => (false, t)
  | t => (false, t)

/-- Without a leading `0x` that a hexadecimal digit follows. -/
def dropHexMark : Text → Text
  | z :: x :: d :: t =>
    if z = '0' ∧ (x = 'x' ∨ x = 'X') ∧ isDigit 16 d then d :: t else z :: x :: d :: t
  | t => t

def value (ds : Text) : Nat :=
  ds.foldl (fun n c => n*base+(digit c).getD 0) 0

/-- The number at the front of a text and what follows it. Nothing where there is
no digit or where the number does not fit in 64 bits. -/
def strtoull : Option (Nat × Text) :=
  let (minus, t) := sign (t.dropWhile isSpace)
  let t := if base = 16 then dropHexMark t else t
  let ds := t.takeWhile (isDigit base)
  if ds = [] then none
  else if 2^64 ≤ value base ds then none
  else some (if minus then (2^64-value base ds) % 2^64 else value base ds, t.drop ds.length)

/-! ## Hexadecimal numbers -/

section

variable {c : Char} {ds t blanks sgn mark : Text} {n : Nat}

theorem hex_char (h : isDigit 16 c = true) : c.toNat ≠ 0 ∧ isSpace c = false ∧ c ≠ '-' ∧ c ≠ '+' ∧
    c ≠ 'x' ∧ c ≠ 'X' ∧ (digit c).getD 0 < 16 ∧ ((digit c).getD 0 = 0 → c = '0') ∧
    Nat.digitChar ((digit c).getD 0) = c.toLower := by
  have hlt : c.toNat < 128 := by
    unfold isDigit digit at h
    grind
  rw [← Char.ofNat_toNat c] at h ⊢
  generalize c.toNat = n at h hlt ⊢
  revert h
  revert n
  decide

theorem value_append (ds : Text) (c : Char) :
    value 16 (ds ++ [c]) = value 16 ds * 16 + (digit c).getD 0 := by
  simp only [value, List.foldl_append, List.foldl_cons, List.foldl_nil]

theorem value_lt (h : ∀ c ∈ ds, isDigit 16 c = true) : value 16 ds < 16 ^ ds.length := by
  induction ds using List.reverseRecOn with
  | nil => decide
  | append_singleton ds c ih =>
    have hlt := ih fun c hc => h c (List.mem_append_left _ hc)
    have hd := (hex_char (h c (List.mem_append_right _ List.mem_cons_self))).2.2.2.2.2.2.1
    rw [value_append, List.length_append, List.length_singleton, Nat.pow_succ]
    omega

theorem value_eq_zero_iff (h : ∀ c ∈ ds, isDigit 16 c = true) :
    value 16 ds = 0 ↔ ∀ c ∈ ds, c = '0' := by
  induction ds using List.reverseRecOn with
  | nil => exact iff_of_true rfl nofun
  | append_singleton ds c ih =>
    have ih := ih fun c hc => h c (List.mem_append_left _ hc)
    have hd := (hex_char (h c (List.mem_append_right _ List.mem_cons_self))).2.2.2.2.2.2.2.1
    rw [value_append, Nat.add_eq_zero_iff, Nat.mul_eq_zero]
    simp only [List.forall_mem_append, List.forall_mem_singleton, ← ih]
    constructor
    · exact fun ⟨hv, hc⟩ => ⟨hv.resolve_right (by decide), hd hc⟩
    · rintro ⟨hv, rfl⟩
      exact ⟨.inl hv, rfl⟩

/-- Blanks, a sign, a mark and digits. -/
structure Hex (blanks sgn mark ds : Text) : Prop where
  blanks : ∀ c ∈ blanks, isSpace c = true
  sign : sgn = [] ∨ sgn = ['+'] ∨ sgn = ['-']
  mark : mark = [] ∨ mark = ['0', 'x'] ∨ mark = ['0', 'X']
  ne_nil : ds ≠ []
  digits : ∀ c ∈ ds, isDigit 16 c = true

theorem Hex.cons (h : Hex blanks sgn mark ds) : ∃ c l, mark ++ ds = c :: l ∧ isDigit 16 c = true := by
  rcases h.mark with rfl | rfl | rfl
  · cases ds with
    | nil => exact absurd rfl h.ne_nil
    | cons c l => exact ⟨c, l, rfl, h.digits c List.mem_cons_self⟩
  · exact ⟨'0', 'x' :: ds, rfl, rfl⟩
  · exact ⟨'0', 'X' :: ds, rfl, rfl⟩

theorem Hex.char_ne_zero (h : Hex blanks sgn mark ds) :
    ∀ c ∈ blanks ++ (sgn ++ (mark ++ ds)), c.toNat ≠ 0 := by
  have hspace (c : Char) (hc : isSpace c = true) : c.toNat ≠ 0 := by
    intro hz
    simp [isSpace, hz] at hc
  simp only [List.forall_mem_append]
  refine ⟨fun c hc => hspace c (h.blanks c hc), ?_, ?_, fun c hc => (hex_char (h.digits c hc)).1⟩
  · rcases h.sign with rfl | rfl | rfl <;> simp
  · rcases h.mark with rfl | rfl | rfl <;> simp

theorem Hex.dropHexMark (h : Hex blanks sgn mark ds) : dropHexMark (mark ++ ds) = ds := by
  rcases h.mark with rfl | hm
  · unfold CText.dropHexMark
    split
    · next z x d t heq =>
      obtain rfl := heq
      have hx := hex_char (h.digits x (List.mem_cons_of_mem z List.mem_cons_self))
      exact if_neg fun hm => hm.2.1.elim hx.2.2.2.2.1 hx.2.2.2.2.2.1
    · rfl
  · cases ds with
    | nil => exact absurd rfl h.ne_nil
    | cons d t =>
      have hd := h.digits d List.mem_cons_self
      rcases hm with rfl | rfl
      · exact if_pos ⟨rfl, .inl rfl, hd⟩
      · exact if_pos ⟨rfl, .inr rfl, hd⟩

theorem Hex.strtoull (h : Hex blanks sgn mark ds) (hv : value 16 ds < 2^64) :
    strtoull 16 (blanks ++ (sgn ++ (mark ++ ds))) =
      some (if sgn = ['-'] then (2^64-value 16 ds) % 2^64 else value 16 ds, []) := by
  obtain ⟨c, l, hcons, hc⟩ := h.cons
  have hne := hex_char hc
  have hsign : CText.sign ((blanks ++ (sgn ++ (mark ++ ds))).dropWhile isSpace) =
      (decide (sgn = ['-']), mark ++ ds) := by
    rw [List.dropWhile_append_of_pos h.blanks, hcons]
    rcases h.sign with rfl | rfl | rfl
    · rw [List.nil_append, List.dropWhile_cons_of_neg (by simp [hne.2.1])]
      unfold CText.sign
      split
      · next heq => exact absurd (List.cons.inj heq).1 hne.2.2.1
      · next heq => exact absurd (List.cons.inj heq).1 hne.2.2.2.1
      · rfl
    · rfl
    · rfl
  have hall : ds.takeWhile (isDigit 16) = ds := List.takeWhile_eq_self_iff.2 h.digits
  simp only [CText.strtoull, hsign, if_true, h.dropHexMark, hall, if_neg h.ne_nil, Nat.not_le.2 hv,
    if_false, List.drop_length, decide_eq_true_eq]

/-- Nothing else is taken whole. -/
theorem exists_hex (h : strtoull 16 t = some (n, [])) : ∃ blanks sgn mark ds,
    Hex blanks sgn mark ds ∧ t = blanks ++ (sgn ++ (mark ++ ds)) ∧ value 16 ds < 2^64 := by
  have hsign (t : Text) : ∃ sgn, (sgn = [] ∨ sgn = ['+'] ∨ sgn = ['-']) ∧
      t = sgn ++ (sign t).2 := by
    unfold sign
    split
    · exact ⟨['-'], .inr (.inr rfl), rfl⟩
    · exact ⟨['+'], .inr (.inl rfl), rfl⟩
    · exact ⟨[], .inl rfl, rfl⟩
  have hmark (t : Text) : ∃ mark, (mark = [] ∨ mark = ['0', 'x'] ∨ mark = ['0', 'X']) ∧
      t = mark ++ dropHexMark t := by
    unfold dropHexMark
    split
    · split_ifs with hm
      · obtain ⟨rfl, rfl | rfl, -⟩ := hm
        · exact ⟨['0', 'x'], .inr (.inl rfl), rfl⟩
        · exact ⟨['0', 'X'], .inr (.inr rfl), rfl⟩
      · exact ⟨[], .inl rfl, rfl⟩
    · exact ⟨[], .inl rfl, rfl⟩
  obtain ⟨sgn, hsgn, hs⟩ := hsign (t.dropWhile isSpace)
  obtain ⟨mark, hmk, hm⟩ := hmark (sign (t.dropWhile isSpace)).2
  simp only [strtoull, if_true] at h
  generalize dropHexMark (sign (t.dropWhile isSpace)).2 = w at h hm
  by_cases hnil : w.takeWhile (isDigit 16) = []
  · rw [if_pos hnil] at h
    cases h
  by_cases hbig : 2^64 ≤ value 16 (w.takeWhile (isDigit 16))
  · rw [if_neg hnil, if_pos hbig] at h
    cases h
  rw [if_neg hnil, if_neg hbig] at h
  have hall : w.takeWhile (isDigit 16) = w := by
    apply (List.takeWhile_prefix _).eq_of_length
    have hlen := congrArg List.length (Prod.mk.inj (Option.some.inj h)).2
    have hle := (List.takeWhile_prefix (isDigit 16) (l := w)).length_le
    rw [List.length_drop, List.length_nil] at hlen
    omega
  rw [hall] at hnil hbig
  refine ⟨t.takeWhile isSpace, sgn, mark, w, ⟨fun c => List.mem_takeWhile_imp, hsgn, hmk, hnil,
    List.takeWhile_eq_self_iff.1 hall⟩, ?_, Nat.not_le.1 hbig⟩
  rw [← hm, ← hs, List.takeWhile_append_dropWhile]

end

end TeeOs.Lib.CText
