import TeeOs.Conf.Text

/-!
# What is read as a uuid

`tlv_to_uuid` cuts eleven numbers out of the text at fixed places and leaves each to
`strtoull`. On a canonical uuid this gives the uuid back. Nothing else makes sure that
the text is one: the separators are not looked at, `strtoull` takes blanks, signs and
a hexadecimal mark, and a short value is read on into what follows it.
-/

namespace TeeOs.Conf

open TeeOs.Lib.CText List

/-- How many characters from the value on `tlv_to_uuid` looks at: the call of `strlen`
runs to the zero, and the numbers end at place 36. -/
def uuidReads (buff : Text) (size : Nat) : Nat :=
  if size > maxUuidSize then 0
  else if (cstr buff).length < size then (cstr buff).length + 1
  else max ((cstr buff).length + 1) maxUuidSize

/-- Hexadecimal digits in the places of the numbers, and dashes between the groups. -/
structure Canonical (v : Text) : Prop where
  length : v.length = maxUuidSize
  digits : ∀ p ∈ uuidParts, ∀ c ∈ (v.drop p.1).take p.2.1, isDigit 16 c = true
  dashes : ∀ i ∈ [8, 13, 18, 23], v[i]? = some '-'

/-- The number in `n` hexadecimal digits. -/
def hexText : Nat → Nat → Text
  | 0, _ => []
  | n + 1, x => hexText n (x / 16) ++ [Nat.digitChar (x % 16)]

def formatUuid (u : Uuid) : Text :=
  hexText 8 u.timeLow ++ '-' :: (hexText 4 u.timeMid ++ '-' :: (hexText 4 u.timeHiAndVersion ++
    '-' :: ((u.clockSeqAndNode.take 2).flatMap (hexText 2) ++
    '-' :: (u.clockSeqAndNode.drop 2).flatMap (hexText 2))))

/-- A value `v` that `r` follows is read as a uuid exactly if it is one, and the uuid is
written as `v` but for the case of the letters. -/
def ParsesExactly (v r : Text) : Prop :=
  match tlvToUuid (v ++ r) v.length with
  | some u => Canonical v ∧ formatUuid u = v.map Char.toLower
  | none => ¬ Canonical v

/-- What is taken as a number: blanks, a sign, a hexadecimal mark and digits, up to the end or to
a zero. With a minus all digits are zeros. -/
def Numeral (t : Text) : Prop :=
  ∃ blanks sgn mark ds rest, t = blanks ++ (sgn ++ (mark ++ ds)) ++ rest ∧ Hex blanks sgn mark ds ∧
    (sgn = ['-'] → ∀ c ∈ ds, c = '0') ∧ ∀ c ∈ rest.head?, c.toNat = 0

def part (v : Text) (o n : Nat) : Text := (v.drop o).take n

/-- The texts that are read as a uuid: in the places of the numbers are numerals, in the value
or behind it. -/
structure Accepted (v r : Text) : Prop where
  length : v.length ≤ maxUuidSize
  whole : ∀ c ∈ v, c.toNat ≠ 0
  numerals : ∀ p ∈ uuidParts, Numeral (part (v ++ r) p.1 p.2.1)

variable {ds v r t : Text} {c : Char} {p : Nat × Nat × Nat}

/-! ## Numbers -/

/-- Writing the value of a text of digits gives the text. -/
theorem hexText_value (h : ∀ c ∈ ds, isDigit 16 c = true) :
    hexText ds.length (value 16 ds) = ds.map Char.toLower := by
  induction ds using List.reverseRecOn with
  | nil => rfl
  | append_singleton ds c ih =>
    obtain ⟨hlt, -, hc⟩ := (hex_char (h c (mem_append_right _ mem_cons_self))).2.2.2.2.2.2
    rw [value_append, length_append, length_singleton, hexText,
      show (value 16 ds * 16 + (digit c).getD 0) / 16 = value 16 ds by omega,
      show (value 16 ds * 16 + (digit c).getD 0) % 16 = (digit c).getD 0 by omega,
      ih fun c hc => h c (mem_append_left _ hc), hc, map_append]
    rfl

theorem part_inside : p ∈ uuidParts →
    p.1 + p.2.1 ≤ maxUuidSize ∧ 0 < p.2.1 ∧ p.2.1 ≤ 8 ∧ 16 ^ p.2.1 = p.2.2 + 1 := by
  revert p
  decide

theorem uuidPart_eq_strtoull {buff : Text} (hp : p ∈ uuidParts) : uuidPart buff p =
    match strtoull 16 (cstr (part buff p.1 p.2.1)) with
    | some (num, []) => if num > p.2.2 then none else some num
    | _ => none := by
  have hlen : (part buff p.1 p.2.1).length ≤ 8 := (length_take_le ..).trans (part_inside hp).2.2.1
  unfold uuidPart transStrToInt
  rw [show (buff.drop p.1).take p.2.1 = part buff p.1 p.2.1 from rfl]
  generalize part buff p.1 p.2.1 = t at hlen
  cases t with
  | nil => rfl
  | cons c t =>
    rw [if_neg (by simp), if_neg, if_neg nofun, if_neg]
    · rw [show Base.hex.toNat = 16 from rfl]
      rcases strtoull 16 (cstr (c :: t)) with _ | ⟨num, _ | _⟩ <;> rfl
    all_goals simp only [length_cons, maxUint64HexLen, lenOfHexTrim] at hlen ⊢; omega

/-- The value of a hexadecimal number in the place of a part. -/
theorem value_part_lt {buff blanks sgn mark rest : Text} (hp : p ∈ uuidParts)
    (ht : part buff p.1 p.2.1 = blanks ++ (sgn ++ (mark ++ ds)) ++ rest)
    (hd : ∀ c ∈ ds, isDigit 16 c = true) : value 16 ds ≤ p.2.2 ∧ p.2.2 < 2^32 := by
  obtain ⟨-, -, hshort, hmax⟩ := part_inside hp
  have hlen : ds.length ≤ p.2.1 := by
    have hle : (part buff p.1 p.2.1).length ≤ p.2.1 := length_take_le ..
    rw [ht] at hle
    simp only [length_append] at hle
    omega
  have hlt : value 16 ds < 16 ^ p.2.1 := (value_lt hd).trans_le (Nat.pow_le_pow_right (by decide) hlen)
  have h8 : 16 ^ p.2.1 ≤ 16 ^ 8 := Nat.pow_le_pow_right (by decide) hshort
  omega

theorem uuidPart_of_hex {buff blanks sgn mark rest : Text} (hp : p ∈ uuidParts)
    (ht : part buff p.1 p.2.1 = blanks ++ (sgn ++ (mark ++ ds)) ++ rest)
    (h : Hex blanks sgn mark ds) (hminus : sgn = ['-'] → ∀ c ∈ ds, c = '0')
    (hrest : ∀ c ∈ rest.head?, c.toNat = 0) : uuidPart buff p = some (value 16 ds) := by
  obtain ⟨hle, hmax⟩ := value_part_lt hp ht h.digits
  have hzero : cstr (part buff p.1 p.2.1) = blanks ++ (sgn ++ (mark ++ ds)) := by
    have hend : cstr rest = [] := by
      cases rest with
      | nil => rfl
      | cons c rest => exact takeWhile_cons_of_neg (by simp [hrest c rfl])
    rw [ht, cstr, takeWhile_append_of_pos fun c hc => decide_eq_true (h.char_ne_zero c hc)]
    exact (congrArg _ hend).trans (append_nil _)
  have hnum : (if sgn = ['-'] then (2^64-value 16 ds) % 2^64 else value 16 ds) = value 16 ds := by
    split_ifs with hs
    · rw [(value_eq_zero_iff h.digits).2 (hminus hs)]
      rfl
    · rfl
  rw [uuidPart_eq_strtoull hp, hzero, h.strtoull (by omega), hnum]
  exact if_neg (Nat.not_lt.2 hle)

theorem uuidPart_isSome_iff {buff : Text} (hp : p ∈ uuidParts) :
    (uuidPart buff p).isSome ↔ Numeral (part buff p.1 p.2.1) := by
  constructor
  · intro h
    rw [uuidPart_eq_strtoull hp] at h
    cases hnum : strtoull 16 (cstr (part buff p.1 p.2.1)) with
    | none =>
      rw [hnum] at h
      cases h
    | some r =>
      obtain ⟨num, _ | ⟨c, tail⟩⟩ := r
      · rw [hnum] at h
        obtain ⟨blanks, sgn, mark, ds, hhex, htext, hval⟩ := exists_hex hnum
        have ht : part buff p.1 p.2.1 = blanks ++ (sgn ++ (mark ++ ds)) ++
            (part buff p.1 p.2.1).dropWhile fun c => c.toNat ≠ 0 := by
          rw [← htext]
          exact (takeWhile_append_dropWhile ..).symm
        refine ⟨blanks, sgn, mark, ds, _, ht, hhex, fun hs => ?_, fun c hc => ?_⟩
        · obtain ⟨hle, hmax⟩ := value_part_lt hp ht hhex.digits
          rw [htext, hhex.strtoull hval, if_pos hs] at hnum
          obtain rfl := (Prod.mk.inj (Option.some.inj hnum)).1
          -- a nonzero number with a minus is far above the greatest value of a part
          refine (value_eq_zero_iff hhex.digits).1 ?_
          by_contra hne
          dsimp only at h
          rw [if_pos (by omega)] at h
          cases h
        · have hhead := head?_dropWhile_not (fun c : Char => decide (c.toNat ≠ 0)) (part buff p.1 p.2.1)
          rw [hc] at hhead
          simpa using hhead
      · rw [hnum] at h
        cases h
  · rintro ⟨blanks, sgn, mark, ds, rest, ht, hhex, hminus, hrest⟩
    rw [uuidPart_of_hex hp ht hhex hminus hrest]
    rfl

/-! ## The uuid -/

namespace Canonical

theorem eq_parts (h : Canonical v) : v = part v 0 8 ++ '-' :: (part v 9 4 ++ '-' :: (part v 14 4 ++
    '-' :: (part v 19 2 ++ (part v 21 2 ++ '-' :: (part v 24 2 ++ (part v 26 2 ++ (part v 28 2 ++
    (part v 30 2 ++ (part v 32 2 ++ part v 34 2))))))))) := by
  have hpart : ∀ o n, v.drop o = part v o n ++ v.drop (o + n) := by
    intro o n
    rw [part, ← drop_drop, take_append_drop]
  have hdash : ∀ i ∈ [8, 13, 18, 23], v.drop i = '-' :: v.drop (i + 1) := by
    intro i hi
    obtain ⟨hlt, heq⟩ := List.getElem?_eq_some_iff.1 (h.dashes i hi)
    rw [drop_eq_getElem_cons hlt, heq]
  have hend : v.drop 36 = [] := drop_eq_nil_of_le (Nat.le_of_eq h.length)
  calc v = v.drop 0 := rfl
    _ = _ := by
      rw [hpart 0 8, hdash 8 (by decide), hpart 9 4, hdash 13 (by decide), hpart 14 4,
        hdash 18 (by decide), hpart 19 2, hpart 21 2, hdash 23 (by decide), hpart 24 2, hpart 26 2,
        hpart 28 2, hpart 30 2, hpart 32 2, hpart 34 2, hend, append_nil]

variable (h : Canonical v)
include h

theorem length_part (hp : p ∈ uuidParts) : (part v p.1 p.2.1).length = p.2.1 := by
  have hin := part_inside hp
  rw [part, length_take, length_drop, h.length]
  omega

theorem uuidPart_eq (r : Text) (hp : p ∈ uuidParts) :
    uuidPart (v ++ r) p = some (value 16 (part v p.1 p.2.1)) := by
  obtain ⟨hin, hpos, -, -⟩ := part_inside hp
  have hlen := h.length_part hp
  have hv := h.length
  have hpart : part (v ++ r) p.1 p.2.1 = [] ++ ([] ++ ([] ++ part v p.1 p.2.1)) ++ [] := by
    rw [append_nil, part, drop_append_of_le_length (by omega),
      take_append_of_le_length (by rw [length_drop]; omega)]
    rfl
  exact uuidPart_of_hex hp hpart
    ⟨nofun, .inl rfl, .inl rfl, length_pos_iff.1 (by omega), h.digits p hp⟩ nofun nofun

theorem char_ne_zero : ∀ c ∈ v, c.toNat ≠ 0 := by
  intro c hc
  have hdigits := h.digits
  simp only [uuidParts, forall_mem_cons] at hdigits
  rw [h.eq_parts] at hc
  have hcases : c = '-' ∨ isDigit 16 c = true := by grind [part]
  rcases hcases with rfl | hhex
  · decide
  · exact (hex_char hhex).1

/-- A canonical uuid is read as what it spells, whatever follows it. -/
theorem tlvToUuid_eq (r : Text) :
    ∃ u, tlvToUuid (v ++ r) v.length = some u ∧ formatUuid u = v.map Char.toLower := by
  have hlong : ¬ (v.length > maxUuidSize ∨ (cstr (v ++ r)).length < v.length) := by
    have hzero : cstr (v ++ r) = v ++ cstr r :=
      takeWhile_append_of_pos fun c hc => decide_eq_true (h.char_ne_zero c hc)
    rw [hzero, length_append, h.length]
    omega
  have hmap : uuidParts.mapM (uuidPart (v ++ r)) =
      some (uuidParts.map fun p => value 16 (part v p.1 p.2.1)) := by
    have hpart : ∀ p ∈ uuidParts, uuidPart (v ++ r) p = some (value 16 (part v p.1 p.2.1)) :=
      fun p hp => h.uuidPart_eq r hp
    simp only [uuidParts, forall_mem_cons] at hpart
    simp [uuidParts, hpart]
  unfold tlvToUuid
  rw [if_neg hlong, hmap]
  refine ⟨_, rfl, ?_⟩
  have hhex : ∀ p ∈ uuidParts, hexText p.2.1 (value 16 (part v p.1 p.2.1)) =
      (part v p.1 p.2.1).map Char.toLower := by
    intro p hp
    have hlen := h.length_part hp
    have htext := hexText_value (h.digits p hp)
    rwa [show ((v.drop p.1).take p.2.1).length = p.2.1 from hlen] at htext
  simp only [uuidParts, forall_mem_cons] at hhex
  conv_rhs => rw [h.eq_parts]
  simp [formatUuid, hhex]

end Canonical

theorem mapM_cases {α β : Type} (f : α → Option β) (l : List α) :
    (l.mapM f = none ∧ ¬ ∀ a ∈ l, (f a).isSome) ∨
      ∃ l', l.mapM f = some l' ∧ l'.length = l.length ∧ ∀ a ∈ l, (f a).isSome := by
  induction l with
  | nil => exact .inr ⟨[], rfl, rfl, nofun⟩
  | cons a l ih =>
    rw [mapM_cons, forall_mem_cons]
    cases f a with
    | none => exact .inl ⟨rfl, nofun⟩
    | some b =>
      obtain ⟨hnone, hno⟩ | ⟨l', hsome, hlen, hall⟩ := ih
      · exact .inl ⟨by rw [hnone]; rfl, fun h => hno h.2⟩
      · exact .inr ⟨b :: l', by rw [hsome]; rfl, congrArg (· + 1) hlen, rfl, hall⟩

theorem length_cstr_append_lt_iff : (cstr (v ++ r)).length < v.length ↔ ∃ c ∈ v, c.toNat = 0 := by
  unfold cstr
  induction v with
  | nil => simp
  | cons c v ih =>
    by_cases hc : c.toNat = 0
    · simp [hc]
    · simpa [hc] using ih

/-- Which texts are read as a uuid, on their characters. -/
theorem tlvToUuid_isSome_iff : (tlvToUuid (v ++ r) v.length).isSome ↔ Accepted v r := by
  unfold tlvToUuid
  split_ifs with hsize
  · refine iff_of_false nofun fun h => hsize.elim (Nat.not_lt.2 h.length) fun hz => ?_
    obtain ⟨c, hc, hzero⟩ := length_cstr_append_lt_iff.1 hz
    exact h.whole c hc hzero
  · rw [not_or, Nat.not_lt, length_cstr_append_lt_iff] at hsize
    have hparts : (∀ p ∈ uuidParts, (uuidPart (v ++ r) p).isSome) ↔ Accepted v r := by
      refine ⟨fun h => ⟨hsize.1, fun c hc hz => hsize.2 ⟨c, hc, hz⟩, fun p hp => ?_⟩, fun h p hp => ?_⟩
      · exact (uuidPart_isSome_iff hp).1 (h p hp)
      · exact (uuidPart_isSome_iff hp).2 (h.numerals p hp)
    obtain ⟨hnone, hno⟩ | ⟨l, hsome, hlen, hall⟩ := mapM_cases (uuidPart (v ++ r)) uuidParts
    · rw [hnone, ← hparts]
      exact iff_of_false nofun hno
    · match l, hlen with
      | low :: mid :: high :: seq, _ =>
        rw [hsome, ← hparts]
        exact iff_of_true rfl hall

/-- The value is read without a look behind it only where it is refused for its size or
for a zero in it. Accepted are the texts with numerals in the places of the numbers, and
a value is parsed as it should be exactly if it is canonical or not accepted. -/
theorem tlvToUuid_parses_iff (v r : Text) :
    (uuidReads (v ++ r) v.length ≤ v.length ↔ maxUuidSize < v.length ∨ ∃ c ∈ v, c.toNat = 0) ∧
      ((tlvToUuid (v ++ r) v.length).isSome ↔ Accepted v r) ∧
      (ParsesExactly v r ↔ Canonical v ∨ ¬ Accepted v r) := by
  refine ⟨?_, tlvToUuid_isSome_iff, ?_⟩
  · rw [← length_cstr_append_lt_iff (r := r)]
    unfold uuidReads
    split_ifs <;> omega
  · rw [← tlvToUuid_isSome_iff]
    unfold ParsesExactly
    by_cases hv : Canonical v
    · obtain ⟨u, hu, htext⟩ := hv.tlvToUuid_eq r
      simp only [hu, hv, htext, true_and, true_or]
    · rw [or_iff_right hv]
      cases tlvToUuid (v ++ r) v.length <;> simp [hv]

/-- A value of one character, which the text behind it completes; blanks, signs and a
hexadecimal mark are numbers, and dots are separators. -/
theorem tlvToUuid_completes : ¬ ParsesExactly ['1'] "2345678.0x1f.  +2.+1+2.0304050607+8".toList := by
  intro h
  exact absurd h.1.length (by decide)

end TeeOs.Conf
