import TeeOs.Lib.Tlv

/-!
# Attributes of an asymmetric request in the driver

The HAL writes the attributes of a request one behind the other and the driver's
`restore_attrs` reads them again. It adds the running offset to a pointer that has
moved already, so that every field behind the first id is taken from a place too far
behind. A buffer is given with the memory that lies behind it.
-/

namespace TeeOs.CryptoDrv

open List TeeOs.Lib.Tlv

/-- Memory by the distance from the start of a buffer. -/
abbrev Mem := Nat → UInt8

inductive Attr where
  | ref (id : Nat) (buffer : List UInt8)
  | value (id a b : Nat)
  deriving DecidableEq

structure Memref where
  buffer : Option Mem
  size : Nat

def shareMemoryMaxSize : Nat := 10*1024*1024

/-- A sum in a `uint32_t`. -/
def add32 (a b : Nat) : Nat := (a+b) % 2^32

variable (attrs : List Attr) (mem : Mem)

def u32At (p : Nat) : Nat :=
  (mem p).toNat+2^8*(mem (p+1)).toNat+2^16*(mem (p+2)).toNat+2^24*(mem (p+3)).toNat

def attrIsBuffer (id : Nat) : Bool := id*4 % 2^32 / 2^31 = 0

/-! ## The HAL -/

def restoreAttr : Attr → List UInt8
  | .ref id buffer => le32 id ++ le32 buffer.length ++ buffer
  | .value id a b => le32 id ++ le32 a ++ le32 b

def getAttrBufSize : Nat :=
  (attrs.map fun
    | .ref _ buffer => 4+(4+buffer.length)
    | .value .. => 4+8).sum

/-- `restore_attrs` of the HAL, where no buffer is empty. -/
def halRestoreAttrs : List UInt8 :=
  if attrs = [] then [] else le32 attrs.length ++ attrs.flatMap restoreAttr

/-- Words are words, a buffer attribute has the id of one and is not empty. -/
def Attr.Valid : Attr → Prop
  | .ref id buffer => id < 2^32 ∧ attrIsBuffer id = true ∧ buffer ≠ []
  | .value id a b => id < 2^32 ∧ attrIsBuffer id = false ∧ a < 2^32 ∧ b < 2^32

/-! ## The driver -/

def checkAttrsCount (attrCount attrTotalLen : Nat) : Bool :=
  4 ≤ attrTotalLen && attrCount ≤ (attrTotalLen-4)/8

def checkAttrsLoop (mem : Mem) (attrTotalLen : Nat) : Nat → Nat → Nat → Bool
  | 0, _, shareMemSize => shareMemSize = attrTotalLen
  | n+1, shareMem, shareMemSize =>
    let shareMemSize := add32 shareMemSize 4
    if shareMemSize > attrTotalLen then false
    else
      let len := if attrIsBuffer (u32At mem shareMem) then 4+u32At mem (shareMem+4) else 8
      let shareMemSize := add32 shareMemSize len
      if shareMemSize > attrTotalLen then false
      else checkAttrsLoop mem attrTotalLen n (shareMem+4+len) shareMemSize

def checkAttrsSize (attrTotalLen : Nat) : Bool :=
  checkAttrsCount (u32At mem 0) attrTotalLen && checkAttrsLoop mem attrTotalLen (u32At mem 0) 4 4

def restoreAttrsLoop (mem : Mem) : Nat → Nat → Nat → List Attr
  | 0, _, _ => []
  | n+1, argBuf, attrOffset =>
    let id := u32At mem argBuf
    let attrOffset := add32 attrOffset 4
    let argBuf := argBuf+attrOffset
    let word := u32At mem argBuf
    let attrOffset := add32 attrOffset 4
    let argBuf := argBuf+attrOffset
    if attrIsBuffer id then
      let attrOffset := add32 attrOffset word
      .ref id ((range word).map fun i => mem (argBuf+i)) ::
        restoreAttrsLoop mem n (argBuf+attrOffset) attrOffset
    else
      let attrOffset := add32 attrOffset 4
      .value id word (u32At mem (argBuf)) :: restoreAttrsLoop mem n (argBuf+attrOffset) attrOffset

/-- `restore_attrs` of the driver: refused, or with the array it has allocated. -/
def restoreAttrs (arg : Memref) (memory : Bool) : Option (Option (List Attr)) :=
  match arg.buffer with
  | none => some none
  | some mem =>
    if arg.size = 0 then some none
    else if arg.size < 4 then none
    else if u32At mem 0 = 0 then some none
    else if checkAttrsSize mem arg.size = false then none
    else if memory = false then none
    else some (some (restoreAttrsLoop mem (u32At mem 0) 4 4))

/-- The memory has these bytes from `p` on; any may follow. -/
def Holds (p : Nat) (bytes : List UInt8) : Prop := ∀ i (h : i < bytes.length), mem (p+i) = bytes[i]

def memOf (behind : UInt8) (bytes : List UInt8) : Mem := fun i => bytes.getD i behind

theorem holds_memOf (behind : UInt8) (bytes : List UInt8) : Holds (memOf behind bytes) 0 bytes := by
  intro i hi
  rw [Nat.zero_add]
  exact getD_eq_getElem _ _ hi

theorem byte_of_u32At (p : Nat) : mem p = .ofNat (u32At mem p) := by
  rw [← UInt8.toNat_inj, UInt8.toNat_ofNat']
  have := (mem p).toNat_lt
  unfold u32At
  omega

/-- The byte of an attribute that is read last, and how far behind the pointer. -/
def Attr.last : Attr → Nat × UInt8
  | .ref _ buffer => (buffer.length-1, buffer.getLastD 0)
  | .value _ _ b => (0, .ofNat b)

theorem getAttrBufSize_cons (a : Attr) (attrs : List Attr) :
    getAttrBufSize (a :: attrs) = getAttrBufSize [a]+getAttrBufSize attrs := by
  simp [getAttrBufSize]

theorem length_le_size (attrs : List Attr) : 8*attrs.length ≤ getAttrBufSize attrs := by
  induction attrs with
  | nil => exact Nat.le_refl 0
  | cons a attrs ih =>
    have ha : 8 ≤ getAttrBufSize [a] := by cases a <;> simp [getAttrBufSize]; omega
    rw [getAttrBufSize_cons, length_cons]
    omega

theorem restoreAttrsLoop_cons {mem : Mem} {n p o : Nat} {a : Attr} {attrs : List Attr}
    (h : restoreAttrsLoop mem n p o = a :: attrs) (hv : a.Valid)
    (ho : o+getAttrBufSize [a] < 2^32) :
    (∃ n, restoreAttrsLoop mem n (p+(o+4)+(o+8)+(o+getAttrBufSize [a])) (o+getAttrBufSize [a]) =
      attrs) ∧ mem (p+(o+4)+(o+8)+a.last.1) = a.last.2 := by
  cases n with
  | zero => cases h
  | succ n =>
    have hsize : 8 ≤ getAttrBufSize [a] := length_le_size [a]
    have h4 : add32 o 4 = o+4 := Nat.mod_eq_of_lt (by omega)
    have h8 : add32 (o+4) 4 = o+8 := Nat.mod_eq_of_lt (by omega)
    simp only [restoreAttrsLoop, h4, h8] at h
    generalize hw : u32At mem (p+(o+4)) = word at h
    split at h
    · obtain ⟨rfl, hrest⟩ := List.cons.inj h
      have hlen : getAttrBufSize [.ref (u32At mem p) ((range word).map fun i => mem (p+(o+4)+(o+8)+i))] =
          8+word := by
        simp [getAttrBufSize]
        omega
      rw [hlen] at ho ⊢
      constructor
      · rw [add32, Nat.mod_eq_of_lt (by omega), Nat.add_assoc o] at hrest
        exact ⟨n, hrest⟩
      · cases word with
        | zero => exact absurd rfl hv.2.2
        | succ k => simp [Attr.last, range_succ]
    · obtain ⟨rfl, hrest⟩ := List.cons.inj h
      have ho' : add32 (o+8) 4 = o+12 := Nat.mod_eq_of_lt ho
      rw [ho'] at hrest
      exact ⟨⟨n, hrest⟩, byte_of_u32At mem _⟩

/-- Reading on from `argBuf` at an offset that is right, a byte of the last attribute is taken
from behind the buffer. -/
theorem reads_behind {attrs : List Attr} (hne : attrs ≠ []) (hv : ∀ a ∈ attrs, a.Valid)
    {argBuf attrOffset : Nat} (hle : attrOffset ≤ argBuf)
    (hn : attrOffset+getAttrBufSize attrs < 2^32) :
    ∃ v, ∀ mem n, restoreAttrsLoop mem n argBuf attrOffset = attrs →
      ∃ q, attrOffset+getAttrBufSize attrs ≤ q ∧ mem q = v := by
  induction attrs generalizing argBuf attrOffset with
  | nil => exact absurd rfl hne
  | cons a attrs ih =>
    rw [getAttrBufSize_cons, ← Nat.add_assoc] at hn ⊢
    have hstep {mem n} (h : restoreAttrsLoop mem n argBuf attrOffset = a :: attrs) :=
      restoreAttrsLoop_cons h (hv a mem_cons_self) (by omega)
    by_cases hnil : attrs = []
    · subst hnil
      refine ⟨a.last.2, fun mem n h => ⟨_, ?_, (hstep h).2⟩⟩
      cases a <;> simp [Attr.last, getAttrBufSize] <;> omega
    · obtain ⟨v, hread⟩ := ih hnil (fun b hb => hv b (mem_cons_of_mem a hb))
        (Nat.le_add_left _ (argBuf+(attrOffset+4)+(attrOffset+8))) hn
      refine ⟨v, fun mem n h => ?_⟩
      obtain ⟨n', hrest⟩ := (hstep h).1
      exact hread mem n' hrest

/-- The attributes of a list come out of the driver as they went into the HAL. -/
def Marshalled : Prop :=
  ∀ mem, Holds mem 0 (halRestoreAttrs attrs) →
    (restoreAttrs ⟨some mem, (halRestoreAttrs attrs).length⟩ true).map (·.getD []) = some attrs

/-- The buffer holds the attributes of some list and nothing else. -/
def Encodes (size : Nat) : Prop :=
  ∃ attrs, (∀ a ∈ attrs, a.Valid) ∧ Holds mem 0 (halRestoreAttrs attrs) ∧
    size = (halRestoreAttrs attrs).length

/-- The attributes that lie one behind the other from `p` on. -/
def attrsAt (mem : Mem) : Nat → Nat → List Attr
  | 0, _ => []
  | n+1, p =>
    if attrIsBuffer (u32At mem p) then
      .ref (u32At mem p) ((range (u32At mem (p+4))).map fun i => mem (p+8+i)) ::
        attrsAt mem n (p+(8+u32At mem (p+4)))
    else .value (u32At mem p) (u32At mem (p+4)) (u32At mem (p+8)) :: attrsAt mem n (p+12)

/-- The attributes that a buffer counts. -/
def attrsOf : List Attr := attrsAt mem (u32At mem 0) 4

/-- The places of the attributes from `p` on, in 32 bits, are inside `size` bytes. -/
def Stays (size p : Nat) (attrs : List Attr) : Prop :=
  ∀ i < attrs.length, (p+getAttrBufSize (attrs.take i)+4) % 2^32 ≤ size ∧
    (p+getAttrBufSize (attrs.take (i+1))) % 2^32 ≤ size

/-- No list is written so: anything behind a count of zero, a buffer attribute without a byte, or
attributes of 4 GiB and more, the places of which come back into the buffer in 32 bits. -/
inductive Loose (size : Nat) : Prop
  | count (h : u32At mem 0 = 0)
  | empty (hsize : 4+getAttrBufSize (attrsOf mem) = size) (id : Nat) (h : .ref id [] ∈ attrsOf mem)
  | wraps (hlong : 2^32 ≤ 4+getAttrBufSize (attrsOf mem)) (hcount : u32At mem 0 ≤ (size-4)/8)
      (hstays : Stays size 4 (attrsOf mem)) (hsize : (4+getAttrBufSize (attrsOf mem)) % 2^32 = size)

/-! ## What lies in memory -/

section

variable {attrs : List Attr} {mem : Mem} {a : Attr} {n p size x : Nat} {l₁ l₂ : List UInt8}

theorem holds_append :
    Holds mem p (l₁ ++ l₂) ↔ Holds mem p l₁ ∧ Holds mem (p+l₁.length) l₂ := by
  constructor
  · intro h
    constructor
    · intro i hi
      rw [h i (by rw [length_append]; omega), getElem_append_left hi]
    · intro i hi
      rw [Nat.add_assoc, h _ (by rw [length_append]; omega), getElem_append_right (by omega)]
      congr 1
      omega
  · rintro ⟨h₁, h₂⟩ i hi
    rw [length_append] at hi
    by_cases hlt : i < l₁.length
    · rw [h₁ i hlt, getElem_append_left hlt]
    · rw [getElem_append_right (by omega), ← h₂ (i-l₁.length) (by omega)]
      congr 1
      omega

theorem u32At_lt : u32At mem p < 2^32 := by
  have h := (mem p).toNat_lt
  have h₁ := (mem (p+1)).toNat_lt
  have h₂ := (mem (p+2)).toNat_lt
  have h₃ := (mem (p+3)).toNat_lt
  unfold u32At
  omega

theorem holds_le32_iff (hx : x < 2^32) : Holds mem p (le32 x) ↔ u32At mem p = x := by
  have hbytes : Holds mem p (le32 x) ↔ mem p = .ofNat x ∧ mem (p+1) = .ofNat (x/2^8) ∧
      mem (p+2) = .ofNat (x/2^16) ∧ mem (p+3) = .ofNat (x/2^24) := by
    refine ⟨fun h => ⟨h 0 (by simp [le32]), h 1 (by simp [le32]), h 2 (by simp [le32]),
      h 3 (by simp [le32])⟩, ?_⟩
    rintro ⟨h₀, h₁, h₂, h₃⟩ i hi
    obtain rfl | rfl | rfl | rfl : i = 0 ∨ i = 1 ∨ i = 2 ∨ i = 3 := by
      have hlt : i < 4 := hi
      omega
    · exact h₀
    · exact h₁
    · exact h₂
    · exact h₃
  have h := (mem p).toNat_lt
  have h₁ := (mem (p+1)).toNat_lt
  have h₂ := (mem (p+2)).toNat_lt
  have h₃ := (mem (p+3)).toNat_lt
  rw [hbytes]
  simp only [← UInt8.toNat_inj, UInt8.toNat_ofNat', u32At]
  omega

theorem holds_range (mem : Mem) (p n : Nat) : Holds mem p ((range n).map fun i => mem (p+i)) := by
  intro i hi
  simp

theorem size_ref (id : Nat) (buffer : List UInt8) : getAttrBufSize [.ref id buffer] = 8+buffer.length := by
  simp [getAttrBufSize]
  omega

theorem size_value (id a b : Nat) : getAttrBufSize [.value id a b] = 12 := rfl

theorem length_restoreAttr : (restoreAttr a).length = getAttrBufSize [a] := by
  cases a <;> simp [restoreAttr, getAttrBufSize, le32]
  omega

theorem length_attrsAt (mem : Mem) (n : Nat) : ∀ p, (attrsAt mem n p).length = n := by
  induction n with
  | zero => exact fun _ => rfl
  | succ n ih =>
    intro p
    unfold attrsAt
    split <;> rw [length_cons, ih]

/-- What the HAL wrote is what lies there. -/
theorem attrsAt_of_holds (hv : ∀ a ∈ attrs, a.Valid) (hlen : getAttrBufSize attrs < 2^32)
    (h : Holds mem p (attrs.flatMap restoreAttr)) : attrsAt mem attrs.length p = attrs := by
  induction attrs generalizing p with
  | nil => rfl
  | cons a attrs ih =>
    obtain ⟨ha, hrest⟩ := holds_append.1 h
    have hsum := getAttrBufSize_cons a attrs
    rw [length_restoreAttr] at hrest
    have htail := ih (fun b hb => hv b (mem_cons_of_mem a hb)) (by omega) hrest
    have hva := hv a mem_cons_self
    cases a with
    | ref id buffer =>
      rw [size_ref] at htail hsum
      obtain ⟨hhead, hbuf⟩ := holds_append.1 ha
      obtain ⟨hid, hlength⟩ := holds_append.1 hhead
      have hid := (holds_le32_iff hva.1).1 hid
      have hlength : u32At mem (p+4) = buffer.length := (holds_le32_iff (by omega)).1 hlength
      have hbuf : Holds mem (p+8) buffer := hbuf
      have hbuffer : (range buffer.length).map (fun i => mem (p+8+i)) = buffer :=
        ext_getElem (by simp) fun i _ hi => by simpa using hbuf i hi
      rw [length_cons, attrsAt, hid, if_pos hva.2.1, hlength, hbuffer, htail]
    | value id x y =>
      obtain ⟨hhead, hy⟩ := holds_append.1 ha
      obtain ⟨hid, hx⟩ := holds_append.1 hhead
      have hid := (holds_le32_iff hva.1).1 hid
      have hx : u32At mem (p+4) = x := (holds_le32_iff hva.2.2.1).1 hx
      have hy : u32At mem (p+8) = y := (holds_le32_iff hva.2.2.2).1 hy
      rw [length_cons, attrsAt, hid, if_neg (by simp [hva.2.1]), hx, hy]
      exact congrArg _ htail

/-- Words are words, and the ids are of the right kind. -/
def Attr.Worded : Attr → Prop
  | .ref id _ => id < 2^32 ∧ attrIsBuffer id = true
  | .value id a b => id < 2^32 ∧ attrIsBuffer id = false ∧ a < 2^32 ∧ b < 2^32

theorem worded_attrsAt (mem : Mem) (n : Nat) : ∀ p, ∀ a ∈ attrsAt mem n p, a.Worded := by
  induction n with
  | zero => exact fun _ _ ha => absurd ha not_mem_nil
  | succ n ih =>
    intro p
    unfold attrsAt
    split_ifs with hb
    · exact forall_mem_cons.2 ⟨⟨u32At_lt, hb⟩, ih _⟩
    · exact forall_mem_cons.2 ⟨⟨u32At_lt, by simpa using hb, u32At_lt, u32At_lt⟩, ih _⟩

theorem holds_attrsAt (mem : Mem) (n : Nat) : ∀ p,
    Holds mem p ((attrsAt mem n p).flatMap restoreAttr) := by
  induction n with
  | zero => exact fun _ _ hi => absurd hi (Nat.not_lt_zero _)
  | succ n ih =>
    intro p
    unfold attrsAt
    split
    · rw [flatMap_cons, holds_append, length_restoreAttr]
      refine ⟨holds_append.2 ⟨holds_append.2 ⟨(holds_le32_iff u32At_lt).2 rfl, ?_⟩, ?_⟩, ?_⟩
      · exact (holds_le32_iff (by simpa using u32At_lt)).2 (by simp [le32])
      · exact holds_range mem (p+8) _
      · have hrest := ih (p+(8+u32At mem (p+4)))
        simpa [getAttrBufSize, ← Nat.add_assoc] using hrest
    · rw [flatMap_cons, holds_append, length_restoreAttr]
      refine ⟨holds_append.2 ⟨holds_append.2 ⟨(holds_le32_iff u32At_lt).2 rfl, ?_⟩, ?_⟩, ih (p+12)⟩
      · exact (holds_le32_iff u32At_lt).2 rfl
      · exact (holds_le32_iff u32At_lt).2 rfl

end

theorem length_halRestoreAttrs {attrs : List Attr} (hne : attrs ≠ []) :
    (halRestoreAttrs attrs).length = 4+getAttrBufSize attrs := by
  rw [halRestoreAttrs, if_neg hne, length_append, length_flatMap, getAttrBufSize]
  congr 3
  funext a
  cases a <;> simp [restoreAttr, le32]
  omega

/-! ## What is refused -/

section

variable {mem : Mem} {size : Nat}

theorem stays_cons {a : Attr} {attrs : List Attr} {p : Nat} : Stays size p (a :: attrs) ↔
    (p+4) % 2^32 ≤ size ∧ (p+getAttrBufSize [a]) % 2^32 ≤ size ∧
      Stays size (p+getAttrBufSize [a]) attrs := by
  have hnext (i : Nat) : getAttrBufSize ((a :: attrs).take (i+1)) =
      getAttrBufSize [a]+getAttrBufSize (attrs.take i) := by
    rw [take_succ_cons, getAttrBufSize_cons]
  constructor
  · intro h
    refine ⟨(h 0 (Nat.zero_lt_succ _)).1, (h 0 (Nat.zero_lt_succ _)).2, fun i hi => ?_⟩
    have hi := h (i+1) (Nat.succ_lt_succ hi)
    rw [hnext, hnext, ← Nat.add_assoc, ← Nat.add_assoc] at hi
    exact hi
  · rintro ⟨h₁, h₂, h⟩ i hi
    cases i with
    | zero => exact ⟨h₁, h₂⟩
    | succ i =>
      rw [hnext, hnext, ← Nat.add_assoc, ← Nat.add_assoc]
      exact h i (Nat.lt_of_succ_lt_succ hi)

/-- The walk over the sizes, which is in 32 bits, follows the attributes as they lie. -/
theorem checkAttrsLoop_iff (mem : Mem) (size n : Nat) : ∀ p, checkAttrsLoop mem size n p (p % 2^32) = true ↔
    Stays size p (attrsAt mem n p) ∧ (p+getAttrBufSize (attrsAt mem n p)) % 2^32 = size := by
  have hadd (p len : Nat) : add32 (p % 2^32) len = (p+len) % 2^32 := Nat.mod_add_mod p (2^32) len
  have hif (c : Prop) [Decidable c] (b : Bool) : (if c then false else b) = true ↔ ¬c ∧ b = true := by
    split <;> simp [*]
  induction n with
  | zero =>
    intro p
    refine decide_eq_true_iff.trans ⟨fun h => ⟨nofun, h⟩, And.right⟩
  | succ n ih =>
    intro p
    have hcons (a : Attr) (l : List Attr) :
        (Stays size p (a :: l) ∧ (p+getAttrBufSize (a :: l)) % 2^32 = size) ↔
          (p+4) % 2^32 ≤ size ∧ (p+getAttrBufSize [a]) % 2^32 ≤ size ∧
            Stays size (p+getAttrBufSize [a]) l ∧
              (p+getAttrBufSize [a]+getAttrBufSize l) % 2^32 = size := by
      rw [stays_cons, getAttrBufSize_cons a l, ← Nat.add_assoc, and_assoc, and_assoc]
    rw [checkAttrsLoop, attrsAt]
    simp only [hadd, hif, Nat.not_lt]
    split
    · rw [hcons, size_ref, length_map, length_range, Nat.add_assoc p 4, ← Nat.add_assoc 4 4, ih]
    · rw [hcons, size_value, Nat.add_assoc p 4, ih]

theorem checkAttrsSize_iff (hsize : 4 ≤ size) : checkAttrsSize mem size = true ↔
    u32At mem 0 ≤ (size-4)/8 ∧ Stays size 4 (attrsOf mem) ∧
      (4+getAttrBufSize (attrsOf mem)) % 2^32 = size := by
  have hloop := checkAttrsLoop_iff mem size (u32At mem 0) 4
  rw [checkAttrsSize, checkAttrsCount, Bool.and_eq_true, Bool.and_eq_true, decide_eq_true_iff,
    decide_eq_true_iff, and_iff_right hsize]
  exact and_congr_right' hloop

/-- A buffer encodes the attributes that lie in it, if no buffer among them is empty and they
end where it ends. -/
theorem encodes_iff (hsize : size < 2^32) : Encodes mem size ↔ size = 0 ∨ u32At mem 0 ≠ 0 ∧
    (∀ id, .ref id [] ∉ attrsOf mem) ∧ 4+getAttrBufSize (attrsOf mem) = size := by
  constructor
  · rintro ⟨attrs, hv, hh, rfl⟩
    by_cases hne : attrs = []
    · subst hne
      exact .inl rfl
    rw [length_halRestoreAttrs hne] at hsize ⊢
    have hle := length_le_size attrs
    rw [halRestoreAttrs, if_neg hne] at hh
    obtain ⟨hcount, hrest⟩ := holds_append.1 hh
    have hcount : u32At mem 0 = attrs.length := (holds_le32_iff (by omega)).1 hcount
    have hall : attrsOf mem = attrs := by
      rw [attrsOf, hcount]
      exact attrsAt_of_holds hv (by omega) hrest
    rw [hcount, hall]
    refine .inr ⟨fun h => hne (length_eq_zero_iff.1 h), fun id hid => ?_, rfl⟩
    exact (hv _ hid).2.2 rfl
  · rintro (rfl | ⟨hcount, hempty, rfl⟩)
    · exact ⟨[], nofun, fun _ hi => absurd hi (Nat.not_lt_zero _), rfl⟩
    have hlen : (attrsOf mem).length = u32At mem 0 := length_attrsAt ..
    have hne : attrsOf mem ≠ [] := fun h => hcount (by rw [← hlen, h]; rfl)
    refine ⟨attrsOf mem, fun a ha => ?_, ?_, (length_halRestoreAttrs hne).symm⟩
    · have hw := worded_attrsAt mem _ _ a ha
      cases a with
      | ref id buffer =>
        refine ⟨hw.1, hw.2, ?_⟩
        rintro rfl
        exact hempty id ha
      | value id x y => exact hw
    · rw [halRestoreAttrs, if_neg hne, holds_append, hlen]
      exact ⟨(holds_le32_iff u32At_lt).2 rfl, holds_attrsAt mem _ 4⟩

theorem restoreAttrs_none_iff : restoreAttrs ⟨some mem, size⟩ true = none ↔
    size ≠ 0 ∧ (size < 4 ∨ u32At mem 0 ≠ 0 ∧ checkAttrsSize mem size = false) := by
  unfold restoreAttrs
  grind

/-- Up to 4 GiB the attributes end at the size only if all of them are inside it. -/
theorem stays_of_size {attrs : List Attr} {p : Nat} (h : p+getAttrBufSize attrs = size)
    (hsize : size < 2^32) : Stays size p attrs := by
  intro i hi
  have hsplit (j : Nat) : getAttrBufSize attrs =
      getAttrBufSize (attrs.take j)+getAttrBufSize (attrs.drop j) := by
    conv_lhs => rw [← take_append_drop j attrs]
    simp [getAttrBufSize]
  have hsplit' := hsplit (i+1)
  have hrest := length_le_size (attrs.drop i)
  have hsplit := hsplit i
  rw [length_drop] at hrest
  rw [Nat.mod_eq_of_lt (by omega), Nat.mod_eq_of_lt (by omega)]
  omega

/-- The buffers that are taken although no list is written so. -/
theorem taken_iff_loose (hsize : size < 2^32) :
    (¬ Encodes mem size ∧ restoreAttrs ⟨some mem, size⟩ true ≠ none) ↔
      4 ≤ size ∧ Loose mem size := by
  simp only [encodes_iff hsize, ne_eq, restoreAttrs_none_iff]
  by_cases h4 : 4 ≤ size
  swap
  · grind
  by_cases hcount : u32At mem 0 = 0
  · refine iff_of_true ⟨fun h => ?_, fun h => ?_⟩ ⟨h4, .count hcount⟩
    · rcases h with h | h
      · omega
      · exact h.1 hcount
    · rcases h.2 with h | h
      · omega
      · exact h.1 hcount
  have hcheck : checkAttrsSize mem size = true ↔ _ := checkAttrsSize_iff h4
  have hlen : (attrsOf mem).length = u32At mem 0 := length_attrsAt ..
  have hle := length_le_size (attrsOf mem)
  by_cases hlong : 2^32 ≤ 4+getAttrBufSize (attrsOf mem)
  · have hchecked : (4 ≤ size ∧ Loose mem size) ↔ checkAttrsSize mem size = true := by
      rw [hcheck]
      constructor
      · rintro ⟨-, h | ⟨h, -⟩ | ⟨-, hc, hs, hz⟩⟩
        · exact absurd h hcount
        · omega
        · exact ⟨hc, hs, hz⟩
      · exact fun ⟨hc, hs, hz⟩ => ⟨h4, .wraps hlong hc hs hz⟩
    rw [hchecked]
    grind
  · have hchecked : checkAttrsSize mem size = true ↔ 4+getAttrBufSize (attrsOf mem) = size := by
      rw [hcheck, Nat.mod_eq_of_lt (by omega)]
      refine ⟨fun h => h.2.2, fun h => ⟨?_, stays_of_size h hsize, h⟩⟩
      omega
    have hloose : Loose mem size ↔
        4+getAttrBufSize (attrsOf mem) = size ∧ ∃ id, .ref id [] ∈ attrsOf mem := by
      constructor
      · rintro (h | ⟨h, id, hid⟩ | ⟨h, -, -, -⟩)
        · exact absurd h hcount
        · exact ⟨h, id, hid⟩
        · exact absurd h hlong
      · exact fun ⟨h, id, hid⟩ => .empty h id hid
    rw [hloose]
    grind

end

/-- Only an empty list is marshalled; and of the buffers that encode no list all are refused but
those with a count of zero, with an empty buffer among attributes that fill the size, or with
attributes that wrap to it. -/
theorem attrs_marshalled_iff (hv : ∀ a ∈ attrs, a.Valid)
    (hfit : (halRestoreAttrs attrs).length ≤ shareMemoryMaxSize) (mem : Mem) (size : Nat)
    (hsize : size < 2^32) :
    (Marshalled attrs ↔ attrs = []) ∧
      ((¬ Encodes mem size → restoreAttrs ⟨some mem, size⟩ true = none) ↔
        ¬ (4 ≤ size ∧ Loose mem size)) := by
  refine ⟨⟨fun h => ?_, ?_⟩, ?_⟩
  · by_cases hne : attrs = []
    · exact hne
    have hlen := length_halRestoreAttrs hne
    rw [hlen, shareMemoryMaxSize] at hfit
    obtain ⟨v, hread⟩ := reads_behind hne hv (Nat.le_refl 4) (by omega)
    -- a byte other than the one that is read there may lie behind the buffer
    have hmem := h (memOf (v+1) (halRestoreAttrs attrs)) (holds_memOf _ _)
    obtain ⟨n, hn⟩ : ∃ n, restoreAttrsLoop (memOf (v+1) (halRestoreAttrs attrs)) n 4 4 = attrs := by
      unfold restoreAttrs at hmem
      grind
    obtain ⟨q, hq, hv⟩ := hread _ n hn
    rw [memOf, getD_eq_default _ _ (by omega)] at hv
    simp at hv
  · rintro rfl mem _
    rfl
  · rw [← taken_iff_loose hsize, not_and, not_not]

theorem value_attr_not_marshalled : ¬ Marshalled [.value 0xF0000A30 1 2] := fun h =>
  absurd ((attrs_marshalled_iff [.value 0xF0000A30 1 2] (by simp [Attr.Valid, attrIsBuffer])
    (by decide) (memOf 0 []) 0 (by decide)).1.1 h) nofun

/-- The second word of a value comes back as its first, and the second is taken from behind the
buffer; four bytes behind a count of zero are accepted. -/
theorem value_attr_shifted :
    restoreAttrs ⟨some (memOf 7 (halRestoreAttrs [.value 0xF0000A30 1 2])), 16⟩ true =
      some (some [.value 0xF0000A30 2 0x07070707]) ∧
    restoreAttrs ⟨some (memOf 0 []), 8⟩ true = some none ∧ ¬ Encodes (memOf 0 []) 8 := by
  refine ⟨by decide +kernel, by decide +kernel, ?_⟩
  rintro ⟨attrs, -, -, hlen⟩
  cases attrs with
  | nil => cases hlen
  | cons a attrs =>
    rw [length_halRestoreAttrs (cons_ne_nil a attrs)] at hlen
    cases a <;> simp [getAttrBufSize] at hlen <;> omega

end TeeOs.CryptoDrv
