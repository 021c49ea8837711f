import TeeOs.Ssa.File
import TeeOs.Ssa.View

/-!
# The logical content of a secure file

`Encrypts` says that raw data is the block-wise encryption of whole plain
blocks, `Hashed` that a block list holds the hashes of raw blocks, and `Rep`
joins both: the descriptor and the raw file represent the content `c`, zero
padded to whole blocks. The list may be longer than the file, as it is for a
moment inside a truncation.
-/

namespace TeeOs.Ssa

open Lib.Calls Lib.Bytes List
open TeeOs.Ssa renaming cryptBlockSize → B

variable {D : Type}

structure Encrypts (K : Crypto D) (plain data : List UInt8) : Prop where
  length_eq : data.length = plain.length
  aligned : plain.length % cryptBlockSize = 0
  block_eq : ∀ i, i*cryptBlockSize + cryptBlockSize ≤ plain.length →
    block cryptBlockSize i data = K.encrypt i (block cryptBlockSize i plain)

/-- Block ids count up from zero. -/
def Numbered (l : List (BlockInfo D)) : Prop := ∀ (i : Nat) (b : BlockInfo D), l[i]? = some b → b.blockId = i

structure Hashed (K : Crypto D) (data : List UInt8) (l : List (BlockInfo D)) : Prop where
  nonempty : l ≠ []
  covers : data.length ≤ l.length*cryptBlockSize
  ids : Numbered l
  hash_eq : ∀ i, i*cryptBlockSize + cryptBlockSize ≤ data.length →
    l[i]? = some ⟨i, K.hash (block cryptBlockSize i data)⟩

/-- The file behind the view holds the plain blocks `plain`, as the descriptor has them. -/
structure Stored (K : Crypto D) (X : View D) (plain : List UInt8) (sfd : Sfd D) (f : RawFile D) :
    Prop where
  nfd_eq : sfd.nfd = X.fd
  name_eq : sfd.metaData.curEncryptedFileId = X.name
  header : f.header.isSome
  encrypts : Encrypts K plain f.data
  hashed : Hashed K f.data sfd.firstBlock

/-- The descriptor and the file behind the view represent the content `c`. -/
structure Rep (K : Crypto D) (X : View D) (c : List UInt8) (sfd : Sfd D) (f : RawFile D) : Prop
    extends Stored K X (pad cryptBlockSize c) sfd f where
  last_eq : sfd.lastBlockSize = c.length % cryptBlockSize
  length_le : c.length ≤ 2*maxFileSize
  attr_le : sfd.attrSize ≤ maxFileSize

/-- What reading needs: the list has the hashes of the first `k` blocks. -/
structure Legible (K : Crypto D) (X : View D) (c : List UInt8) (k : Nat) (sfd : Sfd D)
    (f : RawFile D) : Prop where
  nfd_eq : sfd.nfd = X.fd
  name_eq : sfd.metaData.curEncryptedFileId = X.name
  header : f.header.isSome
  encrypts : Encrypts K (pad cryptBlockSize c) f.data
  ids : Numbered sfd.firstBlock
  hash_eq : ∀ i, i < k → sfd.firstBlock[i]? = some ⟨i, K.hash (block cryptBlockSize i f.data)⟩
  last_eq : sfd.lastBlockSize = c.length % cryptBlockSize
  length_le : c.length ≤ 2*maxFileSize
  attr_le : sfd.attrSize ≤ maxFileSize

variable {K : Crypto D} {X : View D} {c : List UInt8} {k : Nat} {sfd : Sfd D} {f : RawFile D}

/-- The descriptor with a position and a size in its caches. -/
abbrev Sfd.cached (sfd : Sfd D) (p n : Nat) : Sfd D := { sfd with seekPosition := p, size := n }

/-- And with the number of a block. -/
abbrev Sfd.standing (sfd : Sfd D) (sid p n : Nat) : Sfd D :=
  { sfd with startBlockId := sid, seekPosition := p, size := n }

abbrev Sfd.caching (sfd : Sfd D) (sid p n : Nat) (due need : Bool) : Sfd D :=
  { sfd with
    startBlockId := sid, seekPosition := p, size := n, updateBackup := due, needUpdateHmac := need }

theorem cryptBlockSize_pos : 0 < B := by decide

theorem u32_of_lt {n : Nat} (h : n < 4294967296) : u32 n = n := Nat.mod_eq_of_lt h

theorem sub32_of_le {a b : Nat} (h : b ≤ a) (ha : a < 4294967296) : sub32 a b = a - b := by
  unfold sub32
  omega

variable {destMax count j : Nat} {plain data e : List UInt8}

theorem memmoveRefuses_eq_false (h0 : 0 < destMax)
    (hmax : destMax ≤ securecMemMaxLen) (hle : count ≤ destMax) :
    memmoveRefuses destMax count = false := by
  simp only [memmoveRefuses, Bool.or_eq_false_iff, beq_eq_false_iff_ne, decide_eq_false_iff_not]
  omega

theorem memmoveRefuses_of_big (hmax : securecMemMaxLen < destMax) :
    memmoveRefuses destMax count = true := by
  simp only [memmoveRefuses, decide_eq_true hmax, Bool.or_true, Bool.true_or]

/-- The caches of a descriptor play no part in what it stores. -/
theorem Stored.caches (h : Stored K X plain sfd f)
    (sid pos n last : Nat) (due need : Bool) :
    Stored K X plain { sfd with
      startBlockId := sid, seekPosition := pos, size := n, lastBlockSize := last,
      updateBackup := due, needUpdateHmac := need } f :=
  { h with }

theorem Stored.startBlock (h : Stored K X plain sfd f) (sid : Nat) :
    Stored K X plain { sfd with startBlockId := sid } f :=
  h.caches _ _ _ _ _ _

theorem Rep.caches (h : Rep K X c sfd f) (sid pos n : Nat) (due need : Bool) :
    Rep K X c (sfd.caching sid pos n due need) f :=
  ⟨h.toStored.caches _ _ _ _ _ _, h.last_eq, h.length_le, h.attr_le⟩

theorem Rep.legible (h : Rep K X c sfd f) : Legible K X c (blocks B c.length) sfd f where
  nfd_eq := h.nfd_eq
  name_eq := h.name_eq
  header := h.header
  encrypts := h.encrypts
  ids := h.hashed.ids
  hash_eq i hi := by
    refine h.hashed.hash_eq i ?_
    rw [h.encrypts.length_eq, length_pad, ← Nat.succ_mul]
    exact Nat.mul_le_mul_right _ hi
  last_eq := h.last_eq
  length_le := h.length_le
  attr_le := h.attr_le

section

variable (h : Legible K X c k sfd f)
include h

theorem Legible.caches (sid pos n : Nat) (due need : Bool) :
    Legible K X c k (sfd.caching sid pos n due need) f :=
  { h with }

theorem Legible.data_length : f.data.length = blocks B c.length*B := by
  rw [h.encrypts.length_eq, length_pad]

theorem Legible.len_eq : f.len = sfsMetadataSize + blocks B c.length*B := by
  unfold RawFile.len
  obtain ⟨m, hm⟩ := Option.isSome_iff_exists.mp h.header
  rw [hm, h.data_length]

theorem Legible.padding_eq : lastCryptBlockPaddingSize sfd =
      ((blocks B c.length*B - c.length : Nat) : Int) := by
  unfold lastCryptBlockPaddingSize
  rw [h.last_eq]
  by_cases h0 : c.length % B = 0
  · simp only [blocks, B] at *
    omega
  · simp only [blocks, B] at *
    omega

end

section Lists

variable {l : List (BlockInfo D)}

theorem findBlock_eq (ids : Numbered l) (i : Nat) : findBlock i l = l[i]? := by
  cases hi : l[i]? with
  | none =>
    refine find?_eq_none.mpr fun b hb => ?_
    obtain ⟨j, hj, rfl⟩ := mem_iff_getElem.mp hb
    have hid := ids j _ (List.getElem?_eq_getElem hj)
    have hle : l.length ≤ i := getElem?_eq_none_iff.mp hi
    simp only [decide_eq_true_eq, hid]
    omega
  | some b =>
    obtain ⟨hlt, hb⟩ := List.getElem?_eq_some_iff.mp hi
    have hid := ids i b hi
    refine find?_eq_some_iff_getElem.mpr ⟨by simpa using hid, i, hlt, hb, fun j hj => ?_⟩
    have hjd := ids j _ (List.getElem?_eq_getElem (by omega : j < l.length))
    simp only [hjd, Bool.not_eq_true', decide_eq_false_iff_not]
    omega

theorem findIdx_eq (ids : Numbered l)
    {i : Nat} (hi : i < l.length) : l.findIdx (fun b => decide (b.blockId = i)) = i := by
  have hid := ids i _ (List.getElem?_eq_getElem hi)
  refine (List.findIdx_eq hi).mpr ⟨by simpa using hid, fun j hj => ?_⟩
  have hjd := ids j _ (List.getElem?_eq_getElem (by omega : j < l.length))
  simp only [hjd, decide_eq_false_iff_not]
  omega

theorem Numbered.append (ids : Numbered l) (h : D) : Numbered (l ++ [⟨l.length, h⟩]) := by
  intro i b hb
  rw [getElem?_append] at hb
  split at hb
  case isTrue hi => exact ids i b hb
  case isFalse hi =>
    obtain ⟨hlt, hb⟩ := List.getElem?_eq_some_iff.mp hb
    simp only [List.length_singleton] at hlt
    have hi' : i = l.length := by omega
    subst hi'
    simp only [Nat.sub_self, getElem_singleton] at hb
    rw [← hb]

theorem modify_getElem? (ids : Numbered l) {j : Nat} (h : D) (hj : j < l.length) (i : Nat) :
    (l.modify j fun b => { b with hash := h })[i]? = if i = j then some ⟨j, h⟩ else l[i]? := by
  rw [getElem?_modify]
  by_cases hij : i = j
  · subst hij
    rw [if_pos rfl, getElem?_eq_getElem hj]
    have hid := ids i _ (getElem?_eq_getElem hj)
    simp [hid]
  · rw [if_neg hij]
    have hji : ¬ j = i := fun e => hij e.symm
    simp [hji]

/-- `update_block_hash` sets the hash of an old block or of the next new one. -/
theorem updateBlockHash_spec (K : Crypto D) (ids : Numbered l)
    (hne : l ≠ []) (buf : List UInt8) {j : Nat} (hj : j ≤ l.length) :
    ∃ l', updateBlockHash K l buf j = .ok l' ∧ l'.length = max l.length (j+1) ∧
      ∀ i, l'[i]? = if i = j then some ⟨j, K.hash buf⟩ else l[i]? := by
  have hpos : 0 < l.length := length_pos_iff.mpr hne
  unfold updateBlockHash
  rw [getLast?_eq_getElem?, getElem?_eq_getElem (by omega : l.length - 1 < l.length)]
  have hlast := ids (l.length-1) _ (getElem?_eq_getElem (by omega))
  dsimp only
  by_cases hlt : j < l.length
  · have hfound : (findBlock j l).isSome := by
      rw [findBlock_eq ids, getElem?_eq_getElem hlt]
      rfl
    rw [if_pos hfound, if_pos hfound, findIdx_eq ids hlt]
    refine ⟨_, rfl, ?_, fun i => modify_getElem? ids _ hlt i⟩
    rw [length_modify]
    omega
  · have hnone : ¬ (findBlock j l).isSome := by
      rw [findBlock_eq ids, getElem?_eq_none (by omega)]
      exact Bool.false_ne_true
    have hjl : j = l.length := by omega
    subst hjl
    have hone : l.length - l[l.length-1].blockId = 1 := by rw [hlast]; omega
    have hid : l[l.length-1].blockId + 1 = l.length := by rw [hlast]; omega
    have happ := ids.append K.zero
    have hin : l.length < (l ++ [(⟨l.length, K.zero⟩ : BlockInfo D)]).length := by simp
    have hfound : (findBlock l.length (l ++ [⟨l.length, K.zero⟩])).isSome := by
      rw [findBlock_eq happ, getElem?_eq_getElem hin]
      rfl
    rw [if_neg hnone, hone]
    simp only [range_one, map_cons, map_nil, hid, Nat.add_zero]
    rw [if_pos hfound, findIdx_eq happ hin]
    refine ⟨_, rfl, ?_, fun i => ?_⟩
    · rw [length_modify, length_append, length_singleton]
      omega
    · rw [modify_getElem? happ _ hin i]
      by_cases hi : i = l.length
      · rw [if_pos hi, if_pos hi]
      · rw [if_neg hi, if_neg hi, getElem?_append]
        by_cases hil : i < l.length
        · rw [if_pos hil]
        · rw [if_neg hil, getElem?_eq_none (by simp; omega), getElem?_eq_none (by omega)]

end Lists

theorem Encrypts.write (h : Encrypts K plain data) (hj : j*B ≤ plain.length) (he : e.length = B) :
    Encrypts K (overlay plain (j*B) e) (overlay data (j*B) (K.encrypt j e)) := by
  have hc := K.length_encrypt j e he
  refine ⟨by rw [length_overlay, length_overlay, h.length_eq, hc, he], ?_, fun i hi => ?_⟩
  · have := h.aligned
    rw [length_overlay, he]
    simp only [B] at *
    omega
  · rw [length_overlay, he] at hi
    by_cases hij : i = j
    · subst hij
      rw [block_overlay_self hc, block_overlay_self he]
    · have hi' := block_le_of_ne hij hi hj
      rw [block_overlay_of_ne hc hij (by rwa [h.length_eq]), block_overlay_of_ne he hij hi']
      exact h.block_eq i hi'

theorem Hashed.write {l l' : List (BlockInfo D)} (h : Hashed K data l)
    (hj : j*B ≤ data.length) (he : e.length = B)
    (hlen : l'.length = max l.length (j+1))
    (hl' : ∀ i, l'[i]? = if i = j then some ⟨j, K.hash e⟩ else l[i]?) :
    Hashed K (overlay data (j*B) e) l' := by
  have hcov := h.covers
  refine ⟨length_pos_iff.mp (by omega), ?_, fun i b hb => ?_, fun i hi => ?_⟩
  · rw [length_overlay, he, hlen]
    simp only [B] at *
    omega
  · rw [hl' i] at hb
    by_cases hij : i = j
    · rw [if_pos hij, Option.some.injEq] at hb
      rw [← hb, hij]
    · rw [if_neg hij] at hb
      exact h.ids i b hb
  · rw [length_overlay, he] at hi
    rw [hl' i]
    by_cases hij : i = j
    · rw [if_pos hij, hij, block_overlay_self he]
    · have hi' := block_le_of_ne hij hi hj
      rw [if_neg hij, block_overlay_of_ne he hij hi', h.hash_eq i hi']

end TeeOs.Ssa
