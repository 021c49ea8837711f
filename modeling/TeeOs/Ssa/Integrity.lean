import TeeOs.Ssa.Content
import TeeOs.Ssa.Open

/-!
# The integrity check

`Intact` is what `check_integrity_v2` accepts: metadata under its own HMAC, the
file name and the data HMAC under the hash in it, and a data HMAC over the
hashes of all blocks. A check of an intact file loads exactly its block list;
a failed one only disturbs the caches that the next check overwrites.
-/

namespace TeeOs.Ssa

open Lib.Calls Lib.Bytes List Proc Nat Option
open TeeOs.Ssa renaming cryptBlockSize → B

variable {D : Type} {i : Nat}

/-- The list that one pass over the raw blocks builds. -/
def blockList (K : Crypto D) (data : List UInt8) : List (BlockInfo D) :=
  (range (data.length / cryptBlockSize)).map fun i =>
    ⟨i, K.hash (block cryptBlockSize i data)⟩

/-- The HMAC over all hashes of a list, filled up to an even number. -/
def masterHmac (K : Crypto D) (l : List (BlockInfo D)) : D :=
  K.hmacBlocks (l.map BlockInfo.hash ++ replicate (l.length % 2) K.zero)

/-- The metadata record is under its HMAC and names the data HMAC it holds. -/
structure Sealed (K : Crypto D) (fileId : String) (m : MetaStorage D) : Prop where
  metaHmac_eq : m.metaHmac = some (K.hmacHeader m.hdr)
  name_eq : m.hdr.magicVersion = metaStorageMagicVersion →
    m.hdr.fnameDatahmacHash = K.hashName fileId m.dataHmac

structure Intact (K : Crypto D) (fileId : String) (f : RawFile D) (m : MetaStorage D) : Prop where
  header_eq : f.header = some m
  sealed : Sealed K fileId m
  hmac_eq : m.dataHmac = some (masterHmac K (blockList K f.data))
  nonempty : f.data.length ≠ 0
  aligned : f.data.length % cryptBlockSize = 0

/-- The size a check stores: the raw length without the padding of the last block. -/
def loadedSize (lastBlockSize dataSize : Nat) : Nat :=
  if dataSize ≥ sub32 cryptBlockSize lastBlockSize ∧ lastBlockSize ≠ 0 then
    dataSize - sub32 cryptBlockSize lastBlockSize
  else dataSize

/-- The descriptor after a check that passed. -/
def loaded (K : Crypto D) (sfd : Sfd D) (m : MetaStorage D) (data : List UInt8) : Sfd D :=
  { sfd with
    size := loadedSize m.hdr.lastBlockRealsize data.length
    lastBlockSize := m.hdr.lastBlockRealsize
    firstBlock := blockList K data }

variable {bad : RawFile D → Prop} {J : Files D → Prop} {K : Crypto D} {X : View D}
  {c data : List UInt8} {sfd : Sfd D} {f : RawFile D} {Q : Post D Unit} {l : List (BlockInfo D)}

section Lists

theorem length_blockList (data : List UInt8) : (blockList K data).length = data.length / B := by
  unfold blockList
  rw [length_map, length_range]

theorem blockList_getElem? (hi : i < data.length / B) :
    (blockList K data)[i]? = some ⟨i, K.hash (block B i data)⟩ := by
  unfold blockList
  rw [getElem?_map, getElem?_range hi]
  rfl

theorem numbered_blockList (data : List UInt8) : Numbered (blockList K data) := by
  intro i b hb
  have hlt := (List.getElem?_eq_some_iff.mp hb).1
  rw [length_blockList] at hlt
  rw [blockList_getElem? hlt, some.injEq] at hb
  rw [← hb]

/-- A numbered list of the right length and hashes is the block list. -/
theorem eq_blockList (hl : l.length = data.length / B) (h : ∀ i, i < data.length / B →
      l[i]? = some ⟨i, K.hash (block B i data)⟩) : l = blockList K data := by
  refine ext_getElem? fun i => ?_
  by_cases hi : i < data.length / B
  · rw [h i hi, blockList_getElem? hi]
  · rw [getElem?_eq_none (by omega), getElem?_eq_none (by rw [length_blockList]; omega)]

theorem placeHashes_eq (pre : List D) (l : List (BlockInfo D)) {m : Nat} (hm : l.length ≤ m)
    (ids : ∀ i b, l[i]? = some b → b.blockId = pre.length + i) :
    placeHashes l (pre ++ replicate m K.zero) =
      .ok (pre ++ l.map BlockInfo.hash ++ replicate (m - l.length) K.zero) := by
  induction l generalizing pre m with
  | nil =>
    simp only [placeHashes, map_nil, append_nil, length_nil, Nat.sub_zero]
  | cons b l ih =>
    obtain ⟨m, rfl⟩ : ∃ n, m = n+1 := ⟨m-1, by rw [length_cons] at hm; omega⟩
    have hid : b.blockId = pre.length := by
      have := ids 0 b rfl
      omega
    have hin : b.blockId < (pre ++ replicate (m+1) K.zero).length := by
      rw [length_append, length_replicate]
      omega
    have hset : (pre ++ replicate (m+1) K.zero).set b.blockId b.hash =
        (pre ++ [b.hash]) ++ replicate m K.zero := by
      rw [hid, set_append_right _ _ (le_rfl), Nat.sub_self, replicate_succ,
        set_cons_zero, append_assoc, singleton_append]
    unfold placeHashes
    rw [if_pos hin, hset, ih (pre ++ [b.hash]) (by rw [length_cons] at hm; omega)]
    · rw [map_cons, length_cons, Nat.add_sub_add_right, append_assoc,
        append_assoc, append_assoc, singleton_append]
      rfl
    · intro i b' hb'
      have := ids (i+1) b' (by rw [getElem?_cons_succ]; exact hb')
      rw [length_append, length_singleton]
      omega

theorem calculateMasterHmac_eq (ids : Numbered sfd.firstBlock) (hne : sfd.firstBlock ≠ []) :
    calculateMasterHmac K sfd = .ok (masterHmac K sfd.firstBlock) := by
  have hplace := placeHashes_eq (K := K) [] sfd.firstBlock
    (le_add_right sfd.firstBlock.length (sfd.firstBlock.length % 2))
    (fun i b hb => by rw [length_nil, Nat.zero_add]; exact ids i b hb)
  unfold calculateMasterHmac
  rw [if_neg hne]
  dsimp only
  rw [nil_append, nil_append, Nat.add_sub_cancel_left] at hplace
  rw [hplace]
  rfl

end Lists

section Construct

theorem placeHash_spec (ids : Numbered l) (hne : l ≠ []) (hi : i ≤ l.length) (h : D) :
    Numbered (placeHash i h l) ∧ placeHash i h l ≠ [] ∧ i+1 ≤ (placeHash i h l).length ∧
      ∀ j, j ≤ i → (placeHash i h l)[j]? = if j = i then some ⟨i, h⟩ else l[j]? := by
  have hpos : 0 < l.length := length_pos_iff.mpr hne
  unfold placeHash
  by_cases hlt : i < l.length
  · rw [if_pos hlt]
    have hget := modify_getElem? ids h hlt
    refine ⟨fun j b hb => ?_, ?_, ?_, fun j _ => hget j⟩
    · rw [hget j] at hb
      by_cases hji : j = i
      · rw [if_pos hji, some.injEq] at hb
        rw [← hb, hji]
      · rw [if_neg hji] at hb
        exact ids j b hb
    · exact length_pos_iff.mp (by rw [length_modify]; exact hpos)
    · rw [length_modify]
      omega
  · have hil : i = l.length := by omega
    subst hil
    have hlast := ids (l.length - 1) _ (getElem?_eq_getElem (by omega))
    have hid : l[l.length - 1].blockId + 1 = l.length := by rw [hlast]; omega
    rw [if_neg hlt, getLast?_eq_getElem?, getElem?_eq_getElem (by omega)]
    dsimp only
    rw [hid]
    refine ⟨ids.append h, by simp, by simp, fun j hj => ?_⟩
    by_cases hjl : j = l.length
    · subst hjl
      rw [if_pos rfl, getElem?_append_right (le_rfl), Nat.sub_self]
      rfl
    · rw [if_neg hjl, getElem?_append_left (by omega)]

/-- The block list is numbered and not empty. -/
def Sfd.Listed (sfd : Sfd D) : Prop := Numbered sfd.firstBlock ∧ sfd.firstBlock ≠ []

/-- The loop of `cal_construct_block` completes the block list. -/
theorem wp_calConstructBlock {n : Nat} (hfd : sfd.nfd = X.fd) (hl : sfd.Listed)
    (hlen : f.data.length = (i+n)*B) (hi : i ≤ sfd.firstBlock.length)
    (hdone : ∀ j, j < i → sfd.firstBlock[j]? = some ⟨j, K.hash (block B j f.data)⟩)
    (hJ : J (X.files f))
    (hQ : Q (.ok (), { sfd with firstBlock := blockList K f.data }) (X.seek f f.data.length)) :
    wp (agent bad) J (calConstructBlock K n i sfd) Q (X.seek f (i*B)) := by
  have hdiv : f.data.length / B = i+n := by
    rw [hlen, Nat.mul_div_cancel _ cryptBlockSize_pos]
  induction n generalizing i sfd with
  | zero =>
    have htake : sfd.firstBlock.take i = blockList K f.data := by
      refine eq_blockList ?_ fun j hj => ?_
      · rw [length_take, hdiv]
        omega
      · rw [getElem?_take, if_pos (by omega)]
        exact hdone j (by omega)
    change Q (.ok (), { sfd with firstBlock := sfd.firstBlock.take i }) _
    rw [htake, show i*B = f.data.length by rw [hlen, add_zero]]
    exact hQ
  | succ n ih =>
    have hin : i*B + B ≤ f.data.length := by
      rw [hlen, ← succ_mul]
      exact mul_le_mul_right _ (by omega)
    have hblk : (block B i f.data).length = B := length_block hin
    unfold calConstructBlock
    rw [wp_get_bind, wp_seq]
    refine wp_ssaFsFread hfd hJ (le_add_right _ _) ?_
    rw [next_ok, Nat.add_sub_cancel_left]
    change wp _ _ ((if (block B i f.data).length = 0 ∨
      (block B i f.data).length % B ≠ 0 then _ else _ : SsaM D Unit) sfd)
      Q (X.state f (_ + (block B i f.data).length))
    have hpos := cryptBlockSize_pos
    rw [hblk, if_neg (by rw [mod_self]; omega), wp_modify_bind, add_assoc, ← succ_mul]
    obtain ⟨ids', hne', hlen', hget⟩ := placeHash_spec hl.1 hl.2 hi (K.hash (block B i f.data))
    refine ih hfd ⟨ids', hne'⟩ (by rw [hlen]; congr 1; omega) hlen' ?_ hQ (by omega)
    intro j hj
    change (placeHash i (K.hash (block B i f.data)) sfd.firstBlock)[j]? = _
    rw [hget j (by omega)]
    by_cases hji : j = i
    · rw [if_pos hji, hji]
    · rw [if_neg hji]
      exact hdone j (by omega)

theorem wp_constructBlockInfo {pos : Nat} (hfd : sfd.nfd = X.fd) (hl : sfd.Listed)
    (hh : f.header.isSome) (hJ : J (X.files f))
    (hok : f.data.length ≠ 0 → f.data.length % B = 0 → Q (.ok (), { sfd with
          size := loadedSize sfd.lastBlockSize f.data.length
          firstBlock := blockList K f.data })
        (X.seek f f.data.length))
    (hbad : ¬ (f.data.length ≠ 0 ∧ f.data.length % B = 0) → ∀ e size q,
      Q (.error e, { sfd with size := size }) (X.state f q)) :
    wp (agent bad) J (constructBlockInfo K sfd) Q (X.state f pos) := by
  have hlen : f.len = sfsMetadataSize + f.data.length := by
    unfold RawFile.len
    obtain ⟨m, hm⟩ := isSome_iff_exists.mp hh
    rw [hm]
  unfold constructBlockInfo
  rw [wp_get_bind, wp_seq]
  refine wp_ssaFsFinfo hfd hJ ?_
  rw [next_ok]
  dsimp only
  rw [hlen, if_neg (by omega), Nat.add_sub_cancel_left, wp_seq]
  refine wp_ssaFsFseek hfd (q := sfsMetadataSize) hJ (by simp only [Fs.seekBase]; omega) ?_
  change wp _ _ ((if _ then _ else _ : SsaM D Unit) { sfd with
    size := loadedSize sfd.lastBlockSize f.data.length }) _ _
  by_cases hshape : f.data.length = 0 ∨ f.data.length % B ≠ 0
  · rw [if_pos hshape, wp_throw]
    exact hbad (by omega) _ _ _
  · rw [if_neg hshape]
    have hmod : f.data.length % B = 0 := by omega
    have hmul : f.data.length = (0 + f.data.length/B)*B := by
      rw [Nat.zero_add, Nat.div_mul_cancel (Nat.dvd_of_mod_eq_zero hmod)]
    have hfd' : ({ sfd with size := loadedSize sfd.lastBlockSize f.data.length } : Sfd D).nfd =
        X.fd := hfd
    have hrule : wp (agent bad) J _ Q _ :=
      wp_calConstructBlock hfd' hl hmul (zero_le _)
        (fun j hj => absurd hj (not_lt_zero j)) hJ (hok (by omega) hmod)
    exact hrule

end Construct

section Check

variable [DecidableEq D]

/-- The descriptor after a check that failed: only what the next check overwrites has changed. -/
def Disturbed (sfd sfd' : Sfd D) : Prop :=
  ∃ size last l, Numbered l ∧ l ≠ [] ∧
    sfd' = { sfd with size := size, lastBlockSize := last, firstBlock := l }

theorem wp_checkIntegrityV2 (hfd : sfd.nfd = X.fd) (hl : sfd.Listed) (hJ : J (X.files f))
    (hok : ∀ m, Intact K sfd.metaData.fileId f m → Q (.ok (), loaded K sfd m f.data)
      (X.seek f f.data.length))
    (hbad : (¬ ∃ m, Intact K sfd.metaData.fileId f m) → ∀ e sfd' q, Disturbed sfd sfd' →
      Q (.error e, sfd') (X.state f q)) :
    wp (agent bad) J (checkIntegrityV2 K sfd) Q (X.state f 0) := by
  have hself : Disturbed sfd sfd := ⟨sfd.size, sfd.lastBlockSize, sfd.firstBlock, hl.1, hl.2, rfl⟩
  unfold checkIntegrityV2 getHmacFromMetaData
  rw [wp_seq, wp_get_bind, wp_seq]
  cases hm : f.header with
  | none =>
    refine wp_ssaFsFreadMeta_none hfd hJ hm ?_
    refine hbad ?_ _ _ _ hself
    rintro ⟨m, hi⟩
    rw [hi.header_eq] at hm
    cases hm
  | some m =>
    refine wp_ssaFsFreadMeta hfd hJ (by rw [hm]; rfl) ?_
    rw [next_ok, hm]
    dsimp only
    by_cases hhmac : m.metaHmac ≠ some (K.hmacHeader m.hdr)
    · rw [if_pos hhmac, wp_throw, next_error]
      refine hbad ?_ _ _ _ hself
      rintro ⟨m', hi⟩
      have hmm : m' = m := mem_unique hi.header_eq hm
      exact hhmac (hmm ▸ hi.sealed.metaHmac_eq)
    · rw [if_neg hhmac]
      by_cases hname : m.hdr.magicVersion = metaStorageMagicVersion ∧
          m.hdr.fnameDatahmacHash ≠ K.hashName sfd.metaData.fileId m.dataHmac
      · rw [if_pos hname, wp_throw, next_error]
        refine hbad ?_ _ _ _ hself
        rintro ⟨m', hi⟩
        have hmm : m' = m := mem_unique hi.header_eq hm
        subst hmm
        exact hname.2 (hi.sealed.name_eq hname.1)
      · rw [if_neg hname, wp_modify_bind, wp_pure, next_ok, wp_seq]
        have hsealed : Sealed K sfd.metaData.fileId m :=
          ⟨not_not.mp hhmac, fun hv => not_not.mp fun hne' => hname ⟨hv, hne'⟩⟩
        refine wp_constructBlockInfo hfd hl (by rw [hm]; rfl) hJ (fun h0 hmod => ?_)
          fun hshape e size q => ?_
        · have hlist : blockList K f.data ≠ [] := by
            refine length_pos_iff.mp ?_
            rw [length_blockList]
            exact div_pos (le_of_dvd (pos_of_ne_zero h0) (dvd_of_mod_eq_zero hmod))
              cryptBlockSize_pos
          have hcalc : calculateMasterHmac K (loaded K sfd m f.data) =
              .ok (masterHmac K (blockList K f.data)) :=
            calculateMasterHmac_eq (numbered_blockList _) hlist
          change wp _ _ ((do
            let sfd ← Proc.get
            let calculated ← ofExcept (calculateMasterHmac K sfd)
            if m.dataHmac = some calculated then pure () else Proc.throw .minusOne : SsaM D Unit)
            (loaded K sfd m f.data)) Q _
          rw [wp_get_bind, hcalc, wp_seq, wp_ofExcept_ok, next_ok]
          by_cases hdata : m.dataHmac = some (masterHmac K (blockList K f.data))
          · rw [if_pos hdata, wp_pure]
            exact hok m ⟨hm, hsealed, hdata, h0, hmod⟩
          · rw [if_neg hdata, wp_throw]
            refine hbad ?_ _ _ _ ⟨_, _, _, numbered_blockList _, hlist, rfl⟩
            rintro ⟨m', hi⟩
            have hmm : m' = m := mem_unique hi.header_eq hm
            subst hmm
            exact hdata hi.hmac_eq
        · refine hbad ?_ _ _ _ ⟨size, m.hdr.lastBlockRealsize, sfd.firstBlock, hl.1, hl.2, rfl⟩
          rintro ⟨m', hi⟩
          exact hshape ⟨hi.nonempty, hi.aligned⟩

end Check

end TeeOs.Ssa
