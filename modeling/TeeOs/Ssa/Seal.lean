import TeeOs.Ssa.Integrity
import TeeOs.Ssa.Truncate

/-!
# Sealed files

`ssa_write_mac` puts the master HMAC of the block list into the metadata and
then the size of the last block under the HMAC of the header. `Holds` is a file
so sealed over a content: a check of it loads that content, and when digests do
not collide its data HMAC admits no other data.
-/

namespace TeeOs.Ssa

open Lib.Calls Lib.Bytes List Proc Nat
open TeeOs.Ssa renaming cryptBlockSize → B

variable {D : Type}

/-- The file after `write_hmac_to_meta_data`. -/
def macFile (K : Crypto D) (l : List (BlockInfo D)) (f : RawFile D) : RawFile D :=
  { f with header := f.header.map fun m => { m with dataHmac := some (masterHmac K l) } }

/-- The file after `ssa_write_mac`. -/
def sealFile (K : Crypto D) (sfd : Sfd D) (f : RawFile D) : RawFile D :=
  { f with
    header := (macFile K sfd.firstBlock f).header.map
      (sealHeader K sfd.metaData.fileId sfd.lastBlockSize) }

/-- An intact file of the current version that holds the content `c`. -/
structure Holds (K : Crypto D) (fileId : String) (c : List UInt8) (f : RawFile D)
    (m : MetaStorage D) : Prop extends Intact K fileId f m where
  encrypts : Encrypts K (pad cryptBlockSize c) f.data
  last_eq : m.hdr.lastBlockRealsize = c.length % cryptBlockSize
  length_le : c.length ≤ 2*maxFileSize
  version_eq : m.hdr.magicVersion = metaStorageMagicVersion

variable {bad : RawFile D → Prop} {J : Files D → Prop}
  {K : Crypto D} {X : View D} {c : List UInt8} {sfd : Sfd D} {f : RawFile D} {m : MetaStorage D}
  {fileId : String}

section Write

/-- `ssa_write_mac` writes the two parts of the metadata one after the other. -/
theorem wp_ssaWriteMac {Q : Post D Unit} {pos : Nat}
    (hn : sfd.metaData.curEncryptedFileId = X.name) (ids : Numbered sfd.firstBlock)
    (hne : sfd.firstBlock ≠ []) (hh : f.header.isSome) (hJ : J (X.files f))
    (hmac : J (X.files (macFile K sfd.firstBlock f))) (hseal : J (X.files (sealFile K sfd f)))
    (hQ : Q (.ok (), { sfd with updateBackup := true }) (X.state (sealFile K sfd f) pos)) :
    wp (agent bad) J (ssaWriteMac K sfd) Q (X.state f pos) := by
  obtain ⟨m, hm⟩ := Option.isSome_iff_exists.mp hh
  have hmacFile : macFile K sfd.firstBlock f =
      { f with header := some { m with dataHmac := some (masterHmac K sfd.firstBlock) } } := by
    unfold macFile
    rw [hm]
    rfl
  have hsealFile : sealFile K sfd f = { f with
      header := some (sealHeader K sfd.metaData.fileId sfd.lastBlockSize
        { m with dataHmac := some (masterHmac K sfd.firstBlock) }) } := by
    unfold sealFile
    rw [hmacFile]
    rfl
  rw [hmacFile] at hmac
  rw [hsealFile] at hseal hQ
  unfold ssaWriteMac updateMasterHmac
  rw [wp_attempt_bind, wp_get_bind, calculateMasterHmac_eq ids hne, wp_seq, wp_ofExcept_ok, next_ok]
  refine wp_putDataHmac hn hm hJ hmac ?_
  rw [when_pos (by rfl), wp_modify_bind, wp_get_bind, wp_attempt_bind]
  refine wp_setLastCryptBlockRealsize ?_ rfl hmac hseal hQ
  exact hn

end Write

section Load

section

variable (h : Kept K X c sfd f)
include h

theorem Kept.list_blockList (hc : c ≠ []) : sfd.firstBlock = blockList K f.data := by
  have hpos := length_pos_iff.mpr hc
  have hdiv : f.data.length / B = blocks B c.length := by
    rw [h.legible.data_length, Nat.mul_div_cancel _ cryptBlockSize_pos]
  refine eq_blockList ?_ fun i hi => h.legible.hash_eq i (by omega)
  rw [h.list_eq, hdiv]
  simp only [blocks, B]
  omega

theorem Kept.data_ne_zero (hc : c ≠ []) : f.data.length ≠ 0 := by
  have hpos := length_pos_iff.mpr hc
  rw [h.legible.data_length]
  simp only [blocks, B]
  omega

/-- Sealing a non-empty content makes a file that holds it. -/
theorem Kept.holds (hc : c ≠ []) : ∃ m, Holds K sfd.metaData.fileId c (sealFile K sfd f) m := by
  obtain ⟨m, hm⟩ := Option.isSome_iff_exists.mp h.header
  refine ⟨sealHeader K sfd.metaData.fileId sfd.lastBlockSize
    { m with dataHmac := some (masterHmac K sfd.firstBlock) }, ⟨?_, ⟨rfl, fun _ => rfl⟩, ?_,
      h.data_ne_zero hc, ?_⟩, h.encrypts, h.last_eq, h.length_le, rfl⟩
  · unfold sealFile macFile
    rw [hm]
    rfl
  · exact congrArg (fun l => some (masterHmac K l)) (h.list_blockList hc)
  · change f.data.length % B = 0
    rw [h.legible.data_length, mul_mod_left]

theorem Kept.seal (updateBackup : Bool) :
    Kept K X c { sfd with updateBackup := updateBackup } (sealFile K sfd f) := by
  obtain ⟨m, hm⟩ := Option.isSome_iff_exists.mp h.header
  refine ⟨⟨{ h with header := ?_ }, h.last_eq, h.length_le, h.attr_le⟩,
    h.list_eq⟩
  unfold sealFile macFile
  rw [hm]
  rfl

end

variable (h : Holds K fileId c f m)
include h

theorem Holds.data_length : f.data.length = blocks B c.length*B := by
  rw [h.encrypts.length_eq, length_pad]

theorem Holds.content_ne_nil : c ≠ [] := by
  rintro rfl
  exact h.nonempty (by rw [h.data_length]; rfl)

theorem Holds.loadedSize_eq : loadedSize m.hdr.lastBlockRealsize f.data.length = c.length := by
  have hmod := mod_lt c.length cryptBlockSize_pos
  unfold loadedSize
  rw [h.last_eq, h.data_length, sub32_of_le hmod.le (by decide)]
  by_cases h0 : c.length % B = 0
  · rw [if_neg (by omega)]
    simp only [blocks, B] at *
    omega
  · rw [if_pos]
    · simp only [blocks, B] at *
      omega
    · refine ⟨?_, h0⟩
      simp only [blocks, B] at *
      omega

/-- A check of a file that holds a content loads a descriptor of it. -/
theorem Holds.kept (hfd : sfd.nfd = X.fd) (hn : sfd.metaData.curEncryptedFileId = X.name)
    (hattr : sfd.attrSize ≤ maxFileSize) : Kept K X c (loaded K sfd m f.data) f := by
  have hdiv : f.data.length / B = blocks B c.length := by
    rw [h.data_length, Nat.mul_div_cancel _ cryptBlockSize_pos]
  have hlen : (blockList K f.data).length = blocks B c.length := by
    rw [length_blockList, hdiv]
  have hpos := length_pos_iff.mpr h.content_ne_nil
  have hblocks : 0 < blocks B c.length := by
    simp only [blocks, B]
    omega
  refine ⟨⟨⟨hfd, hn, by rw [h.header_eq]; rfl, h.encrypts, ?_⟩, h.last_eq, h.length_le, hattr⟩, ?_⟩
  · refine ⟨length_pos_iff.mp (by rw [show (loaded K sfd m f.data).firstBlock =
      blockList K f.data from rfl, hlen]; exact hblocks), ?_, numbered_blockList _, fun i hi => ?_⟩
    · change _ ≤ (blockList K f.data).length*B
      rw [hlen, h.data_length]
    · refine blockList_getElem? ?_
      rw [hdiv]
      rw [h.data_length, ← succ_mul] at hi
      exact le_of_mul_le_mul_right hi cryptBlockSize_pos
  · change (blockList K f.data).length = _
    rw [hlen, max_eq_right hblocks]

end Load

section Unique

theorem eq_of_blocks {a b : List UInt8} (hl : a.length = b.length) (ha : a.length % B = 0)
    (h : ∀ i, i < a.length/B → block B i a = block B i b) :
    a = b := by
  refine ext_cell hl fun i hi => ?_
  have hblk := congrArg (fun l => cell l (i % B)) (h (i/B) (by
    simp only [B] at *
    omega))
  have hmod := mod_lt i cryptBlockSize_pos
  simp only [cell_block, if_pos hmod] at hblk
  rwa [mul_comm, div_add_mod] at hblk

/-- A filled-up list of hashes determines the hashes. -/
theorem filled_inj {z : D} {a b : List D} (ha : z ∉ a) (hb : z ∉ b)
    (h : a ++ List.replicate (a.length % 2) z = b ++ List.replicate (b.length % 2) z) : a = b := by
  have hlen := congrArg List.length h
  simp only [length_append, length_replicate] at hlen
  rcases lt_trichotomy a.length b.length with hlt | heq | hgt
  · have hget := congrArg (fun l => l[a.length]?) h
    rw [getElem?_append_right (le_rfl), getElem?_append_left hlt, Nat.sub_self,
      getElem?_replicate, if_pos (by omega)] at hget
    exact absurd (mem_of_getElem? hget.symm) hb
  · exact (append_inj h heq).1
  · have hget := congrArg (fun l => l[b.length]?) h
    rw [getElem?_append_left hgt, getElem?_append_right (le_rfl), Nat.sub_self,
      getElem?_replicate, if_pos (by omega)] at hget
    exact absurd (mem_of_getElem? hget) ha

theorem hashes_blockList (data : List UInt8) : (blockList K data).map BlockInfo.hash =
      (List.range (data.length/B)).map fun i => K.hash (block B i data) := by
  unfold blockList
  rw [map_map]
  rfl

/-- Without collisions, the master HMAC of whole blocks determines them. -/
theorem masterHmac_inj (C : CollisionFree K) {a b : List UInt8}
    (ha : a.length % B = 0) (hb : b.length % B = 0)
    (h : masterHmac K (blockList K a) = masterHmac K (blockList K b)) : a = b := by
  have hnz : ∀ data, K.zero ∉ (blockList K data).map BlockInfo.hash := by
    intro data hmem
    rw [hashes_blockList] at hmem
    obtain ⟨i, -, hi⟩ := mem_map.mp hmem
    exact C.hash_ne_zero _ hi
  have hfill := C.hmacBlocks_inj _ _ h
  have hlen : ∀ l : List (BlockInfo D), l.length = (l.map BlockInfo.hash).length :=
    fun l => (length_map BlockInfo.hash).symm
  rw [hlen (blockList K a), hlen (blockList K b)] at hfill
  have hmap := filled_inj (hnz a) (hnz b) hfill
  have hcount : a.length/B = b.length/B := by
    have hlen := congrArg List.length hmap
    simpa only [length_map, length_blockList] using hlen
  refine eq_of_blocks ?_ ha fun i hi => ?_
  · have ha' := div_add_mod a.length B
    have hb' := div_add_mod b.length B
    rw [hcount] at ha'
    omega
  · have hget := congrArg (fun l => l[i]?) hmap
    simp only [hashes_blockList, getElem?_map, getElem?_range hi,
      getElem?_range (hcount ▸ hi), Option.map_some, Option.some.injEq] at hget
    exact C.hash_inj _ _ hget

/-- Two intact files with the same data HMAC have the same data. -/
theorem Intact.data_eq (C : CollisionFree K) {g : RawFile D} {m' : MetaStorage D} {id' : String}
    (h : Intact K fileId f m) (h' : Intact K id' g m') (he : m.dataHmac = m'.dataHmac) :
    f.data = g.data := by
  rw [h.hmac_eq, h'.hmac_eq, Option.some.injEq] at he
  exact masterHmac_inj C h.aligned h'.aligned he

end Unique

end TeeOs.Ssa
