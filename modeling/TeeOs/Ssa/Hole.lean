import TeeOs.Ssa.Write

/-!
# Filling a hole

`fill_file_hole` appends zeros in chunks, each one a write of its own. The
descriptor is left with the position of the last chunk in `seek_position`,
although the file itself stands behind it.
-/

namespace TeeOs.Ssa

open Lib.Calls Lib.Bytes List

variable {D : Type} {bad : RawFile D → Prop}
  {J : Files D → Prop} {K : Crypto D} {X : View D} {c : List UInt8}
  {sfd : Sfd D} {f : RawFile D}

/-- `sfd'` is the same handle as `sfd`, with changes that no HMAC covers yet. -/
structure Dirtied (sfd sfd' : Sfd D) : Prop where
  flags_eq : sfd'.flags = sfd.flags
  attr_eq : sfd'.attrSize = sfd.attrSize
  meta_eq : sfd'.metaData = sfd.metaData
  no_backup : sfd'.updateBackup = false
  need_hmac : sfd'.needUpdateHmac = true

theorem dirtied_afterWrite (sfd : Sfd D) (c : List UInt8) (p : Nat) (d : List UInt8) (sid : Nat)
    (l : List (BlockInfo D)) : Dirtied sfd (afterWrite sfd c p d sid l) := ⟨rfl, rfl, rfl, rfl, rfl⟩

theorem Dirtied.trans {sfd sfd' sfd'' : Sfd D} (h : Dirtied sfd sfd') (h' : Dirtied sfd' sfd'') :
    Dirtied sfd sfd'' :=
  ⟨h'.flags_eq.trans h.flags_eq, h'.attr_eq.trans h.attr_eq, h'.meta_eq.trans h.meta_eq,
    h'.no_backup, h'.need_hmac⟩

/-- The file was grown with zeros to `t` bytes; `seekPosition` is the start of the last chunk. -/
structure Grown (K : Crypto D) (X : View D) (c : List UInt8) (t : Nat) (sfd : Sfd D)
    (f : RawFile D) (sfd' : Sfd D) (data : List UInt8) : Prop where
  rep : Rep K X (resize c t) sfd' { clearMac f with data := data }
  dirtied : Dirtied sfd sfd'
  seek_eq : sfd'.seekPosition = c.length + (t - c.length - 1)/holePerSize*holePerSize
  size_eq : sfd'.size = t
  length_eq : sfd'.firstBlock.length = max sfd.firstBlock.length (blocks cryptBlockSize t)

theorem clearMac_clearMac (f : RawFile D) (a b : List UInt8) :
    { clearMac { clearMac f with data := a } with data := b } =
      ({ clearMac f with data := b } : RawFile D) := by
  unfold clearMac
  simp only [Option.map_map]
  rfl

theorem Unsealing.again (h : Unsealing J X f) (data : List UInt8) :
    Unsealing J X (f.unsealed data) := by
  intro data'
  show J (X.files { clearMac { clearMac f with data := data } with data := data' })
  rw [clearMac_clearMac]
  exact h data'

variable {size i a k : Nat} {fill : Nat → Nat → SsaM D Unit}

theorem sendCount_eq (h : holePerSize*i < size) :
    (if holePerSize*(i+1) > size then size % holePerSize else holePerSize) =
      min size (holePerSize*(i+1)) - holePerSize*i := by
  by_cases hi : holePerSize*(i+1) > size
  · rw [if_pos hi]
    simp only [holePerSize] at *
    omega
  · rw [if_neg hi]
    simp only [holePerSize] at *
    omega

theorem resize_grow (c : List UInt8) (ha : c.length ≤ a) :
    overlay (resize c a) a (replicate k 0) = resize c (a+k) := by
  have h := overlay_zeros (resize c a) k
  rw [length_resize] at h
  rw [h]
  refine ext_cell (by simp) fun i hi => ?_
  rw [length_resize] at hi
  rw [cell_resize, cell_resize, cell_resize, if_pos hi, if_pos hi]
  by_cases hia : i < a
  · rw [if_pos hia]
  · rw [if_neg hia, cell_of_le (by omega)]

theorem Grown.of_write {fill : List UInt8} {t sid : Nat} {l : List (BlockInfo D)}
    {data : List UInt8} (ha : c.length ≤ a) (ht : a + fill.length = t)
    (hz : fill = replicate (t - a) 0)
    (hseek : a = c.length + (t - c.length - 1)/holePerSize*holePerSize)
    (hl : l.length = max sfd.firstBlock.length (blocks cryptBlockSize (a + fill.length)))
    (h : Rep K X (overlay (resize c a) a fill) (afterWrite sfd (resize c a) a fill sid l)
      (f.unsealed data)) :
    Grown K X c t sfd f (afterWrite sfd (resize c a) a fill sid l) data := by
  have hlen : (afterWrite sfd (resize c a) a fill sid l).size = t := by
    simp only [afterWrite, length_resize]
    exact ht
  rw [ht] at hl
  refine ⟨?_, dirtied_afterWrite _ _ _ _ _ _, hseek, hlen, hl⟩
  rw [hz, resize_grow c ha, ← hz, show a + (t - a) = t by omega] at h
  exact h

variable [DecidableEq D]

/-- One chunk of `k` zeros behind the file. -/
theorem wp_zeroChunk {Q : Post D Nat} (hw : X.writable = true) (hk : 0 < k)
    (h : Rep K X (resize c a) sfd f) (hlt : a + k < 4294967296)
    (hJ : J (X.files f)) (hJ' : Unsealing J X f)
    (hbig : maxFileSize + sfd.attrSize < a + k →
      ∀ sfd' g q, Q (.error .overflow, sfd') (X.state g q))
    (hQ : a + k ≤ maxFileSize + sfd.attrSize → ∀ sid l data, l.length = max sfd.firstBlock.length
        (blocks cryptBlockSize (a + (replicate k (0 : UInt8)).length)) →
      Rep K X (overlay (resize c a) a (replicate k 0))
        (afterWrite sfd (resize c a) a (replicate k 0) sid l)
        (f.unsealed data) →
      Q (.ok k, afterWrite sfd (resize c a) a (replicate k 0) sid l)
        (X.seek (f.unsealed data) ((a + k)))) :
    wp (agent bad) J (ssaWriteWith K fill (replicate k 0) sfd) Q (X.seek f a) := by
  have hne : replicate k (0 : UInt8) ≠ [] := by
    rw [Ne, replicate_eq_nil_iff]
    omega
  have hlen : (replicate k (0 : UInt8)).length = k := length_replicate
  cases Nat.lt_or_ge (maxFileSize + sfd.attrSize) (a + k) with
  | inl hfit =>
    exact wp_ssaWriteWith_overflow h hne (by omega) (by omega) hJ (hbig hfit _ _ _)
  | inr hfit =>
    refine wp_ssaWriteWith h (by rw [length_resize]) hne (by omega) hJ hw hJ' ?_
    intro sid l data hl hrep
    have hq := hQ hfit sid l data hl hrep
    rw [hlen]
    exact hq

/-- The remaining chunks, from chunk `i` on. -/
theorem wp_fillHoleLoop {Q : Post D Unit} {n : Nat} (hw : X.writable = true)
    (hn : i + (n+1) = (size + holePerSize - 1)/holePerSize)
    (h : Rep K X (resize c (c.length + holePerSize*i)) sfd f)
    (hlen : c.length + size < 4294967296)
    (hJ : J (X.files f)) (hJ' : Unsealing J X f)
    (hbig : maxFileSize + sfd.attrSize < c.length + size →
      ∀ sfd' g q, Q (.error .overflow, sfd') (X.state g q))
    (hQ : c.length + size ≤ maxFileSize + sfd.attrSize → ∀ sfd' data,
      Grown K X c (c.length + size) sfd f sfd' data →
      Q (.ok (), sfd') (X.seek { clearMac f with data := data } ((c.length + size)))) :
    wp (agent bad) J (fillHoleLoop (ssaWriteWith K fill) size (n+1) i sfd) Q
      (X.seek f ((c.length + holePerSize*i))) := by
  have hi : holePerSize*i < size := by
    simp only [holePerSize] at *
    omega
  unfold fillHoleLoop
  rw [sendCount_eq hi, Proc.wp_seq]
  generalize hk : min size (holePerSize*(i+1)) - holePerSize*i = k
  induction n generalizing i sfd f k with
  | zero =>
    have hmin : k = size - holePerSize*i := by
      simp only [holePerSize] at *
      omega
    have htot : c.length + holePerSize*i + k = c.length + size := by omega
    refine wp_zeroChunk hw (by omega) h (by omega) hJ hJ' (fun hb => hbig (by omega)) ?_
    intro hfit sid l data hl hrep
    rw [Proc.next_ok, if_neg (by simp)]
    unfold fillHoleLoop
    rw [Proc.wp_pure, htot]
    refine hQ (by omega) _ data (Grown.of_write (by omega) ?_ ?_ ?_ hl hrep)
    · rw [length_replicate]
      exact htot
    · congr 1
      omega
    · simp only [holePerSize] at *
      omega
  | succ n ih =>
    have hi' : holePerSize*(i+1) < size := by
      simp only [holePerSize] at *
      omega
    have hstep : c.length + holePerSize*i + k = c.length + holePerSize*(i+1) := by
      simp only [holePerSize] at *
      omega
    have hpos : 0 < k := by
      simp only [holePerSize] at *
      omega
    refine wp_zeroChunk hw hpos h (by omega) hJ hJ' (fun hb => hbig (by omega)) ?_
    intro hfit sid l data hl hrep
    rw [resize_grow c (by omega), hstep] at hrep
    rw [length_replicate, hstep] at hl
    rw [Proc.next_ok, if_neg (by simp), hstep]
    unfold fillHoleLoop
    rw [sendCount_eq hi', Proc.wp_seq]
    generalize hk' : min size (holePerSize*(i+1+1)) - holePerSize*(i+1) = k'
    refine ih (by omega) hrep (hJ' data) (hJ'.again data) hbig (fun hle sfd' data' hg => ?_) hi' k' hk'
    rw [clearMac_clearMac]
    refine hQ hle sfd' data' ⟨?_, ?_, hg.seek_eq, hg.size_eq, ?_⟩
    · have := hg.rep
      rwa [clearMac_clearMac] at this
    · exact (dirtied_afterWrite _ _ _ _ _ _).trans hg.dirtied
    · have hlen' := hg.length_eq
      have hmono : blocks cryptBlockSize (c.length + holePerSize*(i+1)) ≤
          blocks cryptBlockSize (c.length + size) := by
        simp only [blocks, cryptBlockSize]
        omega
      simp only [afterWrite] at hlen'
      omega

end TeeOs.Ssa
