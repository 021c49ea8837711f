import TeeOs.Ssa.Content

/-!
# Position and length of a represented file

What `ssa_info`, a seek inside the file, and the two by-name updates of the
metadata do to a represented file. A crash condition is carried through every
rule; it only has to hold of the files that the calls leave behind.
-/

namespace TeeOs.Ssa

open Lib.Calls Lib.Bytes Proc Except

variable {D : Type} {bad : RawFile D → Prop} {J : Files D → Prop}
  {K : Crypto D} {X : View D} {c : List UInt8} {k : Nat} {sfd : Sfd D} {f : RawFile D}

variable {p t whence pos : Nat} {offset : Int} {w : Whence} {Q : Post D Unit}
  {fill : Nat → Nat → SsaM D Unit} {m : MetaStorage D} {e : TeeResult}

/-- `ssa_info` does not look at the size of the attributes. -/
theorem wp_ssaInfo_withAttr {Q : Post D (Nat × Nat)}
    (attrSize : Nat) (h : Legible K X c k sfd f) (hJ : J (X.files f))
    (hQ : Q (.ok (p, c.length), { sfd with
        attrSize := attrSize, seekPosition := p, size := c.length })
      (X.seek f p)) :
    wp (agent bad) J (ssaInfo { sfd with attrSize := attrSize }) Q (X.seek f p) := by
  have hpad : lastCryptBlockPaddingSize { sfd with attrSize := attrSize } =
      ((blocks cryptBlockSize c.length*cryptBlockSize - c.length : Nat) : Int) := h.padding_eq
  unfold ssaInfo
  rw [wp_get_bind, wp_seq]
  refine wp_ssaFsFinfo h.nfd_eq hJ ?_
  rw [next_ok, h.len_eq, hpad]
  dsimp only
  rw [if_neg (by omega), wp_modify_bind, wp_pure]
  have hle := le_blocks_mul cryptBlockSize_pos c.length
  rw [Nat.add_sub_cancel_left, Nat.add_sub_cancel_left, if_neg (by omega), Int.toNat_natCast, Nat.sub_sub_self hle]
  exact hQ

/-- The logical position a seek asks for, or the error it is refused with. -/
def seekTarget (attrSize : Nat) (offset : Int) (curPos fileLen : Nat) : Whence → Except TeeResult Nat
  | .set => if offset < 0 then .error .badParameters else .ok offset.toNat
  | .cur =>
    if offset < 0 then .ok (max (curPos + offset) attrSize).toNat
    else if curPos + offset > maxFileSize + attrSize then .error .overflow
    else .ok (curPos + offset).toNat
  | .fromEnd =>
    if offset > 0 ∧ fileLen + offset > maxFileSize + attrSize then .error .overflow
    else .ok (max (fileLen + offset) attrSize).toNat

theorem seekProc_error (he : seekTarget sfd.attrSize offset p c.length w = .error e) :
    seekProc w sfd offset p c.length = .error e := by
  cases w with
  | set =>
    simp only [seekTarget] at he
    by_cases hneg : offset < 0
    · rw [if_pos hneg, error.injEq] at he
      simp only [seekProc, procSeekSet, if_pos hneg, he]
    · rw [if_neg hneg] at he
      cases he
  | cur =>
    simp only [seekTarget] at he
    by_cases hneg : offset < 0
    · rw [if_pos hneg] at he
      cases he
    · rw [if_neg hneg] at he
      by_cases hbig : p + offset > maxFileSize + sfd.attrSize
      · rw [if_pos hbig, error.injEq] at he
        simp only [seekProc, procSeekCur, if_neg hneg, if_pos hbig, he]
      · rw [if_neg hbig] at he
        cases he
  | fromEnd =>
    simp only [seekTarget] at he
    by_cases hbig : offset > 0 ∧ c.length + offset > maxFileSize + sfd.attrSize
    · rw [if_pos hbig, error.injEq] at he
      simp only [seekProc, procSeekEnd, if_pos hbig, he]
    · rw [if_neg hbig] at he
      cases he

theorem seekProc_caches (a b : Nat) :
    seekProc w (sfd.cached a b) offset p k = seekProc w sfd offset p k := by
  cases w <;> rfl

theorem seekTarget_set (attrSize off p len : Nat) :
    seekTarget attrSize off p len .set = .ok off := by
  simp only [seekTarget]
  rw [if_neg (by omega), Int.toNat_natCast]

section

variable (h : Legible K X c k sfd f)
include h

/-- The raw offset `ssa_seek` computes leads to the target. -/
theorem seekProc_ok (ht : seekTarget sfd.attrSize offset p c.length w = .ok t) :
    ∃ o, seekProc w sfd offset p c.length = .ok o ∧
      Fs.seekBase w (sfsMetadataSize + p) f.len + o = ((sfsMetadataSize + t : Nat) : Int) := by
  have hlen := h.len_eq
  have hpad := h.padding_eq
  have hle := le_blocks_mul cryptBlockSize_pos c.length
  cases w with
  | set =>
    simp only [seekTarget] at ht
    by_cases hneg : offset < 0
    · rw [if_pos hneg] at ht
      cases ht
    · rw [if_neg hneg, ok.injEq] at ht
      refine ⟨offset + sfsMetadataSize, ?_, ?_⟩
      · simp only [seekProc, procSeekSet, if_neg hneg]
      · simp only [Fs.seekBase]
        omega
  | cur =>
    simp only [seekTarget] at ht
    by_cases hneg : offset < 0
    · rw [if_pos hneg, ok.injEq] at ht
      by_cases hattr : offset + p < sfd.attrSize
      · refine ⟨(sfd.attrSize : Int) - p, ?_, ?_⟩
        · simp only [seekProc, procSeekCur, if_pos hneg, if_pos hattr]
        · simp only [Fs.seekBase]
          omega
      · refine ⟨offset, ?_, ?_⟩
        · simp only [seekProc, procSeekCur, if_pos hneg, if_neg hattr]
        · simp only [Fs.seekBase]
          omega
    · rw [if_neg hneg] at ht
      by_cases hbig : p + offset > maxFileSize + sfd.attrSize
      · rw [if_pos hbig] at ht
        cases ht
      · rw [if_neg hbig, ok.injEq] at ht
        refine ⟨offset, ?_, ?_⟩
        · simp only [seekProc, procSeekCur, if_neg hneg, if_neg hbig]
        · simp only [Fs.seekBase]
          omega
  | fromEnd =>
    simp only [seekTarget] at ht
    by_cases hbig : offset > 0 ∧ c.length + offset > maxFileSize + sfd.attrSize
    · rw [if_pos hbig] at ht
      cases ht
    · rw [if_neg hbig, ok.injEq] at ht
      have hno : ¬ (lastCryptBlockPaddingSize sfd < 0) := by rw [hpad]; omega
      by_cases hattr : offset + c.length < sfd.attrSize
      · refine ⟨(sfd.attrSize : Int) - c.length - lastCryptBlockPaddingSize sfd, ?_, ?_⟩
        · simp only [seekProc, procSeekEnd, if_neg hbig, if_pos hattr, if_neg hno]
        · simp only [Fs.seekBase]
          omega
      · refine ⟨offset - lastCryptBlockPaddingSize sfd, ?_, ?_⟩
        · simp only [seekProc, procSeekEnd, if_neg hbig, if_neg hattr, if_neg hno]
        · simp only [Fs.seekBase]
          omega

variable (hJ : J (X.files f))
include hJ

theorem wp_ssaInfo {Q : Post D (Nat × Nat)}
    (hQ : Q (.ok (p, c.length), sfd.cached p c.length) (X.seek f p)) :
    wp (agent bad) J (ssaInfo sfd) Q (X.seek f p) :=
  wp_ssaInfo_withAttr sfd.attrSize h hJ hQ

/-- A seek that is not refused moves to its target; what is left is to fill the hole there. -/
theorem wp_ssaSeekWith_ok (hw : whenceOf whence = some w)
    (ht : seekTarget sfd.attrSize offset p c.length w = .ok t)
    (hQ : wp (agent bad) J (Proc.when (t > c.length) (fill c.length (t - c.length))
        (sfd.cached t c.length)) Q (X.seek f t)) :
    wp (agent bad) J (ssaSeekWith fill offset whence sfd) Q (X.seek f p) := by
  obtain ⟨o, ho, hq⟩ := seekProc_ok h ht
  unfold ssaSeekWith
  rw [wp_seq]
  refine wp_ssaInfo h hJ ?_
  rw [next_ok]
  simp only [hw]
  rw [wp_get_bind, seekProc_caches, ho, wp_seq, wp_ofExcept_ok, next_ok, wp_seq]
  refine wp_ssaFsFseek h.nfd_eq hJ hq ?_
  rw [next_ok, wp_seq]
  refine wp_ssaInfo (h.caches _ _ _ _ _) hJ ?_
  exact hQ

/-- A refused seek leaves everything but the caches as it was. -/
theorem wp_ssaSeekWith_error (hw : whenceOf whence = some w)
    (he : seekTarget sfd.attrSize offset p c.length w = .error e)
    (hQ : Q (.error e, sfd.cached p c.length) (X.seek f p)) :
    wp (agent bad) J (ssaSeekWith fill offset whence sfd) Q (X.seek f p) := by
  unfold ssaSeekWith
  rw [wp_seq]
  refine wp_ssaInfo h hJ ?_
  rw [next_ok]
  simp only [hw]
  rw [wp_get_bind, seekProc_caches, seekProc_error he, wp_seq, wp_ofExcept_error, next_error]
  exact hQ

theorem wp_ssaSeekWith_badState (hw : whenceOf whence = none)
    (hQ : Q (.error .badState, sfd.cached p c.length) (X.seek f p)) :
    wp (agent bad) J (ssaSeekWith fill offset whence sfd) Q (X.seek f p) := by
  unfold ssaSeekWith
  rw [wp_seq]
  refine wp_ssaInfo h hJ ?_
  simp only [hw]
  exact hQ

/-- A seek to an offset inside the file reaches it and fills no hole. -/
theorem wp_ssaSeekWith_set {off : Nat} (hoff : off ≤ c.length)
    (hQ : Q (.ok (), sfd.cached off c.length) (X.seek f off)) :
    wp (agent bad) J (ssaSeekWith fill off 0 sfd) Q (X.seek f p) := by
  refine wp_ssaSeekWith_ok h hJ rfl (seekTarget_set _ _ _ _) ?_
  rw [when_neg (by omega), wp_pure]
  exact hQ

end

variable (hn : sfd.metaData.curEncryptedFileId = X.name) (hm : f.header = some m)
  (hJ : J (X.files f))
include hn hm hJ

/-- Writing the data HMAC by name changes that field and leaves the descriptor where it was. -/
theorem wp_putDataHmac {hmac : Option D} {failed : TeeResult}
    (hJ' : J (X.files { f with header := some { m with dataHmac := hmac } }))
    (hQ : Q (.ok (), sfd) (X.state { f with header := some { m with dataHmac := hmac } } pos)) :
    wp (agent bad) J (putDataHmac hmac failed sfd) Q (X.state f pos) := by
  unfold putDataHmac
  rw [wp_get_bind, wp_seq]
  refine wp_ssaFsFopen hn (by decide) hJ ?_
  rw [next_ok, wp_attempt_bind, wp_seq]
  refine wp_ssaFsFseek rfl (q := sfsDatahmacOffset) (by rwa [View.reopen_files]) (by simp only [Fs.seekBase]; omega) ?_
  refine wp_ssaFsFwriteDataHmac rfl rfl hm (by rwa [View.reopen_files]) ?_
  rw [wp_seq]
  refine wp_ignore (wp_ssaFsFclose_reopen hJ' ?_)
  exact hQ

theorem wp_setLastCryptBlockRealsize {len : Nat}
    (hJ' : J (X.files { f with header := some (sealHeader K sfd.metaData.fileId len m) }))
    (hQ : Q (.ok (), sfd)
      (X.state { f with header := some (sealHeader K sfd.metaData.fileId len m) } pos)) :
    wp (agent bad) J (setLastCryptBlockRealsize K len sfd) Q (X.state f pos) := by
  unfold setLastCryptBlockRealsize
  rw [wp_get_bind, wp_seq]
  refine wp_ssaFsFopen hn (by decide) hJ ?_
  rw [next_ok, wp_attempt_bind]
  unfold setLastBlocksizeToMetaHdr
  rw [wp_get_bind, wp_seq]
  refine wp_ssaFsFreadMeta rfl (by rwa [View.reopen_files]) (by simp [hm]) ?_
  rw [next_ok]
  simp only [hm]
  rw [wp_seq]
  refine wp_ssaFsFseek rfl (q := 0) (by rwa [View.reopen_files]) (by simp only [Fs.seekBase]; omega) ?_
  refine wp_ssaFsFwriteMeta rfl rfl (by rwa [View.reopen_files]) ?_
  rw [wp_seq]
  refine wp_ignore (wp_ssaFsFclose_reopen hJ' ?_)
  exact hQ

end TeeOs.Ssa
