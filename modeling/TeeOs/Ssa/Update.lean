import TeeOs.Ssa.Seal

/-!
# Updates of an open file

One rule for each of write, seek, truncate and read, on a descriptor whose list
has one entry for each block. An update leaves such a descriptor again, with a
file whose stored HMAC is the old one or none; `updateMac`, which every message
handler runs behind its update, then seals it.
-/

namespace TeeOs.Ssa

open Lib.Calls Lib.Bytes Proc Nat
open TeeOs.Ssa renaming cryptBlockSize → B

variable {D : Type}

/-- The descriptor and the file after an update that no HMAC covers yet. -/
structure Updated (K : Crypto D) (X : View D) (c : List UInt8) (sfd : Sfd D) (f : RawFile D)
    (sfd' : Sfd D) (f' : RawFile D) : Prop where
  kept : Kept K X c sfd' f'
  flags_eq : sfd'.flags = sfd.flags
  attr_eq : sfd'.attrSize = sfd.attrSize
  meta_eq : sfd'.metaData = sfd.metaData
  need_hmac : sfd'.needUpdateHmac = true
  header_eq : f'.header = f.header ∨ f'.header = (clearMac f).header

/-- What every message handler does after an update. -/
def updateMac (K : Crypto D) : SsaM D Unit := do
  let sfd ← Proc.get
  Proc.when (sfd.needUpdateHmac = true) (do
    Proc.modify fun sfd => { sfd with needUpdateHmac := false }
    ssaWriteMac K)

/-- The position a seek asks for, or the error it is refused with. -/
def seekGoal (attrSize : Nat) (offset : Int) (curPos fileLen whence : Nat) : Except TeeResult Nat :=
  match whenceOf whence with
  | none => .error .badState
  | some w => seekTarget attrSize offset curPos fileLen w

/-- The content after a truncation to `len`, with the position at `p`. -/
def cutTo (c : List UInt8) (len p : Nat) : List UInt8 := resize (resize c len) (max len p)

theorem length_cutTo (c : List UInt8) (len p : Nat) : (cutTo c len p).length = max len p :=
  length_resize _ _

/-- Where a read of `n` bytes at `p` leaves the file position. -/
def readStop (len p n : Nat) : Nat :=
  if p < len then min (p + n) len else len/cryptBlockSize*cryptBlockSize

/-- What it leaves in `seek_position`: a read that ends with a block does not seek again. -/
def readMark (len p n : Nat) : Nat :=
  if p < len ∧ readStop len p n % cryptBlockSize = 0 then p/cryptBlockSize*cryptBlockSize
  else readStop len p n

variable {bad : RawFile D → Prop} {J : Files D → Prop} {K : Crypto D} {X : View D} {c : List UInt8}
  {sfd : Sfd D} {f : RawFile D} {p t : Nat}

section Mac

variable {Q : Post D Unit}

theorem wp_updateMac_skip {s : Fs D} (hm : sfd.needUpdateHmac = false) (hQ : Q (.ok (), sfd) s) :
    wp (agent bad) J (updateMac K sfd) Q s := by
  unfold updateMac
  rw [wp_get_bind, when_neg (by rw [hm]; exact Bool.false_ne_true)]
  exact hQ

theorem wp_updateMac {pos : Nat}
    (h : Kept K X c sfd f) (hm : sfd.needUpdateHmac = true) (hJ : J (X.files f))
    (hmac : J (X.files (macFile K sfd.firstBlock f))) (hseal : J (X.files (sealFile K sfd f)))
    (hQ : Q (.ok (), { sfd with needUpdateHmac := false, updateBackup := true })
      (X.state (sealFile K sfd f) pos)) :
    wp (agent bad) J (updateMac K sfd) Q (X.state f pos) := by
  have hne : sfd.firstBlock ≠ [] := h.hashed.nonempty
  unfold updateMac
  rw [wp_get_bind, when_pos hm, wp_modify_bind]
  exact wp_ssaWriteMac h.name_eq h.hashed.ids hne h.header hJ hmac hseal hQ

/-- The HMAC of a torn file is written too, if it is due. -/
theorem wp_updateMac_torn {len pos : Nat} (h : Torn X len sfd f)
    (hQ : ∀ sfd' f', Torn X len sfd' f' → Q (.ok (), sfd') (X.state f' pos)) :
    wp (agent bad) anyFiles (updateMac K sfd) Q (X.state f pos) := by
  cases hm : sfd.needUpdateHmac with
  | false => exact wp_updateMac_skip hm (hQ sfd f h)
  | true =>
    unfold updateMac
    rw [wp_get_bind, when_pos hm, wp_modify_bind]
    refine wp_ssaWriteMac h.name_eq h.ids h.nonempty h.header trivial trivial trivial ?_
    refine hQ _ _ { h with header := ?_ }
    unfold sealFile macFile
    rw [Option.isSome_map, Option.isSome_map]
    exact h.header

end Mac

section Kept

theorem blocks_max (m n : Nat) : blocks B (max m n) = max (blocks B m) (blocks B n) := by
  rcases le_total m n with h | h
  · rw [max_eq_right h, max_eq_right (blocks_mono h)]
  · rw [max_eq_left h, max_eq_left (blocks_mono h)]

variable {sfd' : Sfd D} {data : List UInt8} {f' : RawFile D}

theorem Grown.kept (h : Kept K X c sfd f) (ht : c.length ≤ t) (hg : Grown K X c t sfd f sfd' data) :
    Kept K X (resize c t) sfd' (f.unsealed data) := by
  refine ⟨hg.rep, ?_⟩
  have hb : blocks B c.length ≤ blocks B t := blocks_mono ht
  rw [hg.length_eq, h.list_eq, length_resize]
  omega

theorem Grown.updated (h : Kept K X c sfd f) (ht : c.length ≤ t)
    (hg : Grown K X c t sfd f sfd' data) : Updated K X (resize c t) sfd f sfd' (f.unsealed data) :=
  ⟨hg.kept h ht, hg.dirtied.flags_eq, hg.dirtied.attr_eq, hg.dirtied.meta_eq, hg.dirtied.need_hmac,
    .inr rfl⟩

theorem Updated.caches {c' : List UInt8} (h : Updated K X c' sfd f sfd' f')
    (seekPosition size : Nat) :
    Updated K X c' sfd f (sfd'.cached seekPosition size) f' :=
  { h with kept := h.kept.caches _ _ _ _ _ }

theorem Truncated.updated {len : Nat} (h : Truncated K X c len sfd f sfd' f') :
    Updated K X (resize c len) sfd f sfd' f' := by
  refine { h with header_eq := ?_ }
  rcases h.file_eq with ⟨-, hf⟩ | hf
  · exact .inl (by rw [hf])
  · exact .inr (by rw [hf])

end Kept

section Rules

variable [DecidableEq D]

theorem wp_ssaWrite_kept {Q : Post D Nat} {d : List UInt8}
    (h : Kept K X c sfd f) (hw : X.writable = true) (hp : p ≤ c.length) (hd : d ≠ [])
    (hmax : p + d.length ≤ maxFileSize + sfd.attrSize) (hJ : J (X.files f))
    (hJ' : Unsealing J X f)
    (hQ : ∀ sfd' f', Updated K X (overlay c p d) sfd f sfd' f' → sfd'.seekPosition = p →
      sfd'.size = c.length + d.length →
      Q (.ok d.length, sfd') (X.seek f' ((p + d.length)))) :
    wp (agent bad) J (ssaWrite K d sfd) Q (X.seek f p) := by
  refine wp_ssaWriteWith h.toRep hp hd hmax hJ hw hJ' fun sid l data hl hrep => ?_
  refine hQ _ _ ⟨⟨hrep, ?_⟩, rfl, rfl, rfl, rfl, .inr rfl⟩ rfl rfl
  rw [length_overlay, blocks_max]
  change l.length = _
  rw [hl, h.list_eq, max_assoc]

variable {Q : Post D Unit} {offset : Int} {whence : Nat}

/-- A seek whose goal is inside the limit. -/
theorem wp_ssaSeek_kept (h : Kept K X c sfd f)
    (hlim : ∀ t, seekGoal sfd.attrSize offset p c.length whence = .ok t →
      t ≤ maxFileSize + sfd.attrSize)
    (hw : ∀ t, seekGoal sfd.attrSize offset p c.length whence = .ok t → c.length < t →
      X.writable = true) (hJ : J (X.files f)) (hJ' : Unsealing J X f)
    (hE : ∀ e, seekGoal sfd.attrSize offset p c.length whence = .error e →
      Q (.error e, sfd.cached p c.length) (X.seek f p))
    (hin : ∀ t, seekGoal sfd.attrSize offset p c.length whence = .ok t → t ≤ c.length →
      Q (.ok (), sfd.cached t c.length) (X.seek f t))
    (hhole : ∀ t, seekGoal sfd.attrSize offset p c.length whence = .ok t → c.length < t →
      ∀ sfd' f', Updated K X (resize c t) sfd f sfd' f' →
      sfd'.seekPosition = c.length + (t - c.length - 1)/holePerSize*holePerSize → sfd'.size = t →
      Q (.ok (), sfd') (X.seek f' t)) :
    wp (agent bad) J (ssaSeek K offset whence sfd) Q (X.seek f p) := by
  have hattr := h.attr_le
  unfold seekGoal at hlim hw hE hin hhole
  cases hwh : whenceOf whence with
  | none =>
    rw [hwh] at hE
    exact wp_ssaSeekWith_badState h.legible hJ hwh (hE _ rfl)
  | some w =>
    rw [hwh] at hlim hw hE hin hhole
    cases ht : seekTarget sfd.attrSize offset p c.length w with
    | error e => exact wp_ssaSeekWith_error h.legible hJ hwh ht (hE e ht)
    | ok t =>
      have hle := hlim t ht
      rcases lt_or_ge c.length t with hgt | hge
      · refine wp_ssaSeek_hole h.toRep hJ hwh ht (hw t ht hgt) hgt ?_ hJ' (fun hbig => ?_) ?_
        · simp only [maxFileSize] at *
          omega
        · omega
        · intro _ sfd' data hg
          exact hhole t ht hgt sfd' _ (hg.updated h hgt.le) hg.seek_eq hg.size_eq
      · exact wp_ssaSeek_inside h.toRep hJ hwh ht hge (hin t ht hge)

/-- A seek past the end of a file that cannot be written is refused. -/
theorem wp_ssaSeek_readonly (h : Kept K X c sfd f) (hw : X.writable = false)
    (hgoal : seekGoal sfd.attrSize offset p c.length whence = .ok t) (ht : c.length < t)
    (hJ : J (X.files f)) (hJ' : J (X.files (f.unsealed f.data))) (hE : Fails X Q) :
    wp (agent bad) J (ssaSeek K offset whence sfd) Q (X.seek f p) := by
  unfold seekGoal at hgoal
  cases hwh : whenceOf whence with
  | none =>
    rw [hwh] at hgoal
    cases hgoal
  | some w =>
    rw [hwh] at hgoal
    refine wp_ssaSeekWith_ok h.legible hJ hwh hgoal ?_
    rw [when_pos (by omega)]
    exact wp_fillFileHole_readonly (h.caches _ _ _ _ _).toRep hJ hw (by omega) hJ'
      fun e sfd' g q _ => hE e sfd' g q

theorem wp_ssaTruncate_kept {len : Nat}
    (h : Kept K X c sfd f) (hp : p ≤ c.length) (hlt : len < 4294967296)
    (hJ : ∀ data, J (X.files { f with data := data }))
    (hJ' : Unsealing J X f)
    (hE : len ≠ c.length → (X.writable = false ∧ ¬ (len < c.length ∧ len % B = 0 ∧ p ≤ len) ∨
      maxFileSize + sfd.attrSize < len ∨ (len < p ∧ maxFileSize + sfd.attrSize < p)) →
      ∀ e sfd' g q, (X.writable = false → p ≤ maxFileSize + sfd.attrSize → Torn X len sfd' g) →
        Q (.error e, sfd') (X.state g q))
    (hsame : len = c.length → Q (.ok (), sfd.cached p c.length)
      (X.seek f p))
    (hQ : len ≠ c.length → (X.writable = true ∨ len < c.length ∧ len % B = 0 ∧ p ≤ len) →
      ∀ sfd' f', Updated K X (cutTo c len p) sfd f sfd' f' →
      sfd'.seekPosition = p → sfd'.size = len →
      Q (.ok (), sfd') (X.seek f' p)) :
    wp (agent bad) J (ssaTruncate K len sfd) Q (X.seek f p) := by
  refine wp_ssaTruncate h hlt (hJ f.data) (fun n _ => hJ _) hJ' hp hE hsame ?_ ?_
  · intro hne hin hmay sfd' f' ht
    have hcut : cutTo c len p = resize c len := by
      unfold cutTo
      rw [max_eq_left hin]
      exact resize_of_length (length_resize _ _)
    refine hQ hne hmay _ _ ?_ rfl rfl
    rw [hcut]
    exact ht.updated.caches p len
  · intro hlp hw sfd' f' sfd'' data ht hg
    have hlen' : (resize c len).length ≤ p := by
      rw [length_resize]
      omega
    have hcut : cutTo c len p = resize (resize c len) p := by
      unfold cutTo
      rw [max_eq_right hlp.le]
    have hu := (hg.updated ht.kept hlen').caches p len
    rw [ht.clear_eq] at hu
    refine hQ (by omega) (.inl hw) _ _ ?_ rfl rfl
    rw [hcut]
    exact ⟨hu.kept, hu.flags_eq.trans ht.flags_eq, hu.attr_eq.trans ht.attr_eq,
      hu.meta_eq.trans ht.meta_eq, hu.need_hmac, .inr rfl⟩

/-- A read whose end does not wrap; without bytes to read it is refused inside a block. -/
theorem wp_ssaRead_any {Q : Post D (List UInt8)} {n : Nat}
    (h : Rep K X c sfd f) (hp : p ≤ c.length) (hb : p + n < 4294967296) (hJ : J (X.files f))
    (hE : n = 0 → ∀ sid, Q (.error .security, sfd.standing sid p c.length)
      (X.seek f p))
    (hQ : ∀ sid, Q (.ok ((c.drop p).take n),
        sfd.standing sid (readMark c.length p n) c.length)
      (X.seek f (readStop c.length p n))) :
    wp (agent bad) J (ssaRead K n sfd) Q (X.seek f p) := by
  rcases lt_or_ge p c.length with hlt | hge
  · have hstop : readStop c.length p n = min (p + n) c.length := if_pos hlt
    rcases Nat.eq_zero_or_pos n with rfl | hn
    · by_cases hmod : p % B = 0
      · have hdown : p/B*B = p :=
          Nat.div_mul_cancel (Nat.dvd_of_mod_eq_zero hmod)
        have hmark : readMark c.length p 0 = p := by
          unfold readMark
          rw [hstop, add_zero, min_eq_left hp, if_pos ⟨hlt, hmod⟩, hdown]
        have hq := hQ sfd.startBlockId
        rw [hmark, hstop, add_zero, min_eq_left hp] at hq
        rw [← hdown] at hq ⊢
        exact wp_ssaRead_zero h.legible hJ (by omega) hq
      · exact wp_ssaRead_nothing h hlt hmod hJ (hE rfl _)
    · refine wp_ssaRead h.legible hJ hlt hn hb (blocks_mono (min_le_right _ _)) fun sid => ?_
      have hmark : readMark c.length p n = if min (p + n) c.length % B ≠ 0 then min (p + n) c.length
          else p/B*B := by
        unfold readMark
        rw [hstop]
        by_cases hmod : min (p + n) c.length % B = 0
        · rw [if_pos ⟨hlt, hmod⟩, if_neg (by omega)]
        · rw [if_neg (fun hc => hmod hc.2), if_pos hmod]
      have hq := hQ sid
      rw [hmark, hstop] at hq
      exact hq
  · have heq : p = c.length := by omega
    subst heq
    have hstop : readStop c.length c.length n = c.length/B*B :=
      if_neg (lt_irrefl _)
    have hmark : readMark c.length c.length n = c.length/B*B := by
      unfold readMark
      rw [if_neg (fun hc => absurd hc.1 (lt_irrefl _)), hstop]
    have hq := hQ sfd.startBlockId
    rw [hmark, hstop, List.drop_length, List.take_nil] at hq
    exact wp_ssaRead_end h.legible hJ hq

theorem readStop_le {n : Nat} : readStop c.length p n ≤ c.length := by
  unfold readStop
  split
  · exact min_le_right _ _
  · exact div_mul_le_self _ _

end Rules

end TeeOs.Ssa
