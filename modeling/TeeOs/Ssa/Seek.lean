import TeeOs.Ssa.Hole

/-!
# Seeking past the end

`fill_file_hole` from the end of the file, and with it every seek: inside the
file it only moves; past the end it grows the file with zeros up to the target,
or fails when the limit or a read-only descriptor is in the way. The nesting
count of the hole filler is never used up.
-/

namespace TeeOs.Ssa

open Lib.Calls Lib.Bytes Proc

variable {D : Type} [DecidableEq D] {bad : RawFile D → Prop}
  {J : Files D → Prop} {K : Crypto D} {X : View D} {c : List UInt8}
  {sfd : Sfd D} {f : RawFile D} {p t : Nat}

theorem holeTimes_eq {size : Nat} (h : 0 < size) :
    ∃ n, size / holePerSize + (if size % holePerSize ≠ 0 then 1 else 0) = n+1 ∧
      0 + (n+1) = (size + holePerSize - 1)/holePerSize := by
  refine ⟨(size - 1)/holePerSize, ?_, ?_⟩
  · by_cases hm : size % holePerSize ≠ 0
    · rw [if_pos hm]
      simp only [holePerSize] at *
      omega
    · rw [if_neg hm]
      simp only [holePerSize] at *
      omega
  · simp only [holePerSize] at *
    omega

omit [DecidableEq D] in
theorem Rep.length_int32 (h : Rep K X c sfd f) : ¬ c.length > int32Max := by
  have := h.length_le
  simp only [int32Max, maxFileSize] at *
  omega

omit [DecidableEq D] in
/-- The caches of the handle before the change do not matter. -/
theorem Grown.of_caches {a b : Nat} {sfd' : Sfd D} {data : List UInt8}
    (h : Grown K X c t (sfd.cached a b) f sfd' data) :
    Grown K X c t sfd f sfd' data :=
  { h with dirtied := { h.dirtied with } }

variable {Q : Post D Unit} {depth whence : Nat} {offset : Int} {w : Whence}

/-- The logical position after a seek fits the types of the code. -/
theorem seekTarget_lt {attrSize fileLen : Nat} (ht : seekTarget attrSize offset p fileLen w = .ok t)
    (hoff : offset ≤ int32Max) (hattr : attrSize ≤ maxFileSize) (hlen : fileLen ≤ 2*maxFileSize)
    (hp : p ≤ fileLen) : t < 4294967296 := by
  cases w with
  | set =>
    simp only [seekTarget] at ht
    split at ht
    · cases ht
    · cases ht
      simp only [int32Max] at hoff
      omega
  | cur =>
    simp only [seekTarget] at ht
    split at ht
    · cases ht
      simp only [maxFileSize] at *
      omega
    · split at ht
      · cases ht
      · cases ht
        simp only [maxFileSize] at *
        omega
  | fromEnd =>
    simp only [seekTarget] at ht
    split at ht
    · cases ht
    · cases ht
      simp only [maxFileSize] at *
      omega

variable (h : Rep K X c sfd f)
include h

variable (hJ : J (X.files f))
include hJ

theorem wp_fillFileHole (hw : X.writable = true) (ht : c.length < t) (hlt : t < 4294967296)
    (hJ' : Unsealing J X f)
    (hbig : maxFileSize + sfd.attrSize < t → ∀ sfd' g q, Q (.error .overflow, sfd') (X.state g q))
    (hQ : t ≤ maxFileSize + sfd.attrSize → ∀ sfd' data, Grown K X c t sfd f sfd' data →
      Q (.ok (), sfd') (X.seek (f.unsealed data) t)) :
    wp (agent bad) J
      (fillFileHole K (depth+1) c.length (t - c.length) sfd) Q (X.seek f p) := by
  obtain ⟨n, htimes, hn⟩ := holeTimes_eq (show 0 < t - c.length by omega)
  have hsize : c.length + (t - c.length) = t := by omega
  unfold fillFileHole
  rw [if_neg h.length_int32, wp_attempt_bind]
  refine wp_ssaSeekWith_set h.legible hJ (le_rfl) ?_
  rw [htimes]
  have hres : resize c (c.length + holePerSize*0) = c := resize_of_length (by omega)
  refine wp_fillHoleLoop hw hn (hres.symm ▸ h.caches _ _ _ _ _) (by omega) hJ hJ'
    (fun hb => hbig (by dsimp only at hb; omega)) ?_
  intro hle sfd' data hg
  rw [hsize] at hg ⊢
  exact hQ (by dsimp only at hle; omega) sfd' data hg.of_caches

/-- Through a descriptor opened for reading no hole is filled; behind a whole number of blocks the
descriptor takes on a part of one. -/
theorem wp_fillFileHole_readonly (hw : X.writable = false) (ht : c.length < t)
    (hJ' : J (X.files (clearMac f)))
    (hQ : ∀ e sfd' g q, (c.length % cryptBlockSize = 0 → t ≤ maxFileSize + sfd.attrSize →
      Torn X c.length sfd' g) → Q (.error e, sfd') (X.state g q)) :
    wp (agent bad) J
      (fillFileHole K (depth+1) c.length (t - c.length) sfd) Q (X.seek f p) := by
  obtain ⟨n, htimes, hn⟩ := holeTimes_eq (show 0 < t - c.length by omega)
  have hlen := h.length_le
  unfold fillFileHole
  rw [if_neg h.length_int32, wp_attempt_bind]
  refine wp_ssaSeekWith_set h.legible hJ (le_rfl) ?_
  dsimp only
  rw [htimes]
  have hi : holePerSize*0 < t - c.length := by omega
  unfold fillHoleLoop
  rw [sendCount_eq hi, wp_seq]
  generalize hk : min (t - c.length) (holePerSize*(0+1)) - holePerSize*0 = k
  have hk0 : 0 < k ∧ k ≤ holePerSize := by
    simp only [holePerSize] at *
    omega
  have hne : List.replicate k (0 : UInt8) ≠ [] := by
    rw [ne_eq, List.replicate_eq_nil_iff]
    omega
  have hsize : (List.replicate k (0 : UInt8)).length = k := List.length_replicate
  by_cases hmax : c.length + k ≤ maxFileSize + sfd.attrSize
  · have hrep := h.caches sfd.startBlockId c.length c.length sfd.updateBackup sfd.needUpdateHmac
    refine wp_ssaWriteWith_readonly hrep (le_rfl) hne (by rwa [hsize]) hJ hw hJ' ?_
    intro sid q
    refine hQ _ _ _ _ fun hmod _ => hrep.torn_refusal (.inr ⟨?_, ?_⟩)
    · rw [h.legible.data_length]
      simp only [blocks, cryptBlockSize] at hmod ⊢
      omega
    · rw [length_overlay, hsize, max_eq_right (by omega)]
      simp only [holePerSize, cryptBlockSize] at hk0 hmod ⊢
      omega
  · refine wp_ssaWriteWith_overflow (h.caches _ _ _ _ _) hne ?_ (by rw [hsize]; dsimp only; omega) hJ ?_
    · simp only [holePerSize, maxFileSize] at *
      omega
    · exact hQ _ _ _ _ fun _ hle => by omega

section

variable (hwh : whenceOf whence = some w)
  (htarget : seekTarget sfd.attrSize offset p c.length w = .ok t)
include hwh htarget

/-- A seek past the end, on a descriptor opened for writing. -/
theorem wp_ssaSeek_hole (hw : X.writable = true) (ht : c.length < t) (hlt : t < 4294967296)
    (hJ' : Unsealing J X f)
    (hbig : maxFileSize + sfd.attrSize < t → ∀ sfd' g q, Q (.error .overflow, sfd') (X.state g q))
    (hQ : t ≤ maxFileSize + sfd.attrSize → ∀ sfd' data, Grown K X c t sfd f sfd' data →
      Q (.ok (), sfd') (X.seek (f.unsealed data) t)) :
    wp (agent bad) J (ssaSeek K offset whence sfd) Q (X.seek f p) := by
  refine wp_ssaSeekWith_ok h.legible hJ hwh htarget ?_
  rw [when_pos ht]
  exact wp_fillFileHole (h.caches _ _ _ _ _) hJ hw ht hlt hJ' hbig fun hle sfd' data hg =>
    hQ hle sfd' data hg.of_caches

theorem wp_ssaSeek_inside (ht : t ≤ c.length)
    (hQ : Q (.ok (), sfd.cached t c.length) (X.seek f t)) :
    wp (agent bad) J (ssaSeek K offset whence sfd) Q (X.seek f p) := by
  refine wp_ssaSeekWith_ok h.legible hJ hwh htarget ?_
  rw [when_neg (by omega), wp_pure]
  exact hQ

end

/-- Any seek: it fails, or the content is extended with zeros to the position it reaches. -/
theorem wp_ssaSeek (hp : p ≤ c.length) (hoff : offset ≤ int32Max) (hJ' : Unsealing J X f)
    (hE : Fails X Q)
    (hin : ∀ t, t ≤ c.length → Q (.ok (), sfd.cached t c.length)
      (X.seek f t)) (hgrow : ∀ t sfd' data, c.length < t → Grown K X c t sfd f sfd' data →
      Q (.ok (), sfd') (X.seek (f.unsealed data) t)) :
    wp (agent bad) J (ssaSeek K offset whence sfd) Q (X.seek f p) := by
  cases hw : whenceOf whence with
  | none => exact wp_ssaSeekWith_badState h.legible hJ hw (hE _ _ _ _)
  | some w =>
    cases ht : seekTarget sfd.attrSize offset p c.length w with
    | error e => exact wp_ssaSeekWith_error h.legible hJ hw ht (hE _ _ _ _)
    | ok t =>
      have hlt := seekTarget_lt ht hoff h.attr_le h.length_le hp
      by_cases htc : t ≤ c.length
      · exact wp_ssaSeek_inside h hJ hw ht htc (hin t htc)
      cases hwr : X.writable with
      | true =>
        exact wp_ssaSeek_hole h hJ hw ht hwr (by omega) hlt hJ' (fun _ => hE _)
          fun _ sfd' data hg => hgrow t sfd' data (by omega) hg
      | false =>
        refine wp_ssaSeekWith_ok h.legible hJ hw ht ?_
        rw [when_pos (by omega)]
        exact wp_fillFileHole_readonly (h.caches _ _ _ _ _) hJ hwr (by omega) (hJ' f.data)
          fun e sfd' g q _ => hE e sfd' g q

end TeeOs.Ssa
