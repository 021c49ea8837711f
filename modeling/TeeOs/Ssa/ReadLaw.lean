import TeeOs.Ssa.Read

/-!
# Reads in sequence

A read refines a segment of the content, with one exception inside the range of
the types: at the end of a file that does not end on a block boundary it goes
back to the start of the block, so that the next read repeats bytes. The client
library issues such a read whenever fewer bytes came back than it asked for.
-/

namespace TeeOs.Ssa

open Lib.Calls Lib.Bytes List Proc TeeOs.Ssa.Crypto Nat
open TeeOs.Ssa renaming cryptBlockSize → B

variable {D : Type} [DecidableEq D]

/-- Successive reads, their results joined. -/
def readSeq (K : Crypto D) : List Nat → SsaM D (List UInt8)
  | [] => pure []
  | n :: ns => do
    let out ← ssaRead K n
    let rest ← readSeq K ns
    pure (out ++ rest)

/-- The loop of the client's `read_object_data_proc` with a transfer buffer of `bufSize` bytes;
`fuel` bounds its rounds. -/
def readObjectDataLoop (K : Crypto D) (size bufSize : Nat) :
    Nat → List UInt8 → SsaM D (List UInt8)
  | 0, buffer => pure buffer
  | fuel+1, buffer =>
    if buffer.length < size then do
      let len := if size - buffer.length > bufSize then bufSize else size - buffer.length
      let data ← ssaRead K len
      if data.length = 0 then pure buffer
      else if memmoveRefuses size data.length then Proc.throw .security
      else readObjectDataLoop K size bufSize fuel (buffer ++ data)
    else pure buffer

/-- `read_object_data_proc`: every round but the last brings a byte. -/
def readObjectDataProc (K : Crypto D) (size bufSize : Nat) : SsaM D (List UInt8) :=
  readObjectDataLoop K size bufSize (size+1) []

/-- The reads that keep the position: not at the end of a partial block, and no request whose end
wraps around to the start of its first block. -/
def ReadFits (len p n : Nat) : Prop :=
  (p < len ∨ p % cryptBlockSize = 0) ∧
  (p < len → 4294967296 ≤ p + n → blocks cryptBlockSize (p + n - 4294967296) ≠ p/cryptBlockSize)

def ReadsFit (len : Nat) : Nat → List Nat → Prop
  | _, [] => True
  | p, n :: ns => (0 < n ∧ n < 4294967296) ∧ ReadFits len p n ∧ ReadsFit len (min (p + n) len) ns

/-- What a successful run of reads that asks for `n` bytes at `p` must do. -/
def ReadRight (K : Crypto D) (c : List UInt8) (p n : Nat) (m : SsaM D (List UInt8)) (sfd : Sfd D)
    (s : Fs D) : Prop :=
  ∀ out, (serve m sfd s).1.1 = .ok out → out = (c.drop p).take n ∧
    contentOf K (serve m sfd s).1.2 (serve m sfd s).2 = some c ∧
    positionOf (serve m sfd s).1.2 (serve m sfd s).2 = some (p + out.length)

variable {bad : RawFile D → Prop} {J : Files D → Prop} {K : Crypto D}
  {X : View D} {c : List UInt8} {sfd : Sfd D} {f : RawFile D} {p n : Nat}

variable {Q : Post D (List UInt8)}

section

variable (h : Rep K X c sfd f)
include h

theorem wp_ssaRead_fits (hp : p ≤ c.length) (hn : 0 < n) (hn' : n < 4294967296)
    (hfit : ReadFits c.length p n) (hJ : J (X.files f))
    (hE : 4294967296 ≤ p + n → ∀ e sfd' q, Q (.error e, sfd') (X.state f q))
    (hQ : ∀ sid pos, Q (.ok ((c.drop p).take n),
        sfd.standing sid pos c.length)
      (X.seek f (min (p + n) c.length))) :
    wp (agent bad) J (ssaRead K n sfd) Q (X.seek f p) := by
  by_cases hlt : p < c.length
  · by_cases hwrap : 4294967296 ≤ p + n
    · exact wp_ssaRead_wrap_refused hlt hn' hwrap h (hfit.2 hlt hwrap) hJ (hE hwrap _)
    · exact wp_ssaRead h.legible hJ hlt hn (by omega) (blocks_mono (min_le_right _ _)) fun sid => hQ sid _
  · have hend : p = c.length := by omega
    subst hend
    have hmod : c.length % B = 0 := by
      rcases hfit.1 with h1 | h1
      · omega
      · exact h1
    have hdown : c.length/B*B = c.length := by
      have := div_add_mod c.length B
      rw [mul_comm]
      omega
    refine wp_ssaRead_end h.legible hJ ?_
    have hQ' := hQ sfd.startBlockId (c.length/B*B)
    rw [drop_length, take_nil, min_eq_right (by omega)] at hQ'
    rw [hdown] at hQ' ⊢
    exact hQ'

theorem wp_readSeq {ns : List Nat} (hp : p ≤ c.length) (hfit : ReadsFit c.length p ns)
    (hJ : J (X.files f)) (hE : ∀ e sfd' q, Q (.error e, sfd') (X.state f q))
    (hQ : ∀ sfd', Rep K X c sfd' f → Q (.ok ((c.drop p).take ns.sum), sfd')
      (X.seek f (min (p + ns.sum) c.length))) :
    wp (agent bad) J (readSeq K ns sfd) Q (X.seek f p) := by
  induction ns generalizing p sfd Q with
  | nil =>
    have hQ' := hQ sfd h
    rw [sum_nil, take_zero, add_zero, min_eq_left hp] at hQ'
    exact hQ'
  | cons n ns ih =>
    obtain ⟨⟨hn, hn'⟩, hfirst, hrest⟩ := hfit
    unfold readSeq
    rw [wp_seq]
    refine wp_ssaRead_fits h hp hn hn' hfirst hJ (fun _ e sfd' q => hE e sfd' q) fun sid pos => ?_
    rw [next_ok, wp_seq]
    refine ih (h.caches _ _ _ _ _) (min_le_right _ _) hrest (fun e sfd' q => hE e sfd' q)
      fun sfd' hrep => ?_
    rw [next_ok, wp_pure]
    have hjoin : (c.drop p).take n ++ (c.drop (min (p + n) c.length)).take ns.sum =
        (c.drop p).take (n :: ns).sum := by
      rw [sum_cons, take_add, drop_drop]
      congr 2
      by_cases hle : p + n ≤ c.length
      · rw [min_eq_left hle]
      · rw [min_eq_right (by omega), drop_length, drop_of_length_le (by omega)]
    have hpos : min (min (p + n) c.length + ns.sum) c.length =
        min (p + (n :: ns).sum) c.length := by
      rw [sum_cons]
      omega
    rw [hjoin, hpos]
    exact hQ sfd' hrep

variable {size bufSize fuel b : Nat} (hbuf : 0 < bufSize) (hsize : size ≤ securecMemMaxLen)
  (hfit : p + size ≤ c.length ∨ c.length % B = 0) (hJ : J (X.files f))
  (hQ : ∀ sfd', Rep K X c sfd' f → Q (.ok ((c.drop p).take size), sfd') (X.seek f (min (p + size) c.length)))
include hbuf hsize hfit hJ hQ

/-- The client's loop, from a buffer that already holds `b` bytes on. -/
theorem wp_readObjectDataLoop (hb : b ≤ size) (hbc : p + b ≤ c.length) (hfuel : size - b < fuel) :
    wp (agent bad) J (readObjectDataLoop K size bufSize fuel ((c.drop p).take b) sfd) Q
      (X.seek f ((p + b))) := by
  induction fuel generalizing b sfd with
  | zero => omega
  | succ fuel ih =>
    have hlen := h.length_le
    have hbl : ((c.drop p).take b).length = b := by
      rw [length_take, length_drop]
      omega
    unfold readObjectDataLoop
    rw [hbl]
    by_cases hlt : b < size
    · rw [if_pos hlt]
      generalize hk : (if size - b > bufSize then bufSize else size - b) = k
      have hk' : 0 < k ∧ k ≤ size - b := by
        rw [← hk]
        split <;> omega
      have hsmall : p + b + k < 4294967296 := by
        simp only [securecMemMaxLen, maxFileSize] at *
        omega
      have hread : ReadFits c.length (p + b) k := by
        refine ⟨?_, fun _ hwrap => by omega⟩
        rcases hfit with hin | hmod
        · exact .inl (by omega)
        · by_cases hend : p + b < c.length
          · exact .inl hend
          · rw [show p + b = c.length by omega]
            exact .inr hmod
      rw [wp_seq]
      refine wp_ssaRead_fits h hbc hk'.1 (by omega) hread hJ (fun hwrap => by omega) fun sid pos => ?_
      have h' := h.caches sid pos c.length sfd.updateBackup sfd.needUpdateHmac
      have hdata : ((c.drop (p + b)).take k).length = min k (c.length - (p + b)) := by
        rw [length_take, length_drop]
      rw [next_ok, hdata]
      by_cases hend : p + b = c.length
      · have hmin : min k (c.length - (p + b)) = 0 := by omega
        rw [if_pos hmin, wp_pure]
        have hQ' := hQ _ h'
        rw [take_of_length_le (by rw [length_drop]; omega), min_eq_right (by omega)] at hQ'
        rw [take_of_length_le (by rw [length_drop]; omega), min_eq_right (by omega)]
        exact hQ'
      · have hstep : (c.drop p).take b ++ (c.drop (p + b)).take k =
            (c.drop p).take (b + min k (c.length - (p + b))) := by
          rw [take_add, drop_drop]
          congr 1
          rw [take_eq_take_iff, length_drop]
          omega
        have hpos : min (p + b + k) c.length = p + (b + min k (c.length - (p + b))) := by omega
        rw [if_neg (by omega), memmoveRefuses_eq_false (by omega) hsize (by omega),
          if_neg Bool.false_ne_true, hstep, hpos]
        exact ih h' (by omega) (by omega) (by omega)
    · rw [if_neg hlt, wp_pure]
      have hall : b = size := by omega
      subst hall
      have hQ' := hQ sfd h
      rw [min_eq_left hbc] at hQ'
      exact hQ'

theorem wp_readObjectDataProc (hp : p ≤ c.length) :
    wp (agent bad) J (readObjectDataProc K size bufSize sfd) Q (X.seek f p) := by
  exact wp_readObjectDataLoop (b := 0) h hbuf hsize hfit hJ hQ (zero_le _) hp (by omega)

end

section Law

variable {s : Fs D}

omit [DecidableEq D] in
/-- Reads that return the segment and stand behind it are right. -/
theorem readRight_of_wp {m : SsaM D (List UInt8)} (hp : p ≤ c.length)
    (hw : ∀ Q : Post D (List UInt8), (∀ e sfd' q, Q (.error e, sfd') (X.state f q)) →
      (∀ sfd', Rep K X c sfd' f → Q (.ok ((c.drop p).take n), sfd')
        (X.seek f (min (p + n) c.length))) →
      wp (agent fun _ => True) anyFiles (m sfd) Q (X.seek f p)) :
    ReadRight K c p n m sfd (X.seek f p) := by
  unfold ReadRight
  refine serve_of_wp (hw _ ?_ ?_)
  · intro e sfd' q out he
    cases he
  · intro sfd' hrep out hout
    cases hout
    have hr : Reached K X c (min (p + n) c.length) sfd'
        (X.seek f (min (p + n) c.length)) := ⟨min_le_right _ _, f, hrep, rfl⟩
    have hpos : p + ((c.drop p).take n).length = min (p + n) c.length := by
      rw [length_take, length_drop]
      omega
    rw [hpos]
    exact ⟨rfl, hr.contentOf_eq, hr.positionOf_eq⟩

theorem Reached.read (h : Reached K X c p sfd s) (hp : p < c.length) (hn : 0 < n)
    (hb : p + n < 4294967296) :
    (serve (ssaRead K n) sfd s).1.1 = .ok ((c.drop p).take n) ∧
    Reached K X c (min (p + n) c.length) (serve (ssaRead K n) sfd s).1.2
      (serve (ssaRead K n) sfd s).2 := by
  obtain ⟨f, hrep, rfl⟩ := h.stored
  refine serve_of_wp (wp_ssaRead hrep.legible trivial hp hn hb (blocks_mono (min_le_right _ _)) ?_)
  intro sid
  exact ⟨rfl, min_le_right _ _, f, hrep.caches _ _ _ _ _, rfl⟩

theorem Reached.read_end (h : Reached K X c c.length sfd s) :
    (serve (ssaRead K n) sfd s).1.1 = .ok [] ∧
    Reached K X c (c.length/B*B) (serve (ssaRead K n) sfd s).1.2 (serve (ssaRead K n) sfd s).2 := by
  obtain ⟨f, hrep, rfl⟩ := h.stored
  refine serve_of_wp (wp_ssaRead_end hrep.legible trivial ?_)
  exact ⟨rfl, div_mul_le_self _ _, f, hrep.caches _ _ _ _ _, rfl⟩

theorem not_readRight (h : Reached K X c p sfd s) (hn : 0 < n) (hn' : n < 4294967296)
    (hfit : ¬ ReadFits c.length p n) : ¬ ReadRight K c p n (ssaRead K n) sfd s := by
  intro hright
  by_cases hlt : p < c.length
  · have hwrap : ¬ (4294967296 ≤ p + n → blocks B (p + n - 4294967296) ≠ p/B) :=
      fun hok => hfit ⟨.inl hlt, fun _ => hok⟩
    rw [Classical.not_imp, ne_eq, Classical.not_not] at hwrap
    obtain ⟨f, hrep, rfl⟩ := h.stored
    have hempty : (serve (ssaRead K n) sfd (X.seek f p)).1.1 = .ok [] :=
      serve_of_wp (wp_ssaRead_wrap_empty hlt hn' hwrap.1 hrep hwrap.2 trivial rfl)
    have hlen := congrArg List.length (hright [] hempty).1
    rw [length_take, length_drop, length_nil] at hlen
    omega
  · have hend : p = c.length := by
      have := h.inside
      omega
    subst hend
    have hmod : c.length % B ≠ 0 :=
      fun hmod => hfit ⟨.inr hmod, fun hlt' => absurd hlt' hlt⟩
    obtain ⟨hret, hr⟩ := h.read_end
    have hpos := (hright [] hret).2.2
    rw [hr.positionOf_eq, Option.some.injEq, length_nil, add_zero] at hpos
    have hdiv := div_add_mod c.length B
    rw [mul_comm] at hdiv
    omega

/-- A single read is right exactly when it fits; a sequence of reads that all fit returns the
bytes in order, none twice; and so does the client's loop when the file ends on a block boundary or
holds all bytes asked for. -/
theorem ssaRead_refines_iff (h : Reached K X c p sfd s) (hn : 0 < n) (hn' : n < 4294967296) :
    (ReadRight K c p n (ssaRead K n) sfd s ↔ ReadFits c.length p n) ∧
    (∀ ns, ReadsFit c.length p ns → ReadRight K c p ns.sum (readSeq K ns) sfd s) ∧
    ∀ size bufSize, 0 < bufSize → size ≤ securecMemMaxLen →
      (p + size ≤ c.length ∨ c.length % cryptBlockSize = 0) →
      ReadRight K c p size (readObjectDataProc K size bufSize) sfd s := by
  refine ⟨⟨fun hright => ?_, fun hfit => ?_⟩, fun ns hfit => ?_, fun size bufSize hb hs hfit => ?_⟩
  · exact Classical.byContradiction fun hfit => not_readRight h hn hn' hfit hright
  · obtain ⟨f, hrep, rfl⟩ := h.stored
    refine readRight_of_wp h.inside fun Q hE hQ => ?_
    exact wp_ssaRead_fits hrep h.inside hn hn' hfit trivial (fun _ => hE)
      fun _ _ => hQ _ (hrep.caches _ _ _ _ _)
  · obtain ⟨f, hrep, rfl⟩ := h.stored
    refine readRight_of_wp h.inside fun Q hE hQ => ?_
    exact wp_readSeq hrep h.inside hfit trivial hE hQ
  · obtain ⟨f, hrep, rfl⟩ := h.stored
    refine readRight_of_wp h.inside fun Q _ hQ => ?_
    exact wp_readObjectDataProc hrep hb hs hfit trivial hQ h.inside

theorem ssaRead_refines_iff_sample :
    ReadRight Crypto.numbering [1, 2, 3, 4, 5] 2 2 (ssaRead Crypto.numbering 2)
      (sampleSfd [1, 2, 3, 4, 5])
      (sampleView.state (sampleFile [1, 2, 3, 4, 5]) (sfsMetadataSize + 2)) :=
  (ssaRead_refines_iff (sample_reached (by decide) (by decide)) (by decide) (by decide)).1.mpr
    ⟨.inl (by decide), fun _ hwrap => absurd hwrap (by decide)⟩

/-- Five bytes, position five: the read at the end of the file returns nothing and goes back to
the start, and the next read returns the first byte again. -/
theorem ssaRead_end_repeats :
    let s := sampleView.state (sampleFile [1, 2, 3, 4, 5]) (sfsMetadataSize + 5)
    let r := serve (ssaRead numbering 1) (sampleSfd [1, 2, 3, 4, 5]) s
    ¬ ReadRight numbering [1, 2, 3, 4, 5] 5 1 (ssaRead numbering 1) (sampleSfd [1, 2, 3, 4, 5]) s ∧
    r.1.1 = .ok [] ∧ positionOf r.1.2 r.2 = some 0 ∧
    (serve (ssaRead numbering 1) r.1.2 r.2).1.1 = .ok [1] := by
  have h : Reached numbering sampleView [1, 2, 3, 4, 5] 5 (sampleSfd [1, 2, 3, 4, 5])
      (sampleView.state (sampleFile [1, 2, 3, 4, 5]) (sfsMetadataSize + 5)) :=
    sample_reached (by decide) (by decide)
  obtain ⟨hret, hr⟩ := Reached.read_end h
  rw [show ([1, 2, 3, 4, 5] : List UInt8).length/B*B = 0 by decide] at hr
  refine ⟨not_readRight h (by decide) (by decide) ?_, hret, hr.positionOf_eq, ?_⟩
  · intro hfit
    exact absurd hfit.1 (by decide)
  · exact (hr.read (by decide) (by decide) (by decide)).1

end Law

end TeeOs.Ssa
