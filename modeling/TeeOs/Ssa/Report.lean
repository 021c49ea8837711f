import TeeOs.Ssa.Object

/-!
# What the replies report

Every reply names a size and a position, and the enumeration file records the
size. They come from the caches of the descriptor, while the real length and the
real position are those of the storage. Here the two are compared for the
creation and the opening of an object and for the messages on an open handle.
-/

namespace TeeOs.Ssa

open Lib.Calls Lib.Bytes Proc Nat

variable {D : Type}

/-- The fields of `obj_info` in the enumeration file that follow the object. -/
structure EnumRecord where
  dataSize : Nat
  dataPosition : Nat
  deriving DecidableEq

/-- `update_objinfo_in_enum_file`, which a read does not call. -/
def Message.record : Message → Reply → EnumRecord → EnumRecord
  | .read _, _, record => record
  | _, reply, _ => ⟨reply.newSize, reply.newSeekPos⟩

/-- The reply is right about the handle it leaves; its position is counted from `base`. -/
structure Reported (base : Nat) (reply : Reply) (record : EnumRecord) (sfd : Sfd D) (s : Fs D) :
    Prop where
  size_eq : ∃ pos, (serve ssaInfoObject sfd s).1.1 = .ok (pos, reply.newSize)
  position_eq : positionOf sfd s = some (base + reply.newSeekPos)
  record_eq : record.dataSize = reply.newSize

/-- When the reply to a message is right, through a descriptor that may write or not. -/
def Message.Exact (writable : Bool) (sfd : Sfd D) (seekPosition : Nat) (record : EnumRecord)
    (len p : Nat) : Message → Prop
  | .read n => (p + n < 4294967296 → readMark len p n = readStop len p n) ∧
      record.dataSize = sub32 len sfd.attrSize
  | .write content => content = [] ∧ seekPosition = p ∧
      sub32 sfd.size sfd.attrSize = sub32 len sfd.attrSize
  | .seek offset whence => ∀ t, seekObjectGoal sfd.attrSize offset p len whence = .ok t → t ≤ len
  | .truncate size =>
    let target := truncateLen sfd.attrSize size
    target ≤ maxFileSize + sfd.attrSize ∧
      (target = len ∨ writable = true ∧ p ≤ target ∨ CutsBlocks len p target)

/-- The truncations whose replies are not judged: those past the limit, and those to another length
through a descriptor that may not write, unless they only cut off blocks. -/
def Message.Unjudged (writable : Bool) (attrSize len p : Nat) : Message → Prop
  | .truncate size =>
    let target := truncateLen attrSize size
    maxFileSize + attrSize < target ∨ writable = false ∧ target ≠ len ∧ ¬ CutsBlocks len p target
  | _ => False

/-- The length of a read is a `uint32_t`. -/
def Message.Typed : Message → Prop
  | .read n => n < 4294967296
  | _ => True

variable {K : Crypto D} {X : View D} {c d : List UInt8} {p base : Nat} {sfd : Sfd D}
  {f : RawFile D} {reply : Reply} {record : EnumRecord}

section Handle

theorem Kept.serve_info (h : Kept K X c sfd f) (attrSize : Nat) :
    (serve ssaInfoObject (sfd.withAttr attrSize) (X.seek f p)).1.1 =
      .ok (sub32 p attrSize, sub32 c.length attrSize) := by
  refine serve_of_wp ?_
  unfold ssaInfoObject
  rw [wp_seq]
  exact wp_ssaInfo_withAttr attrSize h.legible trivial rfl

/-- On a handle in use a reply is right if it names the length and the position of the storage. -/
theorem Kept.reported_iff (h : Kept K X c sfd f) (hp : p ≤ c.length) (attrSize : Nat) :
    Reported base reply record (sfd.withAttr attrSize) (X.seek f p) ↔
      reply.newSize = sub32 c.length attrSize ∧ base + reply.newSeekPos = p ∧
      record.dataSize = reply.newSize := by
  have hpos : positionOf (sfd.withAttr attrSize) (X.seek f p) = some p :=
    (InUse.reached ⟨hp, f, h, rfl⟩).positionOf_eq
  constructor
  · rintro ⟨⟨pos, hsize⟩, hposition, hrecord⟩
    rw [h.serve_info, Except.ok.injEq, Prod.mk.injEq] at hsize
    rw [hpos, Option.some.injEq] at hposition
    exact ⟨hsize.2.symm, hposition.symm, hrecord⟩
  · rintro ⟨hsize, hposition, hrecord⟩
    exact ⟨⟨_, by rw [hsize]; exact h.serve_info attrSize⟩, by rw [hposition]; exact hpos, hrecord⟩

theorem sub32_inj {a b k : Nat} (ha : a < 4294967296) (hb : b < 4294967296)
    (hk : k < 4294967296) (h : sub32 a k = sub32 b k) : a = b := by
  unfold sub32 at h
  omega

end Handle

section Messages

variable {bad : RawFile D → Prop} {fpos : Nat} {msg : Message} {sfd' : Sfd D}

/-- The reply to `msg`, if there is one, is right in the cases of `Message.Exact`, and else only in
those that are not judged. -/
def Judged (writable : Bool) (fpos : Nat) (record : EnumRecord) (len p : Nat) (sfd : Sfd D)
    (msg : Message) (r : Except TeeResult Reply × Sfd D) (t : Fs D) : Prop :=
  ∀ reply, r.1 = .ok reply →
    (msg.Exact writable sfd fpos record len p → Reported 0 reply (msg.record reply record) r.2 t) ∧
    (Reported 0 reply (msg.record reply record) r.2 t →
      msg.Exact writable sfd fpos record len p ∨ msg.Unjudged writable sfd.attrSize len p)

theorem judged_error {len : Nat} {e : TeeResult} {t : Fs D} {w : Bool} :
    Judged w fpos record len p sfd msg (.error e, sfd') t := by
  intro reply h
  cases h

theorem Message.Unjudged.judged {len : Nat} {r : Except TeeResult Reply × Sfd D} {t : Fs D} {w : Bool}
    (h : msg.Unjudged w sfd.attrSize len p) (hno : ¬ msg.Exact w sfd fpos record len p) :
    Judged w fpos record len p sfd msg r t :=
  fun _ _ => ⟨fun hexact => absurd hexact hno, fun _ => .inr h⟩

/-- A reply on a handle that is in use afterwards. -/
theorem After.judged {c' : List UInt8} {p' len : Nat} {f' : RawFile D} {due w : Bool}
    (h : After K X sfd due c' p' sfd' f')
    (hiff : (reply.newSize = sub32 c'.length sfd.attrSize ∧ reply.newSeekPos = p' ∧
      (msg.record reply record).dataSize = reply.newSize) ↔ msg.Exact w sfd fpos record len p) :
    Judged w fpos record len p sfd msg (.ok reply, sfd') (X.seek f' p') := by
  intro reply' hr
  cases hr
  have hreported : Reported 0 reply (msg.record reply record) sfd'
      (X.seek f' p') ↔ _ := h.kept.reported_iff h.inside sfd'.attrSize
  rw [zero_add, h.attr_eq] at hreported
  exact ⟨(hreported.trans hiff).mpr, fun hr => .inl ((hreported.trans hiff).mp hr)⟩

variable [DecidableEq D] (h : Settled K X c p sfd f)
include h

theorem wp_read_judged {n : Nat} (hn : n < 4294967296) :
    wp (agent bad) anyFiles (ssaReadObject K fpos n sfd)
      (Judged X.writable fpos record c.length p sfd (.read n)) (X.seek f p) := by
  rcases lt_or_ge (p + n) 4294967296 with hlt | hwrap
  · refine wp_ssaReadObject h hlt (fun _ _ _ _ => judged_error) ?_
    intro sfd' hset
    refine hset.judged ⟨?_, ?_⟩
    · rintro ⟨-, hpos, hrec⟩
      exact ⟨fun _ => hpos, hrec⟩
    · rintro ⟨hpos, hrec⟩
      exact ⟨rfl, hpos hlt, hrec⟩
  · -- the end of the range wraps: nothing is read, and the file stands at the start of a block
    have hread : ∀ q, q ≤ c.length → ∀ sid, Judged X.writable fpos record c.length p sfd (.read n)
          (.ok ⟨q, sub32 c.length sfd.attrSize, []⟩,
            sfd.standing sid q c.length)
          (X.seek f q) := by
      intro q hq sid
      refine (h.after sid q c.length hq).judged ⟨?_, ?_⟩
      · rintro ⟨-, -, hrec⟩
        exact ⟨fun hlt => absurd hlt (not_lt.mpr hwrap), hrec⟩
      · rintro ⟨-, hrec⟩
        exact ⟨rfl, rfl, hrec⟩
    have hset := h.caches sfd.startBlockId fpos sfd.size sfd.updateBackup h.inside
    unfold ssaReadObject
    rw [wp_modify_bind, wp_get_bind]
    by_cases hr : sfd.flags.accessRead = false
    · rw [if_pos hr, wp_throw]
      exact judged_error
    · rw [if_neg hr, wp_seq]
      rcases lt_or_ge p c.length with hlt | hge
      · by_cases hblk : blocks cryptBlockSize (p + n - 4294967296) = p/cryptBlockSize
        · refine wp_ssaRead_wrap_empty hlt hn hwrap hset.kept.toRep hblk trivial ?_
          exact hread _ ((div_mul_le_self _ _).trans h.inside) _
        · exact wp_ssaRead_wrap_refused hlt hn hwrap hset.kept.toRep hblk trivial
            fun _ _ => judged_error
      · have heq : p = c.length := le_antisymm h.inside hge
        subst heq
        exact wp_ssaRead_end hset.kept.legible trivial (hread _ (div_mul_le_self _ _) _)

theorem wp_write_judged : wp (agent bad) anyFiles (ssaWriteObject K fpos d sfd)
      (Judged X.writable fpos record c.length p sfd (.write d)) (X.seek f p) := by
  refine wp_ssaWriteObject h (fun _ _ _ _ => judged_error) ?_ ?_
  · intro hd sfd' hset
    refine hset.judged ⟨?_, ?_⟩
    · rintro ⟨hsize, hpos, -⟩
      exact ⟨hd, hpos, hsize⟩
    · rintro ⟨-, hpos, hsize⟩
      exact ⟨hsize, hpos, rfl⟩
  · intro hd sfd' f' hset
    refine hset.judged ⟨?_, ?_⟩
    · rintro ⟨-, hpos, -⟩
      have hlen := List.length_pos_iff.mpr hd
      dsimp only at hpos
      omega
    · rintro ⟨hnil, -⟩
      exact absurd hnil hd

theorem wp_seek_judged {offset : Int} {whence : Nat} :
    wp (agent bad) anyFiles (ssaSeekObject K offset whence sfd)
      (Judged X.writable fpos record c.length p sfd (.seek offset whence)) (X.seek f p) := by
  by_cases hro : X.writable = false ∧
      ∃ t, seekObjectGoal sfd.attrSize offset p c.length whence = .ok t ∧ c.length < t
  · obtain ⟨hw, t, ht, hlt⟩ := hro
    unfold ssaSeekObject
    unfold seekObjectGoal at ht
    by_cases hbig : offset > maxFileSize
    · rw [if_pos hbig, wp_throw]
      exact judged_error
    · rw [if_neg hbig] at ht
      rw [if_neg hbig, wp_get_bind, wp_seq]
      exact wp_ssaSeek_readonly h.kept hw ht hlt trivial trivial fun _ _ _ _ => judged_error
  · refine wp_ssaSeekObject h ?_ (fun _ _ _ _ => judged_error) ?_ ?_
    · intro t ht hlt
      by_contra hw
      exact hro ⟨Bool.eq_false_of_not_eq_true hw, t, ht, hlt⟩
    · intro t ht hle sfd' hset
      refine hset.judged ⟨?_, fun _ => ⟨rfl, rfl, rfl⟩⟩
      intro _ t' ht'
      rw [ht, Except.ok.injEq] at ht'
      omega
    · intro t ht hlt sfd' f' hset
      refine hset.judged ⟨?_, ?_⟩
      · rintro ⟨-, hpos, -⟩
        have hdiv := div_mul_le_self (t - c.length - 1) holePerSize
        dsimp only at hpos
        omega
      · intro hexact
        have hle := hexact t ht
        omega

theorem wp_truncate_judged {size : Int}
    (hlim : truncateLen sfd.attrSize size ≤ maxFileSize + sfd.attrSize) :
    wp (agent bad) anyFiles (ssaTruncateObject K fpos size sfd)
      (Judged X.writable fpos record c.length p sfd (.truncate size)) (X.seek f p) := by
  refine wp_ssaTruncateObject h ?_ (fun _ => hlim) (fun _ => judged_error) ?_ ?_
  · intro _ hne hro hcut reply sfd' f' q _
    refine Message.Unjudged.judged (.inr ⟨hro, hne, hcut⟩) ?_
    rintro ⟨-, heq | hw | hcut'⟩
    · exact hne heq
    · exact absurd (hro.symm.trans hw.1) Bool.false_ne_true
    · exact hcut hcut'
  · intro heq sfd' hset
    exact hset.judged ⟨fun _ => ⟨hlim, .inl heq⟩, fun _ => ⟨rfl, rfl, rfl⟩⟩
  · intro hne hmay sfd' f' hset
    have hlen := length_cutTo c (truncateLen sfd.attrSize size) p
    have hfit := h.fits
    have hattr := h.kept.attr_le
    have hin := h.inside
    refine hset.judged ⟨?_, ?_⟩
    · rintro ⟨hsize, -, -⟩
      have heq := sub32_inj (by simp only [maxFileSize] at *; omega)
        (by simp only [maxFileSize] at *; omega) (by simp only [maxFileSize] at *; omega) hsize
      exact ⟨hlim, .inr (hmay.imp_left fun hw => ⟨hw, by omega⟩)⟩
    · rintro ⟨-, hexact⟩
      have hle := (hexact.resolve_left hne).elim (·.2) (·.2.2)
      rw [hlen, max_eq_left hle]
      exact ⟨rfl, rfl, rfl⟩

theorem Settled.message_judged (fpos : Nat) (record : EnumRecord) (hr : msg.Typed) :
    let r := serve (msg.handle K fpos) sfd (X.seek f p)
    Judged X.writable fpos record c.length p sfd msg r.1 r.2 := by
  cases msg with
  | read n => exact serve_of_wp (wp_read_judged h hr)
  | write content => exact serve_of_wp (wp_write_judged h)
  | seek offset whence => exact serve_of_wp (wp_seek_judged h)
  | truncate size =>
    by_cases hlim : truncateLen sfd.attrSize size ≤ maxFileSize + sfd.attrSize
    · exact serve_of_wp (wp_truncate_judged h hlim)
    · exact Message.Unjudged.judged (.inl (not_le.mp hlim)) fun hexact => hlim hexact.1

end Messages

section Sample

end Sample

end TeeOs.Ssa
