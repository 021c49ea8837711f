import TeeOs.Ssa.Message

/-!
# Creating and opening an object

`create_object` writes the attributes and the initial data into a new file and
seals it; `open_object` reads the head of the attributes back, which tells where
the data of the object start. The slots of the client are modelled with the
tables.
-/

namespace TeeOs.Ssa

open Lib.Calls Lib.Bytes List Proc

variable {D : Type} [DecidableEq D]

/-- `sizeof(struct saved_attr_info_t)`. -/
def savedAttrInfoSize : Nat := 44

/-- The field `attr_size` of a `saved_attr_info_t`. -/
def savedAttrSize (head : List UInt8) : Nat :=
  ((head.drop 32).take 4).foldr (fun b n => b.toNat + 256*n) 0

variable (K : Crypto D)

/-- A write of all the bytes; nothing to write is no error. -/
def writeAll (content : List UInt8) : SsaM D Unit :=
  when (content ≠ []) (do
    match ← attempt (ssaWrite K content) with
    | .ok count => if count = content.length then pure () else throw .generic
    | .error _ => throw .generic)

def ssaWriteAttributes (attributes : List UInt8) : SsaM D Unit := do
  writeAll K attributes
  when (attributes ≠ []) (modify fun sfd => sfd.withAttr attributes.length)

def ssaWriteInitialData (initialData : List UInt8) : SsaM D Unit :=
  writeAll K initialData

/-- The part of `create_object` between the new file and the new slot. -/
def fillObject (attributes initialData : List UInt8) : SsaM D Unit := do
  ssaWriteAttributes K attributes
  ssaWriteInitialData K initialData
  modify fun sfd => { sfd with needUpdateHmac := false }
  ssaWriteMac K

/-- `create_object_proc`: the position of the reply is one in the data stream. -/
def createObjectProc (flag : DataFlags) (attributes initialData : List UInt8) : SsaM D Reply := do
  ssaCreate K flag
  match ← attempt (fillObject K attributes initialData) with
  | .ok _ => do
    let sfd ← get
    pure ⟨0, sub32 sfd.size sfd.attrSize, []⟩
  | .error e => do
    ssaCloseAndDelete false
    throw e

def getObjectAttrHeader (buffSize : Nat) : SsaM D Unit := do
  if buffSize < savedAttrInfoSize then throw .shortBuffer
  else do
    let head ← ssaRead K savedAttrInfoSize
    when (head.length = savedAttrInfoSize) (modify fun sfd =>
      sfd.withAttr (u32 (savedAttrInfoSize + savedAttrSize head)))

/-- `open_object`. When the head of the attributes cannot be read the file is closed again, but
the answer stays the cleared one, which says success. -/
def openObject (flag : DataFlags) (serr : TeeResult) (attrHeadSize : Nat) : SsaM D Reply := do
  ssaOpenHandle K flag serr
  if attrHeadSize = 0 then objectReply []
  else do
    match ← attempt (getObjectAttrHeader K attrHeadSize) with
    | .ok _ => objectReply []
    | .error _ => do
      ssaClose
      pure ⟨0, 0, []⟩

/-- The size of the attributes an open finds in the content, if it asks for their head. -/
def attrOf (attrHeadSize : Nat) (content : List UInt8) : Nat :=
  if savedAttrInfoSize ≤ attrHeadSize ∧ savedAttrInfoSize ≤ content.length then
    u32 (savedAttrInfoSize + savedAttrSize (content.take savedAttrInfoSize))
  else 0

/-- Where an open leaves the position. -/
def headEnd (attrHeadSize len : Nat) : Nat :=
  if attrHeadSize = 0 then 0 else min savedAttrInfoSize len

theorem headEnd_le {attrHeadSize len : Nat} : headEnd attrHeadSize len ≤ len := by
  unfold headEnd
  split
  · exact Nat.zero_le _
  · exact Nat.min_le_right _ _

/-- The file an open chooses was sealed over `c`. -/
def StoredContent (metaData : MetaData) (files : Files D)
    (c : List UInt8) : Prop :=
  ∃ f m files', Chosen K metaData files f m files' ∧ Holds K metaData.fileId c f m

/-- The handle of an open that chose a file sealed over `c`. -/
structure Found (K : Crypto D) (metaData : MetaData) (flag : DataFlags) (s : Fs D)
    (c : List UInt8) (X : View D) (sfd : Sfd D) (f : RawFile D) : Prop where
  kept : Kept K X c sfd f
  chosen : ∃ m files fd, Chosen K metaData s.files f m files ∧ Holds K metaData.fileId c f m ∧
    X = openedView s files metaData flag fd
  flags_eq : sfd.flags = flag
  meta_eq : sfd.metaData = metaData
  no_backup : sfd.updateBackup = false
  no_need : sfd.needUpdateHmac = false

variable {K : Crypto D} {X : View D} {c d : List UInt8} {p : Nat} {sfd : Sfd D} {f : RawFile D}
  {bad : RawFile D → Prop}

section Create

variable {Q : Post D Unit} {attributes initialData : List UInt8}

/-- Bytes appended to a file that stands at its end, with the cached size in step. -/
theorem wp_writeAll (h : Kept K X c sfd f)
    (hw : X.writable = true) (hsize : sfd.size = c.length) (hd : d.length ≤ int32Max)
    (hE : ∀ e sfd' t, Q (.error e, sfd') t)
    (hQ : ∀ sfd' f', Kept K X (c ++ d) sfd' f' → sfd'.size = (c ++ d).length →
      sfd'.attrSize = sfd.attrSize → (d ≠ [] → d.length ≤ maxFileSize + sfd.attrSize) →
      Q (.ok (), sfd') (X.seek f' ((c ++ d).length))) :
    wp (agent bad) anyFiles (writeAll K d sfd) Q (X.seek f c.length) := by
  unfold writeAll
  by_cases hnil : d = []
  · subst hnil
    have hq := hQ sfd f (by rw [append_nil]; exact h) (by rw [append_nil]; exact hsize) rfl
      (fun hne => absurd rfl hne)
    rw [append_nil] at hq
    exact hq
  · rw [when_pos hnil, wp_attempt_bind]
    have hlen := h.length_le
    rcases Nat.lt_or_ge (maxFileSize + sfd.attrSize) (c.length + d.length) with hbig | hfit
    · refine wp_ssaWriteWith_overflow h.toRep hnil ?_ hbig trivial (hE _ _ _)
      simp only [maxFileSize, int32Max] at *
      omega
    · refine wp_ssaWrite_kept h hw (Nat.le_refl _) hnil hfit trivial (fun _ => trivial) ?_
      intro sfd' f' hu _ hsize'
      have hk := hu.kept
      rw [overlay_length] at hk
      dsimp only
      rw [if_pos rfl, wp_pure, ← length_append]
      exact hQ sfd' f' hk (by rw [hsize', length_append]) hu.attr_eq (fun _ => by omega)

section

variable (h : Kept K X [] sfd f) (hw : X.writable = true) (hsize : sfd.size = 0)
  (hattr : sfd.attrSize = 0) (ha : attributes.length ≤ int32Max)
  (hE : ∀ e sfd' t, Q (.error e, sfd') t)
include h hw hsize hattr ha hE

theorem wp_ssaWriteAttributes
    (hQ : ∀ sfd' f', Kept K X attributes sfd' f' → sfd'.size = attributes.length →
      sfd'.attrSize = attributes.length →
      Q (.ok (), sfd') (X.seek f' attributes.length)) :
    wp (agent bad) anyFiles (ssaWriteAttributes K attributes sfd) Q
      (X.state f sfsMetadataSize) := by
  unfold ssaWriteAttributes
  rw [wp_seq]
  refine wp_writeAll h hw hsize ha (fun _ _ _ => hE _ _ _) ?_
  intro sfd' f' hk hsize' hattr' hlen
  rw [next_ok]
  by_cases hnil : attributes = []
  · rw [when_neg (by simpa using hnil), wp_pure]
    exact hQ sfd' f' hk hsize' (by rw [hattr', hattr, hnil]; rfl)
  · rw [when_pos hnil]
    have hle := hlen hnil
    rw [hattr] at hle
    exact hQ _ f' (hk.withAttr hle) hsize' rfl

/-- A filled object: attributes and data, sealed, with the position behind them. -/
theorem wp_fillObject (hd : initialData.length ≤ int32Max)
    (hQ : ∀ sfd' f', Kept K X (attributes ++ initialData) sfd' f' →
      sfd'.size = (attributes ++ initialData).length → sfd'.attrSize = attributes.length →
      Q (.ok (), sfd') (X.seek f' ((attributes ++ initialData).length))) :
    wp (agent bad) anyFiles (fillObject K attributes initialData sfd) Q
      (X.state f sfsMetadataSize) := by
  unfold fillObject ssaWriteInitialData
  rw [wp_seq]
  refine wp_ssaWriteAttributes h hw hsize hattr ha (fun _ _ _ => hE _ _ _) ?_
  intro sfd₁ f₁ hk₁ hsize₁ hattr₁
  rw [next_ok, wp_seq]
  refine wp_writeAll hk₁ hw hsize₁ hd (fun _ _ _ => hE _ _ _) ?_
  intro sfd₂ f₂ hk₂ hsize₂ hattr₂ _
  have hk := hk₂.caches sfd₂.startBlockId sfd₂.seekPosition sfd₂.size sfd₂.updateBackup false
  refine wp_ssaWriteMac hk.name_eq hk.hashed.ids hk.hashed.nonempty hk.header
    trivial trivial trivial ?_
  exact hQ _ _ (hk.seal true) hsize₂ (hattr₂.trans hattr₁)

end

theorem wp_createObjectProc {Q : Post D Reply} {s : Fs D} {metaData : MetaData} {flag : DataFlags}
    (ha : attributes.length ≤ int32Max) (hd : initialData.length ≤ int32Max)
    (hE : ∀ e sfd' t, Q (.error e, sfd') t)
    (hQ : ∀ sfd' f', Kept K (createdView s metaData.curEncryptedFileId)
        (attributes ++ initialData) sfd' f' → sfd'.attrSize = attributes.length →
      Q (.ok ⟨0, sub32 (attributes ++ initialData).length attributes.length, []⟩, sfd')
        ((createdView s metaData.curEncryptedFileId).state f'
          (sfsMetadataSize + (attributes ++ initialData).length))) :
    wp (agent fun _ => True) anyFiles
      (createObjectProc K flag attributes initialData (ssaOpenInit K metaData flag)) Q s := by
  unfold createObjectProc
  rw [wp_seq]
  refine wp_ssaCreate (fun _ e => hE e _ _) ?_
  rw [next_ok, wp_attempt_bind]
  refine wp_fillObject (created_kept K s metaData flag) rfl rfl rfl ha ?_ hd ?_
  · intro e sfd' t
    -- whatever the clean-up does, the answer is an error
    rw [wp_seq]
    refine (wp_iff_run _ _ _).mpr ?_
    rcases run (agent fun _ => True) (ssaCloseAndDelete false sfd') t with ⟨⟨_ | _, _⟩, _⟩
    · exact hE _ _ _
    · exact hE _ _ _
  · intro sfd' f' hk hsize hattr
    rw [wp_get_bind, wp_pure, hsize, hattr]
    exact hQ sfd' f' hk hattr

end Create

section Open

variable {Q : Post D Reply} {attrHeadSize : Nat}

theorem readMark_head (hc : 0 < c.length) :
    readMark c.length 0 savedAttrInfoSize = min savedAttrInfoSize c.length ∧
      readStop c.length 0 savedAttrInfoSize = min savedAttrInfoSize c.length := by
  have hstop : readStop c.length 0 savedAttrInfoSize = min savedAttrInfoSize c.length := by
    unfold readStop
    rw [if_pos hc, Nat.zero_add]
  refine ⟨?_, hstop⟩
  unfold readMark
  rw [hstop, if_neg]
  rintro ⟨-, hmod⟩
  simp only [savedAttrInfoSize, cryptBlockSize] at hmod
  omega

/-- The head of the attributes, read from the start of the file. -/
theorem wp_getObjectAttrHeader {Q : Post D Unit}
    (h : Kept K X c sfd f) (hattr : sfd.attrSize = 0) (hc : 0 < c.length)
    (hsize : savedAttrInfoSize ≤ attrHeadSize)
    (hQ : ∀ sid, Q (.ok (), { sfd with
        startBlockId := sid, seekPosition := min savedAttrInfoSize c.length, size := c.length,
        attrSize := attrOf attrHeadSize c })
      (X.seek f (min savedAttrInfoSize c.length))) :
    wp (agent bad) anyFiles (getObjectAttrHeader K attrHeadSize sfd) Q
      (X.seek f 0) := by
  obtain ⟨hmark, hstop⟩ := readMark_head hc
  unfold getObjectAttrHeader
  rw [if_neg (by omega), wp_seq]
  refine wp_ssaRead_any h.toRep (Nat.zero_le _) (by decide) trivial ?_ ?_
  · intro h0
    cases h0
  · intro sid
    rw [next_ok, hmark, hstop, drop_zero]
    have hq := hQ sid
    by_cases hlen : savedAttrInfoSize ≤ c.length
    · rw [when_pos (by rw [length_take]; omega)]
      rw [show attrOf attrHeadSize c = _ from if_pos ⟨hsize, hlen⟩] at hq
      exact hq
    · rw [when_neg (by rw [length_take]; omega), wp_pure]
      rw [show attrOf attrHeadSize c = 0 from if_neg (fun hh => hlen hh.2), ← hattr] at hq
      exact hq

variable {metaData : MetaData} {flag : DataFlags} {serr : TeeResult} {s : Fs D}

omit [DecidableEq D] in
theorem Genuine.chosen {files files' : Files D} {m : MetaStorage D}
    (h : Genuine K metaData files) (hch : Chosen K metaData files f m files') :
    ∃ c, Holds K metaData.fileId c f m := by
  obtain ⟨name, hname, hgood⟩ := hch.good
  exact h name hname f m hgood

omit [DecidableEq D] in
theorem Found.stored (h : Found K metaData flag s c X sfd f) :
    StoredContent K metaData s.files c := by
  obtain ⟨m, files, -, hch, hc, -⟩ := h.chosen
  exact ⟨f, m, files, hch, hc⟩

omit [DecidableEq D] in
theorem Found.caches (h : Found K metaData flag s c X sfd f) (sid pos n : Nat) :
    Found K metaData flag s c X (sfd.standing sid pos n) f :=
  { h with kept := h.kept.caches _ _ _ _ _ }

/-- An open that is answered with success: a handle on a stored content, or none at all when the
buffer for the head of the attributes was too small. -/
theorem wp_openObject (hg : ∀ {f m files'}, Chosen K metaData s.files f m files' →
      ∃ c, Holds K metaData.fileId c f m)
    (ha : ¬ flag.NoAccess)
    (hE : NoGoodFile K metaData.fileId s.files metaData.curEncryptedFileId →
      ∀ e sfd' t, Q (.error e, sfd') t)
    (hshort : attrHeadSize ≠ 0 → attrHeadSize < savedAttrInfoSize → ∀ c,
      StoredContent K metaData s.files c → ∀ sfd' t, lookupFd sfd'.nfd t.opened = none →
      Q (.ok ⟨0, 0, []⟩, sfd') t)
    (hQ : attrHeadSize = 0 ∨ savedAttrInfoSize ≤ attrHeadSize → ∀ c X sfd₀ f,
      Found K metaData flag s c X sfd₀ f →
      Q (.ok ⟨headEnd attrHeadSize c.length, sub32 c.length (attrOf attrHeadSize c), []⟩,
          sfd₀.withAttr (attrOf attrHeadSize c))
        (X.seek f (headEnd attrHeadSize c.length))) :
    wp (agent fun _ => True) anyFiles
      (openObject K flag serr attrHeadSize (ssaOpenInit K metaData flag)) Q s := by
  unfold openObject
  rw [wp_seq]
  refine wp_ssaOpen ha (fun hno _ _ _ => hE hno _ _ _) ?_
  intro sfd t f m files fd hopened
  obtain ⟨c, hc⟩ := hg hopened.chosen
  have hattr : sfd.attrSize = 0 := by
    rw [hopened.sfd_eq]
    rfl
  have hk : Kept K (openedView s files metaData flag fd) c sfd f := by
    have hk := hopened.kept hc (Nat.zero_le maxFileSize)
    rw [← hattr] at hk
    exact hk
  have hsize : sfd.size = c.length := by
    rw [hopened.sfd_eq]
    exact hc.loadedSize_eq
  have hpos : sfd.seekPosition = 0 := by
    rw [hopened.sfd_eq]
    rfl
  have hfound : Found K metaData flag s c (openedView s files metaData flag fd) sfd f := by
    refine ⟨hk, ⟨m, files, fd, hopened.chosen, hc, rfl⟩, ?_, ?_, ?_, ?_⟩
    all_goals
      rw [hopened.sfd_eq]
      rfl
  rw [next_ok, hopened.state_view]
  by_cases h0 : attrHeadSize = 0
  · subst h0
    rw [if_pos rfl]
    have hq := hQ (Or.inl rfl) c _ _ f hfound
    have hnone : attrOf 0 c = sfd.attrSize := by
      rw [hattr]
      exact if_neg (fun hh => absurd hh.1 (by decide))
    rw [hnone, ← hsize] at hq
    unfold objectReply
    rw [wp_get_bind, wp_pure, hpos]
    exact hq
  · rw [if_neg h0, wp_attempt_bind]
    rcases Nat.lt_or_ge attrHeadSize savedAttrInfoSize with hlt | hge
    · unfold getObjectAttrHeader
      rw [if_pos hlt, wp_throw]
      rw [wp_seq]
      refine wp_ssaClose hk.nfd_eq hk.name_eq trivial (fun _ _ _ => trivial) (fun _ => trivial) ?_
      refine hshort h0 hlt c hfound.stored _ _ ?_
      change lookupFd sfd.nfd (removeFd fd (Fs.push { s with files := files } fd
        metaData.curEncryptedFileId flag.accessWrite 0).opened) = none
      rw [Fs.removeFd_push, hk.nfd_eq]
      exact hopened.fresh
    · refine wp_getObjectAttrHeader hk hattr (length_pos_iff.mpr hc.content_ne_nil) hge ?_
      intro sid
      have hhead : headEnd attrHeadSize c.length = min savedAttrInfoSize c.length := if_neg h0
      have hq := hQ (Or.inr hge) c _ _ f (hfound.caches sid (min savedAttrInfoSize c.length) c.length)
      rw [hhead] at hq
      exact hq

end Open

end TeeOs.Ssa
