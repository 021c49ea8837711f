import TeeOs.Crypto.KeyUsage

/-!
# What setting a key accepts

Each part of `TEE_SetOperationKey` and `TEE_SetOperationKey2` ends in one of two ways: the key
is stored, or none is and something about the object or the memory was not as it should be.
-/

namespace TeeOs.Crypto

open TeeOs.Lib

variable {κ : Type}

/-! ## Keys that suit an operation -/

def keyBits (a : Attribute) : Nat :=
  if a.attributeID = attrEccPublicValueX ∧ a.ref.length = 66 then 521 else a.ref.length * 8

def SizeFits (op : Operation κ) (key : KeyObject) (type : OpType) : Prop :=
  ∃ a, sizeAttribute key type = some a ∧ keyBits a ≤ op.maxKeySize ∧
    cryptoCheckKeysize op.algorithm (keyBits a) = .ok ()

def TypeFits (op : Operation κ) (info : ObjectInfo) : Prop :=
  cryptoCheckKeytypeValid op.algorithm info.objectType = true ∧
    operationPublicKeyTypeModeCheck op.mode info.objectType = .ok ()

/-- What the code asks of the size. -/
def SizePasses (op : Operation κ) (key : KeyObject) (type : OpType) : Prop :=
  checkObjectKeySizeValid op key type = .ok ()

/-- A judgement on the size of a key. -/
abbrev SizeTest (κ : Type) := Operation κ → KeyObject → OpType → Prop

/-- Everything about a key object but its usage suits the operation. -/
structure Suits (test : SizeTest κ) (op : Operation κ) (key : KeyObject) (type : OpType)
    (info : ObjectInfo) : Prop where
  object : key.objectInfo = some info
  initialized : has info.handleFlags flagInitialized = true
  kind : TypeFits op info
  size : test op key type

/-- The size in bits of the key is not cut off in 32 bits. -/
def Short (key : KeyObject) (type : OpType) : Prop :=
  ∀ a, sizeAttribute key type = some a → a.ref.length < 2^29

theorem keySizeInBits_eq {a : Attribute} (h : a.ref.length < 2^29) : keySizeInBits a = keyBits a := by
  unfold keySizeInBits keyBits
  rw [Nat.mod_eq_of_lt (by omega)]

variable {op : Operation κ} {key : KeyObject} {type : OpType} {level size : Nat} {s : Local κ}
  {filled : Block × Option TeeError} {gen : Call κ Unit} {key1 key2 : Option KeyObject}
  {info : ObjectInfo}

theorem objectKeySize_iff (hshort : Short key type) :
    SizePasses op key type ↔ SizeFits op key type := by
  unfold SizePasses checkObjectKeySizeValid SizeFits
  cases ha : sizeAttribute key type with
  | none => simp only [reduceCtorEq, false_and, exists_false]
  | some a =>
    have hlen := hshort a ha
    have hwrap : ¬ a.ref.length * 8 % 2^64 < a.ref.length := by
      omega
    simp only [hwrap, if_false, keySizeInBits_eq hlen, Option.some.injEq, exists_eq_left']
    split
    · next hbig => simp only [reduceCtorEq, false_iff, not_and]; omega
    · next hle =>
      cases hsize : cryptoCheckKeysize op.algorithm (keyBits a) with
      | error e => simp only [reduceCtorEq, and_false]
      | ok u => simp only [true_iff, and_true]; omega

theorem SizeFits.short (h : SizeFits op key type) (ha : Allocated op) : Short key type := by
  obtain ⟨a, hattr, hmax, -⟩ := h
  have hbits := ha.size
  simp only [maxKeySizeInBits] at hbits
  intro a' hattr'
  obtain rfl := Option.mem_unique hattr hattr'
  unfold keyBits at hmax
  split at hmax
  · omega
  · omega

theorem SizeFits.passes (h : SizeFits op key type) (ha : Allocated op) : SizePasses op key type :=
  (objectKeySize_iff (h.short ha)).mpr h

/-! ## Memory -/

/-- The allocator refuses nothing. -/
def Granted (s : Local κ) : Prop := ∀ a ∈ s.answers, a = true

theorem Granted.headD (h : Granted s) : s.answers.headD true = true := by
  cases ha : s.answers with
  | nil => rfl
  | cons a l => exact h a (by rw [ha]; exact List.mem_cons_self)

def Local.answered (s : Local κ) : Local κ := { s with answers := s.answers.tail }

theorem Granted.answered (h : Granted s) : Granted s.answered :=
  fun a ha => h a (List.mem_of_mem_tail ha)

/-- A failure of the allocator is not the fault of the key. -/
theorem ends_malloc {n : Nat} {e : TeeError} {Q : Block → Local κ → Prop}
    {E : TeeError → Local κ → Prop} (hn : n ≠ 0) (hQ : Q (List.replicate n 0) s.answered)
    (hE : ¬ Granted s → E e s.answered) : Ends (malloc n e) Q E s := by
  unfold Ends malloc
  rw [if_neg hn]
  split
  · next h =>
    split at h
    · cases h; exact hQ
    · cases h
  · next h =>
    split at h
    · cases h
    · next hhead =>
      cases h
      exact hE fun hgranted => hhead hgranted.headD

/-! ## Copying -/

/-- No key is stored but perhaps a public one. -/
structure OnlyPublic (op : Operation κ) : Prop where
  keyValue : op.keyValue = none
  keyValue2 : op.keyValue2 = none
  privateKey : op.privateKey = none

/-- A key of a symmetric operation has a buffer. -/
def Buffered (key : KeyObject) : Prop :=
  ∃ attrs b, key.attributes = some attrs ∧ attrs.first.ref = .buffer b

theorem memcpy_ok {cap : Nat} {ref : Ref} {b : Block} (h : memcpy cap ref = .ok b) :
    ref = .buffer b ∧ b.length ≤ cap := by
  cases ref with
  | null n => cases h
  | buffer c =>
    simp only [memcpy] at h
    split at h
    · cases h
    · next hcap =>
      cases h
      exact ⟨rfl, by omega⟩

theorem memcpy_self {b : Block} (h0 : b.length ≠ 0) (hmax : b.length ≤ securecMemMaxLen) :
    memcpy b.length (.buffer b) = .ok b := by
  simp only [memcpy, if_neg (show ¬ (b.length = 0 ∨ b.length > securecMemMaxLen ∨
    b.length > b.length) by omega)]

/-- The attribute is there with a value that the copy has room for. -/
def DhComplete (key : KeyObject) (id : Word) : Prop :=
  ∃ a b, findAttribute key id = some a ∧ a.ref = .buffer b ∧ b.length ≠ 0 ∧
    b.length ≤ mallocMaxKeySize

def PublicComplete (alg type : Word) (key : KeyObject) : Prop :=
  if type = typeRsaPublicKey ∨ type = typeRsaKeypair then (copyFields key rsaPublicFields).2 = none
  else if type ∈ eccTypes then (eccPublic alg key).2 = none
  else type = typeDhKeypair ∧ DhComplete key attrDhPublicValue

def PrivateComplete (alg type : Word) (key : KeyObject) : Prop :=
  if key.crtMode then (copyFields key rsaCrtFields).2 = none
  else if type = typeRsaKeypair then (copyFields key rsaPrivateFields).2 = none
  else if type ∈ eccKeypairTypes then (eccPrivate alg key).2 = none
  else type = typeDhKeypair ∧ DhComplete key attrDhPrivateValue

/-- A key of an asymmetric operation has the attributes of its type, with values that the
structures have room for. -/
structure Complete (op : Operation κ) (key : KeyObject) (info : ObjectInfo) : Prop where
  number : ∃ attrs, key.attributes = some attrs ∧
    (info.objectType, attrs.attributesLen) ∈ attriLens
  publicPart : PublicComplete op.algorithm info.objectType key
  privatePart : isNoNeedSetPrivateKey op.mode info.objectType = false →
    PrivateComplete op.algorithm info.objectType key

theorem fillPrivate_ends (hsize : size ≠ 0) (hs : OnlyPublic s.op) :
    Ends (fillPrivate size filled) (fun _ _ => filled.2 = none)
      (fun _ t => OnlyPublic t.op ∧ ¬ (filled.2 = none ∧ Granted s)) s := by
  unfold fillPrivate
  rw [ends_bind]
  refine ends_malloc hsize ?_ fun hrefused => ⟨hs, fun h => hrefused h.2⟩
  cases filled.2 with
  | some e => exact ⟨hs, nofun⟩
  | none => exact (rfl : (none : Option TeeError) = none)

theorem dhValue_ends {id : Word} :
    Ends (dhValue key id)
      (fun _ t => DhComplete key id ∧ t.op = s.op ∧ (Granted s → Granted t))
      (fun _ t => t.op = s.op ∧ ¬ (DhComplete key id ∧ Granted s)) s := by
  unfold dhValue
  simp only [ends_steps]
  refine ⟨fun hnone => ⟨trivial, ?_⟩, fun a ha => ⟨fun hlen => ⟨trivial, ?_⟩, fun hlen => ?_⟩⟩
  · rintro ⟨⟨a, b, hsome, -⟩, -⟩
    rw [hnone] at hsome
    cases hsome
  · rintro ⟨⟨a', b, hsome, hbuffer, -, hmax⟩, -⟩
    obtain rfl : a = a' := by simpa [ha] using hsome
    rw [hbuffer] at hlen
    exact absurd hmax (by simpa [Ref.length] using hlen)
  · by_cases hzero : a.ref.length = 0
    · unfold Ends malloc
      rw [if_pos hzero]
      refine ⟨rfl, ?_⟩
      rintro ⟨⟨a', b, hsome, hbuffer, hne, -⟩, -⟩
      obtain rfl : a = a' := by simpa [ha] using hsome
      rw [hbuffer] at hzero
      exact hne hzero
    · refine ends_malloc hzero ?_ fun hrefused => ⟨rfl, fun h => hrefused h.2⟩
      simp only [ends_onError, ends_ofExcept]
      refine ⟨fun e he => ⟨rfl, ?_⟩, fun b hb => ⟨⟨a, b, ha, ?_⟩, rfl, .answered⟩⟩
      rotate_left
      · obtain ⟨hbuffer, -⟩ := memcpy_ok hb
        rw [hbuffer] at hzero hlen
        exact ⟨hbuffer, hzero, Nat.not_lt.mp hlen⟩
      rintro ⟨⟨a', b, hsome, hbuffer, hne, hmax⟩, -⟩
      obtain rfl : a = a' := by simpa [ha] using hsome
      rw [hbuffer] at he
      simp only [Ref.length] at he
      rw [memcpy_self hne (by simp only [mallocMaxKeySize, securecMemMaxLen] at *; omega)] at he
      cases he

theorem setPrivate_ends {alg type : Word} (hs : OnlyPublic s.op) :
    Ends (if key.crtMode then setPrivateKeyCrtHal key else setPrivateKeyHal alg type key)
      (fun _ _ => PrivateComplete alg type key)
      (fun _ t => OnlyPublic t.op ∧ ¬ (PrivateComplete alg type key ∧ Granted s)) s := by
  unfold PrivateComplete setPrivateKeyHal
  split
  · exact fillPrivate_ends (by decide) hs
  split
  · exact fillPrivate_ends (by decide) hs
  split
  · exact fillPrivate_ends (by decide) hs
  split
  · next hdh =>
    unfold dhSetPrivateKeyHal
    rw [ends_bind]
    refine dhValue_ends.imp ?_ ?_
    · rintro b t ⟨hcomplete, -⟩
      exact ⟨hdh, hcomplete⟩
    · rintro e t ⟨hop, hnot⟩
      exact ⟨by rw [hop]; exact hs, fun h => hnot ⟨h.1.2, h.2⟩⟩
  · next hdh => exact ⟨hs, fun h => hdh h.1.1⟩

theorem zero_not_mem_attriLens (type : Word) : (type, 0) ∉ attriLens := by
  have hpos : ∀ c ∈ attriLens, c.2 ≠ 0 := by decide
  exact fun h => hpos _ h rfl

section

variable {alg type : Word} (hs : s.op.NoKey)
include hs

theorem setSymmetric_ends : Ends (setSymmetricOperationKey key)
      (fun _ _ => Buffered key ∧ ∀ attrs, key.attributes = some attrs →
        attrs.first.ref.length ≠ 0 ∧ attrs.first.ref.length ≤ maxMallocLen)
      (fun _ t => t.op.NoKey ∧ ¬ ((Buffered key ∧ ∀ attrs, key.attributes = some attrs →
        attrs.first.ref.length ≠ 0 ∧ attrs.first.ref.length ≤ maxMallocLen) ∧ Granted s)) s := by
  unfold setSymmetricOperationKey
  simp only [ends_steps]
  refine ⟨fun hnone => ⟨hs, ?_⟩, fun attrs hattrs => ⟨fun hlen => ⟨hs, ?_⟩, fun hlen => ?_⟩⟩
  · rintro ⟨⟨⟨attrs, b, hsome, -⟩, -⟩, -⟩
    rw [hnone] at hsome
    cases hsome
  · rintro ⟨⟨-, hsize⟩, -⟩
    have hfit := hsize attrs hattrs
    omega
  · refine ends_malloc (by omega) ?_ fun hrefused => ⟨hs, fun h => hrefused h.2⟩
    simp only [ends_steps, ends_onError]
    refine ⟨fun e he => ⟨hs, ?_⟩, fun b hb => ⟨⟨attrs, b, hattrs, (memcpy_ok hb).1⟩, ?_⟩⟩
    rotate_left
    · intro attrs' hattrs'
      obtain rfl := Option.mem_unique hattrs hattrs'
      omega
    rintro ⟨⟨⟨attrs', b, hsome, hbuffer⟩, -⟩, -⟩
    obtain rfl : attrs = attrs' := by simpa [hattrs] using hsome
    rw [hbuffer] at he hlen
    simp only [Ref.length] at he hlen
    rw [memcpy_self (by omega) (by simp only [maxMallocLen, securecMemMaxLen] at *; omega)] at he
    cases he

theorem fillPublic_ends (hsize : size ≠ 0) :
    Ends (fillPublic size filled)
      (fun _ t => filled.2 = none ∧ OnlyPublic t.op ∧ (Granted s → Granted t))
      (fun _ t => t.op.NoKey ∧ ¬ (filled.2 = none ∧ Granted s)) s := by
  unfold fillPublic
  rw [ends_bind]
  refine ends_malloc hsize ?_ fun hrefused => ⟨hs, fun h => hrefused h.2⟩
  cases filled.2 with
  | some e => exact ⟨hs, nofun⟩
  | none => exact ⟨rfl, ⟨hs.1, hs.2.1, hs.2.2.2⟩, .answered⟩

theorem setPublicKeyHal_ends :
    Ends (setPublicKeyHal alg type key)
      (fun _ t => PublicComplete alg type key ∧ OnlyPublic t.op ∧ (Granted s → Granted t))
      (fun _ t => t.op.NoKey ∧ ¬ (PublicComplete alg type key ∧ Granted s)) s := by
  unfold setPublicKeyHal PublicComplete
  split
  · exact fillPublic_ends hs (by decide)
  split
  · exact fillPublic_ends hs (by decide)
  split
  · next hdh =>
    unfold dhSetPublicKeyHal
    rw [ends_bind]
    refine dhValue_ends.imp ?_ ?_
    · rintro b t ⟨hcomplete, hop, hgranted⟩
      refine ⟨⟨hdh, hcomplete⟩, ?_, hgranted⟩
      rw [← hop] at hs
      exact ⟨hs.1, hs.2.1, hs.2.2.2⟩
    · rintro e t ⟨hop, hnot⟩
      exact ⟨by rw [hop]; exact hs, fun h => hnot ⟨h.1.2, h.2⟩⟩
  · next hdh => exact ⟨hs, fun h => hdh h.1.1⟩

theorem teeGetAsymmetricKeys_ends (hlevel : level > apiLevel10)
    (hinfo : key.objectInfo = some info) :
    Ends (teeGetAsymmetricKeys gen key level) (fun _ _ => Complete s.op key info)
      (fun _ t => t.op.NoKey ∧ ¬ (Complete s.op key info ∧ Granted s)) s := by
  unfold teeGetAsymmetricKeys
  simp only [ends_steps]
  refine ⟨fun hzero => ⟨fun hlow => absurd hlow (by omega), fun _ => ⟨hs, ?_⟩⟩, fun hlen =>
    ⟨fun hnone => absurd (hnone.symm.trans hinfo) (by simp), fun info' hsome => ?_⟩⟩
  · rintro ⟨⟨⟨attrs, hattrs, hmem⟩, -, -⟩, -⟩
    simp only [hattrs, Option.map_some, Option.getD_some] at hzero
    rw [hzero] at hmem
    exact absurd hmem (zero_not_mem_attriLens _)
  · obtain rfl : info = info' := by simpa [hinfo] using hsome
    refine ⟨fun hnot => ⟨hs, ?_⟩, fun hnumber => ?_⟩
    · rintro ⟨⟨⟨attrs, hattrs, hmem⟩, -, -⟩, -⟩
      simp only [hattrs, Option.map_some, Option.getD_some] at hnot
      exact hnot hmem
    · have hcount : ∃ attrs, key.attributes = some attrs ∧
          (info.objectType, attrs.attributesLen) ∈ attriLens := by
        cases hattrs : key.attributes with
        | none =>
          rw [hattrs] at hlen
          exact absurd rfl hlen
        | some attrs =>
          rw [hattrs] at hnumber
          exact ⟨attrs, rfl, not_not.mp hnumber⟩
      refine Ends.imp (setPublicKeyHal_ends hs) ?_ fun e t h =>
        ⟨h.1, fun h' => h.2 ⟨h'.1.publicPart, h'.2⟩⟩
      rintro - t ⟨hpublicPart, hpublic, hgranted⟩
      refine ⟨fun hfree => ⟨hcount, hpublicPart, fun hneed => ?_⟩, fun hneed => ?_⟩
      · cases hneed.symm.trans hfree
      rw [ends_onError]
      refine (setPrivate_ends hpublic).imp (fun _ _ h => ⟨hcount, hpublicPart, fun _ => h⟩) ?_
      rintro e u ⟨honly, hnot⟩
      refine ⟨⟨honly.keyValue, honly.keyValue2, rfl, honly.privateKey⟩, ?_⟩
      rintro ⟨hcomplete, hg⟩
      exact hnot ⟨hcomplete.privatePart (Bool.eq_false_of_not_eq_true hneed), hgranted hg⟩

theorem setAsymmetric_ends (hlevel : level > apiLevel10) (hinfo : key.objectInfo = some info)
    (hkey : (getAsymmetricKey key).isSome = true) :
    Ends (setAsymmetricOperationKey gen key level) (fun _ _ => Complete s.op key info)
      (fun _ t => t.op.NoKey ∧ ¬ (Complete s.op key info ∧ Granted s)) s := by
  have hne : level ≠ apiLevel10 := by omega
  unfold setAsymmetricOperationKey
  rw [ends_bind]
  refine (teeGetAsymmetricKeys_ends hs hlevel hinfo).imp ?_ fun _ _ h => h
  rintro - t hcomplete
  simp only [ends_steps, if_neg hne, ends_onError]
  refine ⟨fun hnone => ?_, fun _ _ => hcomplete⟩
  rw [hnone] at hkey
  cases hkey

end

/-! ## One key -/

/-- The object allows the usage, and its type and size fit. -/
def Permitted (op : Operation κ) (usage : Word) (key : KeyObject) (type : OpType) : Prop :=
  ∃ info, key.objectInfo = some info ∧ has info.objectUsage usage = true ∧
    TypeFits op info ∧ SizeFits op key type

/-- The attributes the operation copies are there. -/
def Whole (op : Operation κ) (key : KeyObject) (info : ObjectInfo) : Prop :=
  match getOpClassType op.operationClass with
  | .symmetric => Buffered key
  | .asymmetric => Complete op key info
  | _ => True

/-- Usage, type, size and state of the key object and the state of the handle fit. -/
structure Fitting (test : SizeTest κ) (level : Nat) (op : Operation κ) (usage : Word)
    (key : KeyObject) (info : ObjectInfo) : Prop where
  state : setOperationKeyStateCheck op level = .ok ()
  listed : key.listed = true
  suits : Suits test op key (getOpClassType op.operationClass) info
  allowed : has info.objectUsage usage = true
  whole : Whole op key info

/-- The key passes every check of the code, and the copies find what they look for. -/
structure Accepted (level : Nat) (op : Operation κ) (usage : Word) (key : KeyObject)
    (info : ObjectInfo) : Prop extends Fitting SizePasses level op usage key info where
  room : getOpClassType op.operationClass = .symmetric → ∀ attrs, key.attributes = some attrs →
    attrs.first.ref.length ≤ maxMallocLen

theorem keysize_zero : ∀ c ∈ algConfig, c.mode ≠ .digest → cryptoCheckKeysize c.alg 0 ≠ .ok () := by
  decide +kernel

theorem Mode.base_ne_digest {m : Mode} (h : m ≠ .digest) : m.base ≠ .digest := by
  cases m <;> simp_all [Mode.base]

theorem Allocated.opType (h : Allocated op) (hmode : op.mode ≠ .digest) :
    getOpClassType op.operationClass = .symmetric ∨
      getOpClassType op.operationClass = .asymmetric := by
  obtain ⟨c, hc, halg, hcmode⟩ := mem_algConfig h.valid
  rw [h.opClass, ← halg]
  exact opClassType_of_mode c hc (hcmode ▸ Mode.base_ne_digest hmode)

theorem mode_of_stateCheck (h : setOperationKeyComCheck op level = .ok ()) : op.mode ≠ .digest := by
  intro hmode
  simp only [setOperationKeyComCheck, if_pos hmode] at h
  cases h

/-- A key whose size is accepted has bytes. -/
theorem SizePasses.length_ne_zero {attrs : Attributes} (h : SizePasses op key .symmetric)
    (ha : Allocated op) (hmode : op.mode ≠ .digest) (hattrs : key.attributes = some attrs) :
    attrs.first.ref.length ≠ 0 := by
  intro hzero
  obtain ⟨c, hc, halg, hcmode⟩ := mem_algConfig ha.valid
  have hbad := keysize_zero c hc (hcmode ▸ Mode.base_ne_digest hmode)
  have hattr : sizeAttribute key .symmetric = some attrs.first := by
    rw [sizeAttribute, hattrs]
    rfl
  have hsize := (objectKeySize_iff (fun a h => by
    obtain rfl := Option.mem_unique hattr h
    omega)).mp h
  obtain ⟨a, hsome, -, hok⟩ := hsize
  obtain rfl := Option.mem_unique hattr hsome
  rw [halg] at hbad
  simp only [keyBits, hzero, Nat.reduceEqDiff, and_false, if_false, Nat.zero_mul] at hok
  exact hbad hok

/-- A key whose size fits is no longer than what is copied. -/
theorem SizeFits.length_le {attrs : Attributes} (h : SizeFits op key .symmetric)
    (ha : Allocated op) (hattrs : key.attributes = some attrs) :
    attrs.first.ref.length ≤ maxMallocLen := by
  obtain ⟨a, hattr, hmax, -⟩ := h
  obtain rfl : attrs.first = a := by simpa [sizeAttribute, hattrs] using hattr
  have hbits := ha.size
  simp only [maxKeySizeInBits] at hbits
  simp only [maxMallocLen]
  simp only [keyBits] at hmax
  split at hmax
  · omega
  · omega

theorem Fitting.accepted {usage : Word} (h : Fitting SizeFits level op usage key info)
    (ha : Allocated op) : Accepted level op usage key info :=
  { h with
    suits := { h.suits with size := h.suits.size.passes ha }
    room := fun htype _ hattrs => SizeFits.length_le (htype ▸ h.suits.size) ha hattrs }

theorem Accepted.fitting {usage : Word} (h : Accepted level op usage key info)
    (hshort : Short key (getOpClassType op.operationClass)) :
    Fitting SizeFits level op usage key info :=
  { h with suits := { h.suits with size := (objectKeySize_iff hshort).mp h.suits.size } }

theorem compatible_table
    (ha : Allocated op) (hlevel : level > apiLevel10) (hmode : op.mode ≠ .digest) :
    setOperationKeyCompatibleCheck op key level type = .ok () ↔ ∃ info, Suits SizePasses op key type info ∧
        has info.objectUsage (tableUsage op.algorithm op.mode) = true := by
  have hne : level ≠ apiLevel10 := by omega
  unfold setOperationKeyCompatibleCheck
  rw [if_neg hne]
  constructor
  · intro h
    split at h
    · cases h
    next info hinfo =>
    split at h
    · cases h
    next hsize =>
    split_ifs at h with hinit hkind
    · split at h <;> cases h
    split at h
    · cases h
    next husage =>
    rw [Bool.not_eq_false] at hinit hkind
    exact ⟨info, ⟨hinfo, hinit, ⟨hkind, h⟩, hsize⟩, (usageCheck_iff ha.valid hmode).mp husage⟩
  · rintro ⟨info, hcompat, husage⟩
    have hsize : checkObjectKeySizeValid op key type = .ok () := hcompat.size
    simp only [hcompat.object, hsize, hcompat.initialized,
      (usageCheck_iff ha.valid hmode).mpr husage, hcompat.kind.1, hcompat.kind.2, reduceCtorEq,
      if_false]

theorem resetOperationKey_noKey (s : Local κ) : (resetOperationKey s).op.NoKey := ⟨rfl, rfl, rfl, rfl⟩

/-- The call ends well exactly for a key that is accepted and found memory. A refusal by the
state of the handle leaves everything, and any other one no key. -/
theorem setOperationKey_ends (ha : Allocated s.op) (hlevel : level > apiLevel10) :
    Ends (setOperationKey gen level (some key))
      (fun _ _ => ∃ info, Accepted level s.op (tableUsage s.op.algorithm s.op.mode) key info)
      (fun _ t => (setOperationKeyStateCheck s.op level ≠ .ok () ∧ t = s ∨
          setOperationKeyStateCheck s.op level = .ok () ∧ t.op.NoKey) ∧
        ¬ ((∃ info, Accepted level s.op (tableUsage s.op.algorithm s.op.mode) key info) ∧
          Granted s)) s := by
  have hreset := resetOperationKey_noKey s
  unfold setOperationKey
  simp only [ends_steps]
  refine ⟨fun e he => ⟨.inl ⟨by rw [he]; simp, trivial⟩, ?_⟩,
    fun _ hstate => ⟨fun hlisted => ⟨.inr ⟨hstate, hreset⟩, ?_⟩, fun hlisted => ?_⟩⟩
  · rintro ⟨⟨info, hacc⟩, -⟩
    cases he.symm.trans hacc.state
  · rintro ⟨⟨info, hacc⟩, -⟩
    rw [hacc.listed] at hlisted
    cases hlisted.2
  have hmode : s.op.mode ≠ .digest := by
    unfold setOperationKeyStateCheck at hstate
    split at hstate
    · cases hstate
    · exact mode_of_stateCheck hstate
  have hlist : key.listed = true := by
    rw [← Bool.not_eq_false]
    exact fun h => hlisted ⟨hlevel, h⟩
  have hcompat : setOperationKeyCompatibleCheck s.op key level
      (getOpClassType s.op.operationClass) = .ok () ↔ _ := compatible_table ha hlevel hmode
  refine ⟨fun e he => ⟨.inr ⟨hstate, hreset⟩, ?_⟩, fun _ hok => ?_⟩
  · rintro ⟨⟨info, hacc⟩, -⟩
    rw [hcompat.mpr ⟨info, hacc.suits, hacc.allowed⟩] at he
    cases he
  obtain ⟨info, hsuits, hhas⟩ := hcompat.mp hok
  have hinfo : ∀ i, Accepted level s.op (tableUsage s.op.algorithm s.op.mode) key i → i = info := by
    intro i hi
    exact Option.mem_unique hi.suits.object hsuits.object
  rcases ha.opType hmode with htype | htype
  · have hsym := htype ▸ hsuits
    rw [htype]
    simp only [ends_steps]
    refine (setSymmetric_ends hreset).imp ?_ ?_
    · rintro - t ⟨hbuffered, hroom⟩
      refine ⟨info, ⟨hstate, hlist, hsuits, hhas, ?_⟩, fun _ attrs hattrs => (hroom attrs hattrs).2⟩
      simp only [Whole, htype]
      exact hbuffered
    · rintro e t ⟨hnokey, hnot⟩
      refine ⟨.inr ⟨hstate, hnokey⟩, ?_⟩
      rintro ⟨⟨i, hacc⟩, hgranted⟩
      have hwhole := hacc.whole
      simp only [Whole, htype] at hwhole
      exact hnot ⟨⟨hwhole, fun attrs hattrs => ⟨hsym.size.length_ne_zero ha hmode hattrs,
        hacc.room htype attrs hattrs⟩⟩, hgranted⟩
  · have hkey : (getAsymmetricKey key).isSome = true := by
      have hsize := hsuits.size
      unfold SizePasses checkObjectKeySizeValid at hsize
      split at hsize
      · cases hsize
      next a hattr =>
      unfold sizeAttribute at hattr
      split at hattr
      · cases hattr
      · rw [htype] at hattr
        simp only [reduceCtorEq, if_false] at hattr
        rw [hattr]
        rfl
    rw [htype]
    simp only [ends_steps]
    refine (setAsymmetric_ends hreset hlevel hsuits.object hkey).imp ?_ ?_
    · rintro - t hcomplete
      refine ⟨info, ⟨hstate, hlist, hsuits, hhas, ?_⟩, fun hsym => ?_⟩
      · simp only [Whole, htype]
        exact { hcomplete with }
      · cases htype.symm.trans hsym
    · rintro e t ⟨hnokey, hnot⟩
      refine ⟨.inr ⟨hstate, hnokey⟩, ?_⟩
      rintro ⟨⟨i, hacc⟩, hgranted⟩
      have hwhole := hacc.whole
      simp only [Whole, htype, hinfo i hacc] at hwhole
      exact hnot ⟨{ hwhole with }, hgranted⟩

/-! ## Two keys -/

/-- As `Fitting`, for the two keys of an operation, which have to differ. -/
structure FittingTwo (test : SizeTest κ) (level : Nat) (op : Operation κ) (usage : Word)
    (key1 key2 : KeyObject) (attrs1 attrs2 : Attributes) (info1 info2 : ObjectInfo) : Prop where
  state : setOperationKey2StateCheck op level = .ok ()
  listed : key1.listed = true ∧ key2.listed = true
  attrs : key1.attributes = some attrs1 ∧ key2.attributes = some attrs2
  buffered : Buffered key1 ∧ Buffered key2
  differ : operationKeysEqual level attrs1.first.ref attrs2.first.ref = false
  suits1 : Suits test op key1 .symmetric info1
  suits2 : Suits test op key2 .symmetric info2
  allowed1 : has info1.objectUsage usage = true
  allowed2 : has info2.objectUsage usage = true

theorem rescue_ends {P : Prop} (hP : P) (x : Call κ Unit) (f : Local κ → Local κ)
    (E : TeeError → Local κ → Prop) (s : Local κ) : Ends (Act.rescue x f) (fun _ _ => P) E s := by
  rw [ends_rescue]
  unfold Ends
  generalize x s = r
  obtain ⟨e | a, t⟩ := r
  · exact hP
  · exact hP

theorem exists_buffer {ref : Ref} (h : ref ≠ .null ref.length) : ∃ b, ref = .buffer b := by
  cases ref with
  | null n => exact absurd rfl h
  | buffer b => exact ⟨b, rfl⟩

theorem setOperationKey2Values_ends {ref1 ref2 : Ref} (hs : s.op.NoKey) :
    Ends (setOperationKey2Values ref1 ref2)
      (fun _ _ => (∃ b, ref1 = .buffer b) ∧ ∃ b, ref2 = .buffer b)
      (fun _ t => t.op.NoKey ∧ ¬ (Granted s ∧ (ref1.length ≠ 0 ∧ ref2.length ≠ 0) ∧
        (∃ b, ref1 = .buffer b) ∧ ∃ b, ref2 = .buffer b)) s := by
  unfold setOperationKey2Values
  simp only [ends_steps, ends_onError]
  refine ⟨fun hnull => ⟨hs, ?_⟩, fun hnull => ⟨fun hzero => ⟨hs, ?_⟩, fun hlen => ?_⟩⟩
  · rintro ⟨-, -, ⟨b1, rfl⟩, b2, rfl⟩
    simp only [reduceCtorEq, or_self] at hnull
  · rintro ⟨-, ⟨h1, h2⟩, -⟩
    omega
  · have hbuffers : (∃ b, ref1 = .buffer b) ∧ ∃ b, ref2 = .buffer b :=
      ⟨exists_buffer fun h => hnull (.inl h), exists_buffer fun h => hnull (.inr h)⟩
    refine ends_malloc (by omega) ?_ fun hrefused => ⟨hs, fun h => hrefused h.1⟩
    refine ends_malloc (by omega) (rescue_ends hbuffers _ _ _ _) fun hrefused => ⟨?_, fun h => ?_⟩
    · exact ⟨rfl, hs.2.1, hs.2.2.1, hs.2.2.2⟩
    · exact hrefused h.1.answered

/-- Both keys were given, with attributes, and above the lowest level listed. -/
theorem checkTwoKeysValid_some {k1 k2 : KeyObject}
    {a1 a2 : Attributes} (h : checkTwoKeysValid level key1 key2 = .ok (some ((k1, a1), (k2, a2)))) :
    key1 = some k1 ∧ key2 = some k2 ∧ k1.attributes = some a1 ∧ k2.attributes = some a2 ∧
      (level > apiLevel10 → k1.listed = true ∧ k2.listed = true) := by
  unfold checkTwoKeysValid at h
  split at h
  · cases h
  · split at h
    · cases h
    next hlisted =>
    split at h
    · next h1 h2 =>
      cases h
      refine ⟨rfl, rfl, h1, h2, fun hlevel => ?_⟩
      simp only [hlevel, true_and, not_or, Bool.not_eq_false] at hlisted
      exact hlisted
    · cases h
  · cases h

theorem checkTwoKeysValid_none
    (h : checkTwoKeysValid level key1 key2 = .ok none) : key1 = none ∧ key2 = none := by
  unfold checkTwoKeysValid at h
  split at h
  · exact ⟨rfl, rfl⟩
  · split at h
    · cases h
    · split at h <;> cases h
  · cases h

theorem FittingTwo.check {test : SizeTest κ} {usage : Word} {key1 key2 : KeyObject}
    {a1 a2 : Attributes} {info1 info2 : ObjectInfo}
    (h : FittingTwo test level op usage key1 key2 a1 a2 info1 info2) :
    checkTwoKeysValid level (some key1) (some key2) = .ok (some ((key1, a1), (key2, a2))) := by
  simp only [checkTwoKeysValid, h.listed.1, h.listed.2, h.attrs.1, h.attrs.2, reduceCtorEq, or_self,
    and_false, if_false]

/-- Two keys that an operation permits, where they are given. -/
def PermittedTwo (op : Operation κ) (usage : Word) (key1 key2 : Option KeyObject) : Prop :=
  ∀ k, key1 = some k ∨ key2 = some k → Permitted op usage k .symmetric

def FittingPair (level : Nat) (op : Operation κ) (usage : Word) (key1 key2 : Option KeyObject) :
    Prop :=
  ∃ k1 k2 a1 a2 i1 i2, key1 = some k1 ∧ key2 = some k2 ∧
    FittingTwo SizeFits level op usage k1 k2 a1 a2 i1 i2

/-- The checks before the old keys are erased. -/
def TwoKeysChecked (level : Nat) (op : Operation κ) (key1 key2 : Option KeyObject) : Prop :=
  (∃ r, checkTwoKeysValid level key1 key2 = .ok r) ∧ setOperationKey2StateCheck op level = .ok ()

/-- Two keys that pass every check, or none. -/
def AcceptedPair (level : Nat) (op : Operation κ) (usage : Word) (key1 key2 : Option KeyObject) :
    Prop :=
  (key1 = none ∧ key2 = none ∧ setOperationKey2StateCheck op level = .ok ()) ∨
    ∃ k1 k2 a1 a2 i1 i2, key1 = some k1 ∧ key2 = some k2 ∧
      FittingTwo SizePasses level op usage k1 k2 a1 a2 i1 i2

theorem AcceptedPair.checked {usage : Word} (h : AcceptedPair level op usage key1 key2) :
    TwoKeysChecked level op key1 key2 := by
  rcases h with ⟨rfl, rfl, hstate⟩ | ⟨k1, k2, a1, a2, i1, i2, rfl, rfl, hacc⟩
  · exact ⟨⟨none, rfl⟩, hstate⟩
  · exact ⟨⟨_, hacc.check⟩, hacc.state⟩

/-- As `setOperationKey_ends`, for two keys. -/
theorem setOperationKey2_ends (ha : Allocated s.op) (hlevel : level > apiLevel10) :
    Ends (setOperationKey2 level key1 key2)
      (fun _ _ => AcceptedPair level s.op (tableUsage s.op.algorithm s.op.mode) key1 key2)
      (fun _ t => (¬ TwoKeysChecked level s.op key1 key2 ∧ t = s ∨
          TwoKeysChecked level s.op key1 key2 ∧ t.op.NoKey) ∧
        ¬ (AcceptedPair level s.op (tableUsage s.op.algorithm s.op.mode) key1 key2 ∧ Granted s))
      s := by
  have hreset := resetOperationKey_noKey s
  unfold setOperationKey2
  simp only [ends_steps]
  refine ⟨fun e he => ?_, fun keys hkeys => ⟨fun e he => ?_, fun _ hstate => ?_⟩⟩
  · have hnot : ¬ TwoKeysChecked level s.op key1 key2 := by
      rintro ⟨⟨r, hr⟩, -⟩
      cases he.symm.trans hr
    exact ⟨.inl ⟨hnot, trivial⟩, fun h => hnot h.1.checked⟩
  · have hnot : ¬ TwoKeysChecked level s.op key1 key2 := fun h => by
      cases he.symm.trans h.2
    exact ⟨.inl ⟨hnot, trivial⟩, fun h => hnot h.1.checked⟩
  have hchecked : TwoKeysChecked level s.op key1 key2 := ⟨⟨keys, hkeys⟩, hstate⟩
  have hmode : s.op.mode ≠ .digest := by
    unfold setOperationKey2StateCheck at hstate
    split at hstate
    · cases hstate
    · exact mode_of_stateCheck hstate
  rcases keys with _ | ⟨⟨k1, a1⟩, k2, a2⟩
  · obtain ⟨rfl, rfl⟩ := checkTwoKeysValid_none hkeys
    exact .inl ⟨rfl, rfl, hstate⟩
  obtain ⟨rfl, rfl, hattrs1, hattrs2, hlisted⟩ := checkTwoKeysValid_some hkeys
  have hcompat1 : setOperationKeyCompatibleCheck s.op k1 level .symmetric = .ok () ↔ _ :=
    compatible_table ha hlevel hmode
  have hcompat2 : setOperationKeyCompatibleCheck s.op k2 level .symmetric = .ok () ↔ _ :=
    compatible_table ha hlevel hmode
  let usage := tableUsage s.op.algorithm s.op.mode
  -- a pair that is accepted is the one that was checked
  have hsame : ∀ {P : Prop},
      (∀ i1 i2, FittingTwo SizePasses level s.op usage k1 k2 a1 a2 i1 i2 → P) →
      AcceptedPair level s.op usage (some k1) (some k2) → P := by
    rintro P hP (⟨hk1, -⟩ | ⟨k1', k2', a1', a2', i1, i2, hk1, hk2, hacc⟩)
    · cases hk1
    obtain rfl := Option.some.inj hk1
    obtain rfl := Option.some.inj hk2
    obtain rfl := Option.mem_unique hattrs1 hacc.attrs.1
    obtain rfl := Option.mem_unique hattrs2 hacc.attrs.2
    exact hP i1 i2 hacc
  simp only [ends_steps]
  refine ⟨fun hequal => ⟨.inr ⟨hchecked, hreset⟩, fun h => hsame (fun i1 i2 hacc => ?_) h.1⟩,
    fun hdiffer => ⟨fun e he => ⟨.inr ⟨hchecked, hreset⟩, fun h => hsame (fun i1 i2 hacc => ?_) h.1⟩,
    fun _ hok1 => ⟨fun e he => ⟨.inr ⟨hchecked, hreset⟩, fun h => hsame (fun i1 i2 hacc => ?_) h.1⟩,
    fun _ hok2 => ?_⟩⟩⟩
  · rw [hacc.differ] at hequal
    cases hequal
  · cases he.symm.trans (hcompat1.mpr ⟨i1, hacc.suits1, hacc.allowed1⟩)
  · cases he.symm.trans (hcompat2.mpr ⟨i2, hacc.suits2, hacc.allowed2⟩)
  obtain ⟨i1, hsuits1, hhas1⟩ := hcompat1.mp hok1
  obtain ⟨i2, hsuits2, hhas2⟩ := hcompat2.mp hok2
  refine (setOperationKey2Values_ends hreset).imp ?_ ?_
  · rintro - t ⟨⟨b1, hb1⟩, b2, hb2⟩
    refine .inr ⟨k1, k2, a1, a2, i1, i2, rfl, rfl, hstate, hlisted hlevel, ⟨hattrs1, hattrs2⟩,
      ⟨⟨a1, b1, hattrs1, hb1⟩, a2, b2, hattrs2, hb2⟩, ?_, hsuits1, hsuits2, hhas1, hhas2⟩
    exact Bool.eq_false_of_not_eq_true hdiffer
  · rintro e t ⟨hnokey, hnot⟩
    refine ⟨.inr ⟨hchecked, hnokey⟩, fun h => hsame (fun j1 j2 hacc => hnot ⟨h.2, ?_, ?_, ?_⟩) h.1⟩
    · exact ⟨hsuits1.size.length_ne_zero ha hmode hattrs1, hsuits2.size.length_ne_zero ha hmode hattrs2⟩
    · obtain ⟨attrs, b, hattrs, hb⟩ := hacc.buffered.1
      obtain rfl := Option.mem_unique hattrs1 hattrs
      exact ⟨b, hb⟩
    · obtain ⟨attrs, b, hattrs, hb⟩ := hacc.buffered.2
      obtain rfl := Option.mem_unique hattrs2 hattrs
      exact ⟨b, hb⟩

theorem FittingTwo.imp {p q : SizeTest κ} {usage : Word} {key1 key2 : KeyObject}
    {a1 a2 : Attributes} {i1 i2 : ObjectInfo} (h : FittingTwo p level op usage key1 key2 a1 a2 i1 i2)
    (h1 : p op key1 .symmetric → q op key1 .symmetric)
    (h2 : p op key2 .symmetric → q op key2 .symmetric) :
    FittingTwo q level op usage key1 key2 a1 a2 i1 i2 :=
  { h with
    suits1 := { h.suits1 with size := h1 h.suits1.size }
    suits2 := { h.suits2 with size := h2 h.suits2.size } }

end TeeOs.Crypto
