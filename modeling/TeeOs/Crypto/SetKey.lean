import TeeOs.Crypto.KeyObject

/-!
# Copying a key object into the handle

The second half of `TEE_SetOperationKey` and `TEE_SetOperationKey2`. A key of a symmetric
operation is one buffer; one of an asymmetric operation is a structure for the public and one
for the private part, which are filled from the attributes field by field.
-/

namespace TeeOs.Crypto

open TeeOs.Lib Act

variable {κ : Type}

def maxMallocLen : Nat := 500 * 1024 + 1
def mallocMaxKeySize : Nat := 1024
def rsaMaxKeySize : Nat := 512
def rsaMaxKeySizeCrt : Nat := 256
def rsaExponentLen : Nat := 4
def eccKeyLen : Nat := 68
def securecMemMaxLen : Nat := 0x7fffffff

/-- The sizes of the key structures, without their length fields. -/
def rsaPubKeySize : Nat := rsaExponentLen + rsaMaxKeySize
def rsaPrivKeySize : Nat := rsaExponentLen + 2 * rsaMaxKeySize + 5 * rsaMaxKeySizeCrt
def eccPubKeySize : Nat := 2 * eccKeyLen
def eccPrivKeySize : Nat := eccKeyLen

/-- `memcpy_s` of a whole buffer into `cap` bytes. -/
def memcpy (cap : Nat) : Ref → Except TeeError Block
  | .null _ => .error .security
  | .buffer b => if cap = 0 ∨ cap > securecMemMaxLen ∨ b.length > cap then .error .security else .ok b

/-! ## Symmetric keys -/

variable (level : Nat) (alg : Word) (key : KeyObject)

def setSymmetricOperationKey : Call κ Unit := do
  let attrs ← get? key.attributes .badParameters
  let ref := attrs.first.ref
  failIf (ref.length = 0 ∨ ref.length > maxMallocLen) .badParameters
  let block ← malloc ref.length .outOfMemory
  -- the copy fails for a null buffer only, and the block is freed before anything was written
  let value ← onError (ofExcept (memcpy ref.length ref)) (Local.release (some block))
  change (Local.update fun op => { op with keyValue := some value, keySize := ref.length % 2^32 })

/-! ## Asymmetric keys -/

def findAttribute (id : Word) : Option Attribute :=
  match key.attributes with
  | none => none
  | some attrs => attrs.all.find? fun a => a.attributeID = id

def copySingleKeyFromObject (id : Word) (cap : Nat) : Except TeeError Block :=
  match findAttribute key id with
  | none => .error .badParameters
  | some a => memcpy cap a.ref

/-- Fields copied one after the other until one fails: what was copied, and the error. -/
def copyFields (key : KeyObject) : List (Word × Nat) → Block × Option TeeError
  | [] => ([], none)
  | (id, cap) :: fields =>
    match copySingleKeyFromObject key id cap with
    | .error e => ([], some e)
    | .ok b => (b ++ (copyFields key fields).1, (copyFields key fields).2)

/-- A structure of `size` bytes that begins with these. -/
def padded (size : Nat) (b : Block) : Block := b ++ List.replicate (size - b.length) 0

def setPublicKey (b : Block) (len : Nat) (op : Operation κ) : Operation κ :=
  { op with publicKey := some b, publicKeyLen := len }

def setPrivateKey (b : Block) (len : Nat) (op : Operation κ) : Operation κ :=
  { op with privateKey := some b, privateKeyLen := len }

/-- A public structure of `size` bytes, filled from the fields. -/
def fillPublic (size : Nat) (filled : Block × Option TeeError) : Call κ Unit := do
  let _ ← malloc size .outOfMemory
  match filled.2 with
  | some e => fail e
  | none => change (Local.update (setPublicKey (padded size filled.1) size))

/-- A private structure of `size` bytes, filled from the fields, and erased where one fails. -/
def fillPrivate (size : Nat) (filled : Block × Option TeeError) : Call κ Unit := do
  let _ ← malloc size .outOfMemory
  match filled.2 with
  | some e => do
    change (Local.release (some (wipe size (padded size filled.1))))
    fail e
  | none => change (Local.update (setPrivateKey (padded size filled.1) size))

def rsaPublicFields : List (Word × Nat) :=
  [(attrRsaModulus, rsaMaxKeySize), (attrRsaPublicExponent, rsaExponentLen)]

def rsaSetPubKeyHal : Call κ Unit :=
  fillPublic rsaPubKeySize (copyFields key rsaPublicFields)

/-- The curve of an elliptic key is looked up before its point. -/
def eccPoint : Block × Option TeeError :=
  match findAttribute key attrEccCurve with
  | none => ([], some .badParameters)
  | some _ => copyFields key [(attrEccPublicValueX, eccKeyLen), (attrEccPublicValueY, eccKeyLen)]

def eccPublic : Block × Option TeeError :=
  if alg = algEd25519 then copyFields key [(attrEd25519PublicValue, eccKeyLen)]
  else if alg = algX25519 then copyFields key [(attrX25519PublicValue, eccKeyLen)]
  else eccPoint key

def eccSetPubKeyHal : Call κ Unit :=
  fillPublic eccPubKeySize (eccPublic alg key)

/-- `dh_set_public_key_hal` and `dh_set_private_key_hal`, which differ in the attribute and in
where the copy goes. -/
def dhValue (id : Word) : Call κ Block := do
  let a ← get? (findAttribute key id) .badParameters
  failIf (a.ref.length > mallocMaxKeySize) .badParameters
  let block ← malloc a.ref.length .outOfMemory
  onError (ofExcept (memcpy a.ref.length a.ref)) (Local.release (some block))

def dhSetPublicKeyHal : Call κ Unit := do
  let b ← dhValue key attrDhPublicValue
  change (Local.update (setPublicKey b b.length))

def dhSetPrivateKeyHal : Call κ Unit := do
  let b ← dhValue key attrDhPrivateValue
  change (Local.update (setPrivateKey b b.length))

def eccTypes : List Word :=
  [typeEcdsaPublicKey, typeEcdsaKeypair, typeEcdhPublicKey, typeEcdhKeypair, typeSm2DsaPublicKey,
    typeSm2DsaKeypair, typeSm2PkePublicKey, typeSm2PkeKeypair, typeSm2KepPublicKey,
    typeSm2KepKeypair, typeEd25519PublicKey, typeEd25519Keypair, typeX25519PublicKey,
    typeX25519Keypair]

def eccKeypairTypes : List Word :=
  [typeEcdsaKeypair, typeEcdhKeypair, typeEd25519Keypair, typeX25519Keypair, typeSm2DsaKeypair,
    typeSm2PkeKeypair, typeSm2KepKeypair]

def setPublicKeyHal (alg type : Word) (key : KeyObject) : Call κ Unit :=
  if type = typeRsaPublicKey ∨ type = typeRsaKeypair then rsaSetPubKeyHal key
  else if type ∈ eccTypes then eccSetPubKeyHal alg key
  else if type = typeDhKeypair then dhSetPublicKeyHal key
  else fail .notSupported

def rsaPrivateFields : List (Word × Nat) :=
  rsaPublicFields ++ [(attrRsaPrivateExponent, rsaMaxKeySize)]

def rsaSetPrivateKeyHal : Call κ Unit :=
  fillPrivate rsaPrivKeySize (copyFields key rsaPrivateFields)

/-- `ed25519_set_private_key_hal`: the public value is put behind a private one of less than
64 bytes. -/
def ed25519PrivateKey : Block × Option TeeError :=
  match copySingleKeyFromObject key attrEd25519PrivateValue eccKeyLen with
  | .error e => ([], some e)
  | .ok r =>
    if r.length = 64 then (r, none)
    else
      match copySingleKeyFromObject key attrEd25519PublicValue (eccKeyLen - r.length) with
      | .error _ => (r, some .badParameters)
      | .ok x => (r ++ x, none)

/-- The curve of an elliptic key is looked up behind its private value. -/
def eccPrivateValue : Block × Option TeeError :=
  match copySingleKeyFromObject key attrEccPrivateValue eccKeyLen with
  | .error e => ([], some e)
  | .ok r => (r, if (findAttribute key attrEccCurve).isSome then none else some .badParameters)

def eccPrivate : Block × Option TeeError :=
  if alg = algEd25519 then ed25519PrivateKey key
  else if alg = algX25519 then copyFields key [(attrX25519PrivateValue, eccKeyLen)]
  else eccPrivateValue key

def eccSetPrivateKeyHal : Call κ Unit :=
  fillPrivate eccPrivKeySize (eccPrivate alg key)

def setPrivateKeyHal (alg type : Word) (key : KeyObject) : Call κ Unit :=
  if type = typeRsaKeypair then rsaSetPrivateKeyHal key
  else if type ∈ eccKeypairTypes then eccSetPrivateKeyHal alg key
  else if type = typeDhKeypair then dhSetPrivateKeyHal key
  else fail .notSupported

def rsaCrtFields : List (Word × Nat) :=
  rsaPublicFields ++
    [(attrRsaPrime1, rsaMaxKeySizeCrt), (attrRsaPrime2, rsaMaxKeySizeCrt),
      (attrRsaExponent1, rsaMaxKeySizeCrt), (attrRsaExponent2, rsaMaxKeySizeCrt),
      (attrRsaCoefficient, rsaMaxKeySizeCrt)]

def setPrivateKeyCrtHal : Call κ Unit :=
  fillPrivate rsaPrivKeySize (copyFields key rsaCrtFields)

/-- The numbers of attributes `tee_keytype_and_attrilen_check` takes, by type. -/
def attriLens : List (Word × Nat) :=
  [(typeEcdsaPublicKey, 3), (typeEcdsaKeypair, 4), (typeEcdhPublicKey, 3), (typeEcdhKeypair, 4),
    (typeRsaPublicKey, 2), (typeRsaKeypair, 3), (typeRsaKeypair, 8), (typeEd25519Keypair, 2),
    (typeEd25519PublicKey, 1), (typeX25519Keypair, 2), (typeX25519PublicKey, 1),
    (typeSm2DsaPublicKey, 3), (typeSm2DsaKeypair, 4), (typeSm2PkePublicKey, 3),
    (typeSm2PkeKeypair, 4), (typeSm2KepPublicKey, 3), (typeSm2KepKeypair, 4), (typeDhKeypair, 4),
    (typeDhKeypair, 6)]

def keypairTypes : List Word := typeRsaKeypair :: typeDhKeypair :: eccKeypairTypes

def isNoNeedSetPrivateKey (mode : Mode) (type : Word) : Bool :=
  decide (type ∉ keypairTypes) || decide (mode = .encrypt ∨ mode = .verify)

def dropPublicKey (op : Operation κ) : Operation κ :=
  { op with publicKey := none, publicKeyLen := 0 }

variable (genKeyPair : Call κ Unit)

/-- `tee_get_asymmetric_keys`; at the lowest level a pair is generated for an object without
attributes, which is left to `genKeyPair`. -/
def teeGetAsymmetricKeys (key : KeyObject) (level : Nat) : Call κ Unit := do
  change (Local.update fun op => { op with keySize := op.maxKeySize })
  let op ← reads Local.op
  let attributesLen := (key.attributes.map Attributes.attributesLen).getD 0
  if attributesLen = 0 then
    if level ≤ apiLevel10 then genKeyPair else fail .badParameters
  else
    let info ← get? key.objectInfo .badParameters
    failIf ((info.objectType, attributesLen) ∉ attriLens) .badParameters
    setPublicKeyHal op.algorithm info.objectType key
    if isNoNeedSetPrivateKey op.mode info.objectType then pure ()
    else
      onError
        (if key.crtMode then setPrivateKeyCrtHal key
        else setPrivateKeyHal op.algorithm info.objectType key)
        (Local.update dropPublicKey)

/-- Both parts of the key are freed, the private one erased before. -/
def dropKeyPair (s : Local κ) : Local κ :=
  (s.release (s.op.privateKey.map (wipe s.op.privateKeyLen))).update fun op =>
    { dropPublicKey op with privateKey := none, privateKeyLen := 0 }

def setAsymmetricOperationKey (key : KeyObject) (level : Nat) : Call κ Unit := do
  teeGetAsymmetricKeys genKeyPair key level
  if level = apiLevel10 then pure ()
  else
    let a ← onError (get? (getAsymmetricKey key) .badParameters) dropKeyPair
    change (Local.update fun op => { op with keySize := a.ref.length % 2^32 })

/-! ## The two calls -/

/-- `TEE_SetOperationKey`; no object erases the key only. -/
def setOperationKey (level : Nat) (key : Option KeyObject) : Call κ Unit := do
  let op ← reads Local.op
  ofExcept (setOperationKeyStateCheck op level)
  change resetOperationKey
  match key with
  | none => pure ()
  | some key =>
    failIf (level > apiLevel10 ∧ key.listed = false) .badParameters
    let type := getOpClassType op.operationClass
    ofExcept (setOperationKeyCompatibleCheck op key level type)
    match type with
    | .symmetric => setSymmetricOperationKey key
    | .asymmetric => setAsymmetricOperationKey genKeyPair key level
    | _ => fail .badParameters
    change (Local.update (Operation.raise flagKeySet))
  change Local.tick

/-- `check_operation_key_equal` answers success. -/
def operationKeysEqual (ref1 ref2 : Ref) : Bool :=
  decide (level > apiLevel111) && decide (ref1.length = ref2.length) &&
    (decide (ref1.length = 0) || decide (ref1 = ref2))

def checkTwoKeysValid (key1 key2 : Option KeyObject) :
    Except TeeError (Option ((KeyObject × Attributes) × (KeyObject × Attributes))) :=
  match key1, key2 with
  | none, none => .ok none
  | some key1, some key2 =>
    if level > apiLevel10 ∧ (key1.listed = false ∨ key2.listed = false) then .error .badParameters
    else
      match key1.attributes, key2.attributes with
      | some attrs1, some attrs2 => .ok (some ((key1, attrs1), (key2, attrs2)))
      | _, _ => .error .badParameters
  | _, _ => .error .badParameters

def copyKeyValueToOperation (ref1 ref2 : Ref) : Call κ Unit := do
  let value1 ← ofExcept (memcpy ref1.length ref1)
  change (Local.update fun op =>
    { op with keyValue := some value1, keySize := ref1.length % 2^32 })
  let value2 ← ofExcept (memcpy ref2.length ref2)
  change (Local.update fun op =>
    { op with keyValue2 := some value2, keySize2 := ref2.length % 2^32 })

/-- Both keys are freed, each erased over the length of the first. -/
def dropTwoKeys (s : Local κ) : Local κ :=
  let op := s.op
  let s := s.release (op.keyValue.map (wipe op.keySize))
  let s := s.release (op.keyValue2.map (wipe op.keySize))
  s.update fun op => { op with keyValue := none, keyValue2 := none }

/-- `set_operation_key_2`; a copy that fails is cleaned up and then not reported. -/
def setOperationKey2Values (ref1 ref2 : Ref) : Call κ Unit := do
  failIf (ref1 = .null ref1.length ∨ ref2 = .null ref2.length) .badParameters
  failIf (ref1.length = 0 ∨ ref2.length = 0) .badParameters
  let block1 ← malloc ref1.length .outOfMemory
  change (Local.update fun op => { op with keyValue := some block1 })
  let block2 ← onError (malloc ref2.length .outOfMemory)
    fun s => (s.release s.op.keyValue).update fun op => { op with keyValue := none }
  change (Local.update fun op => { op with keyValue2 := some block2 })
  rescue (copyKeyValueToOperation ref1 ref2) dropTwoKeys
  change (Local.update (Operation.raise flagKeySet))

/-- `TEE_SetOperationKey2`; no objects erase the keys only. -/
def setOperationKey2 (key1 key2 : Option KeyObject) : Call κ Unit := do
  let keys ← ofExcept (checkTwoKeysValid level key1 key2)
  let op ← reads Local.op
  ofExcept (setOperationKey2StateCheck op level)
  change resetOperationKey
  match keys with
  | none => pure ()
  | some ((key1, attrs1), (key2, attrs2)) =>
    let ref1 := attrs1.first.ref
    let ref2 := attrs2.first.ref
    failIf (operationKeysEqual level ref1 ref2) .security
    ofExcept (setOperationKeyCompatibleCheck op key1 level .symmetric)
    ofExcept (setOperationKeyCompatibleCheck op key2 level .symmetric)
    setOperationKey2Values ref1 ref2
  change Local.tick

end TeeOs.Crypto
