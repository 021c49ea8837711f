import TeeOs.Crypto.Operation

/-!
# Setting the key of an operation

`TEE_SetOperationKey` and `TEE_SetOperationKey2`: the state of the handle is checked, its old
key erased, and then the key object checked against the operation and copied.
-/

namespace TeeOs.Crypto

open TeeOs.Lib

/-! ## Key objects -/

/-- The buffer of an attribute: a null pointer with a length, or the bytes. -/
inductive Ref
  | null (length : Nat)
  | buffer (bytes : Block)
  deriving DecidableEq, Repr

def Ref.length : Ref → Nat
  | .null n => n
  | .buffer b => b.length

structure Attribute where
  attributeID : Word
  ref : Ref
  deriving DecidableEq, Repr

/-- The array of attributes; `attributesLen` of them count, and the first is always there. -/
structure Attributes where
  first : Attribute
  rest : List Attribute
  attributesLen : Nat
  deriving DecidableEq, Repr

def Attributes.all (a : Attributes) : List Attribute := (a.first :: a.rest).take a.attributesLen

structure ObjectInfo where
  objectType : Word
  objectUsage : Word
  handleFlags : Word
  deriving DecidableEq, Repr

/-- `struct __TEE_ObjectHandle`, as far as it is read; `listed` says that `check_object` finds
the handle among those of the live objects. -/
structure KeyObject where
  listed : Bool
  objectInfo : Option ObjectInfo
  attributes : Option Attributes
  crtMode : Bool
  deriving DecidableEq, Repr

def attrRsaModulus : Word := 0xD0000130#32
def attrRsaPublicExponent : Word := 0xD0000230#32
def attrRsaPrivateExponent : Word := 0xC0000330#32
def attrRsaPrime1 : Word := 0xC0000430#32
def attrRsaPrime2 : Word := 0xC0000530#32
def attrRsaExponent1 : Word := 0xC0000630#32
def attrRsaExponent2 : Word := 0xC0000730#32
def attrRsaCoefficient : Word := 0xC0000830#32
def attrDhPublicValue : Word := 0xD0000132#32
def attrDhPrivateValue : Word := 0xC0000232#32
def attrEccPublicValueX : Word := 0xD0000141#32
def attrEccPublicValueY : Word := 0xD0000241#32
def attrEccPrivateValue : Word := 0xC0000341#32
def attrEccCurve : Word := 0xF0000441#32
def attrEd25519PublicValue : Word := 0xD0000743#32
def attrEd25519PrivateValue : Word := 0xC0000843#32
def attrX25519PublicValue : Word := 0xD0000944#32
def attrX25519PrivateValue : Word := 0xC0000A44#32

/-! ## The checks of the handle and of the key -/

inductive OpType
  | symmetric | asymmetric | noKey | invalid
  deriving DecidableEq, Repr

/-- `get_op_class_type`, by `g_operation_type_config`. -/
def getOpClassType : OperationClass → OpType
  | .cipher | .mac | .ae => .symmetric
  | .asymmetricCipher | .asymmetricSignature | .keyDerivation => .asymmetric
  | .digest => .noKey
  | .invalid => .invalid

variable {κ : Type}

variable (op : Operation κ) (key : KeyObject) (level : Nat) (type : OpType)

def setOperationKeyComCheck : Except TeeError Unit :=
  if op.mode = .digest then .error .badParameters
  else if level < apiLevel111 then .ok ()
  else if has op.handleState flagInitialized then .error .badState
  else .ok ()

def setOperationKeyStateCheck : Except TeeError Unit :=
  if op.algorithm = algAesXts then .error .badParameters else setOperationKeyComCheck op level

def setOperationKey2StateCheck : Except TeeError Unit :=
  if op.algorithm ≠ algAesXts then .error .badParameters else setOperationKeyComCheck op level

def maxAttrLen : Nat := 8

def asymmetricAttrIds : List Word :=
  [attrRsaModulus, attrDhPublicValue, attrEccPublicValueX, attrEd25519PublicValue,
    attrX25519PublicValue]

/-- `get_asymmetric_key_index`, with the attribute at the index. -/
def getAsymmetricKey : Option Attribute :=
  match key.attributes with
  | none => none
  | some attrs =>
    if attrs.attributesLen > maxAttrLen then none
    else attrs.all.find? fun a => a.attributeID ∈ asymmetricAttrIds

/-- The attribute that gives the size of the key. -/
def sizeAttribute : Option Attribute :=
  match key.attributes with
  | none => none
  | some attrs => if type = .symmetric then some attrs.first else getAsymmetricKey key

/-- The size of the key in bits as it is computed, in 32 bits. -/
def keySizeInBits (a : Attribute) : Nat :=
  if a.attributeID = attrEccPublicValueX ∧ a.ref.length = 66 then 521
  else a.ref.length * 8 % 2^32

def checkObjectKeySizeValid : Except TeeError Unit :=
  match sizeAttribute key type with
  | none => .error .badParameters
  | some a =>
    if a.ref.length * 8 % 2^64 < a.ref.length then .error .badParameters
    else if keySizeInBits a > op.maxKeySize then .error .badParameters
    else
      match cryptoCheckKeysize op.algorithm (keySizeInBits a) with
      | .error _ => .error .badParameters
      | .ok () => .ok ()

def checkLowLevKeySizeValid : Except TeeError Unit :=
  match sizeAttribute key type with
  | none => .error .badParameters
  | some a =>
    match checkLowLevKeySizeForAlg op.algorithm (a.ref.length % 2^32) with
    | .error _ => .error .badParameters
    | .ok () => .ok ()

structure TypeModeConfig where
  type : Word
  mode0 : Mode
  mode1 : Mode

def typeModeConfig : List TypeModeConfig := [
  ⟨typeRsaPublicKey, .verify, .encrypt⟩,
  ⟨typeDsaPublicKey, .verify, .unknown⟩,
  ⟨typeEcdsaPublicKey, .verify, .unknown⟩,
  ⟨typeEd25519PublicKey, .verify, .unknown⟩,
  ⟨typeEcdhPublicKey, .derive, .unknown⟩,
  ⟨typeX25519PublicKey, .derive, .unknown⟩,
  ⟨typeSm2DsaPublicKey, .verify, .unknown⟩,
  ⟨typeSm2PkePublicKey, .encrypt, .decrypt⟩]

def operationPublicKeyTypeModeCheck (mode : Mode) (type : Word) : Except TeeError Unit :=
  match typeModeConfig.find? fun c => c.type = type with
  | some c => if mode ≠ c.mode0 ∧ mode ≠ c.mode1 then .error .badParameters else .ok ()
  | none => .ok ()

structure ModeUsageConf where
  mode : Mode
  algo : Word
  usage : Word

def algAny : Word := 0xFFFFFFFF#32

def modeUsageConf : List ModeUsageConf := [
  ⟨.encrypt, algRsaNopad, usageEncrypt ||| usageVerify⟩,
  ⟨.decrypt, algRsaNopad, usageDecrypt ||| usageSign⟩,
  ⟨.encrypt, algAny, usageEncrypt⟩,
  ⟨.decrypt, algAny, usageDecrypt⟩,
  ⟨.sign, algAny, usageSign⟩,
  ⟨.verify, algAny, usageVerify⟩,
  ⟨.mac, algAny, usageMac⟩,
  ⟨.digest, 0#32, 0#32⟩,
  ⟨.derive, algAny, usageMac⟩]

/-- The first entry of the mode whose bits contain those of the algorithm. -/
def usageConfOf (alg : Word) (mode : Mode) : Option ModeUsageConf :=
  modeUsageConf.find? fun c => c.mode = mode ∧ alg &&& c.algo = alg

def operationModeKeyUsageCheck (alg : Word) (mode : Mode) (usage : Word) : Except TeeError Unit :=
  match usageConfOf alg mode with
  | none => .error .badParameters
  | some c => if has usage c.usage then .ok () else .error .badParameters

def setOperationKeyCompatibleCheck : Except TeeError Unit :=
  if level = apiLevel10 then checkLowLevKeySizeValid op key type
  else
    match key.objectInfo with
    | none => .error .badParameters
    | some info =>
      match checkObjectKeySizeValid op key type with
      | .error _ => .error .badParameters
      | .ok () =>
        if has info.handleFlags flagInitialized = false then .error .badParameters
        else
          match operationModeKeyUsageCheck op.algorithm op.mode info.objectUsage with
          | .error _ => .error .badParameters
          | .ok () =>
            if cryptoCheckKeytypeValid op.algorithm info.objectType = false then
              .error .badParameters
            else operationPublicKeyTypeModeCheck op.mode info.objectType

end TeeOs.Crypto
