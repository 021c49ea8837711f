import Mathlib

/-!
# The algorithms of the crypto library

The table `g_alg_config`: for each algorithm the mode it is allocated in, the class of its
operations, the key sizes it takes and the type of its key objects.
-/

namespace TeeOs.Crypto

abbrev Word := BitVec 32

instance : LawfulBEq Word := inferInstance

inductive TeeError
  | generic | badParameters | badState | notSupported | outOfMemory | security | shortBuffer
  | macInvalid | signatureInvalid | badFormat | ciphertextInvalid | overflow
  deriving DecidableEq, Repr

/-- The modes of an operation; `unknown` is any number that names none, such as
`TEE_MODE_INVALID`. -/
inductive Mode
  | encrypt | decrypt | sign | verify | mac | digest | derive | unknown
  deriving DecidableEq, Repr

inductive OperationClass
  | cipher | mac | ae | digest | asymmetricCipher | asymmetricSignature | keyDerivation | invalid
  deriving DecidableEq, Repr

def apiLevel10 : Nat := 1
def apiLevel111 : Nat := 2

/-! ## Algorithms and key types -/

def algAesEcbNopad : Word := 0x10000010#32
def algAesCbcNopad : Word := 0x10000110#32
def algAesCtr : Word := 0x10000210#32
def algAesCts : Word := 0x10000310#32
def algAesXts : Word := 0x10000410#32
def algAesEcbPkcs5 : Word := 0x10000020#32
def algAesCbcPkcs5 : Word := 0x10000220#32
def algSm4EcbNopad : Word := 0x10000014#32
def algSm4CbcNopad : Word := 0x10000114#32
def algSm4Ctr : Word := 0x10000214#32
def algSm4Cfb128 : Word := 0xF0000000#32
def algSm4CbcPkcs7 : Word := 0xF0000003#32
def algSm4Gcm : Word := 0xF0000005#32
def algAesCbcMacNopad : Word := 0x30000110#32
def algAesCmac : Word := 0x30000610#32
def algHmacSha1 : Word := 0x30000002#32
def algHmacSha256 : Word := 0x30000004#32
def algHmacSha384 : Word := 0x30000005#32
def algHmacSha512 : Word := 0x30000006#32
def algHmacSm3 : Word := 0x30000007#32
def algSipHash : Word := 0xF0000002#32
def algAesCcm : Word := 0x40000710#32
def algAesGcm : Word := 0x40000810#32
def algSha256 : Word := 0x50000004#32
def algSha384 : Word := 0x50000005#32
def algSha512 : Word := 0x50000006#32
def algSm3 : Word := 0x50000007#32
def algRsaesPkcs1V15 : Word := 0x60000130#32
def algRsaesOaepSha1 : Word := 0x60210230#32
def algRsaesOaepSha224 : Word := 0x60211230#32
def algRsaesOaepSha256 : Word := 0x60212230#32
def algRsaesOaepSha384 : Word := 0x60213230#32
def algRsaesOaepSha512 : Word := 0x60214230#32
def algRsaNopad : Word := 0x60000030#32
def algRsassaV15Md5 : Word := 0x70001830#32
def algRsassaV15Sha1 : Word := 0x70002830#32
def algRsassaV15Sha224 : Word := 0x70003830#32
def algRsassaV15Sha256 : Word := 0x70004830#32
def algRsassaV15Sha384 : Word := 0x70005830#32
def algRsassaV15Sha512 : Word := 0x70006830#32
def algRsassaPssMd5 : Word := 0x70111930#32
def algRsassaPssSha1 : Word := 0x70212930#32
def algRsassaPssSha224 : Word := 0x70313930#32
def algRsassaPssSha256 : Word := 0x70414930#32
def algRsassaPssSha384 : Word := 0x70515930#32
def algRsassaPssSha512 : Word := 0x70616930#32
def algEcdsaSha1 : Word := 0x70001042#32
def algEcdsaSha224 : Word := 0x70002042#32
def algEcdsaSha256 : Word := 0x70003042#32
def algEcdsaSha384 : Word := 0x70004042#32
def algEcdsaSha512 : Word := 0x70005042#32
def algEd25519 : Word := 0x70005043#32
def algSm2DsaSm3 : Word := 0x70006045#32
def algSm2Pke : Word := 0x80000045#32
def algDhDerive : Word := 0x80000032#32
def algEcdhDerive : Word := 0x80000042#32
def algEcdhP224 : Word := 0x80002042#32
def algEcdhP256 : Word := 0x80003042#32
def algEcdhP384 : Word := 0x80004042#32
def algEcdhP521 : Word := 0x80005042#32
def algX25519 : Word := 0x80000044#32

def typeAes : Word := 0xA0000010#32
def typeSm4 : Word := 0xA0000014#32
def typeHmacSha1 : Word := 0xA0000002#32
def typeHmacSha256 : Word := 0xA0000004#32
def typeHmacSha384 : Word := 0xA0000005#32
def typeHmacSha512 : Word := 0xA0000006#32
def typeHmacSm3 : Word := 0xA0000007#32
def typeSipHash : Word := 0xF0000002#32
def typeRsaPublicKey : Word := 0xA0000030#32
def typeRsaKeypair : Word := 0xA1000030#32
def typeDsaPublicKey : Word := 0xA0000031#32
def typeDhKeypair : Word := 0xA1000032#32
def typeEcdsaPublicKey : Word := 0xA0000041#32
def typeEcdsaKeypair : Word := 0xA1000041#32
def typeEcdhPublicKey : Word := 0xA0000042#32
def typeEcdhKeypair : Word := 0xA1000042#32
def typeEd25519PublicKey : Word := 0xA0000043#32
def typeEd25519Keypair : Word := 0xA1000043#32
def typeX25519PublicKey : Word := 0xA0000044#32
def typeX25519Keypair : Word := 0xA1000044#32
def typeSm2DsaPublicKey : Word := 0xA0000045#32
def typeSm2DsaKeypair : Word := 0xA1000045#32
def typeSm2KepPublicKey : Word := 0xA0000046#32
def typeSm2KepKeypair : Word := 0xA1000046#32
def typeSm2PkePublicKey : Word := 0xA0000047#32
def typeSm2PkeKeypair : Word := 0xA1000047#32
def typeInvalid : Word := 0xFFFFFFFF#32

/-! ## Key sizes, in bits -/

def sizeOneOf (sizes : List Nat) (maxKeySize : Nat) : Except TeeError Unit :=
  if maxKeySize ∈ sizes then .ok () else .error .badParameters

/-- At least `lo`, at most `hi` and a multiple of `block`. -/
def sizeBetween (lo hi block maxKeySize : Nat) : Except TeeError Unit :=
  if lo ≤ maxKeySize ∧ maxKeySize ≤ hi ∧ maxKeySize % block = 0 then .ok ()
  else .error .badParameters

def checkKeysizeForAes := sizeOneOf [128, 192, 256]
def checkKeysizeForRsa := sizeBetween 2048 4096 128
def checkKeysizeForDhDerive := sizeBetween 256 2048 8
def checkKeysizeForHmac := sizeBetween 64 8192 8
def checkKeysizeForHmacSm3 := sizeBetween 80 1024 8
def checkKeysizeForSipHash := sizeOneOf [128]
def checkKeysizeForEcdsaShaX := sizeOneOf [224, 256, 320, 384, 521]
def checkKeysizeForEcdhP224 := sizeOneOf [224]
def checkKeysizeForEcdhP256 := sizeOneOf [256]
def checkKeysizeForEcdhP384 := sizeOneOf [384]
def checkKeysizeForEcdhP521 := sizeOneOf [521]
def checkKeysizeFor25519 := sizeOneOf [256]
def checkKeysizeForSm2 := sizeOneOf [256]
def checkKeysizeForSm4 := sizeOneOf [128]

def checkKeysizeForOthers (maxKeySize : Nat) : Except TeeError Unit :=
  if maxKeySize % 8 = 0 then .ok () else .error .badParameters

/-! ## The table -/

structure AlgConfig where
  alg : Word
  mode : Mode
  opClass : OperationClass
  checkKeysize : Nat → Except TeeError Unit
  keytype : Word

/-- `g_alg_config`, with the entries of the 25519 curves. -/
def algConfig : List AlgConfig := [
  ⟨algAesEcbNopad, .encrypt, .cipher, checkKeysizeForAes, typeAes⟩,
  ⟨algAesCbcNopad, .encrypt, .cipher, checkKeysizeForAes, typeAes⟩,
  ⟨algAesCtr, .encrypt, .cipher, checkKeysizeForAes, typeAes⟩,
  ⟨algAesCts, .encrypt, .cipher, checkKeysizeForAes, typeAes⟩,
  ⟨algAesXts, .encrypt, .cipher, checkKeysizeForAes, typeAes⟩,
  ⟨algAesCbcMacNopad, .mac, .mac, checkKeysizeForAes, typeAes⟩,
  ⟨algAesCmac, .mac, .mac, checkKeysizeForAes, typeAes⟩,
  ⟨algAesCcm, .encrypt, .ae, checkKeysizeForAes, typeAes⟩,
  ⟨algAesGcm, .encrypt, .ae, checkKeysizeForAes, typeAes⟩,
  ⟨algAesEcbPkcs5, .encrypt, .cipher, checkKeysizeForAes, typeAes⟩,
  ⟨algAesCbcPkcs5, .encrypt, .cipher, checkKeysizeForAes, typeAes⟩,
  ⟨algRsassaV15Sha256, .sign, .asymmetricSignature, checkKeysizeForRsa, typeRsaPublicKey⟩,
  ⟨algRsassaV15Sha384, .sign, .asymmetricSignature, checkKeysizeForRsa, typeRsaPublicKey⟩,
  ⟨algRsassaV15Sha512, .sign, .asymmetricSignature, checkKeysizeForRsa, typeRsaPublicKey⟩,
  ⟨algRsassaPssSha1, .sign, .asymmetricSignature, checkKeysizeForRsa, typeRsaPublicKey⟩,
  ⟨algRsassaPssSha256, .sign, .asymmetricSignature, checkKeysizeForRsa, typeRsaPublicKey⟩,
  ⟨algRsassaPssSha384, .sign, .asymmetricSignature, checkKeysizeForRsa, typeRsaPublicKey⟩,
  ⟨algRsassaPssSha512, .sign, .asymmetricSignature, checkKeysizeForRsa, typeRsaPublicKey⟩,
  ⟨algRsaesPkcs1V15, .encrypt, .asymmetricCipher, checkKeysizeForRsa, typeRsaPublicKey⟩,
  ⟨algRsaesOaepSha1, .encrypt, .asymmetricCipher, checkKeysizeForRsa, typeRsaPublicKey⟩,
  ⟨algRsaesOaepSha256, .encrypt, .asymmetricCipher, checkKeysizeForRsa, typeRsaPublicKey⟩,
  ⟨algRsaesOaepSha384, .encrypt, .asymmetricCipher, checkKeysizeForRsa, typeRsaPublicKey⟩,
  ⟨algRsaesOaepSha512, .encrypt, .asymmetricCipher, checkKeysizeForRsa, typeRsaPublicKey⟩,
  ⟨algRsaNopad, .encrypt, .asymmetricCipher, checkKeysizeForRsa, typeRsaPublicKey⟩,
  ⟨algDhDerive, .derive, .keyDerivation, checkKeysizeForDhDerive, typeDhKeypair⟩,
  ⟨algHmacSha1, .mac, .mac, checkKeysizeForHmac, typeHmacSha1⟩,
  ⟨algHmacSha256, .mac, .mac, checkKeysizeForHmac, typeHmacSha256⟩,
  ⟨algHmacSha384, .mac, .mac, checkKeysizeForHmac, typeHmacSha384⟩,
  ⟨algHmacSha512, .mac, .mac, checkKeysizeForHmac, typeHmacSha512⟩,
  ⟨algHmacSm3, .mac, .mac, checkKeysizeForHmacSm3, typeHmacSm3⟩,
  ⟨algSipHash, .mac, .mac, checkKeysizeForSipHash, typeSipHash⟩,
  ⟨algEcdsaSha256, .sign, .asymmetricSignature, checkKeysizeForEcdsaShaX, typeEcdsaPublicKey⟩,
  ⟨algEcdsaSha384, .sign, .asymmetricSignature, checkKeysizeForEcdsaShaX, typeEcdsaPublicKey⟩,
  ⟨algEcdsaSha512, .sign, .asymmetricSignature, checkKeysizeForEcdsaShaX, typeEcdsaPublicKey⟩,
  ⟨algEcdhDerive, .derive, .keyDerivation, checkKeysizeForEcdsaShaX, typeEcdhPublicKey⟩,
  ⟨algEcdhP224, .derive, .keyDerivation, checkKeysizeForEcdhP224, typeEcdhPublicKey⟩,
  ⟨algEcdhP256, .derive, .keyDerivation, checkKeysizeForEcdhP256, typeEcdhPublicKey⟩,
  ⟨algEcdhP384, .derive, .keyDerivation, checkKeysizeForEcdhP384, typeEcdhPublicKey⟩,
  ⟨algEcdhP521, .derive, .keyDerivation, checkKeysizeForEcdhP521, typeEcdhPublicKey⟩,
  ⟨algSm2DsaSm3, .sign, .asymmetricSignature, checkKeysizeForSm2, typeSm2DsaPublicKey⟩,
  ⟨algSm2Pke, .encrypt, .asymmetricCipher, checkKeysizeForSm2, typeSm2PkePublicKey⟩,
  ⟨algSm4EcbNopad, .encrypt, .cipher, checkKeysizeForSm4, typeSm4⟩,
  ⟨algSm4CbcNopad, .encrypt, .cipher, checkKeysizeForSm4, typeSm4⟩,
  ⟨algSm4CbcPkcs7, .encrypt, .cipher, checkKeysizeForSm4, typeSm4⟩,
  ⟨algSm4Ctr, .encrypt, .cipher, checkKeysizeForSm4, typeSm4⟩,
  ⟨algSm4Gcm, .encrypt, .ae, checkKeysizeForSm4, typeSm4⟩,
  ⟨algSm4Cfb128, .encrypt, .cipher, checkKeysizeForSm4, typeSm4⟩,
  ⟨algSm4Gcm, .encrypt, .ae, checkKeysizeForSm4, typeSm4⟩,
  ⟨algSm3, .digest, .digest, checkKeysizeForOthers, typeInvalid⟩,
  ⟨algSha256, .digest, .digest, checkKeysizeForOthers, typeInvalid⟩,
  ⟨algSha384, .digest, .digest, checkKeysizeForOthers, typeInvalid⟩,
  ⟨algSha512, .digest, .digest, checkKeysizeForOthers, typeInvalid⟩,
  ⟨algEd25519, .sign, .asymmetricSignature, checkKeysizeFor25519, typeEd25519PublicKey⟩,
  ⟨algX25519, .derive, .keyDerivation, checkKeysizeFor25519, typeX25519PublicKey⟩]

variable (alg : Word)

def cryptoCheckAlgValid (mode : Mode) : Bool :=
  algConfig.any fun c => decide (alg = c.alg ∧ mode = c.mode)

def cryptoGetOpClass : OperationClass :=
  match algConfig.find? fun c => c.alg = alg with
  | some c => c.opClass
  | none => .invalid

def cryptoCheckKeysize (maxKeySize : Nat) : Except TeeError Unit :=
  match algConfig.find? fun c => c.alg = alg with
  | some c => c.checkKeysize maxKeySize
  | none => .error .notSupported

def keypairOffset : Word := 0x1000000#32

/-- The key types that `crypto_check_keytype_valid` knows a pair of. -/
def pairedTypes : List Word :=
  [typeRsaPublicKey, typeDsaPublicKey, typeEcdsaPublicKey, typeEcdhPublicKey, typeEd25519PublicKey,
    typeX25519PublicKey, typeSm2DsaPublicKey, typeSm2KepPublicKey, typeSm2PkePublicKey]

def cryptoCheckKeytypeValid (alg type : Word) : Bool :=
  match algConfig.find? fun c => c.alg = alg with
  | some c =>
    decide (type = c.keytype) ||
      (decide (c.keytype ∈ pairedTypes) && decide (type = c.keytype + keypairOffset))
  | none => false

/-! ## Sizes that are not supported -/

def rsaAlgs : List Word :=
  [algRsassaV15Md5, algRsassaV15Sha1, algRsassaV15Sha224, algRsassaV15Sha256, algRsassaV15Sha384,
    algRsassaV15Sha512, algRsassaPssMd5, algRsassaPssSha1, algRsassaPssSha224, algRsassaPssSha256,
    algRsassaPssSha384, algRsassaPssSha512, algRsaesPkcs1V15, algRsaesOaepSha1, algRsaesOaepSha224,
    algRsaesOaepSha256, algRsaesOaepSha384, algRsaesOaepSha512, algRsaNopad]

def ecdsaAlgs : List Word :=
  [algEcdsaSha1, algEcdsaSha224, algEcdsaSha256, algEcdsaSha384, algEcdsaSha512]

def ecdhAlgs : List Word := [algEcdhDerive, algEcdhP224, algEcdhP256, algEcdhP384, algEcdhP521]

/-- A table of the least key sizes, by algorithm. -/
def minKeySizes (rsa dh ecdsa ecdh : Nat) : List (Word × Nat) :=
  rsaAlgs.map (·, rsa) ++ [(algDhDerive, dh)] ++ ecdsaAlgs.map (·, ecdsa) ++ ecdhAlgs.map (·, ecdh)

/-- `g_algo_low_lev_key_size_config`, in bytes. -/
def algoLowLevKeySizeConfig : List (Word × Nat) := minKeySizes 256 32 28 28

/-- `g_unsafe_alg_with_key`, in bits, with its end mark. -/
def unsafeAlgWithKey : List (Word × Nat) := minKeySizes 2048 256 224 224 ++ [(0#32, 0)]

/-- `check_low_lev_key_size_for_alg`: the first entry of the algorithm decides. -/
def checkLowLevKeySizeForAlg (keySize : Nat) : Except TeeError Unit :=
  match algoLowLevKeySizeConfig.find? fun c => c.1 = alg with
  | some c => if c.2 ≤ keySize then .ok () else .error .notSupported
  | none => .ok ()

def checkIfUnsafeAlg (keySize : Nat) : Except TeeError Unit :=
  if unsafeAlgWithKey.any fun c => decide (c.1 = alg ∧ keySize < c.2) then .error .notSupported
  else .ok ()

end TeeOs.Crypto
