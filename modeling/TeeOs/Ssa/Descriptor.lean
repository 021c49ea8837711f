import TeeOs.Ssa.Agent

/-!
# The secure file descriptor

`struct sfd_t` with its block list, the per-object keys behind an abstract
cipher, hash and HMAC, and the constants of `sfs.h`. Nothing is assumed about
collisions here: `CollisionFree` is a separate hypothesis.
-/

namespace TeeOs.Ssa

open Lib.Calls Lib.Bytes Encodable

/-- `CRYPT_BLOCK_SIZE_V3`, also the size of the transfer buffer. -/
def cryptBlockSize : Nat := 3072

def maxFileSize : Nat := 4 * 1024 * 1024

def int32Max : Nat := 2147483647

/-- The largest `destMax` that `memmove_s` takes. -/
def securecMemMaxLen : Nat := 2147483647

/-- A sum stored in a `uint32_t`. -/
def u32 (n : Nat) : Nat := n % 4294967296

/-- A difference stored in a `uint32_t`. -/
def sub32 (a b : Nat) : Nat := (a + 4294967296 - b) % 4294967296

/-- The primitives under an object's keys. -/
structure Crypto (D : Type) where
  zero : D
  encrypt : Nat → List UInt8 → List UInt8
  decrypt : Nat → List UInt8 → List UInt8
  hash : List UInt8 → D
  hmacBlocks : List D → D
  hmacHeader : MetaStorageHeader D → D
  hashName : String → Option D → D
  length_encrypt : ∀ i l, l.length = cryptBlockSize → (encrypt i l).length = cryptBlockSize
  decrypt_encrypt : ∀ i l, l.length = cryptBlockSize → decrypt i (encrypt i l) = l

/-- No two inputs share a digest, and no block hashes to the zero filling of the list. -/
structure CollisionFree {D : Type} (K : Crypto D) : Prop where
  hash_inj : ∀ l m, K.hash l = K.hash m → l = m
  hash_ne_zero : ∀ l, K.hash l ≠ K.zero
  hmacBlocks_inj : ∀ l m, K.hmacBlocks l = K.hmacBlocks m → l = m
  hmacHeader_inj : ∀ h g, K.hmacHeader h = K.hmacHeader g → h = g
  hashName_inj : ∀ n m g h, K.hashName n g = K.hashName m h → g = h

/-- Digests that number their inputs, and a cipher that leaves blocks as they are: a model of the
assumptions. -/
def Crypto.numbering : Crypto Nat where
  zero := 0
  encrypt _ l := l
  decrypt _ l := l
  hash l := encode (l.map UInt8.toNat) + 1
  hmacBlocks l := encode l
  hmacHeader h := encode (h.magicLo, h.magicHi, h.archVersion, h.lastBlockRealsize,
    h.magicVersion, h.fnameDatahmacHash, h.encryptoMeth)
  hashName _ h := encode h
  length_encrypt _ _ h := h
  decrypt_encrypt _ _ _ := rfl

theorem Crypto.numbering_collisionFree : CollisionFree Crypto.numbering where
  hash_inj l m h := by
    have henc := encode_injective (Nat.succ.inj h)
    exact List.map_injective_iff.mpr (fun _ _ hab => UInt8.toNat_inj.mp hab) henc
  hash_ne_zero l := Nat.succ_ne_zero _
  hmacBlocks_inj l m h := encode_injective h
  hmacHeader_inj h g e := by
    have htuple := encode_injective e
    simp only [Prod.mk.injEq] at htuple
    obtain ⟨h1, h2, h3, h4, h5, h6, h7⟩ := htuple
    cases h
    cases g
    simp_all only
  hashName_inj n m g h e := encode_injective e

structure BlockInfo (D : Type) where
  blockId : Nat
  hash : D
  deriving DecidableEq

/-- The names of an object's two files. -/
structure MetaData where
  fileId : String
  curEncryptedFileId : String
  curBackupFileId : String
  names_ne : curEncryptedFileId ≠ curBackupFileId

structure Sfd (D : Type) where
  nfd : Nat
  startBlockId : Nat
  flags : DataFlags
  seekPosition : Nat
  size : Nat
  lastBlockSize : Nat
  attrSize : Nat
  updateBackup : Bool
  needUpdateHmac : Bool
  metaData : MetaData
  firstBlock : List (BlockInfo D)

/-- Code that works on one descriptor and calls the agent. -/
abbrev SsaM (D : Type) := Proc (Call D) Answer TeeResult (Sfd D)

/-- What is said of the end of such code. -/
abbrev Post (D α : Type) := Except TeeResult α × Sfd D → Fs D → Prop

abbrev Files (D : Type) := String → Option (RawFile D)

section Calls

variable {D α : Type}

/-- A call whose failure ends the function with `f errno`. -/
def callOr (c : Call D) (f : Errno → TeeResult) : SsaM D c.Ret := do
  match ← Proc.ask c with
  | .ok v => pure v
  | .error e => Proc.throw (f e)

variable (failed : Errno → TeeResult)

variable (name : String) (fd : Nat)

def ssaFsFopen (flag : DataFlags) : SsaM D Nat := callOr (.fopen name flag) failed

def ssaFsFcreate (flag : DataFlags) : SsaM D Nat :=
  callOr (.fcreate name flag) failed

def ssaFsFclose : SsaM D Unit := callOr (.fclose fd) failed

def ssaFsFreadMeta : SsaM D (Option (MetaStorage D)) := callOr (.freadMeta fd) failed

def ssaFsFread (fd count : Nat) : SsaM D (List UInt8) := callOr (.fread fd count) failed

def ssaFsFwriteMeta (record : MetaStorage D) : SsaM D Unit :=
  callOr (.fwriteMeta fd record) failed

def ssaFsFwriteDataHmac (hmac : Option D) : SsaM D Unit :=
  callOr (.fwriteDataHmac fd hmac) failed

def ssaFsFwrite (content : List UInt8) : SsaM D Unit :=
  callOr (.fwrite fd content) failed

def ssaFsFseek (offset : Int) (whence : Whence) : SsaM D Unit :=
  callOr (.fseek fd offset whence) failed

def ssaFsFinfo : SsaM D (Nat × Nat) := callOr (.finfo fd) failed

def ssaFsFtruncate (len : Nat) : SsaM D Unit := callOr (.ftruncate name len) failed

def ssaFsFcopy (fromPath toPath : String) : SsaM D Unit := callOr (.fcopy fromPath toPath) failed

def ssaFsFremove : SsaM D Unit := callOr (.fremove name) failed

/-- A call whose outcome the code ignores. -/
def ignore (m : SsaM D α) : SsaM D Unit := do
  let _ ← Proc.attempt m
  pure ()

def ofExcept (r : Except TeeResult α) : SsaM D α :=
  match r with
  | .ok a => pure a
  | .error e => Proc.throw e

/-- `memmove_s(dest, destMax, src, count)`: whether it refuses. -/
def memmoveRefuses (destMax count : Nat) : Bool :=
  destMax == 0 || decide (securecMemMaxLen < destMax) || decide (destMax < count)

end Calls

variable {D : Type}

/-- `get_last_crypt_block_padding_size`. -/
def lastCryptBlockPaddingSize (sfd : Sfd D) : Int :=
  if sfd.lastBlockSize = 0 then 0 else (cryptBlockSize : Int) - sfd.lastBlockSize

def findBlock (id : Nat) (l : List (BlockInfo D)) : Option (BlockInfo D) :=
  l.find? fun b => b.blockId = id

/-- Put each hash at the place of its block id; an id outside the buffer is refused. -/
def placeHashes : List (BlockInfo D) → List D → Except TeeResult (List D)
  | [], out => .ok out
  | b :: rest, out =>
    if b.blockId < out.length then placeHashes rest (out.set b.blockId b.hash)
    else .error .security

/-- `calculate_master_hmac`: the HMAC of all block hashes, filled up to an even number. -/
def calculateMasterHmac (K : Crypto D) (sfd : Sfd D) : Except TeeResult D :=
  if sfd.firstBlock = [] then .error .badParameters
  else
    let cipherBlks := sfd.firstBlock.length + sfd.firstBlock.length % 2
    match placeHashes sfd.firstBlock (List.replicate cipherBlks K.zero) with
    | .ok all => .ok (K.hmacBlocks all)
    | .error e => .error e

/-- The header `set_last_blocksize_to_meta_hdr` writes over the record `m`. -/
def sealHeader (K : Crypto D) (fileId : String) (lastBlockRealsize : Nat)
    (m : MetaStorage D) : MetaStorage D :=
  let hdr := { m.hdr with
    lastBlockRealsize := lastBlockRealsize
    magicVersion := 0x5A5A0001
    fnameDatahmacHash := K.hashName fileId m.dataHmac }
  { hdr := hdr, metaHmac := some (K.hmacHeader hdr), dataHmac := m.dataHmac }

end TeeOs.Ssa
