import TeeOs.Ssa.File

/-!
# Creating, opening and closing a secure file

`ssa_create`, `ssa_open`, `ssa_close` and `check_integrity_v2` of `sfs.c`. An
object has an original and a backup file. Open checks both, prefers the backup
when both are intact but of different size, and repairs the other one by a
copy. Every call stores an error number for `fs_get_serr`; `serr` stands for
what it answers after a call that did not fail.
-/

namespace TeeOs.Ssa

open Lib.Calls Lib.Bytes Proc

variable {D : Type}

def metaStorageMagicVersion : Nat := 0x5A5A0001

variable (K : Crypto D)

/-- What `ssa_open_init` makes of the metadata and the flags. -/
def ssaOpenInit (metaData : MetaData) (flag : DataFlags) : Sfd D where
  nfd := 0
  startBlockId := 0
  flags := flag
  seekPosition := 0
  size := 0
  lastBlockSize := 0
  attrSize := 0
  updateBackup := false
  needUpdateHmac := false
  metaData := metaData
  firstBlock := [⟨0, K.zero⟩]

/-- The record `init_meta_data` writes. -/
def initMetaStorage : MetaStorage D where
  hdr := ⟨0xfd48d1ef, 0x827d9a7b, 4, 0, metaStorageMagicVersion, K.zero, 0⟩
  metaHmac := none
  dataHmac := none

def initMetaData : SsaM D Unit := do
  let sfd ← get
  ssaFsFseek (getSpecErrno · .seekData) sfd.nfd 0 .set
  ssaFsFwriteMeta (getSpecErrno · .writeData) sfd.nfd (initMetaStorage K)

/-- `ssa_create`; a file whose metadata could not be written is removed again. -/
def ssaCreate (flag : DataFlags) : SsaM D Unit := do
  let sfd ← get
  let name := sfd.metaData.curEncryptedFileId
  let nfd ← ssaFsFcreate (getSpecErrno · .generic) name flag
  modify fun sfd => { sfd with
    nfd := nfd, updateBackup := true, firstBlock := [⟨0, K.hash [0]⟩] }
  match ← attempt (initMetaData K) with
  | .ok _ => pure ()
  | .error e => do
    ignore (ssaFsFclose (fun _ => .generic) nfd)
    ignore (ssaFsFremove (fun _ => .generic) name)
    throw e

/-- `ssa_close`: a failed copy to the backup goes unnoticed. -/
def ssaClose : SsaM D Unit := do
  let sfd ← get
  ignore (ssaFsFclose (fun _ => .generic) sfd.nfd)
  when sfd.updateBackup (ignore (ssaFsFcopy fsNsErrorLookup
    sfd.metaData.curEncryptedFileId sfd.metaData.curBackupFileId))

def ssaCloseAndDelete (isDelete : Bool) : SsaM D Unit := do
  let sfd ← get
  ignore (ssaFsFclose (fun _ => .generic) sfd.nfd)
  ignore (ssaFsFremove fsNsErrorLookup sfd.metaData.curEncryptedFileId)
  when isDelete (ignore (ssaFsFremove fsNsErrorLookup sfd.metaData.curBackupFileId))

variable [DecidableEq D]

variable (K : Crypto D) (flag : DataFlags) (serr : TeeResult) (orig back : OpenInfo)

/-- `get_hmac_from_meta_data`: check the metadata record and take the data HMAC out of it. -/
def getHmacFromMetaData : SsaM D (Option D) := do
  let sfd ← get
  match ← ssaFsFreadMeta (fun _ => .minusOne) sfd.nfd with
  | none => throw .minusOne
  | some m =>
    if m.metaHmac ≠ some (K.hmacHeader m.hdr) then throw .minusOne
    else if m.hdr.magicVersion = metaStorageMagicVersion ∧
        m.hdr.fnameDatahmacHash ≠ K.hashName sfd.metaData.fileId m.dataHmac then
      throw .minusOne
    else do
      modify fun sfd => { sfd with lastBlockSize := m.hdr.lastBlockRealsize }
      pure m.dataHmac

/-- Set the hash of the node at `index`, or append a node when there is none. -/
def placeHash (index : Nat) (hash : D) (l : List (BlockInfo D)) : List (BlockInfo D) :=
  if index < l.length then l.modify index fun b => { b with hash := hash }
  else
    match l.getLast? with
    | none => [⟨0, hash⟩]
    | some last => l ++ [⟨last.blockId + 1, hash⟩]

/-- The loop of `cal_construct_block` with `n` blocks to go; the nodes behind them are freed. -/
def calConstructBlock (K : Crypto D) : Nat → Nat → SsaM D Unit
  | 0, index => modify fun sfd => { sfd with firstBlock := sfd.firstBlock.take index }
  | n+1, index => do
    let sfd ← get
    let buffer ← ssaFsFread (getSpecErrno · .readData) sfd.nfd cryptBlockSize
    if buffer.length = 0 ∨ buffer.length % cryptBlockSize ≠ 0 then throw .readData
    else do
      modify fun sfd =>
        { sfd with firstBlock := placeHash index (K.hash buffer) sfd.firstBlock }
      calConstructBlock K n (index+1)

def constructBlockInfo : SsaM D Unit := do
  let sfd ← get
  let (_, rawLen) ← ssaFsFinfo (getSpecErrno · .generic) sfd.nfd
  if rawLen < sfsMetadataSize then throw .generic
  else do
    let dataSize := rawLen - sfsMetadataSize
    ssaFsFseek (getSpecErrno · .seekData) sfd.nfd sfsMetadataSize .set
    modify fun sfd => { sfd with
      size :=
        if dataSize ≥ sub32 cryptBlockSize sfd.lastBlockSize ∧ sfd.lastBlockSize ≠ 0 then
          dataSize - sub32 cryptBlockSize sfd.lastBlockSize
        else dataSize }
    if dataSize = 0 ∨ dataSize % cryptBlockSize ≠ 0 then throw .generic
    else calConstructBlock K (dataSize / cryptBlockSize) 0

def checkIntegrityV2 : SsaM D Unit := do
  let provided ← getHmacFromMetaData K
  constructBlockInfo K
  let sfd ← get
  let calculated ← ofExcept (calculateMasterHmac K sfd)
  if provided = some calculated then pure () else throw .minusOne

/-- `struct ssa_open_info`; a descriptor stays here after it was closed for a failed check.
`serr` is what `fs_get_serr` answers, if the last call of the check failed. -/
structure OpenInfo where
  ret : TeeResult
  size : Nat
  fileFd : Option Nat
  serr : Option TeeResult

/-- What a call has left for `fs_get_serr`, if it failed. -/
def errorOf (r : Except TeeResult Unit) : Option TeeResult :=
  match r with
  | .ok _ => none
  | .error e => some e

def ssaOpenCheck (fileName : String) (flag : DataFlags) : SsaM D OpenInfo := do
  match ← attempt (ssaFsFopen fsNsErrorLookup fileName flag) with
  | .error e => do
    let sfd ← get
    pure ⟨.itemNotFound, sfd.size, none, some e⟩
  | .ok fd => do
    modify fun sfd => { sfd with nfd := fd }
    match ← attempt (checkIntegrityV2 K) with
    | .ok _ => do
      let sfd ← get
      pure ⟨.success, sfd.size, some fd, none⟩
    | .error _ => do
      let closed ← attempt (ssaFsFclose fsNsErrorLookup fd)
      let sfd ← get
      pure ⟨.corruptObject, sfd.size, some fd, errorOf closed⟩

/-- The state of an open: its result so far, and what is known of the original and the backup. -/
structure OpenState where
  ret : TeeResult
  orig : OpenInfo
  back : OpenInfo

def closeInfo (i : OpenInfo) : SsaM D (Except TeeResult Unit) :=
  match i.fileFd with
  | none => pure (.ok ())
  | some fd => attempt (ssaFsFclose fsNsErrorLookup fd)

def ssaOpenHandleOrig : SsaM D OpenState := do
  let sfd ← get
  match ← attempt (ssaFsFcopy fsNsErrorLookup sfd.metaData.curEncryptedFileId
      sfd.metaData.curBackupFileId) with
  | .error e => pure ⟨e, orig, back⟩
  | .ok _ => pure ⟨.success, orig, back⟩

/-- Check the original again after the backup was copied over it. -/
def recheckOrig (back : OpenInfo) : SsaM D OpenState := do
  let sfd ← get
  let orig ← ssaOpenCheck K sfd.metaData.curEncryptedFileId flag
  pure ⟨if orig.ret = .success then .success else orig.serr.getD serr, orig, back⟩

def ssaOpenHandleBack : SsaM D OpenState := do
  let sfd ← get
  match ← attempt (ssaFsFcopy fsNsErrorLookup sfd.metaData.curBackupFileId
      sfd.metaData.curEncryptedFileId) with
  | .error e => pure ⟨e, orig, back⟩
  | .ok _ => do
    match ← closeInfo back with
    | .error _ => pure ⟨.generic, orig, { back with fileFd := none }⟩
    | .ok _ => recheckOrig K flag serr { back with fileFd := none }

def handleOrigBack : SsaM D OpenState := do
  let sfd ← get
  match ← closeInfo back with
  | .error _ => pure ⟨.generic, orig, { back with fileFd := none }⟩
  | .ok _ =>
    if back.size ≠ orig.size then do
      match ← closeInfo orig with
      | .error _ => pure ⟨.generic, { orig with fileFd := none }, { back with fileFd := none }⟩
      | .ok _ => do
        match ← attempt (ssaFsFcopy fsNsErrorLookup sfd.metaData.curBackupFileId
            sfd.metaData.curEncryptedFileId) with
        | .error e => pure ⟨e, { orig with fileFd := none }, { back with fileFd := none }⟩
        | .ok _ => recheckOrig K flag serr { back with fileFd := none }
    else pure ⟨.success, orig, { back with fileFd := none }⟩

/-- Whether any bit of the flags lets the handle change the object. -/
def DataFlags.mayChange (flag : DataFlags) : Bool :=
  flag.accessWrite || flag.accessWriteMeta || flag.shareWrite || flag.create || flag.overwrite

/-- Return a result code, which may be a success. -/
def returnCode (ret : TeeResult) : SsaM D Unit :=
  if ret = .success then pure () else throw ret

def ssaOpenHandleRetry (back : OpenInfo) : SsaM D Unit := do
  let sfd ← get
  let info ← ssaOpenCheck K (if back.ret = .success then sfd.metaData.curBackupFileId
    else sfd.metaData.curEncryptedFileId) flag
  if info.ret ≠ .success then returnCode (info.serr.getD serr)
  else do
    let sfd ← get
    match ← attempt (ssaFsFseek fsNsErrorLookup sfd.nfd sfsMetadataSize .set) with
    | .ok _ => pure ()
    | .error _ => do
      -- the answer is about the close, not about the seek that failed
      let closed ← closeInfo info
      returnCode ((errorOf closed).getD serr)

/-- The three ways of `ssa_open_handle` after both files were checked. -/
def ssaOpenChoose : SsaM D OpenState :=
  if back.ret ≠ .success ∧ orig.ret ≠ .success then
    pure ⟨if back.ret = .itemNotFound ∧ orig.ret = .itemNotFound then .itemNotFound else .generic,
      orig, back⟩
  else if back.ret ≠ .success then ssaOpenHandleOrig orig back
  else if orig.ret ≠ .success then ssaOpenHandleBack K flag serr orig back
  else handleOrigBack K flag serr orig back

/-- Go to the start of the data, unless the open has failed before. -/
def seekStart (st : OpenState) : SsaM D (Except TeeResult Unit) := do
  let sfd ← get
  if st.ret ≠ .success then pure (.error st.ret)
  else attempt (ssaFsFseek (fun _ => .generic) sfd.nfd sfsMetadataSize .set)

/-- The end of `ssa_open_handle`: go to the start of the data, or clean up and try again. -/
def ssaOpenEnd (st : OpenState) : SsaM D Unit := do
  match ← seekStart st with
  | .ok _ => pure ()
  | .error e => do
    let _ ← closeInfo st.back
    let _ ← closeInfo st.orig
    if (st.back.ret = .success ∨ st.orig.ret = .success) ∧ flag.mayChange = false then
      ssaOpenHandleRetry K flag serr st.back
    else throw e

/-- Both files checked, and one repaired from the other. -/
def ssaOpenFiles : SsaM D OpenState := do
  let sfd ← get
  let back ← ssaOpenCheck K sfd.metaData.curBackupFileId flag
  let orig ← ssaOpenCheck K sfd.metaData.curEncryptedFileId flag
  ssaOpenChoose K flag serr orig back

def ssaOpenHandle : SsaM D Unit := do
  let st ← ssaOpenFiles K flag serr
  ssaOpenEnd K flag serr st

end TeeOs.Ssa
