import TeeOs.Ssa.Descriptor

/-!
# Seek, read and write of a secure file

`ssa_info`, `ssa_seek` and `fill_file_hole` of `sfs.c`, and `ssa_read`,
`ssa_write`, `ssa_reset_mac` and `ssa_write_mac` of `tee_ssa_sfs.c`. The
transfer buffer holds exactly one crypto block, so every transfer is one block.
`ssa_seek`, `ssa_write` and `fill_file_hole` call each other: the first two take
the hole filler as an argument and the third counts its nesting.
-/

namespace TeeOs.Ssa

open Lib.Calls Lib.Bytes Proc

variable {D : Type}

/-- `ssa_info`: position and logical length, which it also stores in the descriptor. -/
def ssaInfo : SsaM D (Nat × Nat) := do
  let sfd ← get
  let (rawPos, rawLen) ← ssaFsFinfo (getSpecErrno · .generic) sfd.nfd
  let pos := rawPos - sfsMetadataSize
  let len := rawLen - sfsMetadataSize
  let padding := lastCryptBlockPaddingSize sfd
  if padding < 0 then throw .generic
  else do
    let len := if (len : Int) < padding then 0 else len - padding.toNat
    modify fun sfd => { sfd with seekPosition := pos, size := len }
    pure (pos, len)

def procSeekSet (offset : Int) : Except TeeResult Int :=
  if offset < 0 then .error .badParameters else .ok (offset + sfsMetadataSize)

def procSeekCur (sfd : Sfd D) (offset : Int) (curPos : Nat) : Except TeeResult Int :=
  if offset < 0 then
    if offset + curPos < sfd.attrSize then .ok (sfd.attrSize - curPos) else .ok offset
  else if curPos + offset > maxFileSize + sfd.attrSize then .error .overflow
  else .ok offset

def procSeekEnd (sfd : Sfd D) (offset : Int) (curFileLen : Nat) : Except TeeResult Int :=
  if offset > 0 ∧ curFileLen + offset > maxFileSize + sfd.attrSize then .error .overflow
  else
    let offset : Int :=
      if offset + curFileLen < sfd.attrSize then (sfd.attrSize : Int) - curFileLen else offset
    let padding := lastCryptBlockPaddingSize sfd
    if padding < 0 then .error .generic else .ok (offset - padding)

/-- The table `g_ssa_seek_proc`. -/
def seekProc (whence : Whence) (sfd : Sfd D) (offset : Int) (curPos curFileLen : Nat) :
    Except TeeResult Int :=
  match whence with
  | .set => procSeekSet offset
  | .cur => procSeekCur sfd offset curPos
  | .fromEnd => procSeekEnd sfd offset curFileLen

def whenceOf : Nat → Option Whence
  | 0 => some .set
  | 1 => some .cur
  | 2 => some .fromEnd
  | _ => none

/-- `ssa_seek`, with the hole filler as an argument. -/
def ssaSeekWith (fill : Nat → Nat → SsaM D Unit) (offset : Int) (whence : Nat) : SsaM D Unit := do
  let (curPos, fileRealLen) ← ssaInfo
  match whenceOf whence with
  | none => throw .badState
  | some w => do
    let sfd ← get
    let offset ← ofExcept (seekProc w sfd offset curPos fileRealLen)
    ssaFsFseek (getSpecErrno · .seekData) sfd.nfd offset w
    let (curPos, fileLen) ← ssaInfo
    modify fun sfd => { sfd with seekPosition := curPos, size := fileLen }
    when (curPos > fileRealLen) (fill fileRealLen (curPos - fileRealLen))

/-- The flag `TEE_DATA_FLAG_ACCESS_WRITE` alone. -/
def accessWriteOnly : DataFlags := ⟨false, true, false, false, false, false, false, false⟩

def accessReadWrite : DataFlags := ⟨true, true, false, false, false, false, false, false⟩

/-- Open the original file by name, write its data HMAC field and close it again: the common
part of `ssa_reset_mac` and `write_hmac_to_meta_data`. -/
def putDataHmac (hmac : Option D) (failed : TeeResult) : SsaM D Unit := do
  let sfd ← get
  let nfd ← ssaFsFopen (fun _ => failed) sfd.metaData.curEncryptedFileId accessWriteOnly
  let ret ← attempt (do
    ssaFsFseek (fun _ => failed) nfd sfsDatahmacOffset .set
    ssaFsFwriteDataHmac (fun _ => failed) nfd hmac)
  ignore (ssaFsFclose (fun _ => failed) nfd)
  ofExcept ret

/-- `ssa_reset_mac`: sixty-four zero bytes over the data HMAC. -/
def ssaResetMac : SsaM D Unit := putDataHmac none .generic

def writeHmacToMetaData (hmac : D) : SsaM D Unit := putDataHmac (some hmac) .minusOne

variable (K : Crypto D)

def updateMasterHmac : SsaM D Unit := do
  let sfd ← get
  let hmac ← ofExcept (calculateMasterHmac K sfd)
  writeHmacToMetaData hmac

def setLastBlocksizeToMetaHdr (nfd lastBlockRealsize : Nat) : SsaM D Unit := do
  let sfd ← get
  match ← ssaFsFreadMeta (fun _ => .minusOne) nfd with
  | none => throw .minusOne
  | some m => do
    ssaFsFseek (fun _ => .minusOne) nfd 0 .set
    ssaFsFwriteMeta (fun _ => .minusOne) nfd
      (sealHeader K sfd.metaData.fileId lastBlockRealsize m)

def setLastCryptBlockRealsize (len : Nat) : SsaM D Unit := do
  let sfd ← get
  let fd ← ssaFsFopen (fun _ => .minusOne) sfd.metaData.curEncryptedFileId accessReadWrite
  let ret ← attempt (setLastBlocksizeToMetaHdr K fd len)
  ignore (ssaFsFclose (fun _ => .minusOne) fd)
  ofExcept ret

/-- `ssa_write_mac`: the header is written even when the master HMAC was not. -/
def ssaWriteMac : SsaM D Unit := do
  let ret ← attempt (updateMasterHmac K)
  when ret.isOk (modify fun sfd => { sfd with updateBackup := true })
  let sfd ← get
  match ← attempt (setLastCryptBlockRealsize K sfd.lastBlockSize) with
  | .error _ => throw .generic
  | .ok _ => ofExcept ret

variable [DecidableEq D]

/-- `check_block_integrity` on the `n` whole blocks of a buffer. -/
def checkBlockIntegrity (K : Crypto D) (sfd : Sfd D) : Nat → List UInt8 → Nat → Except TeeResult Unit
  | 0, _, _ => .ok ()
  | n+1, buff, blockId =>
    match findBlock blockId sfd.firstBlock with
    | none => .error .badState
    | some b =>
      if K.hash (buff.take cryptBlockSize) = b.hash then
        checkBlockIntegrity K sfd n (buff.drop cryptBlockSize) (blockId+1)
      else .error .corruptObject

/-- `encrypt_blocks_with_xts` in either direction; a rest shorter than a block stays as it is. -/
def cryptBlocks (f : Nat → List UInt8 → List UInt8) : Nat → Nat → List UInt8 → List UInt8
  | 0, _, buff => buff
  | n+1, blockId, buff =>
    f blockId (buff.take cryptBlockSize) ++ cryptBlocks f n (blockId+1) (buff.drop cryptBlockSize)

variable (K : Crypto D) (w : RwInfo) (count : Nat)

def decryptDataBlock (buff : List UInt8) (startBlockId : Nat) : SsaM D (List UInt8) := do
  modify fun sfd => { sfd with startBlockId := startBlockId }
  let sfd ← get
  ofExcept (checkBlockIntegrity K sfd (buff.length / cryptBlockSize) buff startBlockId)
  pure (cryptBlocks K.decrypt (buff.length / cryptBlockSize) startBlockId buff)

/-- The block geometry of one transfer, `struct ssa_rw_info`. -/
structure RwInfo where
  curPos : Nat
  startPos : Nat
  startOffset : Nat
  endPos : Nat
  endOffset : Nat

def rwInfo (curPos count : Nat) : RwInfo where
  curPos := curPos
  startPos := curPos / cryptBlockSize * cryptBlockSize
  startOffset := curPos - curPos / cryptBlockSize * cryptBlockSize
  endPos := u32 (curPos + count)
  endOffset := u32 (curPos + count) % cryptBlockSize

/-- The bytes a transfer moves: the data and what completes its first and last block. -/
def actualCount : Nat :=
  u32 (count + w.startOffset + if w.endOffset ≠ 0 then cryptBlockSize - w.endOffset else 0)

/-- The number of transfers for `n` bytes. -/
def transferTimes (n : Nat) : Nat := n / cryptBlockSize + if n % cryptBlockSize ≠ 0 then 1 else 0

variable (fill : Nat → Nat → SsaM D Unit)

def getFileInfoFillHole (count : Nat) : SsaM D Nat := do
  let (curPos, fileLen) ← ssaInfo
  let sfd ← get
  if u32 (curPos + count) > u32 (maxFileSize + sfd.attrSize) then throw .overflow
  else do
    when (curPos > fileLen) (fill fileLen (curPos - fileLen))
    pure curPos

def ssaInitWriteInfo (count : Nat) : SsaM D RwInfo := do
  let curPos ← getFileInfoFillHole fill count
  let w := rwInfo curPos count
  modify fun sfd =>
    if u32 (curPos + count) > sfd.size then
      { sfd with lastBlockSize := u32 (count + curPos) % cryptBlockSize }
    else sfd
  ssaResetMac
  modify fun sfd => { sfd with updateBackup := false }
  pure w

/-- Read and decrypt the block at `pos`, as `fill_start_block_origin` and `fill_end_block_origin`
do before they copy a part of it. -/
def readOriginBlock (pos : Nat) : SsaM D (List UInt8) := do
  let sfd ← get
  ssaFsFseek (getSpecErrno · .seekData) sfd.nfd (pos + sfsMetadataSize : Nat) .set
  let buff ← ssaFsFread (getSpecErrno · .readData) sfd.nfd cryptBlockSize
  decryptDataBlock K buff (pos / cryptBlockSize)

/-- `fill_start_block_origin`: the old bytes in front of the data. -/
def fillStartBlockOrigin (transBuff : List UInt8) : SsaM D (List UInt8) := do
  let sfd ← get
  if w.startPos < sfd.size then do
    let cryptoBuff ← readOriginBlock K w.startPos
    pure (overlay transBuff 0 (cryptoBuff.take w.startOffset))
  else pure transBuff

/-- `fill_end_block_origin`: the old bytes behind the data. -/
def fillEndBlockOrigin (transBuff : List UInt8) : SsaM D (List UInt8) := do
  let sfd ← get
  if w.endPos < sfd.size then do
    let cryptoBuff ← readOriginBlock K (w.endPos - w.endOffset)
    pure (overlay transBuff w.endOffset (cryptoBuff.drop w.endOffset))
  else if sfd.size = 0 then
    pure (overlay transBuff w.endOffset (List.replicate (cryptBlockSize - w.endOffset) 0))
  else pure transBuff

/-- `update_block_hash` for the one block of the transfer buffer. -/
def updateBlockHash (l : List (BlockInfo D)) (cryptoBuf : List UInt8)
    (startBlockId : Nat) : Except TeeResult (List (BlockInfo D)) :=
  match l.getLast? with
  | none => .error .badParameters
  | some last =>
    let l := if (findBlock startBlockId l).isSome then l
      else l ++ (List.range (startBlockId - last.blockId)).map fun k =>
        ⟨last.blockId + 1 + k, K.zero⟩
    let index := if (findBlock startBlockId l).isSome then
        l.findIdx fun b => b.blockId = startBlockId
      else l.length - 1
    .ok (l.modify index fun b => { b with hash := K.hash cryptoBuf })

/-- `write_data_process`: encrypt the buffer, go back to its place and write it. -/
def writeDataProcess (seekFirst : Bool) (transBuff : List UInt8)
    (totalWriteCount : Nat) : SsaM D Unit := do
  modify fun sfd =>
    { sfd with startBlockId := (w.startPos + totalWriteCount) / cryptBlockSize }
  let sfd ← get
  let cipher := cryptBlocks K.encrypt (transBuff.length / cryptBlockSize) sfd.startBlockId transBuff
  when seekFirst (ssaFsFseek (getSpecErrno · .seekData) sfd.nfd
    (w.startPos + totalWriteCount + sfsMetadataSize : Nat) .set)
  ssaFsFwrite (getSpecErrno · .writeData) sfd.nfd cipher
  let l ← ofExcept (updateBlockHash K sfd.firstBlock cipher sfd.startBlockId)
  modify fun sfd => { sfd with firstBlock := l }

/-- The buffer of one round in `write_content_to_file`: old bytes, data, old bytes. -/
def fillTransBuff (startFlag endFlag : Bool) (src : List UInt8)
    (copyCount : Nat) : SsaM D (List UInt8) := do
  let zeros := List.replicate cryptBlockSize (0 : UInt8)
  let buff ← (if startFlag then fillStartBlockOrigin K w zeros else pure zeros)
  let dst := if startFlag then w.startOffset else 0
  if memmoveRefuses (cryptBlockSize - dst) copyCount then throw .security
  else do
    let buff := overlay buff dst (src.take copyCount)
    if endFlag then fillEndBlockOrigin K w buff else pure buff

/-- One round of the loop in `write_content_to_file`; returns the rest of the content and the
bytes added so far to complete blocks. -/
def sendBlock (first last : Bool) (src : List UInt8)
    (totalWriteCount addCount : Nat) : SsaM D (List UInt8 × Nat) := do
  let startFlag := first && w.startOffset != 0
  let endFlag := last && w.endOffset != 0
  let startAdd := if startFlag then w.startOffset else 0
  let endAdd := if endFlag then cryptBlockSize - w.endOffset else 0
  let copyCount := sub32 (cryptBlockSize - startAdd) endAdd
  let buff ← fillTransBuff K w startFlag endFlag src copyCount
  writeDataProcess K w (startFlag || endFlag) buff totalWriteCount
  pure (src.drop copyCount, addCount + startAdd + endAdd)

/-- The loop of `write_content_to_file` with `n` of `sendTimes` rounds to go; the second result
is `total_write_count`, which the caller adds to the size even after an error. -/
def writeContentLoop (K : Crypto D) (w : RwInfo) (sendTimes : Nat) :
    Nat → List UInt8 → Nat → Nat → SsaM D (Except TeeResult Unit × Nat)
  | 0, _, totalWriteCount, addCount => pure (.ok (), totalWriteCount - addCount)
  | n+1, src, totalWriteCount, addCount => do
    match ← attempt
      (sendBlock K w (n+1 == sendTimes) (n == 0) src totalWriteCount addCount) with
    | .error e => pure (.error e, totalWriteCount)
    | .ok (rest, addCount) =>
      writeContentLoop K w sendTimes n rest (totalWriteCount + cryptBlockSize) addCount

def writeContentToFile (content : List UInt8) : SsaM D (Except TeeResult Unit × Nat) :=
  let times := transferTimes (actualCount w content.length)
  writeContentLoop K w times times content 0 0

/-- The end of `ssa_write`: on success go to the end of the data, and always advance the size. -/
def ssaWriteOut (ret : Except TeeResult Unit) (totalWriteCount : Nat) : SsaM D Nat := do
  let sfd ← get
  match ← attempt (do
      ofExcept ret
      when (w.endOffset ≠ 0) (ssaFsFseek (fun _ => .generic) sfd.nfd
        (w.endPos + sfsMetadataSize : Nat) .set)) with
  | .error e => do
    modify fun sfd => { sfd with size := sfd.size + totalWriteCount }
    throw e
  | .ok _ => do
    modify fun sfd =>
      { sfd with needUpdateHmac := true, size := sfd.size + totalWriteCount }
    pure totalWriteCount

/-- `ssa_write`, with the hole filler as an argument. -/
def ssaWriteWith (content : List UInt8) : SsaM D Nat := do
  if content.length = 0 then pure 0
  else do
    let w ← ssaInitWriteInfo fill content.length
    let (ret, total) ← writeContentToFile K w content
    ssaWriteOut w ret total

/-- The number of zero bytes `fill_file_hole` writes at once. -/
def holePerSize : Nat := 1024

/-- The writes of `fill_file_hole` from round `index` on, with `n` rounds to go. -/
def fillHoleLoop (write : List UInt8 → SsaM D Nat) (size : Nat) : Nat → Nat → SsaM D Unit
  | 0, _ => pure ()
  | n+1, index => do
    let sendCount := if holePerSize * (index+1) > size then size % holePerSize else holePerSize
    let count ← write (List.replicate sendCount 0)
    if count ≠ sendCount then pure () else fillHoleLoop write size n (index+1)

/-- `fill_file_hole`, nested at most `depth` times. -/
def fillFileHole (K : Crypto D) : Nat → Nat → Nat → SsaM D Unit
  | 0, _, _ => throw .generic
  | depth+1, startOffset, size => do
    if startOffset > int32Max then throw .badParameters
    else do
      match ← attempt (ssaSeekWith (fillFileHole K depth) startOffset 0) with
      | .error _ => throw .generic
      | .ok _ =>
        let times := size / holePerSize + if size % holePerSize ≠ 0 then 1 else 0
        fillHoleLoop (ssaWriteWith K (fillFileHole K depth)) size times 0

/-- A hole is filled from the end of the file, where no further hole can appear. -/
def holeDepth : Nat := 2

def ssaSeek (offset : Int) (whence : Nat) : SsaM D Unit :=
  ssaSeekWith (fillFileHole K holeDepth) offset whence

def ssaWrite (content : List UInt8) : SsaM D Nat :=
  ssaWriteWith K (fillFileHole K holeDepth) content

/-- `ssa_read_init_data`: the clipped count, and a seek to the start of the first block. -/
def ssaReadInitData : SsaM D (RwInfo × Nat) := do
  let (curPos, fileLen) ← ssaInfo
  let count := if u32 (curPos + count) > fileLen then sub32 fileLen curPos else count
  let r := rwInfo curPos count
  when (r.startOffset ≠ 0) (ssaSeek K r.startPos 0)
  pure (r, count)

/-- The loop of `read_data_out` with `n` of `recvTimes` rounds to go; `out` holds the bytes read
so far. The second result is `end_flag`. -/
def readDataLoop (K : Crypto D) (r : RwInfo) (count recvTimes : Nat) :
    Nat → Nat → List UInt8 → SsaM D (Except TeeResult (List UInt8) × Bool)
  | 0, _, out => pure (.ok out, false)
  | n+1, totalActualCount, out => do
    let actual := actualCount r count
    let recvCount := if totalActualCount + cryptBlockSize ≤ actual then cryptBlockSize
      else actual % cryptBlockSize
    let sfd ← get
    match ← attempt (do
        let buff ← ssaFsFread (getSpecErrno · .readData) sfd.nfd recvCount
        let plain ← decryptDataBlock K buff
          ((r.startPos + totalActualCount) / cryptBlockSize)
        pure (buff.length, plain)) with
    | .error e => pure (.error e, false)
    | .ok (readCount, plain) => do
      let startCut := if n+1 == recvTimes then r.startOffset else 0
      let endFlag := n == 0 && r.endOffset != 0
      let copyCount := sub32 (sub32 readCount startCut)
        (if endFlag then cryptBlockSize - r.endOffset else 0)
      if memmoveRefuses (sub32 count out.length) copyCount then pure (.error .security, endFlag)
      else do
        let out := out ++ (plain.drop startCut).take copyCount
        if readCount < recvCount ∨ n = 0 then pure (.ok out, endFlag)
        else readDataLoop K r count recvTimes n (totalActualCount + readCount) out

def ssaRead : SsaM D (List UInt8) := do
  let (r, count) ← ssaReadInitData K count
  let sfd ← get
  if r.curPos ≥ sfd.size then pure []
  else do
    let times := transferTimes (actualCount r count)
    let (ret, endFlag) ← readDataLoop K r count times times 0 []
    when endFlag (ssaSeek K r.endPos 0)
    ofExcept ret

end TeeOs.Ssa
