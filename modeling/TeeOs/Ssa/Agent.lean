import TeeOs.Lib.Calls
import TeeOs.Lib.Bytes

/-!
# The normal-world file agent

The requests of `ssa_fs.c` and a POSIX-like agent that answers them. A raw file
is the metadata record of `sfs.h` followed by data bytes; the record is read and
written whole, except for the data HMAC, which has an offset of its own. Digests
are an arbitrary type: the agent never computes one. A copy cut in the middle
may leave any file that `bad` allows; every other call is atomic.
-/

namespace TeeOs.Ssa

open Lib.Calls Lib.Bytes

/-- The result codes in use; `minusOne` is a plain `-1` cast to `TEE_Result`. -/
inductive TeeResult where
  | success | minusOne | generic | accessDenied | accessConflict | badFormat | badParameters | badState
  | itemNotFound | outOfMemory | security | overflow | corruptObject | externalCancel
  | readData | writeData | seekData | truncateObject | shortBuffer
  | storageEio | storageEagain | storageEnotdir | storageEisdir | storageEnfile | storageEmfile
  | storageNoSpace | storageErofs | storageNotAvailable
  deriving DecidableEq

inductive Errno where
  | zero | eperm | enoent | eintr | eio | ebadf | eagain | enomem | eacces | enotdir | eisdir
  | einval | enfile | emfile | efbig | enospc | erofs | enametoolong | eoverflow
  | estoragedead | efcorrupt | other
  deriving DecidableEq

/-- The table `g_fs_error_strings`. -/
def fsNsErrorLookup : Errno → TeeResult
  | .zero => .success
  | .eperm => .accessDenied
  | .enoent => .itemNotFound
  | .eintr => .externalCancel
  | .eio => .storageEio
  | .ebadf => .badParameters
  | .eagain => .storageEagain
  | .enomem => .outOfMemory
  | .eacces => .accessDenied
  | .enotdir => .storageEnotdir
  | .eisdir => .storageEisdir
  | .einval => .badParameters
  | .enfile => .storageEnfile
  | .emfile => .storageEmfile
  | .efbig => .overflow
  | .enospc => .storageNoSpace
  | .erofs => .storageErofs
  | .enametoolong => .badParameters
  | .eoverflow => .overflow
  | .estoragedead => .storageNotAvailable
  | .efcorrupt => .corruptObject
  | .other => .generic

/-- `get_spec_errno` after a call that left `e` in `g_fs_errno`. -/
def getSpecErrno (e : Errno) (retDefault : TeeResult) : TeeResult :=
  if fsNsErrorLookup e = .success then retDefault else fsNsErrorLookup e

/-- The bits `TEE_DATA_FLAG_*` of a flag word; `otherBits` says whether any other bit is set. -/
structure DataFlags where
  accessRead : Bool
  accessWrite : Bool
  accessWriteMeta : Bool
  shareRead : Bool
  shareWrite : Bool
  create : Bool
  overwrite : Bool
  otherBits : Bool
  deriving DecidableEq

abbrev DataFlags.NoAccess (flag : DataFlags) : Prop :=
  flag.accessRead = false ∧ flag.accessWrite = false

inductive Whence where
  | set | cur | fromEnd
  deriving DecidableEq

/-- `meta_storage_header_t` without its reserved words, which stay zero. -/
structure MetaStorageHeader (D : Type) where
  magicLo : Nat
  magicHi : Nat
  archVersion : Nat
  lastBlockRealsize : Nat
  magicVersion : Nat
  fnameDatahmacHash : D
  encryptoMeth : Nat
  deriving DecidableEq

/-- `meta_storage_t`; an HMAC field of zero bytes, which no hex string equals, is `none`. -/
structure MetaStorage (D : Type) where
  hdr : MetaStorageHeader D
  metaHmac : Option D
  dataHmac : Option D
  deriving DecidableEq

def sfsMetadataSize : Nat := 192

def sfsDatahmacOffset : Nat := 128

/-- A raw file; one without metadata is shorter than the record. -/
structure RawFile (D : Type) where
  header : Option (MetaStorage D)
  data : List UInt8
  deriving DecidableEq

def RawFile.len {D : Type} (f : RawFile D) : Nat :=
  match f.header with
  | none => 0
  | some _ => sfsMetadataSize + f.data.length

inductive Call (D : Type) where
  | fopen (name : String) (flag : DataFlags)
  | fcreate (name : String) (flag : DataFlags)
  | fclose (fd : Nat)
  | freadMeta (fd : Nat)
  | fread (fd count : Nat)
  | fwriteMeta (fd : Nat) (record : MetaStorage D)
  | fwriteDataHmac (fd : Nat) (hmac : Option D)
  | fwrite (fd : Nat) (content : List UInt8)
  | fseek (fd : Nat) (offset : Int) (whence : Whence)
  | finfo (fd : Nat)
  | ftruncate (name : String) (len : Nat)
  | fcopy (fromPath toPath : String)
  | fremove (name : String)

def Call.Ret {D : Type} : Call D → Type
  | .fopen _ _ => Nat
  | .fcreate _ _ => Nat
  | .freadMeta _ => Option (MetaStorage D)
  | .fread _ _ => List UInt8
  | .finfo _ => Nat × Nat
  | _ => Unit

/-- What a call answers: its value, or the error number of a failure. -/
abbrev Answer {D : Type} (c : Call D) : Type := Except Errno c.Ret

structure OpenFile where
  name : String
  pos : Nat
  writable : Bool
  deriving DecidableEq

structure Fs (D : Type) where
  files : String → Option (RawFile D)
  opened : List (Nat × OpenFile)

/-- A descriptor no open file has. -/
def freshFd : List (Nat × OpenFile) → Nat
  | [] => 1
  | (d, _) :: rest => max (d+1) (freshFd rest)

def lookupFd (fd : Nat) : List (Nat × OpenFile) → Option OpenFile
  | [] => none
  | (d, o) :: rest => if d = fd then some o else lookupFd fd rest

def replaceFd (fd : Nat) (o : OpenFile) : List (Nat × OpenFile) → List (Nat × OpenFile)
  | [] => []
  | (d, o') :: rest => if d = fd then (d, o) :: rest else (d, o') :: replaceFd fd o rest

def removeFd (fd : Nat) : List (Nat × OpenFile) → List (Nat × OpenFile)
  | [] => []
  | (d, o) :: rest => if d = fd then rest else (d, o) :: removeFd fd rest

namespace Fs

variable {D : Type}

variable (s : Fs D) (name : String) (fd : Nat)

def writeFile (f : RawFile D) : Fs D :=
  { s with files := Function.update s.files name (some f) }

/-- Run `k` on an open file and the raw file behind it. -/
def withFd {α : Type} (s : Fs D) (fd : Nat)
    (k : OpenFile → RawFile D → Except Errno α × Fs D) : Except Errno α × Fs D :=
  match lookupFd fd s.opened with
  | none => (.error .ebadf, s)
  | some o =>
    match s.files o.name with
    | none => (.error .ebadf, s)
    | some f => k o f

def setPos (o : OpenFile) (pos : Nat) : Fs D :=
  { s with opened := replaceFd fd { o with pos := pos } s.opened }

/-- The modes of `encode_open_mode`: nothing is opened without read or write access. -/
def fopen (flag : DataFlags) : Except Errno Nat × Fs D :=
  if flag.accessRead = false ∧ flag.accessWrite = false then (.error .einval, s)
  else if (s.files name).isNone then (.error .enoent, s)
  else
    (.ok (freshFd s.opened),
      { s with opened := (freshFd s.opened, ⟨name, 0, flag.accessWrite⟩) :: s.opened })

def fcreate (flag : DataFlags) : Except Errno Nat × Fs D :=
  if flag.accessRead = false ∧ flag.accessWrite = false then (.error .einval, s)
  else
    (.ok (freshFd s.opened),
      { files := Function.update s.files name (some ⟨none, []⟩),
        opened := (freshFd s.opened, ⟨name, 0, true⟩) :: s.opened })

def fclose : Except Errno Unit × Fs D :=
  match lookupFd fd s.opened with
  | none => (.error .ebadf, s)
  | some _ => (.ok (), { s with opened := removeFd fd s.opened })

def freadMeta : Except Errno (Option (MetaStorage D)) × Fs D :=
  s.withFd fd fun o f =>
    if o.pos = 0 ∧ f.header.isSome then (.ok f.header, s.setPos fd o sfsMetadataSize)
    else (.ok none, s)

def fread (fd count : Nat) : Except Errno (List UInt8) × Fs D :=
  s.withFd fd fun o f =>
    if o.pos < sfsMetadataSize then (.error .einval, s)
    else
      let bytes := (f.data.drop (o.pos - sfsMetadataSize)).take count
      (.ok bytes, s.setPos fd o (o.pos + bytes.length))

def fwriteMeta (record : MetaStorage D) : Except Errno Unit × Fs D :=
  s.withFd fd fun o f =>
    if o.writable = false then (.error .ebadf, s)
    else if o.pos ≠ 0 then (.error .einval, s)
    else (.ok (), (s.writeFile o.name ⟨some record, f.data⟩).setPos fd o sfsMetadataSize)

def fwriteDataHmac (hmac : Option D) : Except Errno Unit × Fs D :=
  s.withFd fd fun o f =>
    if o.writable = false then (.error .ebadf, s)
    else if o.pos ≠ sfsDatahmacOffset then (.error .einval, s)
    else
      match f.header with
      | none => (.error .einval, s)
      | some m =>
        (.ok (), (s.writeFile o.name ⟨some { m with dataHmac := hmac }, f.data⟩).setPos fd o
          sfsMetadataSize)

def fwrite (content : List UInt8) : Except Errno Unit × Fs D :=
  s.withFd fd fun o f =>
    if o.writable = false then (.error .ebadf, s)
    else if o.pos < sfsMetadataSize ∨ f.header.isNone then (.error .einval, s)
    else
      (.ok (), (s.writeFile o.name
        { f with data := overlay f.data (o.pos - sfsMetadataSize) content }).setPos fd o
          (o.pos + content.length))

def seekBase (whence : Whence) (pos len : Nat) : Nat :=
  match whence with
  | .set => 0
  | .cur => pos
  | .fromEnd => len

def fseek (offset : Int) (whence : Whence) : Except Errno Unit × Fs D :=
  s.withFd fd fun o f =>
    if seekBase whence o.pos f.len + offset < 0 then (.error .einval, s)
    else (.ok (), s.setPos fd o (seekBase whence o.pos f.len + offset).toNat)

def finfo : Except Errno (Nat × Nat) × Fs D :=
  s.withFd fd fun o f => (.ok (o.pos, f.len), s)

def ftruncate (len : Nat) : Except Errno Unit × Fs D :=
  match s.files name with
  | none => (.error .enoent, s)
  | some f =>
    if len < sfsMetadataSize ∨ f.header.isNone then (.error .einval, s)
    else (.ok (), s.writeFile name { f with data := resize f.data (len - sfsMetadataSize) })

def fcopy (fromPath toPath : String) : Except Errno Unit × Fs D :=
  match s.files fromPath with
  | none => (.error .enoent, s)
  | some f => (.ok (), s.writeFile toPath f)

def fremove : Except Errno Unit × Fs D :=
  if (s.files name).isNone then (.error .enoent, s)
  else (.ok (), { s with files := Function.update s.files name none })

def step : (c : Call D) → Fs D → Answer c × Fs D
  | .fopen name flag, s => s.fopen name flag
  | .fcreate name flag, s => s.fcreate name flag
  | .fclose fd, s => s.fclose fd
  | .freadMeta fd, s => s.freadMeta fd
  | .fread fd count, s => s.fread fd count
  | .fwriteMeta fd record, s => s.fwriteMeta fd record
  | .fwriteDataHmac fd hmac, s => s.fwriteDataHmac fd hmac
  | .fwrite fd content, s => s.fwrite fd content
  | .fseek fd offset whence, s => s.fseek fd offset whence
  | .finfo fd, s => s.finfo fd
  | .ftruncate name len, s => s.ftruncate name len
  | .fcopy fromPath toPath, s => s.fcopy fromPath toPath
  | .fremove name, s => s.fremove name

end Fs

/-- The agent as a device; a torn copy leaves some file that `bad` allows. -/
def agent {D : Type} (bad : RawFile D → Prop) : Device (Call D) Answer (Fs D) where
  step := Fs.step
  torn
    | .fcopy _ toPath, s, t => ∃ f, bad f ∧ t = s.writeFile toPath f
    | _, _, _ => False

/-- An agent with a plan of faults: each call takes one entry, and an error in it is the answer. -/
def faultyAgent {D : Type} : Device (Call D) Answer (Fs D × List (Option Errno)) where
  step
    | c, (s, []) => ((Fs.step c s).1, (Fs.step c s).2, [])
    | c, (s, none :: plan) => ((Fs.step c s).1, (Fs.step c s).2, plan)
    | _, (s, some e :: plan) => (.error e, s, plan)
  torn _ _ _ := False

end TeeOs.Ssa
