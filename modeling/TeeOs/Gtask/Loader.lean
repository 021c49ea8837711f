import TeeOs.Gtask.State
import TeeOs.Lib.Bytes

/-!
# Loading images

`tee_app_load_srv.c` and `load_app_comm.c`: the normal world sends an image in chunks,
gtask collects it in a mapped temporary file and hands the file over to the permission
service. With the answer, which carries offsets into the image, the ELF is registered as
a service or stored as a library. There is one image buffer and one saved command. The
permission service reads the file when it verifies; its answers come later.
-/

namespace TeeOs.Gtask

open TeeOs.Lib.Bytes

/-- A file of the memory file system: a temporary one, or the one of a service. -/
inductive ImageFile where
  | tmp (number : Nat)
  | service (uuid : Nat)
  deriving DecidableEq, Repr

/-- `elf_image_info`; `mapped` stands for `img_buf != NULL`. The buffer is the file. -/
structure ImageInfo where
  mapped : Bool := false
  imgOffset : Nat := 0
  imgSize : Nat := 0
  alignedImgSize : Nat := 0
  imgVersion : Nat := 0
  tmpFile : Option ImageFile := none
  tmpFileExist : Bool := false
  deriving DecidableEq, Repr

/-- A load command: `number` tells the commands of a run apart, `start` is the value
that asks for a new image, `buffer` the shared buffer. -/
structure LoadCmd where
  number : Nat
  start : Nat
  loadType : Nat
  buffer : List UInt8
  deriving DecidableEq, Repr

inductive TargetType where
  | ta | drv | dynLib | srv | client
  deriving DecidableEq, Repr

inductive ImgType where
  | app | lib | dynamicDrv | dynamicSrv | dynamicClient | cryptoDrv | max
  deriving DecidableEq, Repr

/-- `elf_verify_reply`; an offset is `none` for `INVALID_OFFSET`. -/
structure VerifyReply where
  verifyResult : TeeRet := .success
  srvUuid : Nat
  offTaElf : Option Nat
  taElfSize : Nat
  maniExtSize : Nat := 0
  stackSize : Nat := 1
  heapSize : Nat := 1
  isLib : Bool := false
  targetType : TargetType := .ta
  hardwareCrypto : Bool := false
  deriving DecidableEq, Repr

/-- A request to the permission service, the command it was made for, and the answer
once the file was looked at. -/
structure VerifyReq where
  file : ImageFile
  cmd : Nat
  reply : Option VerifyReply
  deriving DecidableEq, Repr

/-- An image that was verified: what the file held, and what the answer says of it. -/
structure VerifiedImage where
  uuid : Nat
  image : List UInt8
  offTaElf : Nat
  taElfSize : Nat
  deriving DecidableEq, Repr

/-- What gtask has registered or stored: the ELF it keeps, and what the image file held
just before. -/
structure KeptElf where
  uuid : Nat
  elf : List UInt8
  image : List UInt8
  deriving DecidableEq, Repr

/-- The globals of the loader. `requests` are the requests that are not answered yet,
`verified`, `kept`, `handedOver` and `answered` what has happened so far; an answer
carries the number of the command, if the saved command is one. -/
structure LoadState where
  files : ImageFile → Option (List UInt8)
  nextTmp : Nat
  img : ImageInfo
  savedCmd : Option LoadCmd
  elfLoading : Bool
  requests : List VerifyReq
  nextCmd : Nat
  verified : List VerifiedImage
  kept : List KeptElf
  handedOver : List Nat
  answered : List (Option Nat)

/-- What the system answers while a load command is handled. -/
structure LoadEnv where
  age : TeeRet := .success
  parse : TeeRet := .success
  alloc : Bool := true
  close : Bool := true
  request : TeeRet := .success

inductive StoreLib where
  | fail | exist | stored
  deriving DecidableEq, Repr

/-- What the system answers while an answer of the permission service is handled. -/
structure RegisterEnv where
  parse : TeeRet := .success
  reopen : Bool := true
  notifyMaxLen : Nat := 0
  serviceExist : Bool := false
  rename : Bool := true
  register : TeeRet := .success
  findService : Bool := true
  storeLib : StoreLib := .stored
  addLibinfo : TeeRet := .success

inductive LoadEvent where
  | load (env : LoadEnv) (start loadType : Nat) (buffer : List UInt8)
  /-- the permission service looks at the file of its oldest request. -/
  | verify (reply : VerifyReply)
  /-- its oldest answer reaches gtask. -/
  | answer (env : RegisterEnv)
  | crash

def maxImageLen : Nat := 0x800000
def cipherLayerVersion : Nat := 3
def taSignVersion : Nat := 1
def loadDynamicDrv : Nat := 3
def maxStackSize : Nat := 8 * 1024 * 1024

/-- A little-endian `uint32_t` at `p`. -/
def le32 (l : List UInt8) (p : Nat) : Nat :=
  (cell l p).toNat + 2^8 * (cell l (p+1)).toNat + 2^16 * (cell l (p+2)).toNat +
    2^24 * (cell l (p+3)).toNat

section Receive

def teeSecureImgGetVersion (shareBuf : List UInt8) : Except TeeRet Nat :=
  if shareBuf.length < 12 then .error .badParameters
  else if le32 shareBuf 0 = 0xA5A55A5A ∧ le32 shareBuf 4 = 0xAAAA ∧ 1 < le32 shareBuf 8 then
    .ok (le32 shareBuf 8)
  else .ok taSignVersion

/-- `tee_secure_get_img_size`: only images with the cipher layer are known. -/
def teeSecureGetImgSize (version : Nat) (shareBuf : List UInt8) : Except TeeRet Nat :=
  if version ≠ cipherLayerVersion then .error (.other 0xFFFF000A)
  else if shareBuf.length ≤ 20 then .error .generic
  else if 2^32 ≤ le32 shareBuf 12 + 20 then .error .generic
  else if maxImageLen < le32 shareBuf 12 + 20 then .error .generic
  else .ok (le32 shareBuf 12 + 20)

def pageAlignUp (n : Nat) : Nat := (n + 4095) / 4096 * 4096

namespace LoadState

variable (s : LoadState) (env : LoadEnv)

def setFile (f : ImageFile) (content : Option (List UInt8)) : LoadState :=
  { s with files := Function.update s.files f content }

def freeImgLoadBuf : LoadState :=
  if s.img.mapped then
    let files := match s.img.tmpFile with
      | some f => if s.img.tmpFileExist then Function.update s.files f none else s.files
      | none => s.files
    { s with files := files, img := {}, savedCmd := none, elfLoading := false }
  else s

def getImgLoadBuf (size : Nat) : TeeRet × LoadState :=
  if env.alloc then
    (.success, { s.setFile (.tmp s.nextTmp) (some (List.replicate size 0)) with
      nextTmp := s.nextTmp + 1
      img := { s.img with
        mapped := true, imgOffset := 0, imgSize := size
        alignedImgSize := pageAlignUp (size + 4096)
        tmpFile := some (.tmp s.nextTmp), tmpFileExist := true } })
  else (.badParameters, { s with nextTmp := s.nextTmp + 1 })

variable (cmd : LoadCmd) (shareBuf : List UInt8)

/-- The first part of `tee_secure_image_recieve`, where a new image begins. -/
def beginImage : TeeRet × LoadState :=
  if s.img.mapped then (.success, s)
  else
    match teeSecureImgGetVersion shareBuf with
    | .error ret => (ret, s)
    | .ok version =>
      let s := { s with img := { s.img with imgVersion := version } }
      match teeSecureGetImgSize version shareBuf with
      | .error ret => (ret, s)
      | .ok size => s.getImgLoadBuf env size

/-- `memcpy_s` into the image buffer. -/
def copyChunk : LoadState :=
  match s.img.tmpFile with
  | none => s
  | some f =>
    s.setFile f ((s.files f).map fun content => overlay content s.img.imgOffset shareBuf)

def teeSecureImageRecieve : TeeRet × LoadState :=
  let (ret, s) := s.beginImage env shareBuf
  if ret ≠ .success then (ret, s)
  else if s.img.imgOffset > s.img.imgSize ∨ shareBuf.length > s.img.imgSize - s.img.imgOffset then
    (.generic, s)
  else
    (.success, { s.copyChunk shareBuf with
      img := { s.img with imgOffset := s.img.imgOffset + shareBuf.length } })

/-- `recv_img_info_from_tzdriver`: the flag is `RET_KEEP_LOADING`. -/
def recvImgInfoFromTzdriver : TeeRet × Bool × LoadState :=
  if env.parse ≠ .success then (env.parse, false, s)
  else
    let s := if cmd.start = 0 then s.freeImgLoadBuf else s
    let keepLoading := le32 cmd.buffer 0
    let (ret, s) := s.teeSecureImageRecieve env (cmd.buffer.drop 4)
    if ret ≠ .success then (ret, false, s)
    else (.success, decide (s.img.imgOffset < s.img.imgSize ∧ keepLoading = 1), s)

/-- `tee_secure_img_unpack_req` with the permission service: the result and whether the
answer comes later. -/
def teeSecureImgUnpackReq : TeeRet × Bool × LoadState :=
  let s := { s with savedCmd := some cmd }
  if env.request ≠ .success then (env.request, false, s.freeImgLoadBuf)
  else
    match s.img.tmpFile with
    | none => (.generic, false, s.freeImgLoadBuf)
    | some f =>
      (.success, true, { s with
        requests := s.requests ++ [⟨f, cmd.number, none⟩]
        handedOver := cmd.number :: s.handedOver
        elfLoading := true })

def loadSecureFileImage : TeeRet × Bool × LoadState :=
  if env.age ≠ .success then (env.age, false, s.freeImgLoadBuf)
  else
    let (ret, keepLoading, s) := s.recvImgInfoFromTzdriver env cmd
    if ret ≠ .success then (ret, false, s.freeImgLoadBuf)
    else if keepLoading then (.success, false, s)
    else if env.close then s.teeSecureImgUnpackReq env cmd
    else (.generic, false, s.freeImgLoadBuf)

/-- `dispatch_ns_cmd` for a load command: unless the answer comes later, it is sent now. -/
def loadCommand (start loadType : Nat) (buffer : List UInt8) : LoadState :=
  let cmd : LoadCmd := ⟨s.nextCmd, start, loadType, buffer⟩
  let (_, async, s) := { s with nextCmd := s.nextCmd + 1 }.loadSecureFileImage env cmd
  if async then s else { s with answered := some cmd.number :: s.answered }

end LoadState

end Receive

section Register

/-- `get_img_type_v`. -/
def getImgType (reply : VerifyReply) (version : Nat) : ImgType :=
  if version ≠ cipherLayerVersion then .max
  else if reply.targetType = .drv ∧ reply.hardwareCrypto then .cryptoDrv
  else if reply.isLib then .lib
  else
    match reply.targetType with
    | .drv => .dynamicDrv
    | .srv => .dynamicSrv
    | .client => .dynamicClient
    | _ => .app

def ImgType.isDriver : ImgType → Bool
  | dynamicDrv | cryptoDrv | dynamicClient => true
  | _ => false

/-- `elf_param_check`, with the page size applied to the stack. -/
def elfParamCheck (env : RegisterEnv) (reply : VerifyReply) : Bool :=
  pageAlignUp reply.stackSize != 0 && decide (pageAlignUp reply.stackSize ≤ maxStackSize) &&
    reply.heapSize != 0 && decide (reply.maniExtSize ≤ env.notifyMaxLen)

def varifyElfArch (elf : List UInt8) (size : Nat) : Bool :=
  decide (5 ≤ size) && (cell elf 4 == 1 || cell elf 4 == 2)

namespace LoadState

variable (s : LoadState) (env : RegisterEnv) (reply : VerifyReply)

/-- What the image file holds. -/
def image : Option (List UInt8) := s.img.tmpFile.bind s.files

/-- `load_secure_app_image_general`, from `load_elf_to_tee` on: the file gets the name of the
service, the service is registered and the ELF is moved to the head of the file. -/
def loadElfToTee (uuid size : Nat) (file : ImageFile)
    (image elf : List UInt8) : TeeRet × LoadState :=
  if env.serviceExist then (.generic, s)
  else if env.rename = false then (.generic, s)
  else
    let s := { (s.setFile file none).setFile (.service uuid) (some image) with
      img := { s.img with tmpFile := some (.service uuid) } }
    if env.register ≠ .success then (env.register, s)
    else if s.img.alignedImgSize < size then (.generic, s)
    else
      (.success, { s.setFile (.service uuid) (some (overlay image 0 elf)) with
        kept := ⟨uuid, (overlay image 0 elf).take size, image⟩ :: s.kept })

def loadSecureAppImage (file : ImageFile) (image elf : List UInt8) : TeeRet × LoadState :=
  if s.img.imgVersion ≠ cipherLayerVersion then (.other 0xFFFF000A, s)
  else if elfParamCheck env reply = false then (.generic, s)
  else if varifyElfArch elf reply.taElfSize = false then (.generic, s)
  else s.loadElfToTee env reply.srvUuid reply.taElfSize file image elf

/-- `load_secure_lib_image`. A driver is stored among the libraries of gtask itself. -/
def loadSecureLibImage (type : ImgType) (reply : VerifyReply)
    (image elf : List UInt8) : TeeRet × LoadState :=
  if type.isDriver ∧ reply.heapSize < reply.taElfSize then (.badParameters, s)
  else if env.findService = false then (.generic, s)
  else
    match env.storeLib with
    | .fail => (.generic, s)
    | .exist => (.success, s)
    | .stored =>
      if env.addLibinfo ≠ .success then (env.addLibinfo, s)
      else (.success, { s with kept := ⟨reply.srvUuid, elf, image⟩ :: s.kept })

def doRegisterElf (off : Nat)
    (type : ImgType) : TeeRet × LoadState :=
  match s.img.tmpFile, s.image with
  | some file, some image =>
    if env.reopen = false then (.generic, s)
    else
      let elf := (image.drop off).take reply.taElfSize
      if type = .app ∨ type = .dynamicSrv then
        let (ret, s) := s.loadSecureAppImage env reply file image elf
        if ret = .success then (ret, { s with img := { s.img with tmpFileExist := false } })
        else (ret, s)
      else s.loadSecureLibImage env type reply image elf
  | _, _ => (.generic, s)

/-- `process_register_elf`; `loadType` is the second parameter of the saved command. -/
def processRegisterElf (loadType : Nat) : TeeRet × LoadState :=
  if reply.verifyResult ≠ .success then (reply.verifyResult, s)
  else
    match reply.offTaElf with
    | none => (.badParameters, s)
    | some off =>
      let type := getImgType reply s.img.imgVersion
      if loadType = loadDynamicDrv ∧ type.isDriver = false then (.badParameters, s)
      else s.doRegisterElf env reply off type

def sendImgLoadResponse : LoadState :=
  { s with answered := s.savedCmd.map LoadCmd.number :: s.answered }

/-- `process_register_elf_req`. A command that was wiped out has no parameters. -/
def processRegisterElfReq : LoadState :=
  let s := { s with elfLoading := false }
  match s.savedCmd with
  | none => s.sendImgLoadResponse.freeImgLoadBuf
  | some cmd =>
    if env.parse ≠ .success then s.sendImgLoadResponse.freeImgLoadBuf
    else
      let (_, s) := s.processRegisterElf env reply cmd.loadType
      s.sendImgLoadResponse.freeImgLoadBuf

def elfVerifyCrashCallback : LoadState :=
  if s.elfLoading then { s.sendImgLoadResponse.freeImgLoadBuf with elfLoading := false } else s

/-- The permission service looks at the file of its oldest request and settles the answer. -/
def verifyOldest : LoadState :=
  match s.requests with
  | ⟨file, cmd, none⟩ :: rest =>
    match s.files file with
    | none =>
      { s with requests := ⟨file, cmd, some { reply with verifyResult := .generic }⟩ :: rest }
    | some image =>
      { s with
        requests := ⟨file, cmd, some reply⟩ :: rest
        verified := match reply.verifyResult, reply.offTaElf with
          | .success, some off => ⟨reply.srvUuid, image, off, reply.taElfSize⟩ :: s.verified
          | _, _ => s.verified }
  | _ => s

/-- Its oldest answer reaches gtask. -/
def answerOldest : LoadState :=
  match s.requests with
  | ⟨_, _, some reply⟩ :: rest => { s with requests := rest }.processRegisterElfReq env reply
  | _ => s

/-- One event; a crash of the permission service loses its requests. -/
def step : LoadEvent → LoadState
  | .load env start loadType buffer => s.loadCommand env start loadType buffer
  | .verify reply => s.verifyOldest reply
  | .answer env => s.answerOldest env
  | .crash => { s with requests := [] }.elfVerifyCrashCallback

end LoadState

/-- The loader before the first command. -/
def initLoader : LoadState := ⟨fun _ => none, 0, {}, none, false, [], 0, [], [], [], []⟩

end Register

end TeeOs.Gtask
