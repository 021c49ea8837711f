import TeeOs.PermSrv.SetConfig

/-!
# The configuration of a TA, as the jar tool writes it

A configuration is a tree of elements. Each has an ASN.1 tag, two bytes of length, its
own tag as an ASN.1 integer and a value, which for most tags is again a sequence of
elements (`perm_srv_ta_config.c`). Unknown tags are passed over. `buff` is the package
from the element on and `len` the length that is granted to it; allocations succeed.
-/

namespace TeeOs.PermSrv

structure TeeUuid where
  timeLow : UInt32 := 0
  timeMid : UInt16 := 0
  timeHiAndVersion : UInt16 := 0
  clockSeqAndNode : Vector UInt8 8 := Vector.replicate 8 0
  deriving DecidableEq

structure TaManifestInfo where
  singleInstance : Bool := false
  multiSession : Bool := false
  multiCommand : Bool := false
  instanceKeepAlive : Bool := false
  heapSize : Nat := 0
  stackSize : Nat := 0
  memPageAlign : Bool := false
  targetType : Nat := 0
  deriving DecidableEq

structure CalleeTaInfo where
  uuid : TeeUuid
  commandId : List Nat
  deriving DecidableEq

structure TaControlInfo where
  sePermissions : Nat := 0
  taManager : Nat := 0
  calleeInfo : List CalleeTaInfo := []
  debugStatus : Bool := false
  validDevice : Bool := false
  deriving DecidableEq

/-- `config_info` without its task list. -/
structure ConfigInfo where
  uuid : TeeUuid := {}
  serviceName : Bytes := []
  version : Nat := 0
  manifestInfo : TaManifestInfo := {}
  controlInfo : TaControlInfo := {}
  deriving DecidableEq

def vAsn1Integer : Nat := 2
def vAsn1Sequence : Nat := 16
def tlvValueOffset : Nat := 3
def uuidStrLen : Nat := 36
def maxServiceNameLen : Nat := 40
def maxCalleeTaCount : Nat := 100
def maxCalleeCommandCount : Nat := 100
def calleeUuidInnerTlvLen : Nat := 3
def commandIdInnerTlvLen : Nat := 4
def commandIdInfoLen : Nat := tlvValueOffset + commandIdInnerTlvLen + 4
def uint32Max : Nat := 0xFFFFFFFF

def tlvTagTaBasicInfo : Nat := 0x01
def tlvTagTaManifestInfo : Nat := 0x02
def tlvTagTaControlInfo : Nat := 0x03
def tlvTagCalleetaInfo : Nat := 0x04
def tlvTagSeInfo : Nat := 0x33
def tlvTagDebugInfo : Nat := 0x35
def tlvTagCalleetaUuid : Nat := 0x41
def tlvTagUuid : Nat := 0x01 + 0xFF
def tlvTagServiceName : Nat := 0x02 + 0xFF
def tlvTagSingleInstance : Nat := 0x11 + 0xFF
def tlvTagMultiSession : Nat := 0x12 + 0xFF
def tlvTagHeapSize : Nat := 0x14 + 0xFF
def tlvTagStackSize : Nat := 0x15 + 0xFF
def tlvTagInstanceKeepAlive : Nat := 0x16 + 0xFF
def tlvTagMemPageAlign : Nat := 0x17 + 0xFF
def tlvTagTargetType : Nat := 0x18 + 0xFF
def tlvTagTaManager : Nat := 0x71 + 0xFF
def tlvTagCalleetaCommandId : Nat := 0x81 + 0xFF
def tlvTagDebugDeviceId : Nat := 0x52 + 0xFF

/-! ## Values -/

/-- The first `valSize` bytes as a number, high byte first, and zero if there are fewer. -/
def byteToInteger (bytes : Bytes) (len valSize : Nat) : Nat :=
  if len < valSize then 0
  else (List.range valSize).foldl (fun res i => (res * 2^8 + byteAt bytes i) % 2^32) 0

def asc2hex (a : Nat) : Option Nat :=
  if 0x30 ≤ a ∧ a ≤ 0x39 then some (a - 0x30)
  else if 0x61 ≤ a ∧ a ≤ 0x66 then some (a - 0x61 + 10)
  else if 0x41 ≤ a ∧ a ≤ 0x46 then some (a - 0x41 + 10)
  else none

variable (buff : Bytes) (len : Nat) (c : ConfigInfo)

def getByteValueFromBuff : Option Nat :=
  if len < 2 then none
  else do
    let high ← asc2hex (byteAt buff 0)
    let low ← asc2hex (byteAt buff 1)
    some (high * 2^4 + low)

/-- Where the text of a uuid has a `-`. The last place is behind its end: a text that is
followed by a `-` is refused. -/
def addPosArray : List Nat := [8, 13, 18, 23, 36]

/-- The bytes read and the place behind them. -/
def convertLoop (buff : Bytes) (len : Nat) : Nat → Nat → List Nat → Bytes → Option (Nat × Bytes)
  | 0, p, _, parsed => some (p, parsed)
  | i + 1, p, adds, parsed => do
    let value ← getByteValueFromBuff (buff.drop p) (len - p)
    let parsed := parsed ++ [UInt8.ofNat value]
    match adds with
    | [] => some (p + 2, parsed)
    | add :: adds' =>
      if p + 2 = add then
        if byteAt buff (p+2) = 0x2D then convertLoop buff len i (p+3) adds' parsed
        else some (p + 2, parsed)
      else convertLoop buff len i (p+2) adds parsed

def permSrvConvertStrToUuid : Option TeeUuid := do
  let (p, parsed) ← convertLoop buff len 16 0 addPosArray []
  if p ≠ len then none
  else
    some
      { timeLow := UInt32.ofNat (byteToInteger parsed 16 4)
        timeMid := UInt16.ofNat (byteToInteger (parsed.drop 4) 12 2)
        timeHiAndVersion := UInt16.ofNat (byteToInteger (parsed.drop 6) 10 2)
        clockSeqAndNode := Vector.ofFn fun i => parsed.getD (8 + i) 0 }

/-! ## Elements -/

/-- The tag of an element, and the bytes it takes. -/
def parseInnerTag (tlv : Bytes) (tlvLen : Nat) : Option (Nat × Nat) :=
  if tlvLen < tlvValueOffset then none
  else if byteAt tlv 0 ≠ vAsn1Integer then none
  else if byteAt tlv 1 = 1 then some (byteAt tlv 2, 3)
  else if byteAt tlv 1 = 2 ∧ tlvLen > tlvValueOffset then
    some (byteAt tlv 3 + byteAt tlv 2 * 2^8, 4)
  else none

/-- The tag of an element, the place of its value and the length of it. -/
def configTlvCheckNode : Option (Nat × Nat × Nat) :=
  if len < tlvValueOffset then none
  else do
    let (tag, innerTlvLen) ← parseInnerTag (buff.drop tlvValueOffset) (len - tlvValueOffset)
    let tlvValueLen := byteToInteger (buff.drop 1) (len - 1) 2
    let offset := tlvValueOffset + innerTlvLen
    if tlvValueLen ≤ innerTlvLen then none
    else
      let valueLen := tlvValueLen - innerTlvLen
      if valueLen ≥ len ∨ len - valueLen < offset then none else some (tag, offset, valueLen)

/-- The loop that all readers of a sequence of elements share. Each element takes some
bytes, so `len` rounds are enough. -/
def tlvLoop (handle : Nat → Bytes → Nat → ConfigInfo → Option ConfigInfo) (buff : Bytes)
    (len : Nat) : Nat → Nat → ConfigInfo → Option ConfigInfo
  | 0, offset, c => if offset < len then none else some c
  | fuel + 1, offset, c =>
    if offset < len then do
      let (tag, childOffset, valueLen) ← configTlvCheckNode (buff.drop offset) (len - offset)
      let c ← handle tag (buff.drop (offset + childOffset)) valueLen c
      if uint32Max - offset ≤ childOffset + valueLen then none
      else tlvLoop handle buff len fuel (offset + childOffset + valueLen) c
    else some c

def tlvElements (handle : Nat → Bytes → Nat → ConfigInfo → Option ConfigInfo) (buff : Bytes)
    (len : Nat) (c : ConfigInfo) : Option ConfigInfo :=
  tlvLoop handle buff len len 0 c

def getTagUuid : Option ConfigInfo :=
  if len ≠ uuidStrLen then none
  else (permSrvConvertStrToUuid buff len).map fun uuid => { c with uuid := uuid }

def configTlvParserBasicInfo : Option ConfigInfo :=
  tlvElements (fun tag value valueLen c =>
    if tag = tlvTagUuid then getTagUuid value valueLen c
    else if tag = tlvTagServiceName then
      if valueLen > maxServiceNameLen then none
      else some { c with serviceName := value.take valueLen }
    else some c) buff len c

def configTlvValueToManifestInfo (value : Bytes) (len tag : Nat) (m : TaManifestInfo) :
    TaManifestInfo :=
  let flag := byteAt value 0 ≠ 0
  if tag = tlvTagSingleInstance then { m with singleInstance := flag }
  else if tag = tlvTagMultiSession then { m with multiSession := flag }
  else if tag = tlvTagHeapSize then { m with heapSize := byteToInteger value len 4 }
  else if tag = tlvTagStackSize then { m with stackSize := byteToInteger value len 4 }
  else if tag = tlvTagInstanceKeepAlive then { m with instanceKeepAlive := flag }
  else if tag = tlvTagMemPageAlign then { m with memPageAlign := flag }
  else if tag = tlvTagTargetType then { m with targetType := byteToInteger value len 4 }
  else m

def configTlvParserManifestInfo : Option ConfigInfo :=
  tlvElements (fun tag value valueLen c =>
    if (tag = tlvTagHeapSize ∨ tag = tlvTagStackSize) ∧ valueLen ≠ 4 then none
    else some { c with manifestInfo := configTlvValueToManifestInfo value valueLen tag c.manifestInfo })
    buff len c

/-- `check_device_id`: the id of the device cannot be had, so no text is the right one. -/
def checkDeviceId : ConfigInfo :=
  if len = 0 ∨ c.controlInfo.validDevice then c
  else { c with controlInfo := { c.controlInfo with validDevice := false } }

def configTlvParserInfo : Option ConfigInfo :=
  tlvElements (fun tag _ valueLen c =>
    some (if tag = tlvTagDebugDeviceId then checkDeviceId valueLen c else c)) buff len c

/-! ## Callees -/

def parserCalleeTaUuid : Option TeeUuid :=
  if len ≤ 2 + uuidStrLen then none
  else if byteToInteger buff len 2 ≠ uuidStrLen then none
  else permSrvConvertStrToUuid (buff.drop 2) uuidStrLen

/-- The commands from `offset` on, of which `fuel` are left. -/
def commandIds (buff : Bytes) (len : Nat) : Nat → Nat → Option (List Nat)
  | 0, _ => some []
  | fuel + 1, offset =>
    if offset < len then do
      let (tag, innerTlvLen) ← parseInnerTag (buff.drop (offset + tlvValueOffset))
        (len - offset - tlvValueOffset)
      let index := tlvValueOffset + innerTlvLen
      if tag ≠ tlvTagCalleetaCommandId ∨ innerTlvLen ≠ commandIdInnerTlvLen then none
      else if offset + index + 4 > len then none
      else do
        let rest ← commandIds buff len fuel (offset + commandIdInfoLen)
        some (byteToInteger (buff.drop (offset + index)) (len - offset - index) 4 :: rest)
    else some []

def parserCalleeTaCommandId : Option (List Nat) :=
  if len / commandIdInfoLen > maxCalleeCommandCount ∨ len % commandIdInfoLen ≠ 0 then none
  else commandIds buff len (len / commandIdInfoLen) 0

def isDuplicateCallee (uuid : TeeUuid) : Bool :=
  c.controlInfo.calleeInfo.any fun callee => callee.uuid = uuid

/-- A new callee is put in front of the others. -/
def parserFillCallee (len valueLen : Nat) (c : ConfigInfo) : Option ConfigInfo :=
  if len < tlvValueOffset then none
  else do
    let (tag, innerTlvLen) ← parseInnerTag (buff.drop tlvValueOffset) (len - tlvValueOffset)
    let index := tlvValueOffset + innerTlvLen
    if tag ≠ tlvTagCalleetaUuid ∨ valueLen ≤ innerTlvLen + 2 + uuidStrLen then none
    else do
      let uuid ← parserCalleeTaUuid (buff.drop index) (valueLen - innerTlvLen)
      if isDuplicateCallee c uuid then none
      else do
        let commands ← parserCalleeTaCommandId (buff.drop (index + 2 + uuidStrLen))
          (valueLen - (innerTlvLen + 2 + uuidStrLen))
        some { c with controlInfo :=
          { c.controlInfo with calleeInfo := ⟨uuid, commands⟩ :: c.controlInfo.calleeInfo } }

/-- The length of a callee is compared with that of all callees, so the last one may
reach behind them. `i` counts the callees. -/
def calleeLoop (buff : Bytes) (len : Nat) : Nat → Nat → Nat → ConfigInfo → Option ConfigInfo
  | 0, _, offset, c => if offset < len then none else some c
  | fuel + 1, i, offset, c =>
    if offset < len then
      if i > maxCalleeTaCount ∨ len - offset < tlvValueOffset + calleeUuidInnerTlvLen then none
      else if byteAt buff offset ≠ vAsn1Sequence then none
      else
        let valueLen := byteToInteger (buff.drop (offset + 1)) (len - offset - 1) 2
        if valueLen > len - tlvValueOffset then none
        else match parserFillCallee (buff.drop offset) (len - offset) valueLen c with
          | none => none
          | some c =>
            if uint32Max - offset ≤ tlvValueOffset + valueLen then none
            else calleeLoop buff len fuel (i+1) (offset + tlvValueOffset + valueLen) c
    else some c

def parserCalleeInfo : Option ConfigInfo :=
  calleeLoop buff len len 0 0 c

/-! ## The whole configuration -/

def taManagerTrustonic : Nat := 1

/-- "Trustonic". -/
def gTaManagerTrustonic : Bytes := [0x54, 0x72, 0x75, 0x73, 0x74, 0x6F, 0x6E, 0x69, 0x63]

def parserTaManager (value : Bytes) (len : Nat) (c : ConfigInfo) : ConfigInfo :=
  if len = gTaManagerTrustonic.length ∧ value.take len = gTaManagerTrustonic then
    { c with controlInfo := { c.controlInfo with taManager := taManagerTrustonic } }
  else c

def configTlvParserControlInfo : Option ConfigInfo :=
  tlvElements (fun tag value valueLen c =>
    if tag = tlvTagSeInfo ∨ tag = tlvTagDebugInfo then configTlvParserInfo value valueLen c
    else if tag = tlvTagCalleetaInfo then parserCalleeInfo value valueLen c
    else if tag = tlvTagTaManager then some (parserTaManager value valueLen c)
    else some c) buff len c

def configTlvParserChildSequences : Option ConfigInfo :=
  tlvElements (fun tag value valueLen c =>
    if tag = tlvTagTaBasicInfo then configTlvParserBasicInfo value valueLen c
    else if tag = tlvTagTaManifestInfo then configTlvParserManifestInfo value valueLen c
    else if tag = tlvTagTaControlInfo then configTlvParserControlInfo value valueLen c
    else some c) buff len c

def parserJarTlvToConfig : Option ConfigInfo :=
  if byteAt buff 0 ≠ vAsn1Sequence then none
  else do
    let (_, offset, valueLen) ← configTlvCheckNode buff len
    configTlvParserChildSequences (buff.drop offset) valueLen c

end TeeOs.PermSrv
