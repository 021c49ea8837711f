import TeeOs.PermSrv.TaConfig

/-!
# The manifest of an image

`tee_load_ext_mf.c`, and the manifest in `ta_lib_img_unpack.h`. The extension is a text of
lines `key:value`; a line with the dynamic configuration is kept whole. An unknown key is
passed over.
-/

namespace TeeOs.ElfVerify

open TeeOs.Conf (Uuid maxImageLen)
open TeeOs.Lib.CText
open TeeOs.PermSrv

/-- The results that a verification fails with; `lib` is one of the cryptography. -/
inductive VerifyError
  | generic
  | badParameters
  | badFormat
  | notSupported
  | imgVerifyFail
  | lib (ret : Nat)
  deriving DecidableEq

/-- `manifest_extension_t`. -/
structure ManiExt where
  distribution : Nat := 0
  apiLevel : Nat := 0
  sdkVersion : Nat := 0
  isLib : Bool := false
  ssaEnumEnable : Bool := false
  sysVerifyTa : Bool := false
  targetType : Nat := 0
  targetVersion : Nat := 0
  hardwareType : Nat := 0
  isNeedReleaseTaRes : Bool := false
  crashCallback : Bool := false
  isNeedCreateMsg : Bool := false
  isNeedReleaseMsg : Bool := false
  deriving DecidableEq

structure TaProperty where
  singleInstance : Nat := 0
  multiSession : Nat := 0
  multiCommand : Nat := 0
  heapSize : Nat := 0
  stackSize : Nat := 0
  instanceKeepAlive : Nat := 0
  deriving DecidableEq

structure Manifest where
  srvUuid : Uuid := ⟨0, 0, 0, []⟩
  taProperty : TaProperty := {}
  serviceNameLen : Nat := 0
  serviceName : Option Bytes := none
  ext : ManiExt := {}
  deriving DecidableEq

/-! ## The lines of the extension -/

def extensionMax : Nat := 64
def apiLevel12 : Nat := 3

inductive ConfType
  | taDistribution
  | taApiLevel
  | sdkVersion
  | isLib
  | ssaEnumEnable
  | isDynConf
  | targetType
  | sysVerifyTa
  | targetVersion
  | hardWareType
  | srvReleaseTaRes
  | srvCrashCallback
  | srvNeedCreateMsg
  | srvNeedReleaseMsg
  deriving DecidableEq

def dynConfStart : Text := "gpd.ta.dynConf".toList

def validConfig : List (Text × ConfType) :=
  [("gpd.ta.distribution".toList, .taDistribution), ("gpd.ta.api_level".toList, .taApiLevel),
    ("gpd.sdk.version".toList, .sdkVersion),
    ("gpd.ta.is_lib".toList, .isLib),
    ("gpd.ta.objectEnumEnable".toList, .ssaEnumEnable),
    ("gpd.ta.dynConf".toList, .isDynConf),
    ("gpd.ta.target_type".toList, .targetType),
    ("gpd.ta.sys_verify_ta".toList, .sysVerifyTa),
    ("gpd.elf.target_version".toList, .targetVersion),
    ("gpd.ta.hardWareType".toList, .hardWareType),
    ("gpd.srv.is_need_release_ta_res".toList, .srvReleaseTaRes),
    ("gpd.srv.crash_callback".toList, .srvCrashCallback),
    ("gpd.srv.is_need_create_msg".toList, .srvNeedCreateMsg),
    ("gpd.srv.is_need_release_msg".toList, .srvNeedReleaseMsg)]

def getConfType (key : Text) : Option ConfType :=
  (validConfig.find? fun c => c.1 = key).map Prod.snd

/-- The sign and the magnitude that `strtol` reads; no digits are a zero. -/
def strtol (base : Nat) (t : Text) : Bool × Nat :=
  let (minus, t) := sign (t.dropWhile isSpace)
  let t := if base = 16 then dropHexMark t else t
  (minus, value base (t.takeWhile (isDigit base)))

def strToUint16 (base : Nat) (t : Text) : Option Nat :=
  let (minus, n) := strtol base t
  if (minus ∧ n ≠ 0) ∨ n > 0xFFFF then none else some n

/-- `str_to_bool`, with `strcasecmp`. -/
def strToBool (t : Text) : Bool := t.map Char.toLower = "true".toList

/-- `tee_secure_img_parse_manifest_item`: the result, and the extension as it is left. -/
def teeSecureImgParseManifestItem (ext : ManiExt) (item : Text) : Option VerifyError × ManiExt :=
  if item = [] then (none, ext)
  else match tokens ':' (cstr item) with
    | name :: val :: _ =>
      let number (base : Nat) (set : Nat → ManiExt) : Option VerifyError × ManiExt :=
        match strToUint16 base val with
        | none => (some .generic, ext)
        | some n => (none, set n)
      match getConfType name with
      | some .taDistribution => number 16 fun n => { ext with distribution := n }
      | some .taApiLevel => number 16 fun n => { ext with apiLevel := n }
      | some .sdkVersion => number 16 fun n => { ext with sdkVersion := n }
      | some .isLib => (none, { ext with isLib := strToBool val })
      | some .ssaEnumEnable => (none, { ext with ssaEnumEnable := strToBool val })
      | some .targetType => number 16 fun n => { ext with targetType := n }
      | some .targetVersion =>
        match strToUint16 10 val with
        | none => (some .generic, ext)
        | some n => (if n = 0 then some .badParameters else none, { ext with targetVersion := n })
      | some .hardWareType => number 10 fun n => { ext with hardwareType := n }
      | some .sysVerifyTa => (none, { ext with sysVerifyTa := strToBool val })
      | some .srvReleaseTaRes => (none, { ext with isNeedReleaseTaRes := strToBool val })
      | some .srvCrashCallback => (none, { ext with crashCallback := strToBool val })
      | some .srvNeedCreateMsg => (none, { ext with isNeedCreateMsg := strToBool val })
      | some .srvNeedReleaseMsg => (none, { ext with isNeedReleaseMsg := strToBool val })
      | some .isDynConf | none => (none, ext)
    | _ => (some .generic, ext)

/-- Whether the line sets `dyn_conf_size`. -/
def isDynConfItem (item : Text) : Bool :=
  match tokens ':' (cstr item) with
  | name :: _ :: _ => getConfType name = some .isDynConf
  | _ => false

/-- What the text came to: the result, the extension, and the dynamic configuration. -/
structure Extension where
  ret : Option VerifyError
  ext : ManiExt
  dynConf : Option Text
  deriving DecidableEq

/-- The loop of `tee_secure_img_parse_manifest_extension`. The item is cut to the size of
its buffer, the dynamic configuration is taken from the whole line, once: a second line
of it only sets `dyn_conf_size` to one. -/
def parseLines : List Text → ManiExt → Option Text → Extension
  | [], ext, conf => ⟨none, ext, conf⟩
  | line :: rest, ext, conf =>
    let item := line.take (extensionMax - 1)
    match teeSecureImgParseManifestItem ext item with
    | (some e, ext) => ⟨some e, ext, conf⟩
    | (none, ext) =>
      if isDynConfItem item then
        match conf with
        | some conf => parseLines rest ext (some (conf.take 1))
        | none =>
          if line.length ≤ dynConfStart.length + 1 ∨ line.length ≥ maxImageLen then
            ⟨some .generic, ext, none⟩
          else parseLines rest ext (some (line.drop (dynConfStart.length + 1)))
      else parseLines rest ext conf

def toText (b : Bytes) : Text := b.map fun c => Char.ofNat c.toNat

/-- `tee_secure_img_manifest_extention_process`. Text behind the last line feed is not
read. -/
def teeSecureImgManifestExtentionProcess (text : Bytes) (ext : ManiExt) : Extension :=
  if text = [] then ⟨none, ext, none⟩
  else if text.length > maxImageLen then ⟨some .badParameters, ext, none⟩
  else parseLines ((cstr (toText text)).splitOn '\n').dropLast ext none

example : teeSecureImgManifestExtentionProcess
    ("gpd.ta.sys_verify_ta:TRUE\n\ngpd.ta.target_type:3\n".toList.map fun c => .ofNat c.toNat) {} =
      ⟨none, { sysVerifyTa := true, targetType := 3 }, none⟩ := by decide +kernel

example : (teeSecureImgManifestExtentionProcess
    ("gpd.ta.dynConf:0010\ngpd.ta.dynConf:0020\n".toList.map fun c => .ofNat c.toNat) {}).dynConf =
      some ['0'] := by decide +kernel

/-! ## Registering a dynamic configuration -/

def taTargetType : Nat := 0
def drvTargetType : Nat := 1
def srvTargetType : Nat := 3
def clientTargetType : Nat := 4
def hardwareEngineCrypto : Nat := 1
def drvNameMaxLen : Nat := 32
def cryptomgrUuid : Uuid :=
  ⟨0x2427f879, 0x4655, 0x4367, [0x82, 0x31, 0xe5, 0x8e, 0x29, 0x45, 0xc9, 0xb8]⟩
def cryptomgrName : Bytes := "crypto_mgr".toList.map fun c => .ofNat c.toNat

structure DrvMani where
  serviceName : Bytes
  srvUuid : Uuid
  keepAlive : Bool
  dataSize : Nat
  stackSize : Nat
  hardwareType : Nat
  deriving DecidableEq

/-- What `register_conf` sends to drvmgr. -/
inductive Registration
  | drv (mani : DrvMani) (conf : Text)
  | drvcall (uuid : Uuid) (conf : Text)
  deriving DecidableEq

/-- `set_drv_manifest`, with `handle_cryptomgr_drv_mani`. -/
def setDrvManifest (m : Manifest) : Option DrvMani :=
  let name := m.serviceName.getD []
  if name.length > drvNameMaxLen then none
  else
    let mani : DrvMani :=
      { serviceName := name
        srvUuid := m.srvUuid
        keepAlive := m.taProperty.instanceKeepAlive ≠ 0
        dataSize := m.taProperty.heapSize
        stackSize := m.taProperty.stackSize
        hardwareType := m.ext.hardwareType }
    if m.ext.hardwareType = hardwareEngineCrypto then
      some { mani with serviceName := cryptomgrName, srvUuid := cryptomgrUuid }
    else some mani

/-- What `handle_dyn_conf_buffer` registers. -/
def dynConfRegistration (m : Manifest) (extSize : Nat) (conf : Text) : Option Registration :=
  if conf.length ≥ extSize then none
  else match setDrvManifest m with
    | none => none
    | some mani =>
      if m.ext.targetType = drvTargetType then some (.drv mani conf)
      else if m.ext.targetType = taTargetType ∨ m.ext.targetType = srvTargetType ∨
          m.ext.targetType = clientTargetType then some (.drvcall mani.srvUuid conf)
      else none

end TeeOs.ElfVerify
