import TeeOs.PermSrv.JarConfig

/-!
# The configurations of the TAs

The permission service keeps one entry for each TA, with the tasks it is in force for
(`perm_srv_ta_config.c`), here as a list. A configuration package brings a new
configuration: its certificate names a TA and a service, and its body names them again.
The package was verified before; the readers of the other dialect and of the dynamic
section, which goes to drvmgr, are functions of `ConfigTools`.
-/

namespace TeeOs.PermSrv

/-! ## Names in certificates -/

def taCertMaxCnInfoLen : Nat := 64
def taCertCnUnderlineSize : Nat := 1

/-- A digit as `%x` prints it. -/
def hexByte (d : Nat) : UInt8 := UInt8.ofNat (if d < 10 then 0x30 + d else 0x57 + d)

/-- `%0*x` for a number of at most `width` digits. -/
def hexPad : Nat → Nat → Bytes
  | 0, _ => []
  | width + 1, n => hexPad width (n / 16) ++ [hexByte (n % 16)]

def hexPairs (bytes : List UInt8) : Bytes := bytes.flatMap fun b => hexPad 2 b.toNat

def permSrvConvertUuidToStr (u : TeeUuid) : Bytes :=
  hexPad 8 u.timeLow.toNat ++ (0x2D :: (hexPad 4 u.timeMid.toNat ++
    (0x2D :: (hexPad 4 u.timeHiAndVersion.toNat ++
      (0x2D :: (hexPairs (u.clockSeqAndNode.toList.take 2) ++
        (0x2D :: hexPairs (u.clockSeqAndNode.toList.drop 2))))))))

/-- The common name of a TA and its service: the uuid, `_` and the name. -/
def cnOf (uuid : TeeUuid) (serviceName : Bytes) : Bytes :=
  permSrvConvertUuidToStr uuid ++ 0x5F :: serviceName

def cnCheck (cn : Bytes) (uuid : TeeUuid) (serviceName : Bytes) : Bool :=
  decide (cn.length ≤ taCertMaxCnInfoLen) &&
    decide (serviceName.length ≤ taCertMaxCnInfoLen - (uuidStrLen + taCertCnUnderlineSize)) &&
    decide (cn.length = serviceName.length + uuidStrLen + taCertCnUnderlineSize) &&
    decide (cnOf uuid serviceName = cn)

/-- `tee_secure_img_ta_cn_check`: the certificate against the manifest. -/
def teeSecureImgTaCnCheck (cn : Bytes) (uuid : TeeUuid) (serviceName : Bytes) : Bool :=
  cnCheck cn uuid serviceName

/-- `check_cn_validation`: the certificate against the configuration. -/
def checkCnValidation (cn : Bytes) (info : ConfigInfo) : Bool :=
  cnCheck cn info.uuid info.serviceName

/-! ## The class of a certificate -/

inductive ConfCert
  | debug
  | release
  deriving DecidableEq

inductive TaCert
  | debug
  | release
  deriving DecidableEq

/-- The names in a certificate: the common name, and whether the organisational unit has
the production and the development mark of the product. -/
structure CertSubjects where
  cn : Bytes
  ouProd : Bool
  ouDev : Bool
  deriving DecidableEq

def confCertOuCheck (s : CertSubjects) : Option ConfCert :=
  if s.ouProd then some .release else if s.ouDev then some .debug else none

/-- A TA certificate has to be of the class of the configuration certificate. -/
def taCertOuCheck (conf : ConfCert) (s : CertSubjects) : Option TaCert :=
  if s.ouProd && conf = .release then some .release
  else if s.ouDev && conf = .debug then some .debug
  else none

/-- `ta_cert_cn_ou_check`. In a build with imported certificates the class of a TA that
the system does not verify is not looked at, and stays what the zeroed `cert_param`
says. -/
def taCertCnOuCheck (dynImportCert : Bool) (conf : ConfCert) (sysVerifyTa : Bool) (uuid : TeeUuid)
    (serviceName : Bytes) (s : CertSubjects) : Option TaCert :=
  if teeSecureImgTaCnCheck s.cn uuid serviceName = false then none
  else if dynImportCert && !sysVerifyTa then some .debug
  else taCertOuCheck conf s

/-! ## The list -/

structure TaskConfig where
  taskid : Nat
  userid : Nat
  deriving DecidableEq

structure ConfigEntry where
  config : ConfigInfo
  taskConfigList : List TaskConfig
  deriving DecidableEq

def ConfigEntry.uuid (e : ConfigEntry) : TeeUuid := e.config.uuid

/-- `get_config_entry`: the list is searched from its tail. -/
def getConfigEntry (l : List ConfigEntry) (uuid : TeeUuid) : Option ConfigEntry :=
  l.reverse.find? fun e => e.uuid = uuid

/-- `perm_srv_update_config_by_same_uuid`: the new entry takes the place of the old one
and keeps its task list. -/
def permSrvUpdateConfigBySameUuid (l : List ConfigEntry) (new : ConfigInfo) : List ConfigEntry :=
  match getConfigEntry l new.uuid with
  | some old => (l.reverse.eraseP fun e => e.uuid = new.uuid).reverse ++ [⟨new, old.taskConfigList⟩]
  | none => l ++ [⟨new, []⟩]

/-! ## The body of a package -/

def tlvMaxLen : Nat := 0xFFFF + tlvValueOffset

/-- "gpd.ta.dynConf". -/
def dynConfingTag : Bytes :=
  [0x67, 0x70, 0x64, 0x2E, 0x74, 0x61, 0x2E, 0x64, 0x79, 0x6E, 0x43, 0x6F, 0x6E, 0x66]

/-- `perm_config`: the bytes from the body on, and how many of them it has. -/
structure PermConfig where
  tlvBuf : Bytes
  tlvLen : Nat
  policyVersion : Nat
  cn : Bytes
  certType : TaCert

structure ConfigTools where
  /-- `parser_python_tlv_to_ta_config`. -/
  parserPythonTlv : Bytes → Nat → ConfigInfo → Option ConfigInfo
  /-- `tee_secure_img_parse_manifest_v3` of the dynamic section, for a target type. -/
  parseManifestV3 : Bytes → Nat → Nat → Bool

def parseConfigBodyCheck (pc : PermConfig) : Bool :=
  decide (pc.tlvLen = 0 ∨ pc.policyVersion = 0 ∨ pc.cn.length = 0 ∨ pc.tlvLen > tlvMaxLen ∨
    pc.tlvLen < dynConfingTag.length)

/-- The length of the dynamic section, zero if there is none. A tag that ends the body is
not found. -/
def checkContainDynconf (pc : PermConfig) : Nat :=
  match (List.range (pc.tlvLen - dynConfingTag.length)).find? fun i =>
      (pc.tlvBuf.drop i).take dynConfingTag.length = dynConfingTag with
  | some i => pc.tlvLen - i
  | none => 0

variable (tools : ConfigTools)

/-- Bit 1 of the policy version tells the tool that wrote the body. -/
def parseTlvToTaConfig (policyVersion : Nat) (buf : Bytes) (len : Nat) : Option ConfigInfo :=
  if policyVersion / 2 % 2 = 0 then parserJarTlvToConfig buf len {}
  else tools.parserPythonTlv buf len {}

variable (uuid : TeeUuid) (pc : PermConfig)

def parseDyntlvBuf (config : ConfigInfo)
    (tlvLen dynconfLen : Nat) : Bool :=
  if dynconfLen = 0 then true
  else if uuid = config.uuid then
    tools.parseManifestV3 (pc.tlvBuf.drop tlvLen) (dynconfLen + 1) config.manifestInfo.targetType
  else false

/-- The configuration in the body, as it is read. -/
def bodyConfig : Option ConfigInfo :=
  parseTlvToTaConfig tools pc.policyVersion pc.tlvBuf (pc.tlvLen - checkContainDynconf pc)

def permSrvParseConfigBody (l : List ConfigEntry) : List ConfigEntry × Bool :=
  if parseConfigBodyCheck pc then (l, false)
  else match bodyConfig tools pc with
    | none => (l, false)
    | some config =>
      -- only a production certificate is compared with the body
      if pc.certType = .release ∧ checkCnValidation pc.cn config = false then (l, false)
      else
        let config :=
          if pc.certType = .release then
            { config with controlInfo := { config.controlInfo with validDevice := true } }
          else config
        let config := { config with version := pc.policyVersion }
        let dynconfLen := checkContainDynconf pc
        if parseDyntlvBuf tools uuid pc config (pc.tlvLen - dynconfLen) dynconfLen then
          (permSrvUpdateConfigBySameUuid l config, true)
        else (l, false)

/-- A package of which the signature and the certificates were verified. -/
structure ConfigPackage where
  subjects : CertSubjects
  sysVerifyTa : Bool
  tlvBuf : Bytes
  tlvLen : Nat
  policyVersion : Nat

def ConfigPackage.permConfig (pkg : ConfigPackage) (certType : TaCert) : PermConfig :=
  ⟨pkg.tlvBuf, pkg.tlvLen, pkg.policyVersion, pkg.subjects.cn, certType⟩

/-- The end of `ta_config_package_process`: the names in the certificate, and the body. -/
def taConfigPackageProcess (dynImportCert : Bool) (conf : ConfCert)
    (uuid : TeeUuid) (serviceName : Bytes) (pkg : ConfigPackage) (l : List ConfigEntry) :
    List ConfigEntry × Bool :=
  match taCertCnOuCheck dynImportCert conf pkg.sysVerifyTa uuid serviceName pkg.subjects with
  | none => (l, false)
  | some certType => permSrvParseConfigBody tools uuid (pkg.permConfig certType) l

end TeeOs.PermSrv
