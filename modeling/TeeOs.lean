import TeeOs.Ssa.ReadLaw
import TeeOs.Ssa.TruncateLaw
import TeeOs.Ssa.Report
import TeeOs.Ssa.Durable
import TeeOs.Gtask.Ownership
import TeeOs.Ssa.Unregister
import TeeOs.Gtask.Verified
import TeeOs.Drv.CmdAuth
import TeeOs.Drv.Capability
import TeeOs.DrvMgr.References
import TeeOs.PermSrv.Enforcement
import TeeOs.Gtask.ServiceOrder
import TeeOs.PermSrv.CrlCounts
import TeeOs.PermSrv.Registered
import TeeOs.ElfVerify.History
import TeeOs.Crypto.UsageEnforced
import TeeOs.Crypto.ShortBuffer
import TeeOs.Huk.Service
import TeeOs.Ssa.PathName
import TeeOs.TaEntry.OpenOrder
import TeeOs.Ssa.SeekLaw
import TeeOs.Ssa.Recovery
import TeeOs.DrvMgr.Spawn
import TeeOs.Gtask.AgentLock
import TeeOs.Conf.UuidText
import TeeOs.Conf.ChipType
import TeeOs.Gtask.Slots
import TeeOs.PermSrv.CrlRoundTrip
import TeeOs.Gtask.DynClients
import TeeOs.SoftRsa.CrtKey
import TeeOs.CryptoDrv.Attributes
import TeeOs.CryptoDrv.Power
import TeeOs.SoftRsa.Objects
import TeeOs.Arith.Gcd
import TeeOs.Arith.Fmm
import TeeOs.Crypto.Lcg96
import TeeOs.Timer.Date
import TeeOs.Arith.S32
import TeeOs.Ssa.Split
