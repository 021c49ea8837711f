import TeeOs.ElfVerify.Unpack

/-!
# Unpacking in two states

Two states agree if they differ in nothing that a verification reads before it writes it:
drvmgr answers alike and the revocation list is the same, while the class of the last
configuration certificate, the CA and the installed configurations may differ. Each step of
unpacking keeps the agreement and gives the same answer in both.
-/

namespace TeeOs.ElfVerify

open TeeOs.Lib
open TeeOs.PermSrv

variable {D : Type} (env : Env D)

/-! ## What agrees -/

/-- drvmgr's answers to a sequence of registrations. -/
def answers : D → List Registration → List Bool
  | _, [] => []
  | d, reg :: rest => (env.register reg d).2 :: answers (env.register reg d).1 rest

/-- No sequence of registrations tells the two states of drvmgr apart. -/
def SameAnswers (d d' : D) : Prop := ∀ regs, answers env d regs = answers env d' regs

theorem SameAnswers.answer {d d' : D} (h : SameAnswers env d d') (reg : Registration) :
    (env.register reg d).2 = (env.register reg d').2 := by
  have hone := h [reg]
  injection hone

theorem SameAnswers.next {d d' : D} (h : SameAnswers env d d') (reg : Registration) :
    SameAnswers env (env.register reg d).1 (env.register reg d').1 := by
  intro regs
  have hcons := h (reg :: regs)
  injection hcons

/-- The revocation list as a verification sees it: while there is no file, whether that was
noticed makes no difference. -/
def listSeen (c : RevokedConfig) : RevokedConfig :=
  { c with existFlag := c.existFlag && !c.listFile.isEmpty }

/-- What two runs start from: the version of the image, and what may differ. -/
structure Base where
  version : Nat
  class₁ : ConfCert
  class₂ : ConfCert
  configs₁ : List ConfigEntry
  configs₂ : List ConfigEntry

/-- The states agree before the header of the image is read. -/
structure Agree (b : Base) (s t : State D) : Prop where
  manifest : s.imgInfo.manifest = t.imgInfo.manifest
  version₁ : s.imgInfo.imgVersion = b.version
  version₂ : t.imgInfo.imgVersion = b.version
  dynConfRegisted : s.imgInfo.dynConfRegisted = t.imgInfo.dynConfRegisted
  cipherLayer : s.cipherLayer = t.cipherLayer
  payload : s.payload = t.payload
  crl : listSeen s.crl = listSeen t.crl
  drv : SameAnswers env s.drv t.drv
  class₁ : s.confCertType = b.class₁
  class₂ : t.confCertType = b.class₂
  configs₁ : s.configs = b.configs₁
  configs₂ : t.configs = b.configs₂

/-- The states agree once the header was read. -/
structure Headed (b : Base) (s t : State D) : Prop extends Agree env b s t where
  imageHdr : s.imageHdr = t.imageHdr
  cipherLayerLen : s.cipherLayerLen = t.cipherLayerLen
  isEncryptedSec : s.isEncryptedSec = t.isEncryptedSec

/-- Both lists of configurations are as they were, or both have the same one installed. -/
inductive SameChange (l l' : List ConfigEntry) : List ConfigEntry → List ConfigEntry → Prop
  | none : SameChange l l' l l'
  | installed (config : ConfigInfo) :
    SameChange l l' (permSrvUpdateConfigBySameUuid l config) (permSrvUpdateConfigBySameUuid l' config)

/-- What the verdict is made of agrees when a run ends. -/
structure Ended (version : Nat) (l l' : List ConfigEntry) (s t : State D) : Prop where
  manifest : s.imgInfo.manifest = t.imgInfo.manifest
  version₁ : s.imgInfo.imgVersion = version
  version₂ : t.imgInfo.imgVersion = version
  dynConfRegisted : s.imgInfo.dynConfRegisted = t.imgInfo.dynConfRegisted
  payload : s.payload = t.payload
  configs : SameChange l l' s.configs t.configs

variable {env} {b : Base} {s t : State D}

abbrev Base.Ended (b : Base) (s t : State D) : Prop :=
  ElfVerify.Ended b.version b.configs₁ b.configs₂ s t

theorem Agree.ended (h : Agree env b s t) : b.Ended s t where
  manifest := h.manifest
  version₁ := h.version₁
  version₂ := h.version₂
  dynConfRegisted := h.dynConfRegisted
  payload := h.payload
  configs := by rw [h.configs₁, h.configs₂]; exact .none

/-- Two runs that agree go on to agree. -/
abbrev Keeps (env : Env D) (b : Base) {α : Type} (x : Verify D α) : Prop :=
  Alike (Headed env b) x (fun _ => Headed env b) b.Ended

section

variable (h : Headed env b s t)
include h

theorem Headed.ended : b.Ended s t := h.toAgree.ended

theorem Headed.setManifest {f : Manifest → Manifest} :
    Headed env b (setManifest f s) (setManifest f t) :=
  { h with manifest := congrArg f h.manifest }

theorem Headed.setPayload {f : PayloadLayer → PayloadLayer} :
    Headed env b (setPayload f s) (setPayload f t) :=
  { h with payload := congrArg f h.payload }

theorem Headed.setCipherLayer {f : CipherLayer → CipherLayer} :
    Headed env b (setCipherLayer f s) (setCipherLayer f t) :=
  { h with cipherLayer := congrArg f h.cipherLayer }

end

theorem Headed.guard {α : Type} {c : Prop} [Decidable c] {e : VerifyError} {k : Unit → Verify D α}
    {Q : α → State D → State D → Prop} (hk : ¬ c → Alike (Headed env b) (k ()) Q b.Ended) :
    Alike (Headed env b) (Act.failIf c e >>= k) Q b.Ended :=
  Alike.failIf (fun _ _ h => h.ended) hk

/-! ## The manifest -/

theorem registerConf_alike (reg : Registration) : Keeps env b (registerConf env reg) := by
  apply Alike.reads (fun _ _ h => h.drv.answer env reg)
  intro ok
  exact .change (fun _ _ h => { h with drv := h.drv.next env reg }) (.pure fun _ _ h => h)

theorem refuseManifest_alike {α : Type} {Q : α → State D → State D → Prop} (e : VerifyError) :
    Alike (Headed env b) (refuseManifest e) Q b.Ended :=
  Alike.change (fun _ _ h => h.setManifest) (.fail fun _ _ h => h.ended)

theorem teeSecureImgParseManifestV3_alike (text : Bytes) (expected : Option Nat) :
    Keeps env b (teeSecureImgParseManifestV3 env text expected) := by
  apply Alike.reads (fun _ _ h => h.manifest)
  intro m
  refine Headed.guard fun _ => ?_
  refine Alike.change (fun _ _ h => h.setManifest) ?_
  apply Alike.ite (refuseManifest_alike _)
  split
  · exact refuseManifest_alike _
  · exact .pure fun _ _ h => h
  split
  · exact refuseManifest_alike _
  · refine .bind (registerConf_alike _) fun ok => ?_
    apply Alike.ite
    · refine .change ?_ (.pure fun _ _ h => h)
      intro s t h
      exact { h with dynConfRegisted := rfl }
    · exact refuseManifest_alike _

/-! ## Unpacking -/

theorem teeSecureImgHeaderCheckV3_alike :
    Alike (fun s t : State D => Agree env b s t ∧ s.imageHdr = t.imageHdr)
      teeSecureImgHeaderCheckV3 (fun _ => Headed env b) b.Ended := by
  have hend : ∀ s t : State D, Agree env b s t ∧ s.imageHdr = t.imageHdr → b.Ended s t :=
    fun _ _ h => h.1.ended
  apply Alike.reads (fun _ _ h => h.2)
  intro hdr
  apply Alike.failIf hend
  intro _
  apply Alike.failIf hend
  intro _
  apply Alike.ite
  · exact fun s t h => .ok { h.1 with imageHdr := h.2, cipherLayerLen := rfl, isEncryptedSec := rfl }
  apply Alike.failIf hend
  intro _
  refine .change (R := fun s t => (Agree env b s t ∧ s.imageHdr = t.imageHdr) ∧
    s.isEncryptedSec = t.isEncryptedSec) (fun _ _ h => ⟨⟨{ h.1 with }, h.2⟩, rfl⟩) ?_
  apply Alike.ite
  · exact fun s t h =>
      .ok { h.1.1 with imageHdr := h.1.2, cipherLayerLen := rfl, isEncryptedSec := h.2 }
  apply Alike.ite
  · exact fun s t h =>
      .ok { h.1.1 with imageHdr := h.1.2, cipherLayerLen := rfl, isEncryptedSec := h.2 }
  · exact .fail fun _ _ h => hend _ _ h.1

theorem processHeader_alike (img : Bytes) :
    Alike (Agree env b) (processHeader img) (fun _ => Headed env b) b.Ended := by
  apply Alike.reads (fun _ _ h => h.version₁.trans h.version₂.symm)
  intro version
  apply Alike.failIf (fun _ _ h => h.ended)
  intro _
  apply Alike.failIf (fun _ _ h => h.ended)
  intro _
  exact .change (fun _ _ h => ⟨{ h with }, rfl⟩) (teeSecureImgHeaderCheckV3_alike)

theorem teeSecureImgParseCipherLayer_alike (layer : Bytes) :
    Keeps env b (teeSecureImgParseCipherLayer layer) := by
  refine Headed.guard fun _ => ?_
  refine Headed.guard fun _ => ?_
  refine .change (fun _ _ h => h.setCipherLayer) ?_
  apply Alike.reads (fun _ _ h => h.isEncryptedSec)
  intro encrypted
  apply Alike.ite
  · exact .pure fun _ _ h => h
  refine Headed.guard fun _ => ?_
  refine Headed.guard fun _ => ?_
  refine Headed.guard fun _ => ?_
  refine Headed.guard fun _ => ?_
  exact fun s t h => .ok h.setCipherLayer

theorem teeSecureImgProcCipherLayer_alike (img : Bytes) :
    Keeps env b (teeSecureImgProcCipherLayer env img) := by
  apply Alike.reads (fun _ _ h => h.cipherLayerLen)
  intro len
  refine Headed.guard fun _ => ?_
  apply Alike.reads (fun _ _ h => h.isEncryptedSec)
  intro encrypted
  have hparse : ∀ layer, Keeps env b (do teeSecureImgParseCipherLayer layer; pure layer) :=
    fun layer => .bind (teeSecureImgParseCipherLayer_alike layer) fun _ =>
      Alike.pure fun _ _ h => h
  apply Alike.ite
  · split
    · exact .fail fun _ _ h => h.ended
    · exact hparse _
  · exact hparse _

theorem checkManifestAllocName_alike (mani : Bytes) :
    Keeps env b (checkManifestAllocName mani) := by
  refine Headed.guard fun _ => ?_
  refine Alike.change (fun _ _ h => h.setManifest) ?_
  apply Alike.ite
  · exact refuseManifest_alike _
  · exact .pure fun _ _ h => h

theorem teeSecureImgParsePayload_alike (payload : Bytes) (off : Nat) :
    Keeps env b (teeSecureImgParsePayload env payload off) := by
  refine Headed.guard fun _ => ?_
  refine Alike.change (fun _ _ h => h.setPayload) ?_
  refine Headed.guard fun _ => ?_
  refine Headed.guard fun _ => ?_
  refine Headed.guard fun _ => ?_
  refine Alike.change (fun _ _ h => h.setPayload) ?_
  refine Headed.guard fun _ => ?_
  refine Alike.change (fun _ _ h => h.setPayload) ?_
  refine .bind (checkManifestAllocName_alike _) fun _ => ?_
  refine .bind (teeSecureImgParseManifestV3_alike _ _) fun extSize => ?_
  exact fun s t h => .ok h.setPayload

theorem teeSecureImgProcPayload_alike (img layer : Bytes) (off size : Nat) :
    Keeps env b (teeSecureImgProcPayload env img layer off size) := by
  refine Headed.guard fun _ => ?_
  apply Alike.reads (fun _ _ h => h.isEncryptedSec)
  intro encrypted
  apply Alike.reads (fun _ _ h => h.cipherLayer)
  intro cipherLayer
  apply Alike.get? (fun _ _ h => h.ended)
  intro plain _
  refine Headed.guard fun _ => ?_
  exact Alike.bind (teeSecureImgParsePayload_alike _ _) fun _ => Alike.pure fun _ _ h => h

theorem teeSecureImgUnpackV3_alike (img : Bytes) : Keeps env b (teeSecureImgUnpackV3 env img) := by
  refine Headed.guard fun _ => ?_
  refine Alike.bind (teeSecureImgProcCipherLayer_alike img) fun layer => ?_
  apply Alike.reads (fun _ _ h => h.cipherLayerLen)
  intro len
  apply Alike.reads (fun _ _ h => congrArg (fun c => c.cipherHdr.signatureAlg) h.cipherLayer)
  intro alg
  apply Alike.get? (fun _ _ h => h.ended)
  intro sigSize _
  refine Headed.guard fun _ => ?_
  apply Alike.reads (fun _ _ h => congrArg ImageHdr.contextLen h.imageHdr)
  intro contextLen
  exact .bind (teeSecureImgProcPayload_alike _ _ _ _) fun _ => .pure fun _ _ h => h

end TeeOs.ElfVerify
