import TeeOs.CryptoDrv.Attributes

/-!
# Power around the calls of a hardware engine

A request to the driver powers the engine on, calls it and powers it off again. The RSA
handlers check the key and restore the attributes in between, and what they refuse
there leaves the engine on. After the power is off no call is made but to free the
attributes.
-/

namespace TeeOs.CryptoDrv

inductive Request where
  | cipherInit | cipherUpdate | cipherDofinal | cipher
  | hashInit | hashUpdate | hashDofinal | hash
  | hmacInit | hmacUpdate | hmacDofinal | hmac
  | aeInit | aeUpdateAad | aeUpdate | aeEncFinal | aeDecFinal
  | rsaGenerateKeypair | rsaEncrypt | rsaDecrypt | rsaSignDigest | rsaVerifyDigest
  deriving DecidableEq

inductive Event where
  | powerOn (done : Bool) | operation | powerOff | alloc | free
  deriving DecidableEq

/-- `crypto_drv_ops_t`: which functions are there, and what `power_on` answers. -/
structure DrvOps where
  has : Request → Bool
  powerOn : Option Bool
  powerOff : Bool

variable (ops : DrvOps)

def doPowerOn : List Event × Bool :=
  match ops.powerOn with
  | none => ([], true)
  | some done => ([.powerOn done], done)

def doPowerOff : List Event := if ops.powerOff then [.powerOff] else []

/-- The engine is called with the power on. What is read from the parameters may be refused, and
an array may have been allocated for it. -/
def powered (params : Option Bool) : List Event :=
  let (on, done) := doPowerOn ops
  match done, params with
  | true, some array =>
    on ++ (if array then [.alloc] else []) ++ [.operation] ++ doPowerOff ops ++
      (if array then [.free] else [])
  | _, _ => on

/-- The lengths stored in a key; no key is refused as well. -/
def checkRsaPubKeyLen (key : Memref) : Bool :=
  key.buffer.any fun mem => u32At mem 4 ≤ 4 && u32At mem 520 ≤ 512

def checkRsaPrivateKeyLen (key : Memref) : Bool :=
  key.buffer.any fun mem => u32At mem 8 ≤ 4 && u32At mem 524 ≤ 512 && u32At mem 1040 ≤ 512 &&
    [1300, 1560, 1820, 2080, 2340].all fun p => u32At mem p ≤ 256

variable (memory : Bool) (cryptoArg : Nat → Memref)

/-- What a handler reads from the parameters while the engine is on. -/
def Request.params : Request → Option Bool
  | .rsaGenerateKeypair => if checkRsaPrivateKeyLen (cryptoArg 0) then some false else none
  | .rsaEncrypt | .rsaVerifyDigest => rsaParams checkRsaPubKeyLen
  | .rsaDecrypt | .rsaSignDigest => rsaParams checkRsaPrivateKeyLen
  | _ => some false
where
  rsaParams (check : Memref → Bool) : Option Bool :=
    if check (cryptoArg 2) then (restoreAttrs (cryptoArg 3) memory).map Option.isSome else none

/-- The handlers that work on the context in `private_data`. -/
def Request.needsContext : Request → Bool
  | .cipher | .hash | .hmac | .rsaGenerateKeypair | .rsaEncrypt | .rsaDecrypt | .rsaSignDigest
  | .rsaVerifyDigest => false
  | _ => true

/-- The calls of a request whose parameters have been taken over. -/
def handle (privateData memory : Bool) (r : Request) (cryptoArg : Nat → Memref) : List Event :=
  if ops.has r = false ∨ r.needsContext = true ∧ privateData = false then []
  else powered ops (r.params memory cryptoArg)

/-- Every power-on is taken back, the engine is called in between only, and no array is left. -/
@[mk_iff]
structure Balanced (managed : Bool) (l : List Event) : Prop where
  counts : l.count (.powerOn true) = l.count .powerOff
  between : ∀ i < l.length, l[i]? = some .operation →
    managed = false ∨ .powerOn true ∈ l.take i ∧ .powerOff ∈ l.drop i
  freed : l.count .alloc = l.count .free

/-- What is checked while the engine is on. -/
def Accepted : Request → Prop
  | .rsaGenerateKeypair => checkRsaPrivateKeyLen (cryptoArg 0) = true
  | .rsaEncrypt | .rsaVerifyDigest =>
    checkRsaPubKeyLen (cryptoArg 2) = true ∧ restoreAttrs (cryptoArg 3) memory ≠ none
  | .rsaDecrypt | .rsaSignDigest =>
    checkRsaPrivateKeyLen (cryptoArg 2) = true ∧ restoreAttrs (cryptoArg 3) memory ≠ none
  | _ => True

theorem balanced_powered (params : Option Bool) :
    Balanced ops.powerOn.isSome (powered ops params) ↔ (ops.powerOn ≠ some false →
      if params.isSome then ops.powerOn.isSome = ops.powerOff else ops.powerOn = none) := by
  obtain ⟨has, on, off⟩ := ops
  show Balanced on.isSome (powered ⟨fun _ => true, on, off⟩ params) ↔ (on ≠ some false →
    if params.isSome then on.isSome = off else on = none)
  rw [balanced_iff]
  rcases on with _ | _ | _ <;> rcases params with _ | _ | _ <;> cases off <;> decide

theorem isSome_params (r : Request) :
    (r.params memory cryptoArg).isSome = true ↔ Accepted memory cryptoArg r := by
  cases r <;> simp [Request.params, Request.params.rsaParams, Accepted, Option.isSome_iff_ne_none]

/-- The power is balanced where the engine does not come on, or the driver has both power
functions or none and, if it has them, what is checked while the engine is on is accepted. -/
theorem power_balanced_iff (privateData memory : Bool) (r : Request)
    (cryptoArg : Nat → Memref) :
    Balanced ops.powerOn.isSome (handle ops privateData memory r cryptoArg) ↔
      (ops.has r = true → (r.needsContext = true → privateData = true) → ops.powerOn ≠ some false →
        (Accepted memory cryptoArg r → ops.powerOn.isSome = ops.powerOff) ∧
        (¬ Accepted memory cryptoArg r → ops.powerOn = none)) := by
  unfold handle
  split
  · have hnone : Balanced ops.powerOn.isSome [] := ⟨rfl, nofun, rfl⟩
    grind
  · rw [balanced_powered, ← isSome_params]
    grind

/-- The engine stays on after an encryption whose exponent is said to have 16 bytes. -/
theorem rsa_encrypt_stays_on :
    handle ⟨fun _ => true, some true, true⟩ true true .rsaEncrypt
      (fun _ => ⟨some (memOf 0 [0, 0, 0, 0, 16]), 524⟩) = [.powerOn true] ∧
    ¬ Balanced true [.powerOn true] :=
  ⟨by decide, fun h => absurd h.counts (by decide)⟩

end TeeOs.CryptoDrv
