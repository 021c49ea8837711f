import TeeOs.Crypto.AeApi
import TeeOs.Crypto.CopyOperation
import TeeOs.Lib.Runs

/-!
# The handles of a TA

The cipher, MAC and AE handles of a TA and the calls on them as a state machine. Each event
carries the answers of the allocator and the hardware layer of its call, so that either may
fail at any time. What the calls gave the hardware layer and which keys they reported as
stored is recorded.
-/

namespace TeeOs.Crypto

open TeeOs.Lib

inductive Request
  | setOperationKey (key : Option KeyObject)
  | setOperationKey2 (key1 key2 : Option KeyObject)
  | resetOperation
  | cipherInit (iv : Ref)
  | cipherUpdate (src : Ref) (destData : Bool)
  | cipherDoFinal (src : Ref) (destData : Bool)
  | macInit (iv : Ref)
  | macUpdate (chunk : Ref)
  | macComputeFinal (message : Ref) (mac : Bool)
  | macCompareFinal (message : Ref) (mac : Block)
  | aeInit (nonce : Ref) (tagLen aadLen payloadLen : Nat)
  | aeUpdateAad (aad : Ref)
  | aeUpdate (src : Ref) (destData : Bool)
  | aeEncryptFinal (src : Ref) (destData tag : Bool)
  | aeDecryptFinal (src : Ref) (destData : Bool) (tag : Ref)

variable {κ : Type}

/-- The call, without its output. -/
def Request.run (gen : Call κ Unit) (level : Nat) (hal : Hal κ) : Request → Call κ Unit
  | .setOperationKey key => Crypto.setOperationKey gen level key
  | .setOperationKey2 key1 key2 => Crypto.setOperationKey2 level key1 key2
  | .resetOperation => Crypto.resetOperation hal level
  | .cipherInit iv => Crypto.cipherInit hal level iv
  | .cipherUpdate src destData => do let _ ← Crypto.cipherUpdate hal level src destData
  | .cipherDoFinal src destData => do let _ ← Crypto.cipherDoFinal hal level src destData
  | .macInit iv => Crypto.macInit hal level iv
  | .macUpdate chunk => Crypto.macUpdate hal level chunk
  | .macComputeFinal message mac => do let _ ← Crypto.macComputeFinal hal level message mac
  | .macCompareFinal message mac => Crypto.macCompareFinal hal level message mac
  | .aeInit nonce tagLen aadLen payloadLen =>
    Crypto.aeInit hal level nonce tagLen aadLen payloadLen
  | .aeUpdateAad aad => Crypto.aeUpdateAad hal level aad
  | .aeUpdate src destData => do let _ ← Crypto.aeUpdate hal level src destData
  | .aeEncryptFinal src destData tag => do
    let _ ← Crypto.aeEncryptFinal hal level src destData tag
  | .aeDecryptFinal src destData tag => do
    let _ ← Crypto.aeDecryptFinal hal level src destData tag

/-- What a call of the TA runs with: its output lengths, the allocator and the hardware layer. -/
structure Surroundings (κ : Type) where
  destLen : Option Nat
  tagLen : Option Nat
  answers : List Bool
  hal : Hal κ

/-- The keys a successful call was asked to store and those the handle then holds. -/
structure Report where
  asked : Option Block × Option Block
  kept : Option Block × Option Block

/-- The key of an object that a call copies. -/
def KeyObject.value (key : KeyObject) : Option Block := key.attributes.map fun a => a.first.ref.bytes

def Request.asked : Request → Option (Option Block × Option Block)
  | .setOperationKey key => some (key.bind KeyObject.value, none)
  | .setOperationKey2 key1 key2 => some (key1.bind KeyObject.value, key2.bind KeyObject.value)
  | _ => none

structure State (κ : Type) where
  handles : List (Operation κ)
  clock : Nat
  uses : List (Use κ)
  reports : List Report
  crashed : Bool

def State.init : State κ := ⟨[], 0, [], [], false⟩

/-- What a call on a handle starts from. -/
def State.enter (s : State κ) (op : Operation κ) (env : Surroundings κ) : Local κ :=
  ⟨op, env.answers, env.destLen, env.tagLen, s.clock, [], s.uses, s.crashed⟩

/-- The handle and the records as a call leaves them. -/
def State.leave (s : State κ) (h : Nat) (t : Local κ) : State κ :=
  { s with
    handles := s.handles.set h t.op
    clock := t.clock
    uses := t.uses
    crashed := t.crashed }

/-- The report of a call, where it set a key and was successful. -/
def reportOf (req : Request) (r : Except TeeError Unit × Local κ) : List Report :=
  match r.1, req.asked with
  | .ok (), some asked => [{ asked := asked, kept := (r.2.op.keyValue, r.2.op.keyValue2) }]
  | _, _ => []

inductive Event (κ : Type)
  | allocate (alg : Word) (mode : Mode) (maxKeySize : Nat)
  | call (h : Nat) (req : Request) (env : Surroundings κ)
  | copy (dst src : Nat) (env : Surroundings κ)

/-- The assumptions of a TA: its level, the default engines, and the generator of key pairs,
which no handle of these classes calls. -/
structure Ta (κ : Type) where
  level : Nat
  engine : Word → Nat
  gen : Call κ Unit

def symmetricClasses : List OperationClass := [.cipher, .mac, .ae]

def step (ta : Ta κ) (s : State κ) : Event κ → State κ
  | .allocate alg mode maxKeySize =>
    match allocateOperation ta.level ta.engine alg mode maxKeySize with
    | .error _ => s
    | .ok op =>
      if op.operationClass ∈ symmetricClasses then { s with handles := s.handles ++ [op] } else s
  | .call h req env =>
    match s.handles[h]? with
    | none => s
    | some op =>
      let r := req.run ta.gen ta.level env.hal (s.enter op env)
      { s.leave h r.2 with reports := s.reports ++ reportOf req r }
  | .copy dst src env =>
    if dst = src then s
    else
      match s.handles[dst]?, s.handles[src]? with
      | some dstOp, some srcOp => s.leave dst (copyOperation env.hal srcOp (s.enter dstOp env)).2
      | _, _ => s

abbrev runs (ta : Ta κ) (es : List (Event κ)) : State κ := Runs.runs (step ta) State.init es

/-! ## What has to hold -/

/-- A complete key is stored: two of them for XTS. -/
def Operation.HasKey (op : Operation κ) : Prop :=
  op.keyValue ≠ none ∧ (op.algorithm = algAesXts → op.keyValue2 ≠ none)

/-- The hardware layer is given a context made from the stored key, after it was stored. -/
def Use.Proper (u : Use κ) : Prop :=
  ∃ c, u.ctx = some c ∧ c.madeFrom = u.key ∧ u.keyAt < c.madeAt

structure Consistent (s : State κ) : Prop where
  keySet : ∀ op ∈ s.handles, has op.handleState flagKeySet = true → op.HasKey
  keyClear : ∀ op ∈ s.handles, has op.handleState flagKeySet = false → op.NoKey
  initialized : ∀ op ∈ s.handles, has op.handleState flagInitialized = true → op.cryptoCtxt ≠ none
  uses : ∀ u ∈ s.uses, u.Proper
  reports : ∀ r ∈ s.reports, r.kept = r.asked
  noNull : s.crashed = false

end TeeOs.Crypto
