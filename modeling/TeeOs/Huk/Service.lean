import TeeOs.Lib.Act
import TeeOs.Lib.Runs

/-!
# The service for keys derived from the hardware key

The receive loop of the huk service and `huk_task_derive_takey`. The variable for the uuid of
the sender belongs to the loop. A lookup that fails leaves it as it is, and the request is
handled all the same. The derivation by the hardware is a parameter.
-/

namespace TeeOs.Huk

open TeeOs.Lib Act List

abbrev Bytes := List UInt8

def uuidSize : Nat := 16

structure Uuid where
  bytes : Bytes
  size : bytes.length = uuidSize
  deriving DecidableEq

inductive TeeResult
  | success
  | generic
  | badParameters
  | outOfMemory
  | notSupported
  | hardware (code : Nat)
  deriving DecidableEq

def cmdHukDeriveTakey : Nat := 0x100
def cmdHukGetDeviceid : Nat := 0x101
def cmacDervMaxDataInSize : Nat := 0x400

/-- The root key derivation: from an input, a key of a size. -/
abbrev RootKey := Bytes → Nat → Bytes

/-- A request with what its handling meets: the uuid that is found for the sender, the content
of its salt buffer, whether the two buffers are mapped, the answers of the allocator, and the
error of the hardware if there is one. -/
structure Request where
  cmdId : Nat
  isCall : Bool
  sender : Option Uuid
  saltBuf : Bool
  salt : Bytes
  keyBuf : Bool
  keySize : Nat
  keyMapped : Bool
  saltMapped : Bool
  answers : List Bool
  refusal : Option Nat

/-- A key in the buffer of a sender: the request it is for, the input of its derivation, and
the key. -/
structure Delivery where
  request : Request
  input : Bytes
  key : Bytes

structure State where
  uuid : Uuid
  deliveries : List Delivery
  replies : List TeeResult

/-- What a request is handled with. -/
structure Job where
  answers : List Bool
  deliveries : List Delivery

abbrev Task (α : Type) : Type := Act Job TeeResult α

def malloc : Task Unit := do
  let answers ← reads Job.answers
  change fun j => { j with answers := j.answers.tail }
  failIf (answers.headD true = false) .outOfMemory

variable (rootKey : RootKey) (req : Request) (uuid : Uuid)

def hukTaskTakeyParamCheck : Except TeeResult Unit :=
  if req.saltBuf = false ∨ req.salt.length = 0 ∨ req.salt.length > cmacDervMaxDataInSize then
    .error .badParameters
  else if req.keyBuf = false ∨ req.keySize = 0 ∨ req.keySize > cmacDervMaxDataInSize then
    .error .badParameters
  else .ok ()

/-- `huk_derive_takey` with `do_derive_takey`; `uuid` is the one of the access table. -/
def hukDeriveTakey : Task Unit := do
  failIf (req.salt.length > cmacDervMaxDataInSize) .badParameters
  malloc
  malloc
  let saltTmp := req.salt ++ uuid.bytes
  match req.refusal with
  | some code => fail (.hardware code)
  | none =>
    change fun j =>
      { j with deliveries := j.deliveries ++ [⟨req, saltTmp, rootKey saltTmp req.keySize⟩] }

def hukTaskDeriveTakey : Task Unit := do
  ofExcept (hukTaskTakeyParamCheck req)
  failIf (req.keyMapped = false) .generic
  failIf (req.saltMapped = false) .generic
  hukDeriveTakey rootKey req uuid

def hukTaskGetDeviceid : Task Unit := fail .notSupported

/-- The table `g_cmd_operate_config`. -/
def operateFunc : Task Unit :=
  if req.cmdId = cmdHukDeriveTakey then hukTaskDeriveTakey rootKey req uuid
  else if req.cmdId = cmdHukGetDeviceid then hukTaskGetDeviceid
  else fail .generic

def resultOf : Except TeeResult Unit → TeeResult
  | .ok () => .success
  | .error e => e

def handleCmd (s : State) : State :=
  let r := operateFunc rootKey req s.uuid ⟨req.answers, s.deliveries⟩
  { s with
    deliveries := r.2.deliveries
    replies := if req.isCall then s.replies ++ [resultOf r.1] else s.replies }

/-- A round of the loop; none for a message that could not be received. -/
def step (s : State) : Option Request → State
  | none => s
  | some req => handleCmd rootKey req { s with uuid := req.sender.getD s.uuid }

/-- The variable for the uuid is not initialized. -/
def State.init : State := ⟨uuid, [], []⟩

abbrev runs (es : List (Option Request)) : State :=
  Runs.runs (step rootKey) (State.init uuid) es

/-! ## Separation -/

/-- The key is the derivation from the salt of its request and the uuid of its sender. -/
def Delivery.Own (d : Delivery) : Prop :=
  ∃ u, d.request.sender = some u ∧ d.input = d.request.salt ++ u.bytes ∧
    d.key = rootKey d.input d.request.keySize

structure Separated (rootKey : RootKey) (s : State) : Prop where
  own : ∀ d ∈ s.deliveries, d.Own rootKey
  apart : ∀ d ∈ s.deliveries, ∀ d' ∈ s.deliveries, d.request.keySize = d'.request.keySize →
    d.input = d'.input → d.request.sender = d'.request.sender ∧ d.request.salt = d'.request.salt

theorem append_uuid_inj {salt salt' : Bytes} {u u' : Uuid} (h : salt ++ u.bytes = salt' ++ u'.bytes) :
    salt = salt' ∧ u = u' := by
  have hlength : salt.length = salt'.length := by
    have htotal := congrArg List.length h
    rw [length_append, length_append, u.size, u'.size] at htotal
    omega
  obtain ⟨hsalt, hbytes⟩ := append_inj h hlength
  refine ⟨hsalt, ?_⟩
  cases u
  cases u'
  cases hbytes
  rfl

theorem Separated.of_own {rootKey : RootKey} {s : State}
    (h : ∀ d ∈ s.deliveries, d.Own rootKey) : Separated rootKey s := by
  refine ⟨h, fun d hd d' hd' _ hinput => ?_⟩
  obtain ⟨u, hu, hin, -⟩ := h d hd
  obtain ⟨u', hu', hin', -⟩ := h d' hd'
  rw [hin, hin'] at hinput
  obtain ⟨hsalt, rfl⟩ := append_uuid_inj hinput
  exact ⟨hu.trans hu'.symm, hsalt⟩

theorem malloc_ends {j : Job} : Ends malloc (fun _ j' => j'.deliveries = j.deliveries)
      (fun _ j' => j'.deliveries = j.deliveries) j := by
  unfold malloc
  simp only [ends_steps]
  exact ⟨fun _ => trivial, fun _ => trivial⟩

/-- A request adds at most the key that is derived with the uuid it is handled with. -/
theorem operateFunc_ends (j : Job) :
    Ends (operateFunc rootKey req uuid) (fun _ j' => req.cmdId = cmdHukDeriveTakey ∧
        j'.deliveries = j.deliveries ++
          [⟨req, req.salt ++ uuid.bytes, rootKey (req.salt ++ uuid.bytes) req.keySize⟩])
      (fun _ j' => j'.deliveries = j.deliveries) j := by
  unfold operateFunc hukTaskGetDeviceid
  simp only [ends_ite, ends_fail]
  refine ⟨fun hcmd => ?_, fun _ => ⟨fun _ => trivial, fun _ => trivial⟩⟩
  unfold hukTaskDeriveTakey hukDeriveTakey
  simp only [ends_steps]
  refine ⟨fun _ _ => trivial, fun _ _ => ⟨fun _ => trivial, fun _ => ⟨fun _ => trivial, fun _ =>
    ⟨fun _ => trivial, fun _ => ?_⟩⟩⟩⟩
  refine malloc_ends.imp ?_ fun _ _ h => h
  intro _ j₁ h₁
  refine malloc_ends.imp ?_ fun _ _ h => h.trans h₁
  intro _ j₂ h₂
  cases req.refusal with
  | some code => exact h₂.trans h₁
  | none =>
    refine ⟨hcmd, ?_⟩
    show j₂.deliveries ++ _ = _
    rw [h₂, h₁]

/-- The sender of a request for a key is known. -/
def Identified : Option Request → Prop
  | none => True
  | some req => req.cmdId = cmdHukDeriveTakey → req.sender ≠ none

instance : (e : Option Request) → Decidable (Identified e)
  | none => .isTrue trivial
  | some req => inferInstanceAs (Decidable (req.cmdId = cmdHukDeriveTakey → req.sender ≠ none))

theorem step_own {rootKey : RootKey} {s : State} {e : Option Request}
    (h : ∀ d ∈ s.deliveries, d.Own rootKey) (he : Identified e) :
    ∀ d ∈ (step rootKey s e).deliveries, d.Own rootKey := by
  cases e with
  | none => exact h
  | some req =>
    have hends := operateFunc_ends rootKey req (req.sender.getD s.uuid) ⟨req.answers, s.deliveries⟩
    show ∀ d ∈ (operateFunc rootKey req (req.sender.getD s.uuid) ⟨req.answers, s.deliveries⟩).2.deliveries, _
    unfold Ends at hends
    generalize operateFunc rootKey req (req.sender.getD s.uuid) ⟨req.answers, s.deliveries⟩ = r at hends ⊢
    obtain ⟨e | a, j⟩ := r
    · rw [show j.deliveries = s.deliveries from hends]
      exact h
    · obtain ⟨hcmd, hadded⟩ := hends
      rw [hadded]
      intro d hd
      rcases mem_append.mp hd with hd | hd
      · exact h d hd
      · rw [mem_singleton.mp hd]
        obtain ⟨u, hu⟩ := Option.ne_none_iff_exists'.mp (he hcmd)
        refine ⟨u, hu, ?_, rfl⟩
        rw [hu]
        rfl

/-- Every key that is delivered belongs to the sender of its request, whatever came before. -/
theorem takeys_separated (es : List (Option Request))
    (hes : ∀ e ∈ es, Identified e) : Separated rootKey (runs rootKey uuid es) := by
  refine Separated.of_own ?_
  exact Runs.invariant_run (I := fun s => ∀ d ∈ State.deliveries s, d.Own rootKey)
    (fun _ _ h he => step_own h he) nofun (Runs.Along.of_forall hes)

/-! ## Two senders -/

def uuidOf (b : UInt8) : Uuid := ⟨List.replicate uuidSize b, List.length_replicate⟩

def takeyRequest (sender : Option Uuid) (salt : Bytes) : Request :=
  ⟨cmdHukDeriveTakey, true, sender, true, salt, true, 16, true, true, [], none⟩

def sampleRootKey : RootKey := fun input size => (input ++ List.replicate size 0).take size

theorem takeys_separated_two : (runs sampleRootKey (uuidOf 0)
      [some (takeyRequest (some (uuidOf 1)) [7]), some (takeyRequest (some (uuidOf 2)) [7])]).deliveries.length
        = 2 ∧
      Separated sampleRootKey (runs sampleRootKey (uuidOf 0)
        [some (takeyRequest (some (uuidOf 1)) [7]), some (takeyRequest (some (uuidOf 2)) [7])]) :=
  ⟨by decide, takeys_separated sampleRootKey (uuidOf 0) _ (by decide)⟩

/-- A sender whose uuid is not found is given the key of the sender before it. -/
theorem unknown_sender_gets_key : ∃ d ∈ (runs sampleRootKey (uuidOf 0)
        [some (takeyRequest (some (uuidOf 1)) [7]), some (takeyRequest none [7])]).deliveries,
      d.request.sender = none ∧ d.input = [7] ++ (uuidOf 1).bytes ∧ ¬ d.Own sampleRootKey := by
  refine ⟨⟨takeyRequest none [7], [7] ++ (uuidOf 1).bytes,
    sampleRootKey ([7] ++ (uuidOf 1).bytes) 16⟩, ?_, rfl, rfl, ?_⟩
  · exact mem_append_right _ (mem_singleton.mpr rfl)
  · rintro ⟨u, hu, -⟩
    cases hu

end TeeOs.Huk
