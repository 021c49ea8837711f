import TeeOs.Conf.Text

/-!
# The memory a driver is spawned with

`spawn_driver_handle` computes, in 32 bits, the stack of a driver and a heap that
also holds the stacks of its threads, and hands both to the loader. What follows
the loading (the channel of the driver, its command permissions) decides whether the
process is kept or killed.
-/

namespace TeeOs.DrvMgr.Spawn

open TeeOs.Conf BitVec

def drvNameMaxLen : Nat := 32
def drvDefaultStackSize : BitVec 32 := 0x4000#32

/-- The fields of `drv_mani_t` and `drv_basic_info_t` that the spawning reads. -/
structure SpawnConf where
  serviceName : List UInt8
  stackSize : BitVec 32
  dataSize : BitVec 32
  threadLimit : BitVec 32

structure SpawnNode where
  uuid : Uuid
  drvConf : Option SpawnConf
  drvIndex : Int
  channel : Int := -1
  pid : Option Nat := none

structure SpawnParam where
  uuid : Uuid
  drvName : List UInt8
  threadLimit : BitVec 32
  heapSize : BitVec 32 := 0
  stackSize : BitVec 32 := 0
  drvIndex : Nat

/-- The loader, the channel of the driver and the answer of the driver to its
permissions. -/
structure SpawnEnv where
  prepareSpawnParams : SpawnParam → Option Nat
  getDrvChannel : List UInt8 → Option Int
  sendCmdPermToDrv : Bool

/-- What the call leaves: the parameters the loader was given and the task it killed. -/
structure Spawned where
  ok : Bool := false
  node : SpawnNode
  loaded : Option SpawnParam := none
  killed : Option Nat := none

def pageAlignUp (x : BitVec 32) : BitVec 32 := (x + 4095#32) &&& ~~~4095#32

variable (node : SpawnNode) (conf : SpawnConf)

/-- `set_drv_name_and_uuid` and `set_drv_thread_limit`. The name has room for `/tafs/`
and `.elf` but for one byte. -/
def setDrvNameAndUuid : Option SpawnParam :=
  if conf.serviceName.length ≤ drvNameMaxLen + 4 + 6 - 1 then
    some { uuid := node.uuid, drvName := conf.serviceName, threadLimit := conf.threadLimit,
           drvIndex := node.drvIndex.toNat }
  else none

def setDrvStackSize (param : SpawnParam) : Option SpawnParam :=
  let stackSizeAlign := pageAlignUp conf.stackSize
  if stackSizeAlign < conf.stackSize then none
  else if stackSizeAlign < drvDefaultStackSize then
    some { param with stackSize := drvDefaultStackSize }
  else some { param with stackSize := stackSizeAlign }

def setDrvHeapSize (param : SpawnParam) : Option SpawnParam :=
  let heapSizeAlign := pageAlignUp conf.dataSize
  let extraStackSize := param.stackSize * param.threadLimit
  if heapSizeAlign < conf.dataSize then none
  else if extraStackSize < param.stackSize then none
  else if heapSizeAlign + extraStackSize < heapSizeAlign then none
  else some { param with heapSize := heapSizeAlign + extraStackSize }

/-- The part of `spawn_driver_handle` before the loader is called. -/
def spawnParam : Option SpawnParam := do
  let conf ← node.drvConf
  if node.drvIndex < 0 then none
  else
    let param ← setDrvNameAndUuid node conf
    let param ← setDrvStackSize conf param
    setDrvHeapSize conf param

def spawnDriverHandle (env : SpawnEnv) (node : SpawnNode) : Spawned :=
  match spawnParam node with
  | none => { node := node }
  | some param =>
    match env.prepareSpawnParams param with
    | none => { node := node, loaded := some param }
    | some taskid =>
      match env.getDrvChannel param.drvName with
      | none => { node := node, loaded := some param, killed := some taskid }
      | some channel =>
        if env.sendCmdPermToDrv then
          { ok := true, node := { node with channel := channel, pid := some taskid }
            loaded := some param }
        else { node := { node with channel := -1 }, loaded := some param, killed := some taskid }

theorem loaded_spawnDriverHandle (env : SpawnEnv) (node : SpawnNode) :
    (spawnDriverHandle env node).loaded = spawnParam node := by
  unfold spawnDriverHandle
  grind

/-! ## The sizes as natural numbers -/

def roundUp (n : Nat) : Nat := (n + 4095) / 4096 * 4096

namespace SpawnConf

variable (conf : SpawnConf)

/-- The stack the driver should get. -/
def stack : Nat := max (roundUp conf.stackSize.toNat) drvDefaultStackSize.toNat

/-- The stacks of its threads. -/
def threads : Nat := conf.stack * conf.threadLimit.toNat

def heap : Nat := roundUp conf.dataSize.toNat + conf.threads

/-- The two tests, which see the stacks of the threads reduced to 32 bits. -/
def Tested : Prop :=
  conf.stack ≤ conf.threads % 2^32 ∧ roundUp conf.dataSize.toNat + conf.threads % 2^32 < 2^32

end SpawnConf

theorem and_not_pageMask (x : BitVec 32) : x &&& ~~~4095#32 = (x >>> 12) <<< 12 := by
  ext i hi
  have hmask : (4095#32)[i] = decide (i < 12) := by
    rw [← getLsbD_eq_getElem, getLsbD_ofNat, show 4095 = 2^12 - 1 from rfl,
      Nat.testBit_two_pow_sub_one, decide_eq_true hi, Bool.true_and]
  simp only [getElem_and, getElem_not, hmask, getElem_shiftLeft]
  by_cases hlow : i < 12
  · simp [hlow]
  · simp [hlow, show 12 + (i - 12) = i by omega, getLsbD_eq_getElem hi]

theorem toNat_pageAlignUp (x : BitVec 32) :
    (pageAlignUp x).toNat = (x.toNat + 4095) % 2^32 / 4096 * 4096 := by
  unfold pageAlignUp
  rw [and_not_pageMask, toNat_shiftLeft, toNat_ushiftRight, toNat_add,
    Nat.shiftRight_eq_div_pow, Nat.shiftLeft_eq]
  simp only [toNat_ofNat]
  omega

/-- The rounding is refused exactly when it leaves 32 bits. -/
theorem pageAlignUp_cases (x : BitVec 32) : (pageAlignUp x < x ∧ 2^32 ≤ roundUp x.toNat) ∨
      (¬ pageAlignUp x < x ∧ (pageAlignUp x).toNat = roundUp x.toNat ∧ roundUp x.toNat < 2^32) := by
  rw [lt_def, toNat_pageAlignUp]
  unfold roundUp
  omega

theorem setDrvStackSize_spec (conf : SpawnConf) (param : SpawnParam) :
    (setDrvStackSize conf param = none ∧ 2^32 ≤ conf.stack) ∨
      ∃ size, setDrvStackSize conf param = some { param with stackSize := size } ∧
        size.toNat = conf.stack := by
  unfold setDrvStackSize SpawnConf.stack
  obtain ⟨hlt, hbig⟩ | ⟨hlt, heq, -⟩ := pageAlignUp_cases conf.stackSize
  · exact .inl ⟨if_pos hlt, by omega⟩
  right
  rw [if_neg hlt]
  split
  · rename_i hsmall
    rw [lt_def] at hsmall
    exact ⟨_, rfl, by omega⟩
  · rename_i hlarge
    rw [lt_def] at hlarge
    exact ⟨_, rfl, by omega⟩

/-- The product is taken modulo `2^32`, and the tests only see what is left of it. -/
theorem setDrvHeapSize_spec {conf : SpawnConf} (param : SpawnParam)
    (hstack : param.stackSize.toNat = conf.stack) (hlimit : param.threadLimit = conf.threadLimit) :
    (setDrvHeapSize conf param = none ∧ ¬ conf.Tested) ∨
      ∃ size, setDrvHeapSize conf param = some { param with heapSize := size } ∧ conf.Tested ∧
        size.toNat = roundUp conf.dataSize.toNat + conf.threads % 2^32 := by
  have hextra : (param.stackSize * param.threadLimit).toNat = conf.threads % 2^32 := by
    rw [toNat_mul, hstack, hlimit]
    rfl
  unfold setDrvHeapSize SpawnConf.Tested
  obtain ⟨hlt, hbig⟩ | ⟨hlt, heq, hfits⟩ := pageAlignUp_cases conf.dataSize
  · exact .inl ⟨if_pos hlt, by omega⟩
  have hsum : (pageAlignUp conf.dataSize + param.stackSize * param.threadLimit).toNat =
      (roundUp conf.dataSize.toNat + conf.threads % 2^32) % 2^32 := by
    rw [toNat_add, heq, hextra]
  rw [if_neg hlt]
  simp only [lt_def, hextra, hstack, hsum, heq]
  split
  · exact .inl ⟨rfl, by omega⟩
  · split
    · exact .inl ⟨rfl, by omega⟩
    · exact .inr ⟨_, rfl, by omega, by omega⟩

/-- What the handler accepts: an index, a name that fits, and sizes that pass the tests. -/
def SpawnNode.Passes (node : SpawnNode) (conf : SpawnConf) : Prop :=
  0 ≤ node.drvIndex ∧ conf.serviceName.length ≤ drvNameMaxLen + 4 + 6 - 1 ∧ conf.Tested

theorem spawnParam_spec {node : SpawnNode} {conf : SpawnConf} (hconf : node.drvConf = some conf) :
    (spawnParam node = none ∧ ¬ node.Passes conf) ∨
      ∃ param, spawnParam node = some param ∧ node.Passes conf ∧ param.stackSize.toNat = conf.stack ∧
        param.heapSize.toNat = roundUp conf.dataSize.toNat + conf.threads % 2^32 := by
  unfold spawnParam SpawnNode.Passes
  simp only [hconf, Option.bind_eq_bind, Option.bind_some, setDrvNameAndUuid]
  by_cases hindex : node.drvIndex < 0
  · exact .inl ⟨if_pos hindex, by omega⟩
  by_cases hname : conf.serviceName.length ≤ drvNameMaxLen + 4 + 6 - 1
  · rw [if_neg hindex, if_pos hname, Option.bind_some]
    obtain ⟨hnone, hbig⟩ | ⟨size, hsome, hsize⟩ := setDrvStackSize_spec conf _
    · rw [hnone]
      refine .inl ⟨rfl, fun h => ?_⟩
      have htested := h.2.2
      unfold SpawnConf.Tested at htested
      omega
    · rw [hsome, Option.bind_some]
      obtain ⟨hnone, hbad⟩ | ⟨heap, hheap, htested, hexact⟩ := setDrvHeapSize_spec
        ⟨node.uuid, conf.serviceName, conf.threadLimit, 0, size, node.drvIndex.toNat⟩ hsize rfl
      · exact .inl ⟨hnone, fun h => hbad h.2.2⟩
      · exact .inr ⟨_, hheap, ⟨by omega, hname, htested⟩, hsize, hexact⟩
  · rw [if_neg hindex, if_neg hname]
    exact .inl ⟨rfl, fun h => hname h.2.1⟩

/-- The driver is refused, or the loader gets the exact sizes. -/
def ExactlySized (env : SpawnEnv) (node : SpawnNode) : Prop :=
  ∀ conf param, node.drvConf = some conf → (spawnDriverHandle env node).loaded = some param →
    param.stackSize.toNat = conf.stack ∧ param.heapSize.toNat = conf.heap

/-- The stack is always exact. The heap is exact as long as no driver is accepted whose
stacks leave 32 bits together; the test for that compares the reduced product with one
stack and misses the products whose remainder is large. -/
theorem spawnDriverHandle_sized_iff (env : SpawnEnv) (node : SpawnNode) : ExactlySized env node ↔
      ∀ conf, node.drvConf = some conf → node.Passes conf → conf.threads < 2^32 := by
  unfold ExactlySized SpawnConf.heap
  simp only [loaded_spawnDriverHandle]
  constructor
  · intro h conf hconf hpasses
    obtain ⟨-, hbad⟩ | ⟨param, hsome, hpass, hstack, hheap⟩ := spawnParam_spec hconf
    · exact absurd hpasses hbad
    · have hexact := (h conf param hconf hsome).2
      omega
  · intro h conf param hconf hsome
    obtain ⟨hnone, -⟩ | ⟨param', hsome', hpass, hstack, hheap⟩ := spawnParam_spec hconf
    · rw [hnone] at hsome
      cases hsome
    · rw [hsome'] at hsome
      cases hsome
      have hfits := h conf hconf hpass
      exact ⟨hstack, by omega⟩

/-- Four threads with a stack of 1.5 GiB each: the heap handed to the loader is 2 GiB. -/
theorem spawnDriverHandle_wraps : ((spawnDriverHandle ⟨fun _ => none, fun _ => none, false⟩
      ⟨⟨0, 0, 0, []⟩, some ⟨[], 0x60000000#32, 0#32, 4#32⟩, 0, -1, none⟩).loaded.map
        fun p => (p.stackSize, p.heapSize)) = some (0x60000000#32, 0x80000000#32) ∧
      (SpawnConf.mk [] 0x60000000#32 0#32 4#32).heap = 0x180000000 := by
  decide

end TeeOs.DrvMgr.Spawn
