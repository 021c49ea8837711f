import TeeOs.Drv.Permission
import TeeOs.Lib.Folds

/-!
# Who may issue a command

The numbers that the texts of a configuration name, read without masks, and the
comparison of an ioctl's answer with them. The masks tell the numbers up to 32
apart. Beyond 32 no machine does: the shift is done in 32 bits, so the mask of 33
is empty or has a bit of a smaller number.
-/

namespace TeeOs.Drv

open TeeOs.Conf List Option
open TeeOs.Lib.CText TeeOs.Lib.Masks TeeOs.Lib.Folds

/-! ## The numbers that a configuration names -/

/-- The numbers of a list of permissions. -/
def permNumbers (value : Text) : List Nat := (tokens '|' (cstr value)).filterMap permNumber

def itemCmd (item : List CmdPermLeaf) : Nat :=
  item.foldl (fun cmd leaf =>
    match leaf with
    | .cmd value => (transStrToInt value .hex).getD 0
    | _ => cmd) 0

def itemNumber (item : List CmdPermLeaf) : Option Nat :=
  item.foldl (fun number leaf =>
    match leaf with
    | .permission value => permNumber value
    | _ => number) none

def macUuid (item : List MacLeaf) : Uuid :=
  item.foldl (fun uuid leaf =>
    match leaf with
    | .uuid size buff => (tlvToUuid buff size).getD nullUuid
    | _ => uuid) nullUuid

def macNumbers (item : List MacLeaf) : List Nat :=
  item.foldl (fun numbers leaf =>
    match leaf with
    | .permission value => permNumbers value
    | _ => numbers) []

def applyName (item : List ApplyLeaf) : Text :=
  item.foldl (fun name leaf =>
    match leaf with
    | .name value => value
    | _ => name) []

def applyNumbers (item : List ApplyLeaf) : List Nat :=
  item.foldl (fun numbers leaf =>
    match leaf with
    | .permission value => permNumbers value
    | _ => numbers) []

/-- The entry of a command in the driver's command list. -/
def Setup.cmdEntry (s : Setup) (cmd : Nat) : Option (List CmdPermLeaf) :=
  s.cmdItems.find? fun item => itemCmd item = cmd

open Setup

/-- The numbers granted to the caller: by the driver's mac list if there is one, and
by the caller's own apply list if not. -/
def Setup.granted (s : Setup) : List Nat :=
  if s.macItems = [] then
    ((s.applyItems.find? fun item => applyName item = s.serviceName).map applyNumbers).getD []
  else ((s.macItems.find? fun item => macUuid item = s.callerUuid).map macNumbers).getD []

/-- The command has no entry, or its number is granted. -/
def Setup.Allowed (s : Setup) (cmd : Nat) : Prop :=
  ∀ item, s.cmdEntry cmd = some item → ∃ n, itemNumber item = some n ∧ n ∈ s.granted

/-- Every number that the configuration names. -/
def Setup.numbers (s : Setup) : List Nat :=
  s.cmdItems.filterMap itemNumber ++ s.macItems.flatMap macNumbers ++
    s.applyItems.flatMap applyNumbers

/-! ## Masks of numbers -/

variable {wide : Nat → BitVec 32} {n : Nat} {value : Text}

theorem shl_of_lt (h : n < 32) : shl wide n = (1#32 <<< n).signExtend 64 := by
  rw [shl, if_pos h]

theorem narrow_disjoint : ∀ a b : Fin 32,
    (1#32 <<< a.val).signExtend 64 &&& (1#32 <<< b.val).signExtend 64 ≠ 0#64 ↔ a = b := by
  decide +kernel

/-- The masks of two numbers up to 32 meet exactly if the numbers are the same. -/
theorem permMask_disjoint {a b : Nat} (ha : 0 < a ∧ a ≤ 32) (hb : 0 < b ∧ b ≤ 32) :
    permMask wide a &&& permMask wide b ≠ 0#64 ↔ a = b := by
  have hfin := narrow_disjoint ⟨a-1, by omega⟩ ⟨b-1, by omega⟩
  rw [permMask, permMask, shl_of_lt (by omega), shl_of_lt (by omega), hfin, Fin.mk.injEq]
  omega

theorem permNumber_range {t : Text} (h : permNumber t = some n) : 0 < n ∧ n ≤ 64 := by
  unfold permNumber at h
  split at h
  · cases h
  split at h
  · split at h
    · cases h
    · next hoff =>
      obtain rfl := some.inj h
      simp only [bitNumOfUint64] at hoff
      omega
  · cases h

theorem permNumbers_pos (h : n ∈ permNumbers value) : 0 < n := by
  obtain ⟨t, -, ht⟩ := mem_filterMap.mp h
  exact (permNumber_range ht).1

theorem combineTargets_eq {ts : List Text} {perm m : BitVec 64}
    (h : combineTargets wide ts perm = some m) :
    m = join (permMask wide) perm (ts.filterMap permNumber) := by
  induction ts generalizing perm with
  | nil => exact (some.inj h).symm
  | cons t ts ih =>
    rw [combineTargets] at h
    cases ht : permNumber t with
    | none =>
      simp only [ht] at h
      cases h
    | some off =>
      simp only [ht] at h
      rw [ih h, filterMap_cons_some ht]
      rfl

theorem combinePerms_eq {m : BitVec 64} (h : combinePerms wide value = some m) :
    m = join (permMask wide) 0 (permNumbers value) := by
  unfold combinePerms at h
  split at h
  · cases h
  · exact combineTargets_eq h

/-! ## What the builders keep of an item -/

section Items

variable {item item' : DrvCmdPermInfo} {mac mac' : DrvMacInfo} {entry entry' : DrvcallPermApplyItem}
  {value : Text}

theorem cmd_inv (h : handleDrvCmdPermInfoItemCmd item value = some item') :
    ∃ cmd, transStrToInt value .hex = some cmd ∧ item' = { item with cmd := cmd } := by
  unfold handleDrvCmdPermInfoItemCmd at h
  split at h
  · cases h
  · split at h
    · next cmd hcmd =>
      split at h
      · cases h
      · exact ⟨cmd, hcmd, (some.inj h).symm⟩
    · cases h

theorem permission_inv (h : handleDrvCmdPermInfoItemPermission wide item value = some item') :
    ∃ off, permNumber value = some off ∧ item' = { item with perm := permMask wide off } := by
  unfold handleDrvCmdPermInfoItemPermission at h
  split at h
  · cases h
  · split at h
    · next off hoff => exact ⟨off, hoff, (some.inj h).symm⟩
    · cases h

theorem name_inv (h : handlePermApplyItemName entry value = some entry') :
    entry' = { entry with name := value } := by
  unfold handlePermApplyItemName at h
  split at h
  · cases h
  · exact (some.inj h).symm

theorem item_of_leaves {leaves : List CmdPermLeaf}
    (h : leaves.foldlM (buildDrvCmdPermInfoItem wide) {} = some item) :
    item.cmd = itemCmd leaves ∧ item.perm = (itemNumber leaves).elim 0 (permMask wide) := by
  refine foldlM_rel (R := fun i cmd (n : Option Nat) =>
    i.cmd = cmd ∧ i.perm = n.elim 0 (permMask wide)) (u := none) ?_ ⟨rfl, rfl⟩ h
  intro i cmd n leaf i' hi hleaf
  cases leaf with
  | cmd value =>
    obtain ⟨c, hc, rfl⟩ := cmd_inv hleaf
    simp only [hc, getD_some]
    exact ⟨trivial, hi.2⟩
  | permission value =>
    obtain ⟨off, hoff, rfl⟩ := permission_inv hleaf
    simp only [hoff, elim_some]
    exact ⟨hi.1, trivial⟩
  | other =>
    obtain rfl := some.inj hleaf
    exact hi

theorem mac_of_leaves {leaves : List MacLeaf}
    (h : leaves.foldlM (buildDrvMacInfoItem wide) {} = some mac) :
    mac.uuid = macUuid leaves ∧ mac.perm = join (permMask wide) 0 (macNumbers leaves) := by
  refine foldlM_rel (R := fun i uuid ns => i.uuid = uuid ∧ i.perm = join (permMask wide) 0 ns)
    (u := []) ?_ ⟨rfl, rfl⟩ h
  intro i uuid ns leaf i' hi hleaf
  cases leaf with
  | uuid size buff =>
    obtain ⟨u, hu, rfl⟩ := map_eq_some_iff.mp hleaf
    simp only [hu, getD_some]
    exact ⟨trivial, hi.2⟩
  | permission value =>
    obtain ⟨p, hp, rfl⟩ := map_eq_some_iff.mp hleaf
    exact ⟨hi.1, combinePerms_eq hp⟩
  | other =>
    obtain rfl := some.inj hleaf
    exact hi

theorem entry_of_leaves {leaves : List ApplyLeaf}
    (h : leaves.foldlM (buildDrvcallPermApplyItem wide) {} = some entry) :
    entry.name = applyName leaves ∧ entry.perm = join (permMask wide) 0 (applyNumbers leaves) := by
  refine foldlM_rel (R := fun i name ns => i.name = name ∧ i.perm = join (permMask wide) 0 ns)
    (u := []) ?_ ⟨rfl, rfl⟩ h
  intro i name ns leaf i' hi hleaf
  cases leaf with
  | name value =>
    obtain rfl := name_inv hleaf
    exact ⟨rfl, hi.2⟩
  | permission value =>
    obtain ⟨p, hp, rfl⟩ := map_eq_some_iff.mp hleaf
    exact ⟨hi.1, combinePerms_eq hp⟩
  | other =>
    obtain rfl := some.inj hleaf
    exact hi

end Items

-- Numbers come from pieces of text, so they are positive.

theorem itemNumber_pos (leaves : List CmdPermLeaf) : ∀ n, itemNumber leaves = some n → 0 < n := by
  refine List.foldlRecOn leaves _ (motive := fun o : Option Nat => ∀ n, o = some n → 0 < n)
    nofun fun o ho leaf _ n hn => ?_
  cases leaf with
  | permission value => exact (permNumber_range hn).1
  | cmd value | other => exact ho n hn

theorem macNumbers_pos (leaves : List MacLeaf) : ∀ n ∈ macNumbers leaves, 0 < n := by
  refine List.foldlRecOn leaves _ (motive := fun ns : List Nat => ∀ n ∈ ns, 0 < n)
    nofun fun ns hns leaf _ n hn => ?_
  cases leaf with
  | permission value => exact permNumbers_pos hn
  | uuid size buff | other => exact hns n hn

theorem applyNumbers_pos (leaves : List ApplyLeaf) : ∀ n ∈ applyNumbers leaves, 0 < n := by
  refine List.foldlRecOn leaves _ (motive := fun ns : List Nat => ∀ n ∈ ns, 0 < n)
    nofun fun ns hns leaf _ n hn => ?_
  cases leaf with
  | permission value => exact permNumbers_pos hn
  | name value | other => exact hns n hn

/-! ## The lists of an accepted configuration -/

theorem cmds_of_build {items : List (List CmdPermLeaf)} {list : List DrvCmdPermInfo}
    (h : buildDrvCmdPermInfo wide items = some list) :
    List.Forall₂ (fun leaves i => leaves.foldlM (buildDrvCmdPermInfoItem wide) {} = some i)
      items list ∧ ∀ i ∈ list, i.perm ≠ 0 := by
  unfold buildDrvCmdPermInfo at h
  split at h
  · cases h
  split at h
  · next l hl =>
    split at h
    · cases h
    · next hcheck =>
      obtain rfl := some.inj h
      refine ⟨forall₂_of_mapM hl, fun i hi hzero => hcheck ?_⟩
      exact Bool.or_eq_true_iff.mpr (Or.inl (any_eq_true.mpr ⟨i, hi, decide_eq_true hzero⟩))
  · cases h

theorem macs_of_build {items : List (List MacLeaf)} {list : List DrvMacInfo}
    (h : buildDrvMacInfo wide items = some list) :
    List.Forall₂ (fun leaves i => leaves.foldlM (buildDrvMacInfoItem wide) {} = some i)
      items list := by
  unfold buildDrvMacInfo at h
  split at h
  · cases h
  split at h
  · next l hl =>
    split at h
    · cases h
    · obtain rfl := some.inj h
      exact forall₂_of_mapM hl
  · cases h

theorem entries_of_build {items : List (List ApplyLeaf)} {list : List DrvcallPermApplyItem}
    (h : buildDrvcallPermApply wide items = some list) :
    List.Forall₂ (fun leaves i => leaves.foldlM (buildDrvcallPermApplyItem wide) {} = some i)
      items list := by
  unfold buildDrvcallPermApply at h
  split at h
  · cases h
  split at h
  · next l hl =>
    split at h
    · obtain rfl := some.inj h
      exact forall₂_of_mapM hl
    · cases h
  · cases h

/-! ## The whole path -/

section Path

variable {s : Setup} {drv : DrvConf} {caller : CallerConf} {baseDrv : List Text} {drvName : Text}
  {perm : BitVec 64} {params : IoctlParam} {entered : Bool}

theorem drvConf_inv (h : s.drvConf wide = some drv) :
    drv.serviceName = s.serviceName ∧ buildDrvCmdPermInfo wide s.cmdItems = some drv.cmdPermList ∧
      buildDrvMacInfo wide s.macItems = some drv.macInfoList := by
  simp only [drvConf, Option.bind_eq_bind, Option.bind_eq_some_iff, Option.pure_def,
    some.injEq] at h
  obtain ⟨cmds, hcmds, macs, hmacs, rfl⟩ := h
  exact ⟨rfl, hcmds, hmacs⟩

theorem callerConf_inv (h : s.callerConf wide = some caller) : caller.uuid = s.callerUuid ∧
      buildDrvcallPermApply wide s.applyItems = some caller.drvcallPermApplyList := by
  simp only [callerConf, Option.bind_eq_bind, Option.bind_eq_some_iff, Option.pure_def,
    some.injEq] at h
  obtain ⟨list, hlist, rfl⟩ := h
  exact ⟨rfl, hlist⟩

theorem ioctl_inv (h : s.ioctl wide baseDrv drvName params = some entered) :
    ∃ drv caller perm, s.drvConf wide = some drv ∧ s.callerConf wide = some caller ∧
      callerPerm baseDrv caller drv (cstr drvName) = some perm ∧
      entered = driverIoctl drv.cmdPermList perm params := by
  simp only [ioctl, Option.bind_eq_bind, Option.bind_eq_some_iff, Option.pure_def,
    some.injEq] at h
  obtain ⟨drv, hdrv, caller, hcaller, perm, hperm, rfl⟩ := h
  exact ⟨drv, caller, perm, hdrv, hcaller, hperm, rfl⟩

theorem applyPerm_eq (hlist : buildDrvcallPermApply wide s.applyItems =
      some caller.drvcallPermApplyList) (hname : cstr s.serviceName = s.serviceName)
    (h : getPermByServiceNameInPermApplyList caller.drvcallPermApplyList s.serviceName =
      some perm) :
    perm = join (permMask wide) 0
      (((s.applyItems.find? fun item => applyName item = s.serviceName).map
        applyNumbers).getD []) := by
  have hrel := find?_forall₂ (p := fun item => decide (applyName item = s.serviceName))
    (q := fun i => decide (i.name.length = s.serviceName.length ∧
      strncmpEq i.name s.serviceName i.name.length = true)) (entries_of_build hlist) (by
      intro leaves i hi
      rw [← (entry_of_leaves hi).1, decide_eq_decide]
      constructor
      · rintro ⟨hlen, hcmp⟩
        exact (strncmpEq_iff hname hlen (Nat.le_of_eq hlen.symm)).mp hcmp
      · intro heq
        have hlen : i.name.length = s.serviceName.length := by rw [heq]
        exact ⟨hlen, (strncmpEq_iff hname hlen (Nat.le_of_eq hlen.symm)).mpr heq⟩)
  obtain ⟨i, hi, rfl⟩ := map_eq_some_iff.mp h
  rw [hi] at hrel
  generalize (s.applyItems.find? fun item => applyName item = s.serviceName) = o at hrel ⊢
  cases hrel with
  | some hleaves => exact (entry_of_leaves hleaves).2

theorem macPerm_eq (hlist : buildDrvMacInfo wide s.macItems = some drv.macInfoList)
    (h : getMacPermByUuid drv.macInfoList s.callerUuid = some perm) :
    perm = join (permMask wide) 0
      (((s.macItems.find? fun item => macUuid item = s.callerUuid).map macNumbers).getD []) := by
  have hrel := find?_forall₂
    (q := fun i => decide (i.uuid = s.callerUuid)) (macs_of_build hlist) (by
      intro leaves i hi
      rw [(mac_of_leaves hi).1])
  obtain ⟨i, hi, rfl⟩ := map_eq_some_iff.mp h
  rw [hi] at hrel
  generalize (s.macItems.find? fun item => macUuid item = s.callerUuid) = o at hrel ⊢
  cases hrel with
  | some hleaves => exact (mac_of_leaves hleaves).2

section

variable (h : callerPerm baseDrv caller drv (cstr drvName) = some perm)
include h

/-- A driver that is opened has the name it is opened under. -/
theorem serviceName_of_open : drv.serviceName = cstr drvName := by
  unfold callerPerm at h
  split at h
  · cases h
  · next hname =>
    simp only [ne_eq, not_or, not_not, Bool.not_eq_false] at hname
    exact (strncmpEq_iff (cstr_cstr _) hname.1 (Nat.le_succ _)).mp hname.2

theorem perm_of_open (hbase : cstr drvName ∉ baseDrv) :
    getDrvcallerCmdPerm caller drv = some perm := by
  unfold callerPerm at h
  split at h
  · cases h
  split at h
  · cases h
  split at h
  · cases h
  exact h

/-- The mask that the descriptor keeps is that of the granted numbers. -/
theorem perm_eq_granted (hdrv : s.drvConf wide = some drv)
    (hcaller : s.callerConf wide = some caller) (hbase : cstr drvName ∉ baseDrv) :
    perm = join (permMask wide) 0 s.granted := by
  obtain ⟨hname, -, hmacs⟩ := drvConf_inv hdrv
  obtain ⟨huuid, hlist⟩ := callerConf_inv hcaller
  have hopen := serviceName_of_open h
  have hget := perm_of_open h hbase
  have hlen := (macs_of_build hmacs).length_eq
  unfold getDrvcallerCmdPerm at hget
  unfold granted
  by_cases hnil : s.macItems = []
  · rw [if_pos hnil]
    rw [if_pos (by rw [← hlen, hnil]; rfl), hname] at hget
    exact applyPerm_eq hlist (by rw [← hname, hopen, cstr_cstr]) hget
  · rw [if_neg hnil]
    rw [if_neg (by rw [← hlen]; exact fun h => hnil (length_eq_zero_iff.mp h)), huuid] at hget
    exact macPerm_eq hmacs hget

end

theorem mem_getD_map {α : Type} {o : Option α} {f : α → List Nat} (h : n ∈ (o.map f).getD []) :
    ∃ a ∈ o, n ∈ f a := by
  cases o with
  | none => exact absurd h not_mem_nil
  | some a => exact ⟨a, rfl, h⟩

theorem granted_pos : ∀ n ∈ s.granted, 0 < n := by
  intro n hn
  unfold granted at hn
  split at hn
  · obtain ⟨item, -, hn⟩ := mem_getD_map hn
    exact applyNumbers_pos item n hn
  · obtain ⟨item, -, hn⟩ := mem_getD_map hn
    exact macNumbers_pos item n hn

theorem granted_subset : ∀ n ∈ s.granted, n ∈ s.numbers := by
  intro n hn
  unfold granted at hn
  split at hn
  · obtain ⟨item, hi, hn⟩ := mem_getD_map hn
    exact mem_append_right _ (mem_flatMap.mpr ⟨item, mem_of_find?_eq_some hi, hn⟩)
  · obtain ⟨item, hi, hn⟩ := mem_getD_map hn
    exact mem_append_left _ (mem_append_right _
      (mem_flatMap.mpr ⟨item, mem_of_find?_eq_some hi, hn⟩))

theorem itemNumber_subset {item : List CmdPermLeaf} (hitem : item ∈ s.cmdItems)
    (h : itemNumber item = some n) : n ∈ s.numbers :=
  mem_append_left _ (mem_append_left _ (mem_filterMap.mpr ⟨item, hitem, h⟩))

/-- A mask of granted numbers passes the test of a command as the numbers say. -/
theorem authCheck_iff_allowed (hcmds : buildDrvCmdPermInfo wide s.cmdItems = some drv.cmdPermList)
    (hnum : ∀ n ∈ s.numbers, n ≤ 32) (cmd : Nat) :
    ioctlAuthCheck drv.cmdPermList cmd (join (permMask wide) 0 s.granted) = true ↔
      s.Allowed cmd := by
  obtain ⟨hitems, hset⟩ := cmds_of_build hcmds
  have hrel := find?_forall₂ (q := fun i => decide (i.cmd = cmd)) hitems (by
      intro leaves i hi
      rw [(item_of_leaves hi).1])
  unfold ioctlAuthCheck Setup.Allowed cmdEntry
  cases ho : s.cmdItems.find? fun item => itemCmd item = cmd with
  | none =>
    rw [ho] at hrel
    generalize drv.cmdPermList.find? _ = o at hrel ⊢
    cases hrel with
    | none => exact ⟨nofun, fun _ => rfl⟩
  | some leaves =>
    have hmem := mem_of_find?_eq_some ho
    rw [ho] at hrel
    cases hi : drv.cmdPermList.find? fun i => i.cmd = cmd with
    | none =>
      rw [hi] at hrel
      cases hrel
    | some i =>
      rw [hi] at hrel
      cases hrel with
      | some hleaves =>
        have hperm := (item_of_leaves hleaves).2
        have hne := hset i (mem_of_find?_eq_some hi)
        cases hn : itemNumber leaves with
        | none =>
          rw [hn] at hperm
          exact absurd hperm hne
        | some n =>
          have hn32 : 0 < n ∧ n ≤ 32 := ⟨itemNumber_pos leaves n hn,
            hnum n (itemNumber_subset hmem hn)⟩
          have htest : permMask wide n &&& join (permMask wide) 0 s.granted ≠ 0#64 ↔
              n ∈ s.granted := and_join_iff_mem fun b hb =>
            permMask_disjoint hn32 ⟨granted_pos b hb, hnum b (granted_subset b hb)⟩
          simp only [hperm, elim_some, decide_eq_true_eq, some.injEq,
            forall_eq', hn, exists_eq_left']
          exact htest

end Path

/-- The driver's function is entered exactly by the ioctls that the configured
numbers allow, if no number is above 32 and the driver is not a base driver with a
command list. -/
theorem ioctl_entered_iff_allowed (wide : Nat → BitVec 32) (s : Setup) (baseDrv : List Text)
    (drvName : Text) (params : IoctlParam) (entered : Bool) (hnum : ∀ n ∈ s.numbers, n ≤ 32)
    (hbase : cstr drvName ∉ baseDrv ∨ s.cmdItems = [])
    (h : s.ioctl wide baseDrv drvName params = some entered) :
    entered = true ↔ params.readable = true ∧ s.Allowed params.cmd := by
  obtain ⟨drv, caller, perm, hdrv, hcaller, hperm, rfl⟩ := ioctl_inv h
  obtain ⟨-, hcmds, -⟩ := drvConf_inv hdrv
  rw [driverIoctl, Bool.and_eq_true]
  rcases hbase with hbase | hnil
  · rw [perm_eq_granted hperm hdrv hcaller hbase, authCheck_iff_allowed hcmds hnum]
  have hlist : drv.cmdPermList = [] := by
    have hitems := (cmds_of_build hcmds).1
    rw [hnil] at hitems
    exact forall₂_nil_left_iff.mp hitems
  have hnone : s.cmdEntry params.cmd = none := by rw [cmdEntry, hnil, find?_nil]
  have hall : s.Allowed params.cmd := fun item hi => by
    rw [hnone] at hi
    cases hi
  rw [hlist]
  exact and_congr_right fun _ => ⟨fun _ => hall, fun _ => rfl⟩

/-- A driver with one command that needs `number`, and a caller with `grants`. -/
def sampleSetup (number grants : Text) : Setup where
  serviceName := ['s', 'p', 'i']
  cmdItems := [[.cmd ['0', 'x', '1', '0'], .permission number]]
  macItems := []
  callerUuid := nullUuid
  applyItems := [[.name ['s', 'p', 'i'], .permission grants]]

/-- A machine that takes the count of a shift modulo the width. -/
def shiftModulo (n : Nat) : BitVec 32 := 1#32 <<< (n % 32)

theorem ioctl_entered_iff_allowed_sample :
    true = true ↔ true = true ∧ (sampleSetup ['3'] ['1', '|', '3']).Allowed 16 :=
  ioctl_entered_iff_allowed shiftModulo (sampleSetup ['3'] ['1', '|', '3']) [] ['s', 'p', 'i']
    ⟨true, 16⟩ true (by decide +kernel) (Or.inl not_mem_nil) (by decide +kernel)

/-- The shift modulo 32 gives 33 the mask of 1: who holds only 1 may issue the command. -/
theorem ioctl_entered_not_allowed :
    (sampleSetup ['3', '3'] ['1']).ioctl shiftModulo [] ['s', 'p', 'i'] ⟨true, 16⟩ = some true ∧
      ¬ (sampleSetup ['3', '3'] ['1']).Allowed 16 := by
  refine ⟨by decide +kernel, fun h => ?_⟩
  obtain ⟨n, hn, hgranted⟩ := h _ rfl
  obtain rfl : 33 = n := some.inj ((by decide +kernel : some 33 = itemNumber _).trans hn)
  exact absurd hgranted (by decide +kernel)

end TeeOs.Drv
