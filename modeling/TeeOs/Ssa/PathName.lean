import TeeOs.Lib.Act
import TeeOs.Ssa.Agent

/-!
# Names of the files of an object

`copy_and_check_file_name`, `get_files_path_info`, `file_name_transfer` and `get_hname`: the
name of an object becomes its directory followed by the hexadecimal digest of the rest. The
indices at which the name is read are recorded. A read or a write outside of its buffer stops
the model.
-/

namespace TeeOs.Ssa.Path

open TeeOs.Lib Act List Nat

abbrev Name := List UInt8

def hashLen : Nat := 32
def hashVerifyLen : Nat := 64
def dirLen : Nat := 64
def newDirLen : Nat := 128
def hashNameBuffLen : Nat := 2 * hashLen + 1 + dirLen
def fileNameMaxBuf : Nat := 256
def objectStorageCe : Nat := 0x80000002
def slash : UInt8 := 47
def hashFileMagic : UInt8 := 104

/-- `"../"`. -/
def fileNameInvalidStr : Name := [46, 46, 47]

/-- `"sec_storage/"`. -/
def sfsPartitionPersistent : Name := [115, 101, 99, 95, 115, 116, 111, 114, 97, 103, 101, 47]

/-- `"sec_storage_data/"`. -/
def sfsPartitionTransient : Name :=
  [115, 101, 99, 95, 115, 116, 111, 114, 97, 103, 101, 95, 100, 97, 116, 97, 47]

/-- The text that stands at the front of a buffer. -/
def cString (buffer : Name) : Name := buffer.takeWhile fun b => b ≠ 0

def checkFileName (name : Name) : Except TeeResult Unit :=
  if fileNameInvalidStr <:+: name then .error .badParameters
  else if name.length > hashNameBuffLen - 1 then .error .badParameters
  else .ok ()

/-- `copy_and_check_file_name`, to a buffer of `objLen` zeros. -/
def copyAndCheckFileName (objIdIn : Name) (objLen : Nat) : Except TeeResult Name :=
  if objLen = 0 ∨ objLen - 1 < objIdIn.length then .error .badParameters
  else
    let objId := cString (objIdIn ++ replicate (objLen - objIdIn.length) 0)
    match checkFileName objId with
    | .error e => .error e
    | .ok () => .ok objId

/-- The reads of the name, the rounds of the loop, `path_lable`, and the output buffer. -/
structure Work where
  reads : List Nat
  steps : Nat
  pathLable : Int
  hashName : Name

open Work

inductive Stop
  | failed
  | outside
  deriving DecidableEq

abbrev Transfer (α : Type) : Type := Act Work Stop α

/-- `old_name[i]`; the name stands in a block of its length and one byte. -/
def nameAt (name : Name) (i : Nat) : Transfer UInt8 := do
  change fun w => { w with reads := w.reads ++ [i] }
  get? (name ++ [0])[i]? .outside

/-- The bytes of the name up to `n`. -/
def nameUpTo (name : Name) (n : Nat) : Transfer Name := do
  change fun w => { w with reads := w.reads ++ range n }
  failIf (n > name.length + 1) .outside
  pure ((name ++ [0]).take n)

/-- The loop for the last `/`, from `i` down. -/
def lastSlash (name : Name) : Nat → Transfer Unit
  | 0 => pure ()
  | i + 1 => do
    change fun w => { w with steps := w.steps + 1 }
    let b ← nameAt name (i + 1)
    if b = slash then change fun w => { w with pathLable := i + 1 }
    else lastSlash name i

/-- Whether the name starts with the partition, as far as it goes. -/
def comparePartition (partition name : Name) : Transfer Bool := do
  let n := if name.length ≥ partition.length then partition.length else name.length
  let front ← nameUpTo name n
  pure (partition.take n == front)

/-- The directory is kept in the two partitions only. -/
def dropPath (name : Name) : Transfer Unit := do
  let persistent ← comparePartition sfsPartitionPersistent name
  if persistent then pure ()
  else
    let transient ← comparePartition sfsPartitionTransient name
    if transient then pure () else change fun w => { w with pathLable := -1 }

/-- `n - 1` as a `uint32_t`. -/
def minusOne (n : Nat) : Nat := if n = 0 then 2^32 - 1 else n - 1

/-- `get_files_path_info`; the length of the name. -/
def getFilesPathInfo (storageId : Nat) (name : Name) : Transfer Nat := do
  lastSlash name (minusOne name.length)
  let lable ← reads pathLable
  failIf ((name.length : Int) - 1 = lable ∨ lable ≥ newDirLen) .failed
  if storageId ≠ objectStorageCe then dropPath name
  pure name.length

/-- Bytes are written to the output buffer. -/
def writeAt (pos : Nat) (bytes : Name) : Transfer Unit := do
  let out ← reads hashName
  failIf (pos + bytes.length > out.length) .outside
  change fun w => { w with hashName := Bytes.overlay out pos bytes }

def hexDigit (n : UInt8) : UInt8 := if n < 10 then n + 48 else n - 10 + 65

def hexText (bytes : Name) : Name :=
  bytes.flatMap fun b : UInt8 => [hexDigit ((b &&& 0xf0) >>> 4), hexDigit (b &&& 0x0f)]

def strTran (shaBuff : Name) (pos destLen : Nat) : Transfer Unit :=
  if shaBuff.length < hashLen ∨ destLen ≤ hashVerifyLen then pure ()
  else writeAt pos (hexText (shaBuff.take hashLen) ++ [0])

/-- `get_hname`, where `hmac` is the keyed digest, which may fail. -/
def getHname (hmac : Name → Option Name) (src : Name) (pos destLen : Nat) : Transfer Unit := do
  let digest ← get? (hmac src) .failed
  strTran digest pos destLen

/-- The partition and the directory are copied as they are. -/
def copyDirectory (newName : Name) (lable : Int) : Transfer Unit :=
  if lable > 0 then do
    failIf ((lable + 1).toNat > fileNameMaxBuf) .failed
    writeAt 0 (newName.take (lable + 1).toNat)
  else pure ()

/-- The name, the identity of the TA, and the mark of a hash file. -/
def newName (oldName uuid : Name) (isFileHash : Bool) : Name :=
  oldName ++ uuid ++ if isFileHash then [hashFileMagic] else []

/-- `file_name_transfer` for an object of the TA `uuid`; `memory` says that a block is found. -/
def fileNameTransfer (hmac : Name → Option Name) (storageId : Nat) (uuid : Name) (memory : Bool)
    (name : Name) (hashNameLen : Nat) (isFileHash : Bool) : Transfer Unit := do
  let size ← getFilesPathInfo storageId name
  let lable ← reads pathLable
  failIf (memory = false) .failed
  failIf (size = 0) .failed
  let oldName ← nameUpTo name size
  copyDirectory (newName oldName uuid isFileHash) lable
  getHname hmac ((newName oldName uuid isFileHash).drop (lable + 1).toNat) (lable + 1).toNat
    (hashNameLen - (lable + 1).toNat)

/-! ## Accepted names -/

theorem cString_ne_zero {buffer : Name} {b : UInt8} (h : b ∈ cString buffer) : b ≠ 0 := by
  have hb := mem_takeWhile_imp h
  simpa using hb

variable {name bytes hashName : Name} {w w' : Work} {i n : Nat} {hmac : Name → Option Name}

theorem copyAndCheckFileName_ok {objIdIn : Name} {objLen : Nat}
    (h : copyAndCheckFileName objIdIn objLen = .ok name) :
    (∀ b ∈ name, b ≠ 0) ∧ name.length ≤ hashNameBuffLen - 1 := by
  unfold copyAndCheckFileName at h
  split at h
  · cases h
  dsimp only at h
  split at h
  · cases h
  · rename_i hcheck
    cases h
    refine ⟨fun b hb => cString_ne_zero hb, ?_⟩
    unfold checkFileName at hcheck
    split at hcheck
    · cases hcheck
    · split at hcheck
      · cases hcheck
      · rename_i hlen
        exact not_lt.mp hlen

/-! ## The directory -/

/-- A part of the work that reads inside of the name and leaves the output alone. -/
structure Inside (name : Name) (w w' : Work) : Prop where
  reads : ∀ i ∈ w'.reads, i ∈ w.reads ∨ i ≤ name.length
  hashName : w'.hashName = w.hashName

theorem Inside.refl (name : Name) (w : Work) : Inside name w w := ⟨fun _ hi => .inl hi, rfl⟩

theorem Inside.trans {w'' : Work} (h : Inside name w w') (h' : Inside name w' w'') :
    Inside name w w'' := by
  refine ⟨fun i hi => ?_, h'.hashName.trans h.hashName⟩
  rcases h'.reads i hi with hi | hi
  · exact h.reads i hi
  · exact .inr hi

theorem nameAt_ends (hi : i ≤ name.length) :
    Ends (nameAt name i) (fun _ w' => w' = { w with reads := w.reads ++ [i] })
      (fun _ _ => False) w := by
  unfold nameAt
  simp only [ends_steps]
  refine ⟨fun hnone => ?_, fun _ _ => trivial⟩
  rw [getElem?_eq_none_iff, length_append] at hnone
  exact absurd hnone (by simp only [length_singleton]; omega)

theorem inside_read {steps : Nat} (hi : i ≤ name.length) :
    Inside name w { w with reads := w.reads ++ [i], steps := steps } := by
  refine ⟨fun j hj => ?_, rfl⟩
  rcases mem_append.mp hj with hj | hj
  · exact .inl hj
  · exact .inr (mem_singleton.mp hj ▸ hi)

/-- Each round looks at one byte, and the last `/` is behind the first byte. -/
theorem lastSlash_ends (hi : i ≤ name.length) : Ends (lastSlash name i)
      (fun _ w' => Inside name w w' ∧ w'.steps ≤ w.steps + i ∧
        (w'.pathLable = w.pathLable ∨ 0 < w'.pathLable ∧ w'.pathLable ≤ i))
      (fun _ _ => False) w := by
  induction i generalizing w with
  | zero => exact ⟨Inside.refl name w, le_refl _, .inl rfl⟩
  | succ i ih =>
    unfold lastSlash
    simp only [ends_bind, ends_change]
    refine (nameAt_ends hi).imp ?_ fun _ _ h => h
    rintro b w' rfl
    have hread : Inside name w { w with reads := w.reads ++ [i + 1], steps := w.steps + 1 } := inside_read hi
    rw [ends_ite]
    constructor
    · intro _
      refine ⟨⟨hread.reads, rfl⟩, ?_, .inr ⟨?_, ?_⟩⟩
      · show w.steps + 1 ≤ w.steps + (i + 1)
        omega
      · show (0 : Int) < ((i : Int) + 1)
        omega
      · show ((i : Int) + 1) ≤ ((i + 1 : Nat) : Int)
        omega
    · intro _
      refine (ih (by omega)).imp ?_ fun _ _ h => h
      rintro _ w' ⟨hinside, hsteps, hlable⟩
      refine ⟨hread.trans hinside, ?_, ?_⟩
      · have hsteps' : w'.steps ≤ w.steps + 1 + i := hsteps
        omega
      · rcases hlable with h | ⟨h, h'⟩
        · exact .inl h
        · exact .inr ⟨h, by omega⟩

theorem nameUpTo_ends (hn : n ≤ name.length) : Ends (nameUpTo name n)
      (fun bytes w' => bytes = name.take n ∧ w' = { w with reads := w.reads ++ range n })
      (fun _ _ => False) w := by
  unfold nameUpTo
  simp only [ends_steps]
  refine ⟨fun h => absurd h (by omega), fun _ => ⟨?_, trivial⟩⟩
  rw [take_append_of_le_length hn]

/-- What `get_files_path_info` finds. -/
structure Found (name : Name) (w w' : Work) : Prop where
  inside : Inside name w w'
  steps : w'.steps ≤ w.steps + name.length
  lable : w'.pathLable = -1 ∨ 0 < w'.pathLable ∧ w'.pathLable < name.length

theorem Found.read (h : Found name w w') (hn : n ≤ name.length) :
    Found name w { w' with reads := w'.reads ++ range n } := by
  refine ⟨h.inside.trans ⟨fun i hi => ?_, rfl⟩, h.steps, h.lable⟩
  rcases mem_append.mp hi with hi | hi
  · exact .inl hi
  · have hlt := mem_range.mp hi
    exact .inr (by omega)

theorem comparePartition_ends {partition : Name} (h : Found name w w') :
    Ends (comparePartition partition name) (fun _ w'' => Found name w w'') (fun _ _ => False) w' := by
  unfold comparePartition
  have hn : (if name.length ≥ partition.length then partition.length else name.length) ≤ name.length := by
    split <;> omega
  simp only [ends_steps]
  refine (nameUpTo_ends hn).imp ?_ fun _ _ hf => hf
  rintro _ _ ⟨-, rfl⟩
  exact h.read hn

theorem dropPath_ends (h : Found name w w') :
    Ends (dropPath name) (fun _ w'' => Found name w w'') (fun _ _ => False) w' := by
  unfold dropPath
  simp only [ends_steps]
  refine (comparePartition_ends h).imp ?_ fun _ _ hf => hf
  intro persistent w₁ h₁
  refine ⟨fun _ => h₁, fun _ => (comparePartition_ends h₁).imp ?_ fun _ _ hf => hf⟩
  intro transient w₂ h₂
  refine ⟨fun _ => h₂, fun _ => ?_⟩
  exact ⟨⟨h₂.inside.reads, h₂.inside.hashName⟩, h₂.steps, .inl rfl⟩

theorem getFilesPathInfo_ends {storageId : Nat} (hne : name ≠ []) (hw : w.pathLable = -1) :
    Ends (getFilesPathInfo storageId name) (fun size w' => size = name.length ∧ Found name w w')
      (fun e w' => e = .failed ∧ Found name w w') w := by
  have hpos : 0 < name.length := length_pos_iff.mpr hne
  have hstart : minusOne name.length = name.length - 1 := if_neg (by omega)
  unfold getFilesPathInfo
  rw [hstart]
  simp only [ends_steps]
  have hfrom : name.length - 1 ≤ name.length := sub_le _ _
  refine (lastSlash_ends hfrom).imp ?_ fun _ _ h => h.elim
  rintro _ w' ⟨hinside, hsteps, hlable⟩
  have hfound : Found name w w' := by
    refine ⟨hinside, by omega, ?_⟩
    rcases hlable with hsame | ⟨hlow, hhigh⟩
    · exact .inl (hsame.trans hw)
    · exact .inr ⟨hlow, by omega⟩
  refine ⟨fun _ => ⟨trivial, hfound⟩, fun _ => ⟨fun _ => ?_, fun _ => ⟨trivial, hfound⟩⟩⟩
  exact (dropPath_ends hfound).imp (fun _ _ h => ⟨trivial, h⟩) fun _ _ h => h.elim

/-! ## The output -/

theorem writeAt_ends {pos : Nat} (h : pos + bytes.length ≤ w.hashName.length) :
    Ends (writeAt pos bytes)
      (fun _ w' => w' = { w with hashName := Bytes.overlay w.hashName pos bytes })
      (fun _ _ => False) w := by
  unfold writeAt
  simp only [ends_steps]
  exact ⟨fun hlt => absurd h (not_le.mpr hlt), fun _ => trivial⟩

theorem cString_of_terminated {text : Name} (rest : Name) (h : ∀ b ∈ text, b ≠ 0) :
    cString (text ++ 0 :: rest) = text := by
  unfold cString
  rw [takeWhile_append_of_pos (fun b hb => by simpa using h b hb)]
  simp

theorem nibbles_lt :
    ∀ i : Fin 256, (UInt8.ofNat i &&& 0xf0) >>> 4 < 16 ∧ UInt8.ofNat i &&& 0x0f < 16 := by
  decide +kernel

theorem hexDigit_ne_zero_of_lt {n : UInt8} (h : n < 16) : hexDigit n ≠ 0 := by
  have hall : ∀ i : Fin 16, hexDigit (UInt8.ofNat i) ≠ 0 := by decide
  have hdigit := hall ⟨n.toNat, h⟩
  rwa [UInt8.ofNat_toNat] at hdigit

theorem hexText_ne_zero {b : UInt8} (h : b ∈ hexText bytes) : b ≠ 0 := by
  obtain ⟨c, -, hb⟩ := mem_flatMap.mp h
  have hlt := nibbles_lt ⟨c.toNat, c.toNat_lt⟩
  rw [UInt8.ofNat_toNat] at hlt
  rcases mem_cons.mp hb with rfl | hb
  · exact hexDigit_ne_zero_of_lt hlt.1
  · rw [mem_singleton.mp hb]
    exact hexDigit_ne_zero_of_lt hlt.2

theorem length_hexText (bytes : Name) : (hexText bytes).length = 2 * bytes.length := by
  induction bytes with
  | nil => rfl
  | cons b bytes ih =>
    show (hexText bytes).length + 1 + 1 = 2 * (bytes.length + 1)
    omega

theorem overlay_front (l d : Name) : Bytes.overlay l 0 d = d ++ l.drop d.length := by
  simp [Bytes.overlay, Bytes.resize]

theorem overlay_behind (d rest e : Name) :
    Bytes.overlay (d ++ rest) d.length e = d ++ e ++ rest.drop e.length := by
  simp [Bytes.overlay, Bytes.resize]

theorem copyDirectory_ends {uuid : Name} {isFileHash : Bool}
    (hlen : name.length ≤ hashNameBuffLen - 1)
    (hlable : w.pathLable = -1 ∨ 0 < w.pathLable ∧ w.pathLable < name.length)
    (hbuf : w.hashName.length = fileNameMaxBuf) :
    Ends (copyDirectory (newName name uuid isFileHash) w.pathLable)
      (fun _ w' => ∃ rest, w' = { w with hashName := name.take (w.pathLable + 1).toNat ++ rest } ∧
        (w.pathLable + 1).toNat + rest.length = fileNameMaxBuf)
      (fun _ _ => False) w := by
  have hsmall : hashNameBuffLen - 1 = 128 := rfl
  have hmax : fileNameMaxBuf = 256 := rfl
  unfold copyDirectory
  rw [ends_ite]
  constructor
  · intro hpos
    have hle : (w.pathLable + 1).toNat ≤ name.length := by omega
    have htake : (newName name uuid isFileHash).take (w.pathLable + 1).toNat =
        name.take (w.pathLable + 1).toNat := by
      unfold newName
      rw [append_assoc, take_append_of_le_length hle]
    have hlength := length_take_of_le hle
    rw [htake, ends_bind, ends_failIf]
    refine ⟨fun h => absurd h (by omega), fun _ => ?_⟩
    refine (writeAt_ends (by rw [hlength, hbuf]; omega)).imp ?_ fun _ _ hf => hf
    rintro _ _ rfl
    refine ⟨w.hashName.drop (w.pathLable + 1).toNat, ?_, ?_⟩
    · rw [overlay_front, hlength]
    · rw [length_drop, hbuf]
      omega
  · intro hneg
    have hzero : (w.pathLable + 1).toNat = 0 := by omega
    refine ⟨w.hashName, ?_, ?_⟩
    · rw [hzero]
      rfl
    · rw [hzero, hbuf, zero_add]

theorem getHname_ends {dir rest : Name} (src : Name)
    (hdigest : ∀ m d, hmac m = some d → d.length = hashLen) (hw : w.hashName = dir ++ rest)
    (hbuf : dir.length + rest.length = fileNameMaxBuf) (hdir : dir.length ≤ newDirLen) :
    Ends (getHname hmac src dir.length (fileNameMaxBuf - dir.length))
      (fun _ w' => ∃ text rest', w' = { w with hashName := dir ++ text ++ 0 :: rest' } ∧
        text.length = hashVerifyLen ∧ (∀ b ∈ text, b ≠ 0) ∧
        dir.length + text.length + 1 + rest'.length = fileNameMaxBuf)
      (fun e w' => e = .failed ∧ w' = w) w := by
  have hmax : fileNameMaxBuf = 256 := rfl
  have hnew : newDirLen = 128 := rfl
  have hverify : hashVerifyLen = 64 := rfl
  unfold getHname
  rw [ends_bind, ends_get?]
  refine ⟨fun _ => ⟨rfl, rfl⟩, fun digest hd => ?_⟩
  have hlen := hdigest src digest hd
  have htext : (hexText (digest.take hashLen)).length = hashVerifyLen := by
    rw [length_hexText, length_take_of_le (le_of_eq hlen.symm)]
    rfl
  unfold strTran
  rw [if_neg (by omega)]
  have hroom : dir.length + (hexText (digest.take hashLen) ++ [0]).length ≤ w.hashName.length := by
    rw [hw, length_append, length_append, htext, length_singleton]
    omega
  refine (writeAt_ends hroom).imp ?_ fun _ _ hf => hf.elim
  rintro _ _ rfl
  refine ⟨hexText (digest.take hashLen), rest.drop (hashVerifyLen + 1), ?_, htext,
    fun b hb => hexText_ne_zero hb, ?_⟩
  · rw [hw, overlay_behind, length_append, htext, length_singleton]
    simp only [append_assoc, singleton_append]
  · rw [htext, length_drop]
    omega

/-! ## The whole transfer -/

def Work.start (hashName : Name) : Work := ⟨[], 0, -1, hashName⟩

/-- No access is outside of its buffer, the loop ends after at most as many rounds as the name
has bytes, and `path_lable` is in its range. -/
structure Bounded {α : Type} (name : Name) (r : Except Stop α × Work) : Prop where
  inside : r.1 ≠ .error .outside
  reads : ∀ i ∈ r.2.reads, i ≤ name.length
  steps : r.2.steps ≤ name.length
  lable : -1 ≤ r.2.pathLable ∧ r.2.pathLable < newDirLen

/-- A name stands in the output buffer, with its end. -/
structure Named (w : Work) : Prop where
  length : ((cString w.hashName).length : Int) = w.pathLable + 1 + hashVerifyLen
  fits : (cString w.hashName).length < w.hashName.length
  buffer : w.hashName.length = fileNameMaxBuf

/-- What is known of the work when it ends. -/
structure Traced (name : Name) (w : Work) : Prop where
  reads : ∀ i ∈ w.reads, i ≤ name.length
  steps : w.steps ≤ name.length
  lable : w.pathLable = -1 ∨ 0 < w.pathLable ∧ w.pathLable < name.length

theorem Found.traced (h : Found name (start hashName) w) : Traced name w := by
  refine ⟨fun i hi => ?_, ?_, h.lable⟩
  · exact (h.inside.reads i hi).resolve_left not_mem_nil
  · have hsteps : w.steps ≤ 0 + name.length := h.steps
    omega

theorem bounded_of_ends {α : Type} {x : Transfer α} (hlen : name.length ≤ hashNameBuffLen - 1)
    (h : Ends x (fun _ w' => Traced name w') (fun e w' => e = .failed ∧ Traced name w') w) :
    Bounded name (x w) := by
  have htraced : ∀ {w'}, Traced name w' → -1 ≤ w'.pathLable ∧ w'.pathLable < newDirLen := by
    intro w' ht
    have hnew : newDirLen = hashNameBuffLen - 1 := rfl
    have hlable := ht.lable
    omega
  unfold Ends at h
  generalize x w = r at h ⊢
  obtain ⟨e | a, w'⟩ := r
  · obtain ⟨rfl, ht⟩ := h
    exact ⟨nofun, ht.reads, ht.steps, htraced ht⟩
  · exact ⟨nofun, h.reads, h.steps, htraced h⟩

theorem fileNameTransfer_ends (storageId : Nat)
    (uuid : Name) (memory isFileHash : Bool) (hdigest : ∀ m d, hmac m = some d → d.length = hashLen)
    (hne : name ≠ [])
    (hzero : ∀ b ∈ name, b ≠ 0) (hlen : name.length ≤ hashNameBuffLen - 1)
    (hbuf : hashName.length = fileNameMaxBuf) :
    Ends (fileNameTransfer hmac storageId uuid memory name fileNameMaxBuf isFileHash)
      (fun _ w' => Traced name w' ∧ Named w') (fun e w' => e = .failed ∧ Traced name w')
      (start hashName) := by
  unfold fileNameTransfer
  simp only [ends_steps]
  refine .imp (getFilesPathInfo_ends hne rfl) ?_ fun _ _ h => ⟨h.1, h.2.traced⟩
  rintro _ w ⟨rfl, hfound⟩
  refine ⟨fun _ => ⟨trivial, hfound.traced⟩, fun _ => ⟨fun _ => ⟨trivial, hfound.traced⟩, fun _ => ?_⟩⟩
  refine (nameUpTo_ends (le_refl _)).imp ?_ fun _ _ h => h.elim
  rintro _ w₁ ⟨rfl, rfl⟩
  rw [take_length]
  have hread := hfound.read (le_refl name.length)
  generalize hw₁ : { w with reads := w.reads ++ range name.length } = w₁ at hread ⊢
  have hlable : w.pathLable = w₁.pathLable := by rw [← hw₁]
  have hhash : w₁.hashName.length = fileNameMaxBuf := by
    rw [hread.inside.hashName]
    exact hbuf
  rw [hlable]
  refine (copyDirectory_ends hlen hread.lable hhash).imp ?_ fun _ _ h => h.elim
  rintro _ _ ⟨rest, rfl, hrest⟩
  have hdir : (name.take (w₁.pathLable + 1).toNat).length = (w₁.pathLable + 1).toNat := by
    apply length_take_of_le
    have := hread.lable
    omega
  have hsmall : (name.take (w₁.pathLable + 1).toNat).length ≤ newDirLen := by
    have hnew : newDirLen = hashNameBuffLen - 1 := rfl
    rw [length_take]
    omega
  have hname := getHname_ends (w := { w₁ with hashName := name.take (w₁.pathLable + 1).toNat ++ rest })
    ((newName name uuid isFileHash).drop (w₁.pathLable + 1).toNat) hdigest rfl (hdir.symm ▸ hrest) hsmall
  rw [hdir] at hname
  refine hname.imp ?_ ?_
  · rintro _ _ ⟨text, rest', rfl, htext, hnonzero, hlength⟩
    refine ⟨⟨hread.traced.reads, hread.traced.steps, hread.traced.lable⟩, ?_⟩
    have hterminated : ∀ b ∈ name.take (w₁.pathLable + 1).toNat ++ text, b ≠ 0 := by
      intro b hb
      rcases mem_append.mp hb with hb | hb
      · exact hzero b (mem_of_mem_take hb)
      · exact hnonzero b hb
    have hstring := cString_of_terminated rest' hterminated
    refine ⟨?_, ?_, ?_⟩
    · have := hread.lable
      rw [hstring, length_append, hdir, htext]
      push_cast
      omega
    · show (cString (name.take (w₁.pathLable + 1).toNat ++ text ++ 0 :: rest')).length <
        (name.take (w₁.pathLable + 1).toNat ++ text ++ 0 :: rest').length
      rw [hstring]
      simp only [length_append, length_cons]
      omega
    · rw [length_append, length_append, length_cons]
      omega
  · rintro _ _ ⟨rfl, rfl⟩
    exact ⟨rfl, hread.traced.reads, hread.traced.steps, hread.traced.lable⟩

/-- The object id is accepted. Then the name is read, the loop runs and the output is written
within bounds exactly if the id is not empty. -/
theorem path_hashing_in_bounds (hmac : Name → Option Name)
    (hdigest : ∀ m d, hmac m = some d → d.length = hashLen) (objIdIn name : Name)
    (hname : copyAndCheckFileName objIdIn hashNameBuffLen = .ok name) (storageId : Nat) (uuid : Name)
    (memory isFileHash : Bool) (hashName : Name) (hbuf : hashName.length = fileNameMaxBuf) :
    (Bounded name (getFilesPathInfo storageId name (start hashName)) ∧
      Bounded name (fileNameTransfer hmac storageId uuid memory name fileNameMaxBuf isFileHash
        (start hashName)) ∧
      ((fileNameTransfer hmac storageId uuid memory name fileNameMaxBuf isFileHash
          (start hashName)).1 = .ok () →
        Named (fileNameTransfer hmac storageId uuid memory name fileNameMaxBuf isFileHash
          (start hashName)).2)) ↔
      name ≠ [] := by
  obtain ⟨hzero, hlen⟩ := copyAndCheckFileName_ok hname
  constructor
  · rintro ⟨hbounded, -, -⟩ rfl
    have hread := hbounded.reads (2^32 - 1)
    exact absurd (hread (mem_singleton.mpr rfl)) (by decide)
  · intro hne
    have htransfer := fileNameTransfer_ends storageId uuid memory isFileHash hdigest hne hzero hlen hbuf
    refine ⟨?_, ?_, ?_⟩
    · refine bounded_of_ends hlen ((getFilesPathInfo_ends hne rfl).imp ?_ ?_)
      · exact fun _ _ h => h.2.traced
      · exact fun _ _ h => ⟨h.1, h.2.traced⟩
    · exact bounded_of_ends hlen (htransfer.imp (fun _ _ h => h.1) fun _ _ h => h)
    · intro hok
      unfold Ends at htransfer
      generalize fileNameTransfer hmac storageId uuid memory name fileNameMaxBuf isFileHash
        (start hashName) = r at htransfer hok ⊢
      obtain ⟨e | a, w⟩ := r
      · cases hok
      · exact htransfer.2

/-- A digest for tests. -/
def sampleHmac (m : Name) : Option Name := some (replicate hashLen (UInt8.ofNat m.length))

/-- `"sec_storage/a"`. -/
def sampleId : Name := sfsPartitionPersistent ++ [97]

theorem path_hashing_in_bounds_sample :
    copyAndCheckFileName sampleId hashNameBuffLen = .ok sampleId ∧
      Named (fileNameTransfer sampleHmac 1 (replicate 16 9) true sampleId fileNameMaxBuf false
        (start (replicate fileNameMaxBuf 0))).2 := by
  have haccepted : copyAndCheckFileName sampleId hashNameBuffLen = .ok sampleId := by decide +kernel
  have hdigest : ∀ m d, sampleHmac m = some d → d.length = hashLen := by
    intro m d hd
    rw [← Option.some.inj hd]
    exact length_replicate
  have hbounds := (path_hashing_in_bounds sampleHmac hdigest sampleId sampleId haccepted 1
    (replicate 16 9) true false (replicate fileNameMaxBuf 0) length_replicate).mpr
    (by decide)
  exact ⟨haccepted, hbounds.2.2 (by decide +kernel)⟩

/-- The id of one zero byte is accepted as the empty name, which is then read far outside. -/
theorem empty_name_out_of_bounds : copyAndCheckFileName [0] hashNameBuffLen = .ok [] ∧
      (getFilesPathInfo 1 [] (start [])).1 = .error .outside ∧
      ∃ i ∈ (getFilesPathInfo 1 [] (start [])).2.reads, ¬ i ≤ ([] : Name).length := by
  refine ⟨by decide +kernel, by decide +kernel, 2^32 - 1, ?_, by decide⟩
  exact mem_singleton.mpr rfl

end TeeOs.Ssa.Path
