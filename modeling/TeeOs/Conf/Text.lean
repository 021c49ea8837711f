import TeeOs.Lib.CText

/-!
# Numbers in a dynamic configuration

The values of a configuration are texts. `transStrToInt` is the one function that
turns them into numbers.
-/

namespace TeeOs.Conf

open TeeOs.Lib.CText

inductive Base | ten | hex
  deriving DecidableEq, Repr

def Base.toNat : Base → Nat
  | .ten => 10
  | .hex => 16

def maxUint64Len : Nat := 20
def maxUint64HexLen : Nat := 16
def lenOfHexTrim : Nat := 2
def maxUint32Len : Nat := 10
def maxImageLen : Nat := 0x800000

/-- The number that a text of length at least one spells, with nothing behind it. -/
def transStrToInt (buff : Text) (base : Base) : Option Nat :=
  if buff.length = 0 then none
  else if base = .hex ∧ buff.length > maxUint64HexLen+lenOfHexTrim then none
  else if base = .ten ∧ buff.length > maxUint64Len then none
  -- `memcpy_s` into the local buffer refuses what the check for base ten lets through
  else if buff.length > maxUint64HexLen+lenOfHexTrim then none
  else match strtoull base.toNat (cstr buff) with
    | some (num, []) => some num
    | _ => none

example : transStrToInt ['0', 'x', '1', 'F'] .hex = some 31 := by decide
example : transStrToInt ['4', '2', '|'] .ten = none := by decide

structure Uuid where
  timeLow : Nat
  timeMid : Nat
  timeHiAndVersion : Nat
  clockSeqAndNode : List Nat
  deriving DecidableEq, Repr

def maxUuidSize : Nat := 36

/-- Where each part of a uuid stands, its length and its greatest value. -/
def uuidParts : List (Nat × Nat × Nat) :=
  [(0, 8, 0xFFFFFFFF), (9, 4, 0xFFFF), (14, 4, 0xFFFF), (19, 2, 0xFF), (21, 2, 0xFF),
    (24, 2, 0xFF), (26, 2, 0xFF), (28, 2, 0xFF), (30, 2, 0xFF), (32, 2, 0xFF), (34, 2, 0xFF)]

def uuidPart (buff : Text) (part : Nat × Nat × Nat) : Option Nat :=
  match transStrToInt ((buff.drop part.1).take part.2.1) .hex with
  | some num => if num > part.2.2 then none else some num
  | none => none

/-- The uuid at the front of `buff`, the rest of the configuration from the value
on. The separators are passed over without being looked at, and a value shorter
than a uuid is completed by the text behind it. -/
def tlvToUuid (buff : Text) (size : Nat) : Option Uuid :=
  if size > maxUuidSize ∨ (cstr buff).length < size then none
  else match uuidParts.mapM (uuidPart buff) with
    | some (low :: mid :: high :: seq) => some ⟨low, mid, high, seq⟩
    | _ => none

end TeeOs.Conf
