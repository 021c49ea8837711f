import TeeOs.Lib.Keyed
import TeeOs.Lib.Runs
import TeeOs.Lib.Tlv

/-!
# The revocation list of the permission service

Revoked certificates are kept by issuer, in memory and in one file. A certificate
revocation list (CRL) adds to the list in memory, which is then written over the file;
a load puts the issuers of the file in place of those of the same name in memory. The
two counters only grow until the service restarts.

The file store works without faults, and an empty file stands for a missing one. `mem`
is the number of allocations that succeed before one fails. Locks are left out.
-/

namespace TeeOs.PermSrv

open TeeOs.Lib.Keyed
open TeeOs.Lib.Tlv

abbrev Bytes := List UInt8

def certUniversalLen : Nat := 64
def certLargeLen : Nat := 256
def asn1FormatTimeSize : Nat := 13
def issuerMaxCount : Nat := 0xFF
def revokedMaxCount : Nat := 0xFFFF
def entryMaxBufferLen : Nat := 128
def crlCertListMaxSize : Nat := 0x8000
def typeSequence : UInt8 := 0x30
def typeBitstring : UInt8 := 0x03

/-- A serial number and a date in arrays of fixed size. -/
structure RevokedNode where
  sn : Bytes
  revokedDate : Bytes
  sn_le : sn.length ≤ certUniversalLen
  date_length : revokedDate.length = asn1FormatTimeSize
  deriving DecidableEq

structure CrlIssuer where
  issuer : Bytes
  issuer_le : issuer.length ≤ certLargeLen
  nodes : List RevokedNode
  deriving DecidableEq

structure RevokedConfig where
  crlIssuerList : List CrlIssuer := []
  issuerCount : Nat := 0
  revokedCount : Nat := 0
  existFlag : Bool := true
  listFile : Bytes := []
  deriving DecidableEq

variable (c : RevokedConfig) (mem : Nat) (buf : Bytes) (bufSize : Nat)

/-- Whether a serial number of an issuer is revoked, for arguments of accepted sizes. -/
def checkCertRevoked (sn issuer : Bytes) : Option Bool :=
  if sn.length = 0 ∨ sn.length > certUniversalLen ∨ issuer.length = 0 ∨
      issuer.length > certLargeLen then none
  else some (c.crlIssuerList.any fun e => e.issuer = issuer && e.nodes.any fun n => n.sn = sn)

/-! ## Writing the list -/

def tlvToBuffer (type : UInt8) (value : Bytes) (bufSize : Nat) : Option Bytes :=
  if value.length = 0 ∨ bufSize < value.length + headerLen then none else some (tlv type value)

def revokedNodeToBuffer (n : RevokedNode) : Option Bytes :=
  if bufSize = 0 then none
  else if n.sn.length + headerLen > entryMaxBufferLen ∨ n.sn.length > certUniversalLen then none
  else do
    let sn ← tlvToBuffer typeBitstring n.sn entryMaxBufferLen
    if entryMaxBufferLen - sn.length < asn1FormatTimeSize + headerLen then none
    else do
      let date ← tlvToBuffer typeBitstring n.revokedDate (entryMaxBufferLen - sn.length)
      tlvToBuffer typeSequence (sn ++ date) bufSize

/-- Nothing may be left of the buffer only after the last element of all. -/
def revokedNodesToBuffer : Nat → List RevokedNode → Option Bytes
  | _, [] => some []
  | left, n :: rest => do
    let buf ← revokedNodeToBuffer left n
    if left ≤ buf.length then none
    else do
      let bufs ← revokedNodesToBuffer (left - buf.length) rest
      some (buf ++ bufs)

/-- The length in the header of an issuer leaves out the header of its name. -/
def crlIssuerEntryToBuffer (e : CrlIssuer) : Option Bytes :=
  if bufSize ≤ headerLen then none
  else do
    let name ← tlvToBuffer typeBitstring e.issuer (bufSize - headerLen)
    if bufSize - headerLen ≤ name.length then none
    else do
      let nodes ← revokedNodesToBuffer (bufSize - headerLen - name.length) e.nodes
      some (head typeSequence (e.issuer.length + nodes.length) ++ (name ++ nodes))

def crlIssuerListToBuffer : Nat → List CrlIssuer → Option Bytes
  | _, [] => some []
  | left, e :: rest => do
    let buf ← crlIssuerEntryToBuffer left e
    let bufs ← crlIssuerListToBuffer (left - buf.length) rest
    some (buf ++ bufs)

def revokedSize : Nat :=
  (certUniversalLen + headerLen) + (asn1FormatTimeSize + headerLen) + headerLen

def issuerSize : Nat := certLargeLen + headerLen + headerLen

def getTaCrlListBufferSize : Option Nat :=
  if c.issuerCount ≥ issuerMaxCount ∨ c.revokedCount ≥ revokedMaxCount then none
  else some (revokedSize * c.revokedCount + issuerSize * c.issuerCount + headerLen)

/-- Writes the list in memory over the file. -/
def globalTaCrlListStoring : RevokedConfig × Bool :=
  match getTaCrlListBufferSize c, mem with
  | some len, _ + 1 =>
    if len > crlCertListMaxSize then (c, false)
    else match crlIssuerListToBuffer (len - headerLen) c.crlIssuerList with
      | none => (c, false)
      | some value =>
        ({ c with listFile := head typeSequence value.length ++ value, existFlag := true }, true)
  | _, _ => (c, false)

/-! ## Reading the list -/

def getTypeLen : Option (UInt8 × Nat) :=
  if bufSize < headerLen then none else header buf

/-- The length of the value of an element of the given type. -/
def elementLen (type : UInt8) (buf : Bytes) (left : Nat) : Option Nat :=
  match getTypeLen buf left with
  | none => none
  | some (t, len) => if t ≠ type ∨ len > left - headerLen then none else some len

/-- A node and the number of bytes it takes. -/
def revokedNodeLoad (left : Nat) : Option (RevokedNode × Nat) := do
  let _ ← elementLen typeSequence buf left
  let buf := buf.drop headerLen
  let left := left - headerLen
  let len ← elementLen typeBitstring buf left
  let sn := (buf.drop headerLen).take len
  let buf := (buf.drop headerLen).drop len
  let left := left - headerLen - len
  let dateLen ← elementLen typeBitstring buf left
  let date := (buf.drop headerLen).take asn1FormatTimeSize
  if h : len ≤ certUniversalLen ∧ dateLen = asn1FormatTimeSize ∧ sn.length ≤ certUniversalLen ∧
      date.length = asn1FormatTimeSize then
    some (⟨sn, date, h.2.2.1, h.2.2.2⟩,
      headerLen + headerLen + len + headerLen + asn1FormatTimeSize)
  else none

/-- The nodes of an issuer, together with the counter of nodes and the memory left.
Each round takes some bytes, so `fuel` is as much as there are. -/
def revokedListLoad : Nat → Nat → Nat → Bytes → Nat → List RevokedNode →
    Nat × Nat × Option (List RevokedNode)
  | 0, revokedCount, mem, _, left, nodes =>
    (revokedCount, mem, if left = 0 then some nodes else none)
  | fuel + 1, revokedCount, mem, buf, left, nodes =>
    if left = 0 then (revokedCount, mem, some nodes)
    else match mem with
      | 0 => (revokedCount, 0, none)
      | mem + 1 =>
        match revokedNodeLoad buf left with
        | none => (revokedCount, mem, none)
        | some (n, used) =>
          if revokedCount ≥ revokedMaxCount then (revokedCount, mem, none)
          else revokedListLoad fuel (revokedCount + 1) mem (buf.drop used) (left - used)
            (nodes ++ [n])

/-- An issuer and the number of bytes it takes. -/
def crlIssuerEntryLoad (revokedCount mem : Nat) (buf : Bytes) (left : Nat) :
    Nat × Nat × Option (CrlIssuer × Nat) :=
  match getTypeLen buf left with
  | none => (revokedCount, mem, none)
  | some (t, dataLen) =>
    if t ≠ typeSequence ∨ dataLen > left - (headerLen + headerLen) ∨
        left ≤ headerLen + headerLen then (revokedCount, mem, none)
    else
      match elementLen typeBitstring (buf.drop headerLen) (left - headerLen) with
      | none => (revokedCount, mem, none)
      | some len =>
        let rest := (buf.drop headerLen).drop headerLen
        if h : len ≤ certLargeLen ∧ (rest.take len).length ≤ certLargeLen then
          let nodesLen := (2^32 + dataLen - len) % 2^32
          match revokedListLoad rest.length revokedCount mem (rest.drop len) nodesLen [] with
          | (revokedCount, mem, none) => (revokedCount, mem, none)
          | (revokedCount, mem, some nodes) =>
            (revokedCount, mem, some (⟨rest.take len, h.2, nodes⟩,
              headerLen + headerLen + len + nodesLen))
        else (revokedCount, mem, none)

/-- An issuer that is read takes the place of those of the same name, unless the
counter of issuers is at its limit: then it is dropped after they were. -/
def crlIssuerListLoad : Nat → RevokedConfig → Nat → Bytes → Nat → RevokedConfig × Bool
  | 0, c, _, _, left => (c, left = 0)
  | fuel + 1, c, mem, buf, left =>
    if left = 0 then (c, true)
    else match mem with
      | 0 => (c, false)
      | mem + 1 =>
        match crlIssuerEntryLoad c.revokedCount mem buf left with
        | (revokedCount, _, none) => ({ c with revokedCount := revokedCount }, false)
        | (revokedCount, mem, some (e, used)) =>
          let c := { c with revokedCount := revokedCount
                            crlIssuerList := delete CrlIssuer.issuer e.issuer c.crlIssuerList }
          if c.issuerCount ≥ issuerMaxCount then (c, false)
          else crlIssuerListLoad fuel
            { c with issuerCount := c.issuerCount + 1, crlIssuerList := c.crlIssuerList ++ [e] }
            mem (buf.drop used) (left - used)

def crlIssuerBuffToList : RevokedConfig × Bool :=
  match elementLen typeSequence buf buf.length with
  | none => (c, false)
  | some _ =>
    crlIssuerListLoad buf.length c mem (buf.drop headerLen) (buf.length - headerLen)

def isCrlIssuerListEmpty : Bool :=
  if c.existFlag then c.crlIssuerList.isEmpty else false

def globalTaCrlListLoading (checkEmpty : Bool) (c : RevokedConfig) (mem : Nat) :
    RevokedConfig × Bool :=
  if checkEmpty && !isCrlIssuerListEmpty c then (c, true)
  else if c.listFile.length > crlCertListMaxSize then (c, false)
  else if c.listFile.length = 0 then ({ c with existFlag := false }, true)
  else match mem with
    | 0 => (c, false)
    | mem + 1 => crlIssuerBuffToList c mem c.listFile

/-! ## Adding a revocation list -/

/-- A serial number and a date as they are taken from a CRL. -/
abbrev CertListEntry := RevokedNode

/-- What is taken from a CRL: whether its signature is valid, its issuer, and the
certificates it revokes. A CRL without any gives one entry with no serial number. -/
structure CrlCert where
  valid : Bool
  issuer : Option Bytes
  revoked : Option (List CertListEntry)

/-- Adds a node to the entry of its issuer, which is made if there is none. -/
def addRevokedNodeToCrlIssuerEntry (n : RevokedNode)
    (issuer : Bytes) (h : issuer.length ≤ certLargeLen) : RevokedConfig × Nat × Bool :=
  let add (c : RevokedConfig) (mem : Nat) : RevokedConfig × Nat × Bool :=
    if c.revokedCount ≥ revokedMaxCount then (c, mem, false)
    else
      ({ c with revokedCount := c.revokedCount + 1
                crlIssuerList := edit CrlIssuer.issuer issuer
                  (fun e => { e with nodes := e.nodes ++ [n] }) c.crlIssuerList },
       mem, true)
  if c.crlIssuerList.any (fun e => e.issuer = issuer) then add c mem
  else match mem with
    | 0 => (c, 0, false)
    | mem + 1 =>
      if c.issuerCount ≥ issuerMaxCount then (c, mem, false)
      else add { c with issuerCount := c.issuerCount + 1
                        crlIssuerList := c.crlIssuerList ++ [⟨issuer, h, []⟩] } mem

def crlEntriesToList (issuer : Bytes) (h : issuer.length ≤ certLargeLen) :
    RevokedConfig → Nat → List CertListEntry → RevokedConfig × Nat × Bool
  | c, mem, [] => (c, mem, true)
  | c, mem, entry :: rest =>
    match checkCertRevoked c entry.sn issuer with
    | none => (c, mem, false)
    | some true => crlEntriesToList issuer h c mem rest
    | some false =>
      match mem with
      | 0 => (c, 0, false)
      | mem + 1 =>
        match addRevokedNodeToCrlIssuerEntry c mem entry issuer h with
        | (c, mem, false) => (c, mem, false)
        | (c, mem, true) => crlEntriesToList issuer h c mem rest

def crlCertToList (entries : List CertListEntry) (issuer : Bytes) : RevokedConfig × Nat × Bool :=
  if h : issuer.length = 0 ∨ issuer.length ≥ certLargeLen then (c, mem, false)
  else crlEntriesToList issuer (by omega) c mem entries

def taCrlCertProcess (crl : CrlCert) : RevokedConfig × Bool :=
  match crl.valid, crl.issuer, mem, crl.revoked with
  | true, some issuer, mem + 1, some entries =>
    match crlCertToList c mem entries issuer with
    | (c, _, false) => (c, false)
    | (c, mem, true) => globalTaCrlListStoring c mem
  | _, _, _, _ => (c, false)

end TeeOs.PermSrv
