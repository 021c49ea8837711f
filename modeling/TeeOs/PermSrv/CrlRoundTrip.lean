import TeeOs.PermSrv.CrlCounts

/-!
# Storing and loading the list

The size of the buffer is reckoned with the longest name and the longest serial number,
so a name shorter than its array leaves a byte for the check after each element, which
wants more room than the element takes.
-/

namespace TeeOs.PermSrv

open List Option
open TeeOs.Lib.Tlv

variable {n : RevokedNode} {e : CrlIssuer} {c : RevokedConfig} {t : UInt8} {v : Bytes} {size : Nat}

/-- Every node has a serial number. -/
def Numbered (l : List RevokedNode) : Prop := ∀ n ∈ l, 0 < n.sn.length

/-- A list in memory that the file has room for. -/
structure Storable (c : RevokedConfig) : Prop extends Counted c where
  issuers_pos : 0 < c.crlIssuerList.length
  issuers_lt : c.crlIssuerList.length < issuerMaxCount
  named : Named c.crlIssuerList
  names_lt : ∀ e ∈ c.crlIssuerList, e.issuer.length < certLargeLen
  names_nodup : (c.crlIssuerList.map CrlIssuer.issuer).Nodup
  numbered : ∀ e ∈ c.crlIssuerList, Numbered e.nodes
  size_le : revokedSize * c.revokedCount + issuerSize * c.issuerCount + headerLen ≤
    crlCertListMaxSize

theorem tlvToBuffer_eq (hv : 0 < v.length) (hsize : v.length + headerLen ≤ size) :
    tlvToBuffer t v size = some (tlv t v) := by
  exact if_neg (by omega)

theorem revokedNodeToBuffer_eq (hn : 0 < n.sn.length) (hsize : (nodeBytes n).length ≤ size) :
    revokedNodeToBuffer size n = some (nodeBytes n) := by
  have hsn := n.sn_le
  have hdate := n.date_length
  rw [length_nodeBytes] at hsize
  simp only [certUniversalLen, asn1FormatTimeSize] at hsn hdate
  have hstaged : (tlv typeBitstring n.sn).length = 5 + n.sn.length := length_tlv
  have hfirst : tlvToBuffer typeBitstring n.sn entryMaxBufferLen = some (tlv typeBitstring n.sn) :=
    tlvToBuffer_eq hn (by simp only [headerLen, entryMaxBufferLen]; omega)
  rw [revokedNodeToBuffer, if_neg (by omega),
    if_neg (by simp only [headerLen, entryMaxBufferLen, certUniversalLen]; omega), hfirst]
  simp only [bind_eq_bind, bind_some]
  rw [if_neg (by simp only [headerLen, entryMaxBufferLen, asn1FormatTimeSize]; omega),
    tlvToBuffer_eq (by omega) (by simp only [headerLen, entryMaxBufferLen]; omega)]
  refine tlvToBuffer_eq ?_ ?_ <;> rw [length_append, length_tlv, length_tlv] <;>
    simp only [headerLen] <;> omega

theorem revokedNodesToBuffer_eq {l : List RevokedNode} (hl : Numbered l)
    (hsize : (nodesBytes l).length < size) :
    revokedNodesToBuffer size l = some (nodesBytes l) := by
  induction l generalizing size with
  | nil => rfl
  | cons n l ih =>
    rw [nodesBytes, flatMap_cons, ← nodesBytes, length_append] at hsize
    have hnode : revokedNodeToBuffer size n = some (nodeBytes n) :=
      revokedNodeToBuffer_eq (hl n mem_cons_self) (by omega)
    have hrest : revokedNodesToBuffer (size - (nodeBytes n).length) l = some (nodesBytes l) :=
      ih (fun m hm => hl m (mem_cons_of_mem n hm)) (by omega)
    simp only [revokedNodesToBuffer, hnode, bind_eq_bind, bind_some]
    rw [if_neg (by omega), hrest]
    rfl

theorem crlIssuerEntryToBuffer_eq (hname : 0 < e.issuer.length) (hnodes : Numbered e.nodes)
    (hsize : (issuerBytes e).length < size) :
    crlIssuerEntryToBuffer size e = some (issuerBytes e) := by
  rw [length_issuerBytes] at hsize
  have hlen : (tlv typeBitstring e.issuer).length = 5 + e.issuer.length := length_tlv
  rw [crlIssuerEntryToBuffer, if_neg (by simp only [headerLen]; omega),
    tlvToBuffer_eq hname (by simp only [headerLen]; omega)]
  simp only [bind_eq_bind, bind_some]
  rw [if_neg (by simp only [headerLen]; omega),
    revokedNodesToBuffer_eq hnodes (by simp only [headerLen]; omega)]
  rfl

theorem length_issuerBytes_lt (h : e.issuer.length < certLargeLen) :
    (issuerBytes e).length < issuerSize + revokedSize * e.nodes.length := by
  have hlen := length_issuerBytes e
  have hnodes := length_nodesBytes_le e.nodes
  have hsize : 10 + certLargeLen = issuerSize := rfl
  omega

theorem crlIssuerListToBuffer_eq {l : List CrlIssuer} (hnamed : Named l)
    (hlt : ∀ e ∈ l, e.issuer.length < certLargeLen) (hnodes : ∀ e ∈ l, Numbered e.nodes)
    (hsize : revokedSize * nodeCount l + issuerSize * l.length ≤ size) :
    crlIssuerListToBuffer size l = some (issuersBytes l) := by
  induction l generalizing size with
  | nil => rfl
  | cons e l ih =>
    rw [nodeCount_cons, length_cons, Nat.mul_succ, Nat.mul_add] at hsize
    have hentry := length_issuerBytes_lt (hlt e mem_cons_self)
    have hwritten : crlIssuerEntryToBuffer size e = some (issuerBytes e) :=
      crlIssuerEntryToBuffer_eq (hnamed e mem_cons_self) (hnodes e mem_cons_self) (by omega)
    have hrest : crlIssuerListToBuffer (size - (issuerBytes e).length) l = some (issuersBytes l) :=
      ih (fun m hm => hnamed m (mem_cons_of_mem e hm)) (fun m hm => hlt m (mem_cons_of_mem e hm))
        (fun m hm => hnodes m (mem_cons_of_mem e hm)) (by omega)
    simp only [crlIssuerListToBuffer, hwritten, hrest, bind_eq_bind, bind_some]
    rfl

theorem Storable.revoked_lt (h : Storable c) : c.revokedCount < revokedMaxCount := by
  have hsize := h.size_le
  have hconst : revokedSize = 92 ∧ crlCertListMaxSize = 32768 ∧ revokedMaxCount = 65535 :=
    ⟨rfl, rfl, rfl⟩
  rw [hconst.1] at hsize
  omega

theorem Storable.bufferSize (h : Storable c) : getTaCrlListBufferSize c =
    some (revokedSize * c.revokedCount + issuerSize * c.issuerCount + headerLen) := by
  have hrevoked := h.revoked_lt
  have hissuers := h.issuers_lt
  rw [← h.issuers] at hissuers
  exact if_neg (by omega)

theorem Storable.store (h : Storable c) (mem : Nat) : globalTaCrlListStoring c (mem + 1) =
      ({ c with listFile := fileBytes c.crlIssuerList, existFlag := true }, true) := by
  simp only [globalTaCrlListStoring, h.bufferSize, Nat.add_sub_cancel]
  rw [crlIssuerListToBuffer_eq h.named h.names_lt h.numbered (by rw [h.nodes, h.issuers])]
  exact if_neg (Nat.not_lt.mpr h.size_le)

/-- Two issuers, one of them with two revoked certificates. -/
def sampleMemory : RevokedConfig :=
  { crlIssuerList := [⟨[1], by decide, []⟩, ⟨[2], by decide, [sampleNode 7, sampleNode 8]⟩]
    issuerCount := 2
    revokedCount := 2 }

theorem sampleMemory_storable : Storable sampleMemory where
  issuers := rfl
  nodes := rfl
  issuers_pos := by decide
  issuers_lt := by decide
  named := by unfold Named; decide
  names_lt := by decide
  names_nodup := by decide
  numbered := by unfold Numbered; decide
  size_le := by decide

/-- Storing a list that the file has room for succeeds within the buffer, and loading the
file into a memory without issuers gives the list back. -/
theorem crl_list_round_trip {c d : RevokedConfig} (h : Storable c) (mem : Nat)
    (hempty : d.crlIssuerList = [] ∧ d.issuerCount = 0 ∧ d.revokedCount = 0) (memLoad : Nat)
    (hmem : c.crlIssuerList.length + nodeCount c.crlIssuerList ≤ memLoad) :
    ∃ len stored, getTaCrlListBufferSize c = some len ∧
      globalTaCrlListStoring c (mem + 1) = (stored, true) ∧
      stored.crlIssuerList = c.crlIssuerList ∧ stored.listFile.length ≤ len ∧
      crlIssuerBuffToList d memLoad stored.listFile =
        ({ d with crlIssuerList := c.crlIssuerList, issuerCount := c.issuerCount,
                  revokedCount := c.revokedCount }, true) := by
  have hrevoked := h.revoked_lt
  have hissuers := h.issuers_lt
  rw [← h.issuers] at hissuers
  have hroom := h.toCounted.real.enough _ h.bufferSize
  refine ⟨_, _, h.bufferSize, h.store mem, rfl, hroom, ?_⟩
  have hsize := h.size_le
  have hmax : crlCertListMaxSize < 2^32 := by decide
  have hapart : Apart d.crlIssuerList c.crlIssuerList := by
    rw [hempty.1]
    intro e _ e' he'
    cases he'
  have hfits : Fits d memLoad c.crlIssuerList := by
    refine ⟨hmem, ?_, ?_⟩
    · rw [hempty.2.1, ← h.issuers]
      omega
    · rw [hempty.2.2, ← h.nodes]
      omega
  rw [crlIssuerBuffToList_all (by omega) h.named h.names_nodup hapart hfits, withStored,
    hempty.1, hempty.2.1, hempty.2.2, nil_append, Nat.zero_add, Nat.zero_add, ← h.issuers,
    ← h.nodes]

theorem crl_list_round_trip_sample : ∃ len stored, getTaCrlListBufferSize sampleMemory = some len ∧
      globalTaCrlListStoring sampleMemory 1 = (stored, true) ∧
      stored.crlIssuerList = sampleMemory.crlIssuerList ∧ stored.listFile.length ≤ len ∧
      crlIssuerBuffToList {} 4 stored.listFile =
        ({ crlIssuerList := sampleMemory.crlIssuerList, issuerCount := 2, revokedCount := 2 },
          true) :=
  crl_list_round_trip sampleMemory_storable 0 ⟨rfl, rfl, rfl⟩ 4 (by decide)

end TeeOs.PermSrv
