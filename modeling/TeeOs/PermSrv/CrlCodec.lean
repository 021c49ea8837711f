import TeeOs.PermSrv.Crl

/-!
# The list file

What a store writes is the bytes of the list, element by element, and a load that
reads such bytes gets the same list back, as far as memory and the counters let it
come. A load stops in front of an issuer that it cannot read; at the limit of the
counter of issuers it has already dropped the one in memory.
-/

namespace TeeOs.PermSrv

open TeeOs.Lib.Keyed List Option
open TeeOs.Lib.Tlv

variable {n : RevokedNode} {e : CrlIssuer} {b v rest : Bytes} {t : UInt8}
  {left size mem revokedCount : Nat} {l : List CrlIssuer}

def nodeBytes (n : RevokedNode) : Bytes :=
  tlv typeSequence (tlv typeBitstring n.sn ++ tlv typeBitstring n.revokedDate)

def nodesBytes (l : List RevokedNode) : Bytes := l.flatMap nodeBytes

def issuerBytes (e : CrlIssuer) : Bytes :=
  head typeSequence (e.issuer.length + (nodesBytes e.nodes).length) ++
    (tlv typeBitstring e.issuer ++ nodesBytes e.nodes)

def issuersBytes (l : List CrlIssuer) : Bytes := l.flatMap issuerBytes

/-- A file that holds the list. -/
def fileBytes (l : List CrlIssuer) : Bytes :=
  head typeSequence (issuersBytes l).length ++ issuersBytes l

theorem length_nodeBytes (n : RevokedNode) : (nodeBytes n).length = 28 + n.sn.length := by
  rw [nodeBytes, length_tlv, length_append, length_tlv, length_tlv, n.date_length]
  simp only [headerLen, asn1FormatTimeSize]
  omega

theorem length_issuerBytes (e : CrlIssuer) :
    (issuerBytes e).length = 10 + e.issuer.length + (nodesBytes e.nodes).length := by
  rw [issuerBytes, length_append, length_head, length_append, length_tlv]
  simp only [headerLen]
  omega

theorem length_le_nodesBytes (l : List RevokedNode) : l.length ≤ (nodesBytes l).length := by
  induction l with
  | nil => exact Nat.le_refl 0
  | cons n l ih =>
    have := length_nodeBytes n
    rw [length_cons, nodesBytes, flatMap_cons, length_append, ← nodesBytes]
    omega

theorem length_issuersBytes_cons (e : CrlIssuer) (l : List CrlIssuer) :
    (issuersBytes (e :: l)).length = (issuerBytes e).length + (issuersBytes l).length :=
  length_append

theorem length_le_issuersBytes (l : List CrlIssuer) : l.length ≤ (issuersBytes l).length := by
  induction l with
  | nil => exact Nat.le_refl 0
  | cons e l ih =>
    have := length_issuerBytes e
    rw [length_cons, length_issuersBytes_cons]
    omega

/-! ## Writing -/

theorem tlvToBuffer_some (h : tlvToBuffer t v size = some b) : b = tlv t v ∧ b.length ≤ size := by
  rw [tlvToBuffer] at h
  split at h
  · cases h
  · cases h
    rw [length_tlv]
    exact ⟨rfl, by omega⟩

theorem revokedNodeToBuffer_some (h : revokedNodeToBuffer size n = some b) : b = nodeBytes n := by
  rw [revokedNodeToBuffer] at h
  split at h
  · cases h
  split at h
  · cases h
  obtain ⟨sn, hsn, h⟩ := bind_eq_some_iff.mp h
  split at h
  · cases h
  obtain ⟨date, hdate, h⟩ := bind_eq_some_iff.mp h
  rw [(tlvToBuffer_some hsn).1, (tlvToBuffer_some hdate).1] at h
  exact (tlvToBuffer_some h).1

theorem revokedNodesToBuffer_some {l : List RevokedNode} (h : revokedNodesToBuffer left l = some b) :
    b = nodesBytes l := by
  induction l generalizing left b with
  | nil =>
    cases h
    rfl
  | cons n rest ih =>
    obtain ⟨buf, hbuf, h⟩ := bind_eq_some_iff.mp h
    split at h
    · cases h
    obtain ⟨bufs, hbufs, h⟩ := bind_eq_some_iff.mp h
    cases h
    rw [revokedNodeToBuffer_some hbuf, ih hbufs]
    rfl

theorem crlIssuerEntryToBuffer_some (h : crlIssuerEntryToBuffer size e = some b) :
    b = issuerBytes e := by
  rw [crlIssuerEntryToBuffer] at h
  split at h
  · cases h
  obtain ⟨name, hname, h⟩ := bind_eq_some_iff.mp h
  split at h
  · cases h
  obtain ⟨nodes, hnodes, h⟩ := bind_eq_some_iff.mp h
  cases h
  rw [(tlvToBuffer_some hname).1, revokedNodesToBuffer_some hnodes]
  rfl

theorem crlIssuerListToBuffer_some (h : crlIssuerListToBuffer left l = some b) :
    b = issuersBytes l := by
  induction l generalizing left b with
  | nil =>
    cases h
    rfl
  | cons e rest ih =>
    obtain ⟨buf, hbuf, h⟩ := bind_eq_some_iff.mp h
    obtain ⟨bufs, hbufs, h⟩ := bind_eq_some_iff.mp h
    cases h
    rw [crlIssuerEntryToBuffer_some hbuf, ih hbufs]
    rfl

/-- A store writes the list, or it changes nothing. -/
theorem globalTaCrlListStoring_cases (c : RevokedConfig) (mem : Nat) :
    globalTaCrlListStoring c mem = (c, false) ∨ globalTaCrlListStoring c mem =
        ({ c with listFile := fileBytes c.crlIssuerList, existFlag := true }, true) := by
  unfold globalTaCrlListStoring
  split
  · split
    · exact Or.inl rfl
    · split
      · exact Or.inl rfl
      · rename_i value hvalue
        rw [crlIssuerListToBuffer_some hvalue]
        exact Or.inr rfl
  · exact Or.inl rfl

/-! ## Reading -/

theorem elementLen_tlv (hv : v.length < 2^32) (hleft : (tlv t v).length ≤ left) :
    elementLen t (tlv t v ++ rest) left = some v.length := by
  rw [length_tlv] at hleft
  have hlow : ¬ left < headerLen := by omega
  have hfit : ¬ (t ≠ t ∨ v.length > left - headerLen) := by
    intro h
    rcases h with h | h
    · exact h rfl
    · omega
  rw [elementLen, getTypeLen, if_neg hlow, header_tlv hv]
  exact if_neg hfit

theorem sn_lt (n : RevokedNode) : n.sn.length < 2^32 := by
  have := n.sn_le
  simp only [certUniversalLen] at this
  omega

theorem date_lt (n : RevokedNode) : n.revokedDate.length < 2^32 := by
  rw [n.date_length]
  decide

theorem revokedNodeLoad_nodeBytes (hleft : (nodeBytes n).length ≤ left) :
    revokedNodeLoad (nodeBytes n ++ rest) left = some (n, (nodeBytes n).length) := by
  have hlen := length_nodeBytes n
  have hsn := n.sn_le
  have hdate := n.date_length
  simp only [certUniversalLen, asn1FormatTimeSize] at hsn hdate
  have houter : elementLen typeSequence (nodeBytes n ++ rest) left =
      some (tlv typeBitstring n.sn ++ tlv typeBitstring n.revokedDate).length := by
    refine elementLen_tlv ?_ hleft
    rw [length_append, length_tlv, length_tlv]
    simp only [headerLen]
    omega
  have hdrop : (nodeBytes n ++ rest).drop headerLen =
      tlv typeBitstring n.sn ++ (tlv typeBitstring n.revokedDate ++ rest) := by
    rw [nodeBytes, drop_tlv, append_assoc]
  have hinner : elementLen typeBitstring
      (tlv typeBitstring n.sn ++ (tlv typeBitstring n.revokedDate ++ rest)) (left - headerLen) =
      some n.sn.length := by
    refine elementLen_tlv (sn_lt n) ?_
    rw [length_tlv]
    simp only [headerLen]
    omega
  have hlast : elementLen typeBitstring (tlv typeBitstring n.revokedDate ++ rest)
      (left - headerLen - headerLen - n.sn.length) = some n.revokedDate.length := by
    refine elementLen_tlv (date_lt n) ?_
    rw [length_tlv]
    simp only [headerLen]
    omega
  have htake : (n.revokedDate ++ rest).take asn1FormatTimeSize = n.revokedDate :=
    take_left' n.date_length
  simp only [revokedNodeLoad, houter, bind_eq_bind, bind_some, hdrop, hinner,
    drop_tlv, take_left, drop_left, hlast, htake]
  rw [dif_pos ⟨n.sn_le, n.date_length, n.sn_le, n.date_length⟩, hlen]
  simp only [headerLen, asn1FormatTimeSize]
  congr 2
  omega

theorem length_nodesBytes_cons (n : RevokedNode) (l : List RevokedNode) :
    (nodesBytes (n :: l)).length = (nodeBytes n).length + (nodesBytes l).length :=
  length_append

/-- A load of the bytes of some nodes reads the first of them. -/
theorem revokedListLoad_cons {fuel : Nat} {nodes l : List RevokedNode} :
    revokedListLoad (fuel + 1) revokedCount (mem + 1) (nodesBytes (n :: l) ++ rest)
        (nodesBytes (n :: l)).length nodes =
      if revokedCount ≥ revokedMaxCount then (revokedCount, mem, none)
      else revokedListLoad fuel (revokedCount + 1) mem (nodesBytes l ++ rest) (nodesBytes l).length
        (nodes ++ [n]) := by
  have hlen := length_nodesBytes_cons n l
  have hpos := length_nodeBytes n
  have hbytes : nodesBytes (n :: l) ++ rest = nodeBytes n ++ (nodesBytes l ++ rest) :=
    append_assoc ..
  rw [revokedListLoad, if_neg (by omega), hbytes, revokedNodeLoad_nodeBytes (by omega)]
  dsimp only
  rw [drop_left, hlen, Nat.add_sub_cancel_left]

/-- A load of the bytes of some nodes gets these nodes, if it gets any. -/
theorem revokedListLoad_nodesBytes (l : List RevokedNode) :
    ∀ {fuel revokedCount mem : Nat} {nodes : List RevokedNode} {result : List RevokedNode},
    (revokedListLoad fuel revokedCount mem (nodesBytes l ++ rest) (nodesBytes l).length nodes).2.2
      = some result → result = nodes ++ l := by
  induction l with
  | nil =>
    intro fuel revokedCount mem nodes result h
    rw [append_nil]
    cases fuel with
    | zero | succ fuel => exact (Option.some.inj h).symm
  | cons n l ih =>
    intro fuel revokedCount mem nodes result h
    cases fuel with
    | zero =>
      cases h
    | succ fuel =>
      cases mem with
      | zero =>
        cases h
      | succ mem =>
        rw [revokedListLoad_cons] at h
        split at h
        · cases h
        · rw [ih h, append_assoc]
          rfl

theorem drop_issuerBytes : (issuerBytes e ++ rest).drop headerLen =
    tlv typeBitstring e.issuer ++ (nodesBytes e.nodes ++ rest) := by
  rw [issuerBytes, append_assoc, drop_head, append_assoc]

section

variable (hleft : (issuerBytes e).length ≤ left)
include hleft

theorem getTypeLen_issuerBytes (hmax : left < 2^32) :
    getTypeLen (issuerBytes e ++ rest) left =
      some (typeSequence, e.issuer.length + (nodesBytes e.nodes).length) := by
  have hlen := length_issuerBytes e
  rw [getTypeLen, if_neg (by simp only [headerLen]; omega), issuerBytes, append_assoc,
    header_head (by omega)]

theorem elementLen_issuerName (hmax : left < 2^32) :
    elementLen typeBitstring (tlv typeBitstring e.issuer ++ (nodesBytes e.nodes ++ rest))
      (left - headerLen) = some e.issuer.length := by
  have hlen := length_issuerBytes e
  have hnamed : (tlv typeBitstring e.issuer).length = headerLen + e.issuer.length := length_tlv
  refine elementLen_tlv (by omega) ?_
  simp only [hnamed, headerLen]
  omega

theorem crlIssuerEntryLoad_issuerBytes {used : Nat} {result : CrlIssuer} (hmax : left < 2^32)
    (h : (crlIssuerEntryLoad revokedCount mem (issuerBytes e ++ rest) left).2.2 =
      some (result, used)) : result = e ∧ used = (issuerBytes e).length := by
  have hlen := length_issuerBytes e
  have hnodes : (2^32 + (e.issuer.length + (nodesBytes e.nodes).length) - e.issuer.length) % 2^32 =
      (nodesBytes e.nodes).length := by omega
  rw [crlIssuerEntryLoad, getTypeLen_issuerBytes hleft hmax] at h
  dsimp only at h
  split at h
  · cases h
  simp only [drop_issuerBytes, elementLen_issuerName hleft hmax, drop_tlv, take_left, hnodes, drop_left] at h
  split at h
  · split at h
    · cases h
    · rename_i nodes hres
      obtain ⟨rfl, rfl⟩ := Prod.mk.inj (Option.some.inj h)
      have hsame : nodes = [] ++ e.nodes := revokedListLoad_nodesBytes e.nodes (by rw [hres])
      rw [hsame, nil_append, hlen]
      simp only [headerLen, and_true]
  · cases h

end

/-- An issuer that is read takes the place of the one in memory. -/
def absorb (l : List CrlIssuer) (e : CrlIssuer) : List CrlIssuer :=
  delete CrlIssuer.issuer e.issuer l ++ [e]

theorem nodup_absorb (h : (l.map CrlIssuer.issuer).Nodup) :
    ((absorb l e).map CrlIssuer.issuer).Nodup := by
  rw [absorb, map_append, map_singleton, ← concat_eq_append]
  apply List.Nodup.concat
  · intro hmem
    obtain ⟨e', he', hi⟩ := mem_map.mp hmem
    exact (mem_delete.mp he').2 hi
  · exact h.sublist (delete_sublist.map _)

/-- What a load of the bytes of `file` makes of a list: the first issuers of the file
are taken over, and all of them if it succeeds. -/
structure Loaded (file : List CrlIssuer) (c : RevokedConfig) (res : RevokedConfig × Bool) : Prop where
  listFile : res.1.listFile = c.listFile
  existFlag : res.1.existFlag = c.existFlag
  nodup : (c.crlIssuerList.map CrlIssuer.issuer).Nodup →
    (res.1.crlIssuerList.map CrlIssuer.issuer).Nodup
  all : res.2 = true → res.1.crlIssuerList = file.foldl absorb c.crlIssuerList
  some : c.issuerCount + file.length ≤ issuerMaxCount →
    ∃ taken, taken <+: file ∧ res.1.crlIssuerList = taken.foldl absorb c.crlIssuerList

theorem loaded_none {file : List CrlIssuer} {c c' : RevokedConfig} (hfile : c'.listFile = c.listFile)
    (hflag : c'.existFlag = c.existFlag) (hlist : c'.crlIssuerList = c.crlIssuerList) :
    Loaded file c (c', false) where
  listFile := hfile
  existFlag := hflag
  nodup := fun hn => by rw [hlist]; exact hn
  all := nofun
  some := fun _ => ⟨[], nil_prefix, hlist⟩

theorem crlIssuerListLoad_issuersBytes (l : List CrlIssuer) :
    ∀ {fuel mem : Nat} {c : RevokedConfig}, l.length ≤ fuel → (issuersBytes l).length < 2^32 →
    Loaded l c (crlIssuerListLoad fuel c mem (issuersBytes l) (issuersBytes l).length) := by
  induction l with
  | nil =>
    intro fuel mem c _ _
    have hdone : crlIssuerListLoad fuel c mem [] 0 = (c, true) := by
      cases fuel with
      | zero => rfl
      | succ fuel => rfl
    change Loaded [] c (crlIssuerListLoad fuel c mem [] 0)
    rw [hdone]
    exact ⟨rfl, rfl, id, fun _ => rfl, fun _ => ⟨[], nil_prefix, rfl⟩⟩
  | cons e l ih =>
    intro fuel mem c hfuel hmax
    have hbytes : issuersBytes (e :: l) = issuerBytes e ++ issuersBytes l := rfl
    have hlen := length_issuersBytes_cons e l
    have hpos := length_issuerBytes e
    have hne : (issuersBytes (e :: l)).length ≠ 0 := by omega
    rw [length_cons] at hfuel
    obtain _ | fuel := fuel
    · omega
    cases mem with
    | zero =>
      exact loaded_none rfl rfl rfl
    | succ mem =>
      rw [crlIssuerListLoad, if_neg hne]
      rcases hload : crlIssuerEntryLoad c.revokedCount mem (issuersBytes (e :: l))
        (issuersBytes (e :: l)).length with ⟨revokedCount, mem', entry⟩
      cases entry with
      | none => exact loaded_none rfl rfl rfl
      | some entry =>
        obtain ⟨result, used⟩ := entry
        have hread : (crlIssuerEntryLoad c.revokedCount mem (issuerBytes e ++ issuersBytes l)
            (issuersBytes (e :: l)).length).2.2 = some (result, used) := by
          rw [← hbytes, hload]
        obtain ⟨rfl, rfl⟩ := crlIssuerEntryLoad_issuerBytes (by omega) hmax hread
        dsimp only
        split
        · refine ⟨rfl, rfl, fun hn => hn.sublist (delete_sublist.map _), nofun,
            fun hroom => ?_⟩
          rw [length_cons] at hroom
          omega
        · rw [hbytes, drop_left, length_append, Nat.add_sub_cancel_left]
          let c' : RevokedConfig :=
            { c with revokedCount := revokedCount, issuerCount := c.issuerCount + 1
                     crlIssuerList := absorb c.crlIssuerList result }
          have htail : Loaded l c' (crlIssuerListLoad fuel c' mem' (issuersBytes l)
              (issuersBytes l).length) := ih (by omega) (by omega)
          refine { htail with
            nodup := fun hn => htail.nodup (nodup_absorb hn), some := fun hroom => ?_ }
          rw [length_cons] at hroom
          obtain ⟨taken, hprefix, hlist⟩ := htail.some (by change c.issuerCount + 1 + _ ≤ _; omega)
          exact ⟨result :: taken, cons_prefix_cons.mpr ⟨rfl, hprefix⟩, hlist⟩

/-- The file is an element that holds the bytes of the issuers. -/
theorem crlIssuerBuffToList_eq (c : RevokedConfig) (mem : Nat)
    (hmax : (fileBytes l).length < 2^32) :
    ∃ fuel, l.length ≤ fuel ∧ (issuersBytes l).length < 2^32 ∧
      crlIssuerBuffToList c mem (fileBytes l) =
        crlIssuerListLoad fuel c mem (issuersBytes l) (issuersBytes l).length := by
  have hlen : (fileBytes l).length = headerLen + (issuersBytes l).length := by
    rw [fileBytes, length_append, length_head]
  have hhead : elementLen typeSequence (fileBytes l ++ []) (fileBytes l).length =
      some (issuersBytes l).length := elementLen_tlv (by omega) (Nat.le_refl _)
  rw [append_nil] at hhead
  have hcount := length_le_issuersBytes l
  have hdrop : (fileBytes l).drop headerLen = issuersBytes l := drop_head
  refine ⟨(fileBytes l).length, by omega, by omega, ?_⟩
  rw [crlIssuerBuffToList, hhead]
  rw [hdrop, hlen, Nat.add_sub_cancel_left]

end TeeOs.PermSrv
