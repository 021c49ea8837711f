import TeeOs.PermSrv.Revocation

/-!
# The counters of the revocation list

A CRL counts each issuer and each node that it adds, also when it fails half way. A
load counts what it reads, and takes nothing back for the issuers whose place is taken
or for the nodes of an issuer that it gives up.
-/

namespace TeeOs.PermSrv

open TeeOs.Lib.Keyed List Nat CrlHistory
open TeeOs.Lib.Tlv
open TeeOs.Lib.Runs

def nodeCount (l : List CrlIssuer) : Nat := (l.map fun e => e.nodes.length).sum

/-- The counters are those of the list. -/
structure Counted (c : RevokedConfig) : Prop where
  issuers : c.issuerCount = c.crlIssuerList.length
  nodes : c.revokedCount = nodeCount c.crlIssuerList

def Named (l : List CrlIssuer) : Prop := ∀ e ∈ l, 0 < e.issuer.length

variable {l stored : List CrlIssuer} {e : CrlIssuer} {n : RevokedNode} {c : RevokedConfig}
  {rest : Bytes} {issuer : Bytes} {h : CrlHistory} {mem : Nat}

theorem nodeCount_cons : nodeCount (e :: l) = e.nodes.length + nodeCount l := rfl

theorem nodeCount_append {l' : List CrlIssuer} :
    nodeCount (l ++ l') = nodeCount l + nodeCount l' := by
  rw [nodeCount, map_append, sum_append_nat]
  rfl

/-- An issuer is listed once, so one node is added. -/
theorem nodeCount_addNode (hn : (l.map CrlIssuer.issuer).Nodup) (he : e ∈ l) :
    nodeCount (edit CrlIssuer.issuer e.issuer (fun e => { e with nodes := e.nodes ++ [n] }) l) =
      nodeCount l + 1 := by
  obtain ⟨s, t, rfl, hs, ht⟩ := split_of_mem hn he
  rw [edit, map_append, map_cons, if_pos rfl, ← edit, ← edit, edit_of_forall_ne hs,
    edit_of_forall_ne ht, nodeCount_append, nodeCount_append, nodeCount_cons, nodeCount_cons,
    length_append, length_singleton]
  omega

/-! ## Adding a revocation list -/

/-- What is kept by everything that a CRL adds. -/
structure Tallied (c : RevokedConfig) : Prop extends Counted c where
  nodup : (c.crlIssuerList.map CrlIssuer.issuer).Nodup
  named : Named c.crlIssuerList

theorem Tallied.addNode (hc : Tallied c) (he : e ∈ c.crlIssuerList) :
    Tallied { c with revokedCount := c.revokedCount + 1
                     crlIssuerList := edit CrlIssuer.issuer e.issuer
                       (fun e => { e with nodes := e.nodes ++ [n] }) c.crlIssuerList } where
  issuers := hc.issuers.trans length_edit.symm
  nodes := by
    rw [nodeCount_addNode hc.nodup he, hc.nodes]
  nodup := grown_addNode.nodup hc.nodup
  named := by
    intro e' he'
    obtain ⟨b, hb, rfl⟩ := mem_edit.mp he'
    have hpos := hc.named b hb
    split
    · exact hpos
    · exact hpos

theorem Tallied.newIssuer (hc : Tallied c) (h : issuer.length ≤ certLargeLen)
    (hpos : 0 < issuer.length) (hnew : ∀ e ∈ c.crlIssuerList, e.issuer ≠ issuer) :
    Tallied { c with issuerCount := c.issuerCount + 1
                     crlIssuerList := c.crlIssuerList ++ [⟨issuer, h, []⟩] } where
  issuers := by
    rw [length_append, length_singleton, hc.issuers]
  nodes := by
    rw [nodeCount_append, hc.nodes]
    rfl
  nodup := (grown_newIssuer hnew rfl).nodup hc.nodup
  named := by
    intro e he
    rcases mem_append.mp he with he | he
    · exact hc.named e he
    · rw [mem_singleton.mp he]
      exact hpos

theorem Tallied.addRevokedNodeToCrlIssuerEntry (hc : Tallied c) (mem : Nat) (n : RevokedNode)
    (h : issuer.length ≤ certLargeLen) (hpos : 0 < issuer.length) :
    Tallied (addRevokedNodeToCrlIssuerEntry c mem n issuer h).1 := by
  unfold PermSrv.addRevokedNodeToCrlIssuerEntry
  dsimp only
  split
  · rename_i hany
    obtain ⟨e, he, hi⟩ := any_eq_true.mp hany
    obtain rfl := of_decide_eq_true hi
    split
    · exact hc
    · exact hc.addNode he
  · rename_i hnone
    have hnew : ∀ e ∈ c.crlIssuerList, e.issuer ≠ issuer := fun e he hi =>
      hnone (any_eq_true.mpr ⟨e, he, decide_eq_true hi⟩)
    cases mem with
    | zero => exact hc
    | succ mem =>
      dsimp only
      split
      · exact hc
      · have hmade := hc.newIssuer h hpos hnew
        split
        · exact hmade
        · exact hmade.addNode (mem_append_right _ (mem_singleton.mpr rfl))

theorem Tallied.crlEntriesToList (h : issuer.length ≤ certLargeLen) (entries : List CertListEntry) :
    ∀ {c : RevokedConfig} {mem : Nat}, Tallied c →
      Tallied (crlEntriesToList issuer h c mem entries).1 := by
  induction entries with
  | nil =>
    intro c mem hc
    exact hc
  | cons entry rest ih =>
    intro c mem hc
    unfold PermSrv.crlEntriesToList
    cases hcheck : checkCertRevoked c entry.sn issuer with
    | none => exact hc
    | some present =>
      have hpos := (checkCertRevoked_some hcheck).1.issuer_pos
      cases present with
      | true => exact ih hc
      | false =>
        cases mem with
        | zero => exact hc
        | succ mem =>
          have hadd := hc.addRevokedNodeToCrlIssuerEntry mem entry h hpos
          dsimp only
          rcases hres : PermSrv.addRevokedNodeToCrlIssuerEntry c mem entry issuer h with
            ⟨c', mem', ok⟩
          rw [hres] at hadd
          cases ok with
          | false => exact hadd
          | true => exact ih hadd

theorem Tallied.taCrlCertProcess (hc : Tallied c) (mem : Nat) (crl : CrlCert) :
    Tallied (taCrlCertProcess c mem crl).1 := by
  unfold PermSrv.taCrlCertProcess
  split
  · rename_i issuer mem entries _ _ _
    have hadded : Tallied (crlCertToList c mem entries issuer).1 := by
      rw [crlCertToList]
      split
      · exact hc
      · exact Tallied.crlEntriesToList _ entries hc
    rcases hlist : crlCertToList c mem entries issuer with ⟨c', mem', ok⟩
    rw [hlist] at hadded
    cases ok with
    | false => exact hadded
    | true =>
      dsimp only at hadded ⊢
      rcases globalTaCrlListStoring_cases c' mem' with hres | hres
      · rw [hres]
        exact hadded
      · rw [hres]
        exact ⟨⟨hadded.issuers, hadded.nodes⟩, hadded.nodup, hadded.named⟩
  · exact hc

/-! ## Loading the file -/

theorem revokedListLoad_all (l : List RevokedNode) :
    ∀ {fuel revokedCount mem : Nat} {nodes : List RevokedNode}, l.length ≤ fuel →
      l.length ≤ mem → revokedCount + l.length ≤ revokedMaxCount →
      revokedListLoad fuel revokedCount mem (nodesBytes l ++ rest) (nodesBytes l).length nodes =
        (revokedCount + l.length, mem - l.length, some (nodes ++ l)) := by
  induction l with
  | nil =>
    intro fuel revokedCount mem nodes _ _ _
    rw [append_nil]
    cases fuel with
    | zero => rfl
    | succ fuel => rfl
  | cons n l ih =>
    intro fuel revokedCount mem nodes hfuel hmem hroom
    rw [length_cons] at hfuel hmem hroom
    obtain _ | fuel := fuel
    · omega
    obtain _ | mem := mem
    · omega
    rw [revokedListLoad_cons, if_neg (by omega), ih (by omega) (by omega) (by omega),
      length_cons, append_assoc]
    refine Prod.ext (by simp only; omega) (Prod.ext (by simp only; omega) rfl)

theorem crlIssuerEntryLoad_all {revokedCount left : Nat} (hpos : 0 < e.issuer.length)
    (hleft : (issuerBytes e).length ≤ left) (hmax : left < 2^32) (hmem : e.nodes.length ≤ mem)
    (hroom : revokedCount + e.nodes.length ≤ revokedMaxCount) :
    crlIssuerEntryLoad revokedCount mem (issuerBytes e ++ rest) left =
      (revokedCount + e.nodes.length, mem - e.nodes.length, some (e, (issuerBytes e).length)) := by
  have hlen := length_issuerBytes e
  have hle := e.issuer_le
  have hnodes : (2^32 + (e.issuer.length + (nodesBytes e.nodes).length) - e.issuer.length) % 2^32 =
      (nodesBytes e.nodes).length := by omega
  have hfuel : e.nodes.length ≤ (e.issuer ++ (nodesBytes e.nodes ++ rest)).length := by
    have := length_le_nodesBytes e.nodes
    rw [length_append, length_append]
    omega
  rw [crlIssuerEntryLoad, getTypeLen_issuerBytes hleft hmax]
  dsimp only
  rw [if_neg (by simp only [headerLen, ne_eq, not_true_eq_false, false_or]; omega)]
  simp only [drop_issuerBytes, elementLen_issuerName hleft hmax, drop_tlv, take_left, hnodes, drop_left]
  rw [dif_pos ⟨hle, hle⟩, revokedListLoad_all e.nodes hfuel hmem hroom]
  simp only [nil_append, headerLen, hlen]

/-- Nothing of the file is in memory. -/
def Apart (l stored : List CrlIssuer) : Prop :=
  ∀ e ∈ stored, ∀ e' ∈ l, e'.issuer ≠ e.issuer

instance : Decidable (Apart l stored) :=
  by unfold Apart; infer_instance

theorem Apart.cons (h : Apart l (e :: stored)) (hn : ((e :: stored).map CrlIssuer.issuer).Nodup) :
    Apart (l ++ [e]) stored := by
  rw [map_cons, nodup_cons] at hn
  intro e₁ he₁ e₂ he₂
  rcases mem_append.mp he₂ with he₂ | he₂
  · exact h e₁ (mem_cons_of_mem e he₁) e₂ he₂
  · rw [mem_singleton.mp he₂]
    intro hi
    exact hn.1 (hi ▸ mem_map_of_mem he₁)

/-- There is memory, and room under the limits, for all issuers and nodes. -/
structure Fits (c : RevokedConfig) (mem : Nat) (stored : List CrlIssuer) : Prop where
  memory : stored.length + nodeCount stored ≤ mem
  issuers : c.issuerCount + stored.length ≤ issuerMaxCount
  nodes : c.revokedCount + nodeCount stored ≤ revokedMaxCount

instance {mem : Nat} : Decidable (Fits c mem stored) :=
  decidable_of_iff (stored.length + nodeCount stored ≤ mem ∧
      c.issuerCount + stored.length ≤ issuerMaxCount ∧
      c.revokedCount + nodeCount stored ≤ revokedMaxCount)
    ⟨fun h => ⟨h.1, h.2.1, h.2.2⟩, fun h => ⟨h.1, h.2, h.3⟩⟩

/-- The configuration with the issuers of the file behind its own. -/
def withStored (c : RevokedConfig) (stored : List CrlIssuer) : RevokedConfig :=
  { c with issuerCount := c.issuerCount + stored.length
           revokedCount := c.revokedCount + nodeCount stored
           crlIssuerList := c.crlIssuerList ++ stored }

theorem crlIssuerListLoad_all (l : List CrlIssuer) :
    ∀ {fuel mem : Nat} {c : RevokedConfig}, l.length ≤ fuel → (issuersBytes l).length < 2^32 →
      Named l → (l.map CrlIssuer.issuer).Nodup → Apart c.crlIssuerList l → Fits c mem l →
      crlIssuerListLoad fuel c mem (issuersBytes l) (issuersBytes l).length =
        (withStored c l, true) := by
  induction l with
  | nil =>
    intro fuel mem c _ _ _ _ _ _
    rw [withStored, append_nil]
    cases fuel with
    | zero => rfl
    | succ fuel => rfl
  | cons e l ih =>
    intro fuel mem c hfuel hmax hnamed hnodup hapart hfits
    have hbytes : issuersBytes (e :: l) = issuerBytes e ++ issuersBytes l := rfl
    have hlen := length_issuersBytes_cons e l
    have hpos := length_issuerBytes e
    obtain ⟨hmem, hissuers, hnodes⟩ := hfits
    rw [nodeCount_cons] at hmem hnodes
    rw [length_cons] at hfuel hmem hissuers
    obtain _ | fuel := fuel
    · omega
    obtain _ | mem := mem
    · omega
    have hload : crlIssuerEntryLoad c.revokedCount mem (issuersBytes (e :: l))
        (issuersBytes (e :: l)).length = (c.revokedCount + e.nodes.length, mem - e.nodes.length,
          some (e, (issuerBytes e).length)) :=
      crlIssuerEntryLoad_all (hnamed e mem_cons_self) (by omega) hmax (by omega) (by omega)
    have hfresh := delete_of_forall_ne (hapart e mem_cons_self)
    rw [crlIssuerListLoad, if_neg (by omega), hload]
    dsimp only
    rw [if_neg (by omega), hfresh, hbytes, drop_left, length_append, Nat.add_sub_cancel_left,
      ih (by omega) (by omega) (fun e' he' => hnamed e' (mem_cons_of_mem e he'))
        (nodup_cons.mp hnodup).2 (hapart.cons hnodup)
        ⟨by omega, by simp only; omega, by simp only; omega⟩]
    simp only [withStored, nodeCount_cons, length_cons, append_assoc,
      singleton_append, add_assoc, add_comm 1]

theorem crlIssuerBuffToList_all (hmax : (fileBytes stored).length < 2^32) (hnamed : Named stored)
    (hnodup : (stored.map CrlIssuer.issuer).Nodup) (hapart : Apart c.crlIssuerList stored)
    (hfits : Fits c mem stored) :
    crlIssuerBuffToList c mem (fileBytes stored) = (withStored c stored, true) := by
  obtain ⟨fuel, hfuel, hsize, heq⟩ := crlIssuerBuffToList_eq c mem hmax
  rw [heq]
  exact crlIssuerListLoad_all stored hfuel hsize hnamed hnodup hapart hfits

theorem Tallied.withStored (hc : Tallied c) (hnamed : Named stored)
    (hnodup : (stored.map CrlIssuer.issuer).Nodup) (hapart : Apart c.crlIssuerList stored) :
    Tallied (withStored c stored) where
  issuers := by
    dsimp only [PermSrv.withStored]
    rw [length_append, hc.issuers]
  nodes := by
    dsimp only [PermSrv.withStored]
    rw [nodeCount_append, hc.nodes]
  nodup := by
    dsimp only [PermSrv.withStored]
    rw [map_append]
    apply List.Nodup.append hc.nodup hnodup
    intro i hi hi'
    obtain ⟨e', he', rfl⟩ := mem_map.mp hi
    obtain ⟨e, he, hie⟩ := mem_map.mp hi'
    exact hapart e he e' he' hie.symm
  named := by
    intro e he
    rcases mem_append.mp he with he | he
    · exact hc.named e he
    · exact hnamed e he

/-! ## Histories -/

/-- What the counters are for: they tell what the list holds, a certificate is refused
for lack of room only if the list is full, and the size computed for a store is that of
as many issuers and nodes of full size as there are, which the list does not exceed. -/
structure CountsReal (c : RevokedConfig) : Prop where
  issuers : c.issuerCount = c.crlIssuerList.length
  nodes : c.revokedCount = nodeCount c.crlIssuerList
  room : ∀ (mem : Nat) (n : RevokedNode) (issuer : Bytes) (h : issuer.length ≤ certLargeLen),
    0 < mem → (addRevokedNodeToCrlIssuerEntry c mem n issuer h).2.2 = false →
      issuerMaxCount ≤ c.crlIssuerList.length ∨ revokedMaxCount ≤ nodeCount c.crlIssuerList
  size : getTaCrlListBufferSize c =
    if issuerMaxCount ≤ c.crlIssuerList.length ∨ revokedMaxCount ≤ nodeCount c.crlIssuerList
    then none
    else some (revokedSize * nodeCount c.crlIssuerList +
      issuerSize * c.crlIssuerList.length + headerLen)
  enough : ∀ len, getTaCrlListBufferSize c = some len → (fileBytes c.crlIssuerList).length ≤ len

theorem refused_of_full (h : issuer.length ≤ certLargeLen) (hmem : 0 < mem)
    (hres : (addRevokedNodeToCrlIssuerEntry c mem n issuer h).2.2 = false) :
    issuerMaxCount ≤ c.issuerCount ∨ revokedMaxCount ≤ c.revokedCount := by
  obtain _ | mem := mem
  · omega
  unfold addRevokedNodeToCrlIssuerEntry at hres
  dsimp only at hres
  split at hres
  · split at hres
    · exact Or.inr (by assumption)
    · cases hres
  · split at hres
    · exact Or.inl (by assumption)
    · split at hres
      · exact Or.inr (by assumption)
      · cases hres

theorem length_nodesBytes_le (l : List RevokedNode) :
    (nodesBytes l).length ≤ revokedSize * l.length := by
  induction l with
  | nil => exact le_refl 0
  | cons n l ih =>
    have hlen := length_nodeBytes n
    have hsn := n.sn_le
    rw [length_cons, nodesBytes, flatMap_cons, length_append, ← nodesBytes, mul_succ]
    have hsize : 28 + certUniversalLen = revokedSize := rfl
    omega

theorem length_issuersBytes_le (l : List CrlIssuer) :
    (issuersBytes l).length ≤ revokedSize * nodeCount l + issuerSize * l.length := by
  induction l with
  | nil => exact le_refl 0
  | cons e l ih =>
    have hlen := length_issuerBytes e
    have hnodes := length_nodesBytes_le e.nodes
    have hname := e.issuer_le
    rw [length_cons, issuersBytes, flatMap_cons, length_append, ← issuersBytes,
      nodeCount_cons, mul_succ, mul_add]
    have hsize : 10 + certLargeLen = issuerSize := rfl
    omega

theorem Counted.real (hc : Counted c) : CountsReal c where
  issuers := hc.issuers
  nodes := hc.nodes
  room := by
    intro mem n issuer h hmem hres
    rw [← hc.issuers, ← hc.nodes]
    exact refused_of_full h hmem hres
  size := by
    rw [← hc.issuers, ← hc.nodes]
    rfl
  enough := by
    intro len hlen
    rw [getTaCrlListBufferSize] at hlen
    split at hlen
    · cases hlen
    · have hsize := length_issuersBytes_le c.crlIssuerList
      rw [← Option.some.inj hlen, hc.issuers, hc.nodes, fileBytes, length_append, length_head]
      omega

/-- Whether a load reads the file. -/
def CrlHistory.reads (h : CrlHistory) (checkEmpty : Bool) (mem : Nat) : Bool :=
  !(checkEmpty && !isCrlIssuerListEmpty h.config) &&
    decide (h.config.listFile.length ≤ crlCertListMaxSize) &&
    decide (h.config.listFile ≠ []) && decide (0 < mem)

/-- A load that reads the file finds none of its issuers in memory, and memory and room
for all of it. -/
def CrlEvent.countable (h : CrlHistory) : CrlEvent → Bool
  | .crl _ _ => true
  | .load checkEmpty mem =>
    !h.reads checkEmpty mem ||
      decide (Apart h.config.crlIssuerList h.stored ∧ Fits h.config (mem - 1) h.stored)
  | .restart => true

/-- What holds along a history of which every load can be counted. -/
structure Counting (h : CrlHistory) : Prop extends Kept h where
  tallied : Tallied h.config
  named : Named h.stored

theorem Counting.crl (hc : Counting h) (mem : Nat) (cert : CrlCert) :
    Counting (h.step (.crl mem cert)) := by
  have hkept := hc.toKept.crl mem cert
  have htallied := hc.tallied.taCrlCertProcess mem cert
  rw [step] at hkept ⊢
  rcases hres : taCrlCertProcess h.config mem cert with ⟨c', ok⟩
  rw [hres] at hkept htallied
  cases ok with
  | false => exact ⟨hkept, htallied, hc.named⟩
  | true => exact ⟨hkept, htallied, htallied.named⟩

theorem Counting.load (hc : Counting h) (checkEmpty : Bool) (mem : Nat)
    (hok : (CrlEvent.load checkEmpty mem).countable h = true) :
    Counting (h.step (.load checkEmpty mem)) := by
  refine ⟨hc.toKept.load checkEmpty mem, ?_, hc.named⟩
  rw [step]
  rcases globalTaCrlListLoading_cases checkEmpty h.config mem with
    ⟨-, hres⟩ | hres | ⟨-, hres⟩ | ⟨hskip, hfile, hsize, k, rfl, hres⟩
  · rw [hres]
    exact hc.tallied
  · rw [hres]
    exact hc.tallied
  · rw [hres]
    exact ⟨⟨hc.tallied.issuers, hc.tallied.nodes⟩, hc.tallied.nodup, hc.tallied.named⟩
  · have hreads : h.reads checkEmpty (k + 1) = true := by
      rw [reads, hskip, decide_eq_true hsize, decide_eq_true hfile,
        decide_eq_true (succ_pos k)]
      rfl
    rw [CrlEvent.countable, hreads, Bool.not_true, Bool.false_or, decide_eq_true_eq,
      Nat.add_sub_cancel] at hok
    have hbytes := hc.stored.eq_fileBytes hfile
    rw [hbytes, crlCertListMaxSize] at hsize
    rw [hres, hbytes, crlIssuerBuffToList_all (by omega) hc.named hc.stored.nodup hok.1 hok.2]
    exact hc.tallied.withStored hc.named hc.stored.nodup hok.1

theorem Counting.step (hc : Counting h) (e : CrlEvent) (hok : e.countable h = true) :
    Counting (h.step e) := by
  cases e with
  | crl mem cert => exact hc.crl mem cert
  | load checkEmpty mem => exact hc.load checkEmpty mem hok
  | restart => exact ⟨hc.toKept.step .restart, ⟨⟨rfl, rfl⟩, nodup_nil, nofun⟩, hc.named⟩

theorem counting_init : Counting {} := ⟨kept_init, ⟨⟨rfl, rfl⟩, nodup_nil, nofun⟩, nofun⟩

/-- After every history in which the file is only read into a memory that holds none of
its issuers and has room for all of it, the counters are those of the list. -/
theorem crl_counts_exact (es : List CrlEvent)
    (h : Along step (fun h e => e.countable h = true) {} es) :
    CountsReal (runs step {} es).config := by
  have hc : Counting (runs step {} es) :=
    invariant_run (fun _ e hi hok => Counting.step hi e hok) counting_init h
  exact hc.tallied.toCounted.real

theorem crl_counts_exact_sample :
    CountsReal (runs step {} [.crl 10 (sampleCrl 1 7), .restart, .load false 10,
      .crl 10 (sampleCrl 2 8), .crl 3 (sampleCrl 3 9)]).config :=
  crl_counts_exact _ (by decide +kernel)

/-- The load after a restart runs out of memory at the second node of the only issuer,
which is given up: the first node stays counted. -/
theorem crl_counts_grow :
    (runs step {} [.crl 10 ⟨true, some [1], some [sampleNode 7, sampleNode 8]⟩, .restart,
        .load false 3]).config.revokedCount = 1 ∧
      (runs step {} [.crl 10 ⟨true, some [1], some [sampleNode 7, sampleNode 8]⟩,
        .restart, .load false 3]).config.crlIssuerList = [] := by
  decide +kernel

-- a load into a memory that holds the issuer counts it once more
example : (runs step {} [.crl 10 (sampleCrl 1 7), .load false 10]).config.issuerCount = 2 ∧
    (runs step {} [.crl 10 (sampleCrl 1 7),
      .load false 10]).config.crlIssuerList.length = 1 := by
  decide +kernel

end TeeOs.PermSrv
