import TeeOs.Gtask.Loader
import TeeOs.Lib.Runs

/-!
# Only verified images are kept

While an image is verified, the buffer, the temporary file and the saved command still
belong to it, as long as no other load command comes. Then what is registered with the
answer is what was verified, and the command is answered once. A load command that comes
earlier takes all three away, and the answer is applied to another image.
-/

namespace TeeOs.Gtask

open TeeOs.Lib.Bytes TeeOs.Lib.Runs List Nat LoadState Option

variable {s s' : LoadState} {env : LoadEnv} {cmd : LoadCmd} {buf : List UInt8}

/-- Everything that is kept was verified just as it is, and each command that was handed over has
its answer, or its request waits for one. -/
structure OnlyVerified (s : LoadState) : Prop where
  kept : ∀ k ∈ s.kept, ∃ v ∈ s.verified, v.uuid = k.uuid ∧ v.image = k.image ∧
    k.elf = (v.image.drop v.offTaElf).take v.taElfSize
  answered : ∀ n ∈ s.handedOver,
    s.answered.count (some n) + (s.requests.map VerifyReq.cmd).count n = 1

/-- The image buffer is a file. -/
def Buffered (s : LoadState) : Prop :=
  s.img.mapped = true → ∃ f image, s.img.tmpFile = some f ∧ s.files f = some image

/-- Only the image buffer changes, and nothing begins to wait. -/
structure Receives (s s' : LoadState) : Prop where
  requests : s'.requests = s.requests
  verified : s'.verified = s.verified
  kept : s'.kept = s.kept
  handedOver : s'.handedOver = s.handedOver
  answered : s'.answered = s.answered
  nextCmd : s'.nextCmd = s.nextCmd
  elfLoading : s.elfLoading = false → s'.elfLoading = false
  buffered : Buffered s → Buffered s'

theorem Receives.refl : Receives s s := ⟨rfl, rfl, rfl, rfl, rfl, rfl, id, id⟩

theorem Receives.trans {s'' : LoadState} (h : Receives s s') (h' : Receives s' s'') :
    Receives s s'' where
  requests := h'.requests.trans h.requests
  verified := h'.verified.trans h.verified
  kept := h'.kept.trans h.kept
  handedOver := h'.handedOver.trans h.handedOver
  answered := h'.answered.trans h.answered
  nextCmd := h'.nextCmd.trans h.nextCmd
  elfLoading := fun he => h'.elfLoading (h.elfLoading he)
  buffered := fun hb => h'.buffered (h.buffered hb)

theorem receives_freeImgLoadBuf : Receives s s.freeImgLoadBuf := by
  unfold freeImgLoadBuf
  split
  · exact ⟨rfl, rfl, rfl, rfl, rfl, rfl, fun _ => rfl, nofun⟩
  · exact .refl

theorem receives_beginImage (s : LoadState) (env : LoadEnv) (buf : List UInt8) :
    Receives s (s.beginImage env buf).2 ∧
    ((s.beginImage env buf).1 = .success → (s.beginImage env buf).2.img.mapped = true) := by
  unfold beginImage
  split
  · next hm => exact ⟨.refl, fun _ => hm⟩
  · next hm =>
    have hfree : s.img.mapped = false := by
      cases h : s.img.mapped with
      | false => rfl
      | true => exact absurd h hm
    split
    · next ret heq =>
      refine ⟨.refl, fun hret => ?_⟩
      unfold teeSecureImgGetVersion at heq
      split_ifs at heq
      cases heq
      cases hret
    · next version _ =>
      have hversion : Receives s { s with img := { s.img with imgVersion := version } } :=
        ⟨rfl, rfl, rfl, rfl, rfl, rfl, id, id⟩
      split
      · next ret heq =>
        refine ⟨hversion, fun hret => ?_⟩
        unfold teeSecureGetImgSize at heq
        split_ifs at heq <;> cases heq <;> cases hret
      · next size _ =>
        unfold getImgLoadBuf
        split_ifs
        · refine ⟨⟨rfl, rfl, rfl, rfl, rfl, rfl, id, fun _ _ => ?_⟩, fun _ => rfl⟩
          exact ⟨.tmp s.nextTmp, List.replicate size 0, rfl, Function.update_self ..⟩
        · refine ⟨⟨rfl, rfl, rfl, rfl, rfl, rfl, id, fun _ hm => ?_⟩, nofun⟩
          exact absurd hm (by rw [hfree]; nofun)

theorem receives_copyChunk {img : ImageInfo} (hm : img.mapped = s.img.mapped)
    (hf : img.tmpFile = s.img.tmpFile) : Receives s { s.copyChunk buf with img := img } := by
  unfold copyChunk
  split
  · exact ⟨rfl, rfl, rfl, rfl, rfl, rfl, id, fun hb hm' => by
      obtain ⟨f, image, h₁, h₂⟩ := hb (hm ▸ hm')
      exact ⟨f, image, hf.trans h₁, h₂⟩⟩
  · next f hfile =>
    refine ⟨rfl, rfl, rfl, rfl, rfl, rfl, id, fun hb hm' => ?_⟩
    obtain ⟨g, image, h₁, h₂⟩ := hb (hm ▸ hm')
    obtain rfl : f = g := mem_unique hfile h₁
    refine ⟨f, overlay image s.img.imgOffset buf, hf.trans h₁, ?_⟩
    dsimp only [setFile]
    rw [Function.update_self, h₂]
    rfl

theorem receives_teeSecureImageRecieve (s : LoadState) (env : LoadEnv) (buf : List UInt8) :
    Receives s (s.teeSecureImageRecieve env buf).2 ∧
    ((s.teeSecureImageRecieve env buf).1 = .success →
      (s.teeSecureImageRecieve env buf).2.img.mapped = true) := by
  obtain ⟨hbegin, hmapped⟩ := receives_beginImage s env buf
  unfold teeSecureImageRecieve
  generalize s.beginImage env buf = r at hbegin hmapped ⊢
  obtain ⟨ret, s₁⟩ := r
  dsimp only at hbegin hmapped ⊢
  split_ifs with hret hsize
  · exact ⟨hbegin, fun h => absurd h hret⟩
  · exact ⟨hbegin, nofun⟩
  · rw [not_not] at hret
    exact ⟨hbegin.trans (receives_copyChunk rfl rfl), fun _ => hmapped hret⟩

theorem receives_recvImgInfo (s : LoadState) (env : LoadEnv) (cmd : LoadCmd) :
    Receives s (s.recvImgInfoFromTzdriver env cmd).2.2 ∧
    ((s.recvImgInfoFromTzdriver env cmd).1 = .success →
      (s.recvImgInfoFromTzdriver env cmd).2.2.img.mapped = true) := by
  unfold recvImgInfoFromTzdriver
  by_cases hparse : env.parse ≠ .success
  · rw [if_pos hparse]
    exact ⟨.refl, fun h => absurd h hparse⟩
  · have hstart : Receives s (if cmd.start = 0 then s.freeImgLoadBuf else s) := by
      split_ifs
      · exact receives_freeImgLoadBuf
      · exact .refl
    generalize (if cmd.start = 0 then s.freeImgLoadBuf else s) = s₁ at hstart ⊢
    obtain ⟨hrecv, hmapped⟩ := receives_teeSecureImageRecieve s₁ env (cmd.buffer.drop 4)
    dsimp only
    generalize s₁.teeSecureImageRecieve env (cmd.buffer.drop 4) = r at hrecv hmapped ⊢
    obtain ⟨ret, s₂⟩ := r
    split_ifs with hret
    · exact ⟨hstart.trans hrecv, fun h => absurd h hret⟩
    · rw [not_not] at hret
      exact ⟨hstart.trans hrecv, fun _ => hmapped hret⟩

/-- The buffer and the saved command belong to the request `r`, and what its answer says was
verified of the file as it is. -/
structure Waiting (s : LoadState) (r : VerifyReq) : Prop where
  loading : s.elfLoading = true
  mapped : s.img.mapped = true
  cmd : s.savedCmd.map LoadCmd.number = some r.cmd
  handed : r.cmd ∈ s.handedOver
  file : s.img.tmpFile = some r.file
  image : ∃ image, s.files r.file = some image ∧ ∀ reply, r.reply = some reply →
    reply.verifyResult = .success → ∀ off, reply.offTaElf = some off →
      off + reply.taElfSize ≤ image.length ∧
        ⟨reply.srvUuid, image, off, reply.taElfSize⟩ ∈ s.verified

/-- What holds after every event when no load command comes while a request waits. -/
structure Guarded (s : LoadState) : Prop where
  verified : OnlyVerified s
  buffered : Buffered s
  waiting : (s.requests = [] ∧ s.elfLoading = false) ∨ ∃ r, s.requests = [r] ∧ Waiting s r
  handed : ∀ n ∈ s.handedOver, n < s.nextCmd
  numbered : ∀ n, some n ∈ s.answered → n < s.nextCmd

section

variable (h : Guarded s) (hr : s.requests = [])
  (hs : Receives { s with nextCmd := s.nextCmd + 1 } s')
include h hr hs

theorem Guarded.answerNow : Guarded { s' with answered := some s.nextCmd :: s'.answered } := by
  have hidle : s.elfLoading = false := by
    rcases h.waiting with ⟨-, hl⟩ | ⟨r, hreq, -⟩
    · exact hl
    · rw [hr] at hreq
      cases hreq
  refine ⟨⟨?_, fun n hn => ?_⟩, hs.buffered h.buffered, .inl ⟨hs.requests.trans hr, ?_⟩,
    fun n hn => ?_, fun n hn => ?_⟩
  · rw [hs.kept, hs.verified]
    exact h.verified.kept
  · rw [hs.handedOver] at hn
    have hlt : n < s.nextCmd := h.handed n hn
    have hne : s.nextCmd ≠ n := ne_of_gt hlt
    rw [hs.answered, hs.requests, count_cons_of_ne fun heq => hne (some.inj heq)]
    exact h.verified.answered n hn
  · exact hs.elfLoading hidle
  · rw [hs.handedOver] at hn
    rw [hs.nextCmd]
    exact lt_succ_of_lt (h.handed n hn)
  · rw [hs.nextCmd]
    rcases mem_cons.1 hn with heq | hn
    · exact some.inj heq ▸ lt_succ_self _
    · rw [hs.answered] at hn
      exact lt_succ_of_lt (h.numbered n hn)

theorem Guarded.handOver {f : ImageFile} (hm : s'.img.mapped = true) (hf : s'.img.tmpFile = some f)
    (hc : cmd.number = s.nextCmd) :
    Guarded { s' with
      savedCmd := some cmd
      requests := s'.requests ++ [⟨f, cmd.number, none⟩]
      handedOver := cmd.number :: s'.handedOver
      elfLoading := true } := by
  have hnone : s'.requests = [] := hs.requests.trans hr
  obtain ⟨g, image, hg, himage⟩ := hs.buffered h.buffered hm
  obtain rfl : f = g := mem_unique hf hg
  refine ⟨⟨?_, fun n hn => ?_⟩, fun _ => ⟨f, image, hf, himage⟩,
    .inr ⟨⟨f, cmd.number, none⟩, ?_, ⟨rfl, hm, rfl, mem_cons_self, hf, image, himage, nofun⟩⟩,
    fun n hn => ?_, fun n hn => ?_⟩
  · rw [hs.kept, hs.verified]
    exact h.verified.kept
  · rw [hnone, hs.answered, nil_append, map_singleton, hc]
    rcases mem_cons.1 hn with heq | hn
    · rw [heq, hc, count_singleton_self, count_eq_zero.2]
      exact fun hmem => lt_irrefl _ (h.numbered _ hmem)
    · rw [hs.handedOver] at hn
      have hlt : n < s.nextCmd := h.handed n hn
      have hone := h.verified.answered n hn
      rw [hr] at hone
      rw [count_singleton, if_neg (by simpa using ne_of_gt hlt)]
      exact hone
  · rw [hnone, nil_append]
  · rw [hs.nextCmd]
    rcases mem_cons.1 hn with heq | hn
    · rw [heq, hc]
      exact lt_succ_self _
    · rw [hs.handedOver] at hn
      exact lt_succ_of_lt (h.handed n hn)
  · rw [hs.answered] at hn
    rw [hs.nextCmd]
    exact lt_succ_of_lt (h.numbered n hn)

end

theorem Guarded.loadCommand {start loadType : Nat} (h : Guarded s) (hr : s.requests = []) :
    Guarded (s.loadCommand env start loadType buf) := by
  unfold LoadState.loadCommand LoadState.loadSecureFileImage
  by_cases hage : env.age ≠ .success
  · dsimp only
    rw [if_pos hage]
    exact h.answerNow hr receives_freeImgLoadBuf
  · dsimp only
    rw [if_neg hage]
    obtain ⟨hrecv, hmapped⟩ := receives_recvImgInfo { s with nextCmd := s.nextCmd + 1 } env
      ⟨s.nextCmd, start, loadType, buf⟩
    generalize recvImgInfoFromTzdriver { s with nextCmd := s.nextCmd + 1 } env
      ⟨s.nextCmd, start, loadType, buf⟩ = r at hrecv hmapped ⊢
    obtain ⟨ret, keepLoading, s₁⟩ := r
    by_cases hret : ret ≠ .success
    · rw [if_pos hret]
      exact h.answerNow hr (hrecv.trans receives_freeImgLoadBuf)
    · rw [if_neg hret]
      cases keepLoading with
      | true => exact h.answerNow hr hrecv
      | false =>
        cases env.close with
        | false => exact h.answerNow hr (hrecv.trans receives_freeImgLoadBuf)
        | true =>
          have hm := hmapped (not_not.1 hret)
          have hsaved : Receives s₁ { s₁ with savedCmd := some ⟨s.nextCmd, start, loadType, buf⟩ } :=
            ⟨rfl, rfl, rfl, rfl, rfl, rfl, id, id⟩
          have hback := (hrecv.trans hsaved).trans receives_freeImgLoadBuf
          rw [if_neg Bool.false_ne_true, if_pos rfl]
          unfold teeSecureImgUnpackReq
          by_cases hreq : env.request ≠ .success
          · rw [if_pos hreq]
            exact h.answerNow hr hback
          · rw [if_neg hreq]
            split
            · exact h.answerNow hr hback
            · next f hf => exact h.handOver hr hrecv hm hf rfl

section Answers

variable {renv : RegisterEnv} {reply : VerifyReply} {image : List UInt8} {file : ImageFile}

/-- The buffer and the saved command stay, and nothing is asked or answered. -/
structure Holds (s s' : LoadState) : Prop where
  requests : s'.requests = s.requests
  verified : s'.verified = s.verified
  handedOver : s'.handedOver = s.handedOver
  answered : s'.answered = s.answered
  nextCmd : s'.nextCmd = s.nextCmd
  savedCmd : s'.savedCmd = s.savedCmd
  mapped : s'.img.mapped = s.img.mapped

/-- What the registration changes: at most one ELF more is kept, the segment of the image that the
answer names. -/
structure Registers (reply : VerifyReply) (image : List UInt8) (s s' : LoadState) : Prop
    extends Holds s s' where
  kept : s'.kept = s.kept ∨ ∃ off elf, reply.verifyResult = .success ∧ reply.offTaElf = some off ∧
    s'.kept = ⟨reply.srvUuid, elf, image⟩ :: s.kept ∧
      (off + reply.taElfSize ≤ image.length → elf = (image.drop off).take reply.taElfSize)

theorem Registers.refl : Registers reply image s s :=
  ⟨⟨rfl, rfl, rfl, rfl, rfl, rfl, rfl⟩, .inl rfl⟩

/-- The ELF that was moved to the head of the file. -/
theorem take_overlay_zero (image elf : List UInt8) : (overlay image 0 elf).take elf.length = elf := by
  unfold overlay resize
  rw [take_zero, Nat.zero_sub, replicate_zero, nil_append, nil_append,
    take_append_of_le_length (Nat.le_refl _), take_length]

section

variable {off : Nat} (hv : reply.verifyResult = .success) (ho : reply.offTaElf = some off)
include hv ho

theorem registers_loadElfToTee :
    Registers reply image s (s.loadElfToTee renv reply.srvUuid reply.taElfSize file image
      ((image.drop off).take reply.taElfSize)).2 := by
  unfold loadElfToTee
  split
  · exact .refl
  split
  · exact .refl
  dsimp only
  split
  · exact ⟨⟨rfl, rfl, rfl, rfl, rfl, rfl, rfl⟩, .inl rfl⟩
  split
  · exact ⟨⟨rfl, rfl, rfl, rfl, rfl, rfl, rfl⟩, .inl rfl⟩
  · refine ⟨⟨rfl, rfl, rfl, rfl, rfl, rfl, rfl⟩, .inr ⟨off, _, hv, ho, rfl, fun hle => ?_⟩⟩
    have hlen : ((image.drop off).take reply.taElfSize).length = reply.taElfSize := by
      rw [length_take, length_drop]
      omega
    have htake := take_overlay_zero image ((image.drop off).take reply.taElfSize)
    rwa [hlen] at htake

theorem registers_loadSecureAppImage :
    Registers reply image s (s.loadSecureAppImage renv reply file image
      ((image.drop off).take reply.taElfSize)).2 := by
  unfold loadSecureAppImage
  split
  · exact .refl
  · split
    · exact .refl
    · split
      · exact .refl
      · exact registers_loadElfToTee hv ho

theorem registers_loadSecureLibImage {type : ImgType} :
    Registers reply image s (s.loadSecureLibImage renv type reply image
      ((image.drop off).take reply.taElfSize)).2 := by
  unfold loadSecureLibImage
  split
  · exact .refl
  split
  · exact .refl
  · split
    · exact .refl
    · exact .refl
    · split
      · exact .refl
      · exact ⟨⟨rfl, rfl, rfl, rfl, rfl, rfl, rfl⟩, .inr ⟨off, _, hv, ho, rfl, fun _ => rfl⟩⟩

end

theorem registers_processRegisterElf {loadType : Nat} (hf : s.img.tmpFile = some file)
    (hi : s.files file = some image) :
    Registers reply image s (s.processRegisterElf renv reply loadType).2 := by
  unfold processRegisterElf
  split_ifs with hv
  · exact .refl
  split
  · exact .refl
  · next off ho =>
    have himage : s.image = some image := by
      unfold LoadState.image
      rw [hf, bind_some, hi]
    dsimp only
    split_ifs
    · exact .refl
    unfold doRegisterElf
    rw [hf, himage]
    dsimp only
    have happ : Registers reply image s (s.loadSecureAppImage renv reply file image
        ((image.drop off).take reply.taElfSize)).2 :=
      registers_loadSecureAppImage (not_not.1 hv) ho
    split_ifs
    · exact .refl
    · generalize s.loadSecureAppImage renv reply file image
        ((image.drop off).take reply.taElfSize) = r at happ ⊢
      obtain ⟨ret, s₁⟩ := r
      exact { happ with }
    · exact happ
    · exact registers_loadSecureLibImage (not_not.1 hv) ho

variable {r : VerifyReq}

/-- The command of the request is answered and everything is given up. -/
theorem Guarded.finish (h : Guarded s) (hr : s.requests = [r]) (hw : Waiting s r)
    (hs : Holds { s with requests := [] } s')
    (hk : ∀ k ∈ s'.kept, ∃ v ∈ s.verified, v.uuid = k.uuid ∧ v.image = k.image ∧
      k.elf = (v.image.drop v.offTaElf).take v.taElfSize) :
    Guarded s'.sendImgLoadResponse.freeImgLoadBuf := by
  have hm : s'.sendImgLoadResponse.img.mapped = true := hs.mapped.trans hw.mapped
  have hcmd := hs.savedCmd ▸ hw.cmd
  unfold freeImgLoadBuf
  rw [if_pos hm]
  refine ⟨⟨?_, fun n hn => ?_⟩, nofun, .inl ⟨hs.requests, rfl⟩, fun n hn => ?_, fun n hn => ?_⟩
  · exact hs.verified ▸ hk
  · dsimp only [sendImgLoadResponse] at hn ⊢
    rw [hs.handedOver] at hn
    have hone := h.verified.answered n hn
    rw [hcmd, hs.answered, hs.requests, map_nil, count_nil, count_cons, add_zero]
    rw [hr, map_singleton, count_singleton] at hone
    simpa using hone
  · dsimp only [sendImgLoadResponse] at hn ⊢
    rw [hs.handedOver] at hn
    rw [hs.nextCmd]
    exact h.handed n hn
  · dsimp only [sendImgLoadResponse] at hn ⊢
    rw [hs.nextCmd]
    rw [hcmd, hs.answered] at hn
    rcases mem_cons.1 hn with heq | hn
    · exact some.inj heq ▸ h.handed r.cmd hw.handed
    · exact h.numbered n hn

/-- The answer to the waiting request reaches gtask. -/
theorem Guarded.answerOldest (h : Guarded s) : Guarded (s.answerOldest renv) := by
  unfold LoadState.answerOldest
  split
  · next file cmd reply rest hreq =>
    rcases h.waiting with ⟨hnone, -⟩ | ⟨r, hr, hw⟩
    · rw [hnone] at hreq
      cases hreq
    · rw [hr] at hreq
      obtain ⟨rfl, rfl⟩ := List.cons.inj hreq
      obtain ⟨image, himage, hverified⟩ := hw.image
      have hrefl : Holds { s with requests := [] } { s with requests := [], elfLoading := false } :=
        ⟨rfl, rfl, rfl, rfl, rfl, rfl, rfl⟩
      unfold processRegisterElfReq
      dsimp only
      split
      · exact h.finish hr hw hrefl h.verified.kept
      · next cmd _ =>
        split
        · exact h.finish hr hw hrefl h.verified.kept
        have hreg : Registers reply image { s with requests := [], elfLoading := false }
            (processRegisterElf { s with requests := [], elfLoading := false } renv reply
              cmd.loadType).2 :=
          registers_processRegisterElf hw.file himage
        have hholds : Holds { s with requests := [] } _ :=
          { hreg with }
        refine h.finish hr hw hholds fun k hk => ?_
        rcases hreg.kept with hsame | ⟨off, elf, hv, ho, hmore, helf⟩
        · rw [hsame] at hk
          exact h.verified.kept k hk
        · rw [hmore] at hk
          rcases mem_cons.1 hk with rfl | hk
          · obtain ⟨hle, hmem⟩ := hverified reply rfl hv off ho
            exact ⟨_, hmem, rfl, rfl, helf hle⟩
          · exact h.verified.kept k hk
  · exact h

/-- The permission service crashes, and its requests are lost. -/
theorem Guarded.crash (h : Guarded s) :
    Guarded { s with requests := [] }.elfVerifyCrashCallback := by
  unfold elfVerifyCrashCallback
  rcases h.waiting with ⟨hnone, hidle⟩ | ⟨r, hr, hw⟩
  · rw [if_neg (by rw [hidle]; exact Bool.false_ne_true), ← hnone]
    exact h
  · rw [if_pos hw.loading]
    have hholds : Holds { s with requests := [] } { s with requests := [] } :=
      ⟨rfl, rfl, rfl, rfl, rfl, rfl, rfl⟩
    have hfin := h.finish hr hw hholds h.verified.kept
    refine { hfin with verified := { hfin.verified with }, waiting := .inl ⟨?_, rfl⟩ }
    exact receives_freeImgLoadBuf.requests

end Answers

/-- The segment that a positive answer names lies in the image that was verified. -/
def LoadState.inImage (s : LoadState) : LoadEvent → Bool
  | .verify reply =>
    match s.requests, reply.offTaElf with
    | r :: _, some off => reply.verifyResult ≠ .success ||
        (s.files r.file).all fun image => decide (off + reply.taElfSize ≤ image.length)
    | _, _ => true
  | _ => true

/-- No load command comes while a request waits. -/
def LoadState.alone (s : LoadState) : LoadEvent → Bool
  | .load .. => s.requests.isEmpty
  | _ => true

/-- The permission service looks at the file of the waiting request. -/
theorem Guarded.verifyOldest {reply : VerifyReply} (h : Guarded s)
    (hin : s.inImage (.verify reply) = true) : Guarded (s.verifyOldest reply) := by
  unfold LoadState.verifyOldest
  split
  · next file cmd rest hreq =>
    rcases h.waiting with ⟨hnone, -⟩ | ⟨r, hr, hw⟩
    · rw [hnone] at hreq
      cases hreq
    · rw [hr] at hreq
      obtain ⟨rfl, rfl⟩ := List.cons.inj hreq
      obtain ⟨image, himage, -⟩ := hw.image
      have himage' : s.files file = some image := himage
      rw [himage']
      have hanswered : ∀ n ∈ s.handedOver, s.answered.count (some n) + [cmd].count n = 1 := by
        intro n hn
        have hone := h.verified.answered n hn
        rwa [hr] at hone
      refine ⟨⟨fun k hk => ?_, hanswered⟩, h.buffered, .inr ⟨_, rfl, ?_⟩, h.handed, h.numbered⟩
      · obtain ⟨v, hv, hkv⟩ := h.verified.kept k hk
        refine ⟨v, ?_, hkv⟩
        dsimp only
        split
        · exact mem_cons_of_mem _ hv
        · exact hv
      · refine ⟨hw.loading, hw.mapped, hw.cmd, hw.handed, hw.file, image, himage, ?_⟩
        intro reply' heq hres off hoff
        obtain rfl : reply = reply' := some.inj heq
        unfold inImage at hin
        dsimp only at hin
        rw [hr, hoff] at hin
        dsimp only at hin
        rw [himage', all_some, hres, Bool.or_eq_true, decide_eq_true_eq, decide_eq_true_eq] at hin
        refine ⟨hin.resolve_left (not_not_intro rfl), ?_⟩
        rw [hres, hoff]
        exact mem_cons_self
  · exact h

theorem Guarded.step {e : LoadEvent} (h : Guarded s) (hin : s.inImage e = true)
    (ha : s.alone e = true) : Guarded (s.step e) := by
  cases e with
  | load env start loadType buffer => exact h.loadCommand (isEmpty_iff.1 ha)
  | verify reply => exact h.verifyOldest hin
  | answer env => exact h.answerOldest
  | crash => exact h.crash

theorem guarded_initLoader : Guarded initLoader where
  verified := ⟨nofun, nofun⟩
  buffered := nofun
  waiting := .inl ⟨rfl, rfl⟩
  handed := nofun
  numbered := nofun

/-- Whatever is loaded, verified and answered, and whenever the permission service crashes, only
verified images are kept and every command that was handed over has one answer. -/
theorem loader_onlyVerified (es : List LoadEvent)
    (hin : Along step (fun s e => s.inImage e = true) initLoader es)
    (ha : Along step (fun s e => s.alone e = true) initLoader es) :
    OnlyVerified (runs step initLoader es) :=
  (invariant_run (fun _ _ h he => h.step he.1 he.2) guarded_initLoader (hin.and ha)).verified

/-- An image of 26 bytes in one chunk: the header, and an ELF of six bytes that ends in `b`. -/
def sampleImage (b : UInt8) : List UInt8 :=
  [0, 0, 0, 0, 0x5A, 0x5A, 0xA5, 0xA5, 0xAA, 0xAA, 0, 0, 3, 0, 0, 0, 6, 0, 0, 0, 0, 0, 0, 0,
    0x7F, 0x45, 0x4C, 0x46, 1, b]

/-- The answer for such an image with the uuid 9. -/
def sampleReply : VerifyReply := { srvUuid := 9, offTaElf := some 20, taElfSize := 6 }

theorem loader_onlyVerified_sample : OnlyVerified (runs step initLoader
      [.load {} 0 0 (sampleImage 1), .verify sampleReply, .answer {}, .load {} 0 0 (sampleImage 2)]) :=
  loader_onlyVerified _ (by decide) (by decide)

/-- A second image that comes before the answer for the first is kept in its place. -/
theorem loader_keeps_unverified : Along step (fun s e => s.inImage e = true) initLoader
        [.load {} 0 0 (sampleImage 1), .verify sampleReply, .load {} 0 0 (sampleImage 2), .answer {}] ∧
      ¬ OnlyVerified (runs step initLoader
        [.load {} 0 0 (sampleImage 1), .verify sampleReply, .load {} 0 0 (sampleImage 2),
          .answer {}]) := by
  refine ⟨by decide, fun h => ?_⟩
  exact absurd h.kept (by decide)

end TeeOs.Gtask
