import TeeOs.Crypto.HalContext

/-!
# The room the hardware layer needs

An engine refuses a buffer that is too short for what it writes. How much that is for a call of
the layer depends on the bytes it has kept back and on the padding, and not on the length of
the data alone.
-/

namespace TeeOs.Crypto

open TeeOs.Lib

variable {σ : Type}

def HalRequest.room : HalRequest → Nat
  | .cipherUpdate _ room => room.getD 0
  | .cipherDoFinal _ _ room | .hmacDoFinal _ room | .aeUpdate _ room | .aeEncFinal _ room _
  | .aeDecFinal _ _ room => room
  | .hmacUpdate _ | .aeUpdateAad _ => 0

/-- What an engine does with the room it is given, where `need` tells how much it asks for. -/
structure EngineRoom (engine : Engine σ) (need : σ → HalRequest → Nat) : Prop where
  short : ∀ st req, (engine.call st req).1 = .error .shortBuffer → req.room < need st req
  size : ∀ st data dest room reply,
    (engine.call st (.cipherDoFinal data dest room)).1 = .ok reply → reply.size ≤ room

section
variable (need : σ → HalRequest → Nat) (level : Nat) (c : HalCtx σ)

def Enough (req : HalRequest) : Prop := need c.state req ≤ req.room

variable (data : Block)

/-- The part of the message that an update gives the driver. -/
def wholeBlocks : Block :=
  let totalLen := data.length + c.cipherCacheLen
  (c.cached ++ data).take
    (totalLen - if totalLen % cipherCacheSize = 0 then cipherCacheSize else totalLen % cipherCacheSize)

def UpdateFits (room : Option Nat) : Prop :=
  if c.soft then Enough need c (.cipherUpdate data room)
  else if c.driverCache ∨ level = apiLevel10 ∨ c.algType = algAesXts then
    Enough need c (.cipherUpdate data (some (room.getD data.length)))
  else
    cipherCacheSize < data.length + c.cipherCacheLen →
      Enough need c (.cipherUpdate (wholeBlocks c data) (some (room.getD data.length)))

def PaddingFits (input : Block) (destData : Bool) (room : Nat) : Prop :=
  if c.algType ∈ paddingAlgs then
    if c.encrypt then
      input.length + paddingNum input.length ≤ room ∧
        Enough need c (.cipherDoFinal (paddingData input) destData room)
    else Enough need c (.cipherDoFinal input true room)
  else Enough need c (.cipherDoFinal input destData room)

def FinalFits (destData : Bool) (room : Nat) : Prop :=
  if c.soft ∨ c.driverCache then Enough need c (.cipherDoFinal data destData room)
  else
    PaddingFits need c (if level = apiLevel10 ∨ c.algType = algAesXts then data else c.cached ++ data)
      destData room

instance (req : HalRequest) : Decidable (Enough need c req) := Nat.decLe _ _

instance (input : Block) (destData : Bool) (room : Nat) :
    Decidable (PaddingFits need c input destData room) :=
  by unfold PaddingFits; infer_instance

instance (data : Block) (destData : Bool) (room : Nat) :
    Decidable (FinalFits need level c data destData room) :=
  by unfold FinalFits; infer_instance

/-- The message so far. -/
def HalCtx.kept : Block := (c.aeCache.map AeCache.message).getD []

def EncFits (room tagRoom : Nat) : Prop :=
  if c.isSupportAeUpdate then Enough need c (.aeEncFinal data room tagRoom)
  else if c.encrypt then Enough need c (.aeEncFinal (c.kept ++ data) room tagRoom)
  else Enough need c (.aeDecFinal (c.kept ++ data) [] room)

def DecFits (data tag : Block) (room : Nat) : Prop :=
  if c.isSupportAeUpdate then Enough need c (.aeDecFinal data tag room)
  else if c.encrypt then Enough need c (.aeEncFinal (c.kept ++ data) room 0)
  else Enough need c (.aeDecFinal (c.kept ++ data) tag room)

end

/-! ## Calls that fit are not refused as too short -/

section
variable {engine : Engine σ} {need : σ → HalRequest → Nat} {level : Nat} {s : Site σ}

/-- The call does not answer that a buffer is too short. -/
abbrev NotShort {τ α : Type} (x : Act τ TeeError α) (s : τ) : Prop :=
  Ends x (fun _ _ => True) (fun e _ => e ≠ .shortBuffer) s

variable {E : TeeError → Site σ → Prop} {data tag : Block} {room size tagRoom : Nat}
  {req : HalRequest} {c : HalCtx σ}

theorem engineCall_ends {Q : Reply → Site σ → Prop}
    (hQ : ∀ reply st, (engine.call s.ctx.state req).1 = .ok reply →
      Q reply (s.update fun c => { c with state := st }))
    (hE : ∀ e st, (engine.call s.ctx.state req).1 = .error e →
      E e (s.update fun c => { c with state := st })) : Ends (engineCall engine req) Q E s := by
  unfold Ends engineCall
  cases hr : (engine.call s.ctx.state req).1 with
  | error e => exact hE e _ hr
  | ok reply => exact hQ reply _ hr

theorem halMalloc_ends {n : Nat} {Q : Unit → Site σ → Prop}
    (hQ : ∀ answers, Q () { s with answers := answers })
    (hE : ∀ answers, E .outOfMemory { s with answers := answers }) : Ends (halMalloc n) Q E s := by
  unfold Ends halMalloc
  by_cases hn : n = 0
  · rw [if_pos hn]
    exact hE s.answers
  · rw [if_neg hn]
    by_cases hanswer : s.answers.headD true = true
    · rw [if_pos hanswer]
      exact hQ _
    · rw [if_neg hanswer]
      exact hE _

/-- The branches of the code, under what is asked for each. -/
theorem branches {c p q p' q' : Prop} [Decidable c] (h : if c then p else q) (hp : c → p → p')
    (hq : ¬ c → q → q') : (c → p') ∧ (¬ c → q') := by
  constructor
  · intro hc
    rw [if_pos hc] at h
    exact hp hc h
  · intro hc
    rw [if_neg hc] at h
    exact hq hc h

theorem adaptCipherDestData_ends {room : Option Nat} : Ends (adaptCipherDestData data room)
      (fun size t => ∃ answers, t = { s with answers := answers } ∧ size = room.getD data.length)
      (fun e _ => e ≠ .shortBuffer) s := by
  cases room with
  | some n => exact ⟨s.answers, rfl, rfl⟩
  | none =>
    simp only [ends_steps, adaptCipherDestData]
    exact ⟨fun _ => by simp, fun _ => halMalloc_ends (fun answers => ⟨answers, rfl, rfl⟩) fun _ => by simp⟩

theorem checkAndCopyDataOut_ne_short {out : Block} (h : size ≤ room) :
    checkAndCopyDataOut out size room ≠ .error .shortBuffer := by
  unfold checkAndCopyDataOut checkPaddingValid
  by_cases hzero : size = 0
  · simp [hzero]
  simp only [if_neg hzero]
  split
  · next e he =>
    split at he
    · cases he
      nofun
    · split at he
      · cases he
      · cases he
        nofun
  · rw [if_neg (by omega)]
    nofun

section

variable (law : EngineRoom engine need) {destData : Bool}
include law

theorem engineCall_notShort (h : need s.ctx.state req ≤ req.room) :
    NotShort (engineCall engine req) s := by
  refine engineCall_ends (fun _ _ _ => trivial) ?_
  intro e st he hshort
  subst hshort
  exact absurd h (Nat.not_le.mpr (law.short _ _ he))

theorem doCipherCacheUpdate_notShort
    (h : Enough need s.ctx (.cipherUpdate (wholeBlocks s.ctx data) (some room))) :
    NotShort (doCipherCacheUpdate engine data room) s := by
  unfold doCipherCacheUpdate
  simp only [ends_steps, ends_always]
  exact halMalloc_ends (fun _ => engineCall_notShort law h) fun _ => by simp

theorem doCryptoCipherUpdate_notShort (hplain : level = apiLevel10 ∨ s.ctx.algType = algAesXts →
      Enough need s.ctx (.cipherUpdate data (some room)))
    (hblocks : ¬ (level = apiLevel10 ∨ s.ctx.algType = algAesXts) →
      cipherCacheSize < data.length + s.ctx.cipherCacheLen →
        Enough need s.ctx (.cipherUpdate (wholeBlocks s.ctx data) (some room))) :
    NotShort (doCryptoCipherUpdate engine level data room) s := by
  unfold doCryptoCipherUpdate
  simp only [ends_steps]
  refine ⟨fun _ => trivial, fun _ => ⟨fun _ => by simp, fun _ => ⟨fun hp => ?_, fun hp =>
    ⟨fun hlong => ?_, fun _ => trivial⟩⟩⟩⟩
  · exact engineCall_notShort law (hplain hp)
  · exact doCipherCacheUpdate_notShort law (hblocks hp hlong)

theorem cipherUpdate_notShort {room : Option Nat} (h : UpdateFits need level s.ctx data room) :
    NotShort (teeCryptoCipherUpdate engine level data room) s := by
  unfold teeCryptoCipherUpdate
  simp only [ends_steps]
  refine branches h (fun _ h => engineCall_notShort law h) fun _ h => ?_
  refine adaptCipherDestData_ends.imp ?_ fun _ _ he => he
  rintro _ _ ⟨answers, rfl, rfl⟩
  refine ⟨fun hcache => ?_, fun hcache => doCryptoCipherUpdate_notShort law (fun hp => ?_) fun hp => ?_⟩
  · rw [if_pos (Or.inl hcache)] at h
    exact engineCall_notShort law h
  · rw [if_pos (Or.inr hp)] at h
    exact h
  · rw [if_neg (not_or.mpr ⟨hcache, hp⟩)] at h
    exact h

theorem procNotSoft_notShort {input : Block} (h : PaddingFits need s.ctx input destData room) :
    NotShort (procNotSoftCipherDofinal engine input destData room) s := by
  unfold procNotSoftCipherDofinal
  simp only [ends_steps]
  refine branches h (fun _ h => branches h (fun _ h => ?_) fun _ h => ?_) fun _ h =>
    engineCall_notShort law h
  · unfold doPaddingEnc
    simp only [ends_steps, ends_always]
    refine ⟨fun _ => by simp, fun _ => ⟨fun hshort => absurd h.1 (Nat.not_le.mpr hshort), fun _ => ?_⟩⟩
    exact halMalloc_ends (fun _ => engineCall_notShort law h.2) fun _ => by simp
  · unfold doPaddingDec
    simp only [ends_steps, ends_always]
    refine ⟨fun _ => by simp, fun _ => halMalloc_ends (fun _ => ?_) fun _ => by simp⟩
    refine engineCall_ends ?_ ?_
    · intro reply st hreply
      refine ⟨fun e he hshort => ?_, fun _ _ => trivial⟩
      subst hshort
      exact checkAndCopyDataOut_ne_short (law.size _ _ _ _ _ hreply) he
    · intro e st he hshort
      subst hshort
      exact absurd h (Nat.not_le.mpr (law.short _ _ he))

theorem cipherDofinal_notShort (h : FinalFits need level s.ctx data destData room) :
    NotShort (teeCryptoCipherDofinal engine level data destData room) s := by
  unfold teeCryptoCipherDofinal
  simp only [ends_steps]
  refine branches h (fun _ h => engineCall_notShort law h) fun _ h => ?_
  unfold doCipherCacheDofinal
  simp only [ends_steps, ends_always]
  refine ⟨fun _ => by simp, fun _ => ⟨fun hplain => ?_, fun hplain => ⟨fun _ => trivial, fun _ => ?_⟩⟩⟩
  · rw [if_pos hplain] at h
    exact procNotSoft_notShort law h
  · rw [if_neg hplain] at h
    exact halMalloc_ends (fun _ => procNotSoft_notShort law h) fun _ => by simp

end

theorem checkAeInSize_ok {cache : AeCache} (h : checkAeInSize c size = .ok cache) :
    c.aeCache = some cache := by
  unfold checkAeInSize at h
  split at h
  · cases h
  · next hcache =>
    split at h
    · cases h
    · cases h
      exact hcache

theorem checkAeInSize_ne_short : checkAeInSize c size ≠ .error .shortBuffer := by
  unfold checkAeInSize
  split
  · nofun
  · split
    · nofun
    · nofun

/-- The data is added to the message, or nothing is there to add. -/
theorem doCryptoCache_ends : Ends (doCryptoCache data room)
      (fun _ t => ∃ cache, s.ctx.aeCache = some cache ∧
        t = s.update fun c => { c with aeCache := some { cache with message := cache.message ++ data } })
      (fun e _ => e ≠ .shortBuffer) s := by
  unfold doCryptoCache
  simp only [ends_steps]
  refine ⟨fun e he hshort => checkAeInSize_ne_short (hshort ▸ he), fun cache hcache => ?_⟩
  have hsome := checkAeInSize_ok hcache
  refine ⟨fun hempty => ⟨cache, hsome, ?_⟩, fun _ => ⟨cache, hsome, rfl⟩⟩
  obtain rfl := List.eq_nil_of_length_eq_zero hempty
  rw [List.append_nil, ← hsome]
  rfl

variable (law : EngineRoom engine need)
include law

theorem aeUpdate_notShort (h : Enough need s.ctx (.aeUpdate data room)) :
    NotShort (teeCryptoAeUpdate engine data room) s := by
  unfold teeCryptoAeUpdate
  simp only [ends_steps, ends_elseOn]
  refine ⟨fun _ => by simp, fun _ => ⟨fun _ => trivial, fun _ => ?_⟩⟩
  refine (engineCall_notShort law h).imp (fun _ _ _ => trivial) fun e t he => ⟨fun _ => ?_, fun _ => he⟩
  exact doCryptoCache_ends.imp (fun _ _ _ => trivial) fun _ _ he => he

theorem notSupportUpdate_notShort
    (h : if s.ctx.encrypt then Enough need s.ctx (.aeEncFinal (s.ctx.kept ++ data) room tagRoom)
      else Enough need s.ctx (.aeDecFinal (s.ctx.kept ++ data) tag room)) :
    NotShort (doAeFinalNotSupportUpdate engine data tag room tagRoom) s := by
  unfold doAeFinalNotSupportUpdate
  rw [NotShort, ends_bind]
  refine doCryptoCache_ends.imp ?_ fun _ _ he => he
  rintro _ _ ⟨cache, hcache, rfl⟩
  have hkept : s.ctx.kept = cache.message := by
    unfold HalCtx.kept
    rw [hcache]
    rfl
  rw [hkept] at h
  simp only [ends_steps]
  refine ⟨fun hnone => (by cases hnone), fun cache' hcache' => ?_⟩
  cases hcache'
  refine ⟨fun henc => ?_, fun hdec => ?_⟩
  · rw [if_pos (show s.ctx.encrypt = true from henc)] at h
    exact engineCall_notShort law h
  · rw [if_neg (show ¬ s.ctx.encrypt = true from hdec)] at h
    exact engineCall_notShort law h

theorem aeEncFinal_notShort (h : EncFits need s.ctx data room tagRoom) :
    NotShort (teeCryptoAeEncFinal engine data room tagRoom) s := by
  unfold teeCryptoAeEncFinal
  simp only [ends_steps]
  exact branches h (fun _ h => engineCall_notShort law h) fun _ h => notSupportUpdate_notShort law h

theorem aeDecFinal_notShort (h : DecFits need s.ctx data tag room) :
    NotShort (teeCryptoAeDecFinal engine data tag room) s := by
  unfold teeCryptoAeDecFinal
  simp only [ends_steps]
  exact branches h (fun _ h => engineCall_notShort law h) fun _ h => notSupportUpdate_notShort law h

end

end TeeOs.Crypto
