import TeeOs.Gtask.State

/-!
# The next command of the normal world

`get_last_in_cmd` goes round the slots of the shared buffer, from the one behind the
last command. A slot that it refuses is marked as being done and looked at again,
unless the scan began there: then the scan ends.
-/

namespace TeeOs.Gtask

open Function Finset

abbrev Slot := Fin maxSmcCmd

/-- The shared buffer, `cmd_doing_bitmap` and the slot of the last command: `last_index`
is one more, from the start. -/
structure NwdCmd where
  inBitmap : Slot → Bool
  doingBitmap : Slot → Bool
  slots : Slot → SmcCmd
  cmdDoing : Slot → Bool
  last : Slot

namespace NwdCmd

variable {s : NwdCmd} {x y : Slot} {k : Nat}

def lastIndex (s : NwdCmd) : Nat := s.last+1

def slot (i : Nat) : Slot := if h : i < maxSmcCmd then ⟨i, h⟩ else ⟨0, by decide⟩

def setDoing (s : NwdCmd) (x : Slot) : NwdCmd :=
  { s with doingBitmap := update s.doingBitmap x true }

def take (s : NwdCmd) (x : Slot) : NwdCmd :=
  { s.setDoing x with
    cmdDoing := if isAbortCmd (s.slots x) then s.cmdDoing else update s.cmdDoing x true
    last := x }

def pending (s : NwdCmd) (x : Slot) : Bool := s.inBitmap x && !s.doingBitmap x

/-- The two tests of a pending slot. -/
def refused (s : NwdCmd) (x : Slot) : Bool :=
  (s.cmdDoing x && !isAbortCmd (s.slots x)) || (s.slots x).eventNr ≠ x

/-- The passes of the loop. -/
def scan : Nat → NwdCmd → Nat → Option (NwdCmd × Option SmcCmd)
  | 0, _, _ => none
  | fuel+1, s, i =>
    let x := slot i
    if s.pending x then
      if s.refused x then
        -- `continue` goes on to the test of the loop with the index as it is
        if x = s.lastIndex then some (s.setDoing x, none) else scan fuel (s.setDoing x) x
      else some (s.take x, some (s.slots x))
    else if x+1 = s.lastIndex then some (s, none) else scan fuel s (x+1)

def getLastInCmd (s : NwdCmd) : Option (NwdCmd × Option SmcCmd) :=
  scan (2*maxSmcCmd) s s.lastIndex

/-! ## What it is for -/

def Eligible (s : NwdCmd) (x : Slot) : Prop :=
  s.inBitmap x = true ∧ s.doingBitmap x = false ∧ (s.slots x).eventNr = x ∧
    (s.cmdDoing x = true → isAbortCmd (s.slots x) = true)

/-- How far round a slot is from `last_index`. -/
def dist (s : NwdCmd) (x : Slot) : Nat := (x + maxSmcCmd - s.lastIndex) % maxSmcCmd

def First (s : NwdCmd) (x : Slot) : Prop := s.Eligible x ∧ ∀ y, s.Eligible y → s.dist x ≤ s.dist y

/-- The first `n` slots are passed: the pending ones are marked. -/
def pass (s : NwdCmd) (n : Nat) : NwdCmd :=
  { s with doingBitmap := fun x => s.doingBitmap x || (s.inBitmap x && s.dist x < n) }

/-- The call returns; with the first eligible slot if there is one. -/
def Fair (s : NwdCmd) : Prop :=
  ∃ s' cmd, s.getLastInCmd = some (s', cmd) ∧
    (∀ x, s.First x → s' = (s.pass (s.dist x)).take x ∧ cmd = some (s.slots x)) ∧
    ((∀ x, ¬ s.Eligible x) → cmd = none)

/-- The scan begins at a slot that it refuses. -/
def Stuck (s : NwdCmd) : Prop :=
  s.lastIndex < maxSmcCmd ∧ s.pending (slot s.lastIndex) = true ∧ s.refused (slot s.lastIndex) = true

theorem eligible_iff : s.Eligible x ↔ s.pending x = true ∧ s.refused x = false := by
  simp only [Eligible, pending, refused]
  grind

/-! ## One round -/

theorem slot_val : slot x = x := dif_pos x.isLt

theorem slot_coe {i : Nat} (h : i ≤ maxSmcCmd) : (slot i : Nat) = i % maxSmcCmd := by
  unfold slot
  split_ifs with hi
  · exact (Nat.mod_eq_of_lt hi).symm
  · rw [Nat.le_antisymm h (Nat.not_lt.mp hi), Nat.mod_self]

theorem dist_lt : s.dist x < maxSmcCmd := Nat.mod_lt _ (by decide)

theorem dist_inj (h : s.dist x = s.dist y) : x = y := by
  simp only [dist, lastIndex, maxSmcCmd] at h
  have hx := x.isLt
  have hy := y.isLt
  have hs := s.last.isLt
  simp only [maxSmcCmd] at hx hy hs
  exact Fin.ext (by omega)

theorem dist_slot (h : (x : Nat)+1 ≠ s.lastIndex) : s.dist (slot (x+1)) = s.dist x + 1 := by
  have hx := x.isLt
  rw [dist, slot_coe hx]
  simp only [dist, lastIndex, maxSmcCmd] at *
  omega

theorem dist_last (h : (x : Nat)+1 = s.lastIndex) : s.dist x + 1 = maxSmcCmd := by
  simp only [dist, lastIndex, maxSmcCmd] at *
  omega

theorem pass_succ (h : s.dist x = k) :
    s.pass (k+1) = if s.pending x then (s.pass k).setDoing x else s.pass k := by
  have hsame : ∀ y, s.dist y < k+1 ↔ s.dist y < k ∨ y = x := fun y =>
    ⟨fun hy => (Nat.lt_succ_iff_lt_or_eq.mp hy).imp_right fun he => dist_inj (he.trans h.symm),
      by grind⟩
  split_ifs with hp
  · simp only [pass, setDoing, hsame, pending] at hp ⊢
    congr 1
    funext y
    grind [update]
  · simp only [pass, hsame, pending] at hp ⊢
    congr 1
    funext y
    grind

/-- The first eligible slot is taken, or there is none. -/
def Found (s : NwdCmd) (r : Option (NwdCmd × Option SmcCmd)) : Prop :=
  (∃ x, s.First x ∧ r = some ((s.pass (s.dist x)).take x, some (s.slots x))) ∨
    (∀ x, ¬ s.Eligible x) ∧ r = some (s.pass maxSmcCmd, none)

/-- From slot `x` on, with nothing eligible before it. -/
theorem scan_found (hs : ¬ s.Stuck) (m e i : Nat) (hm : m + s.dist x = maxSmcCmd) (hi : slot i = x)
    (hlow : ∀ y, s.Eligible y → s.dist x ≤ s.dist y) :
    s.Found (scan (2*m+e) (s.pass (s.dist x)) i) := by
  induction m generalizing x e i with
  | zero => exact absurd hm (by have := s.dist_lt (x := x); omega)
  | succ m ih =>
    have hpend : (s.pass (s.dist x)).pending x = s.pending x := by
      simp [pending, pass]
    have hnext : ¬ s.Eligible x → ∀ e, s.Found (if (x : Nat)+1 = s.lastIndex then
        some (s.pass (s.dist x + 1), none) else scan (2*m+e) (s.pass (s.dist x + 1)) (x+1)) := by
      intro hx e
      have hlow' : ∀ y, s.Eligible y → s.dist x + 1 ≤ s.dist y := fun y hy =>
        Nat.lt_of_le_of_ne (hlow y hy) fun he => hx (dist_inj he ▸ hy)
      split_ifs with hlast
      · rw [dist_last hlast] at hlow' ⊢
        exact .inr ⟨fun y hy => absurd dist_lt (Nat.not_lt.mpr (hlow' y hy)), rfl⟩
      · rw [← dist_slot hlast] at hlow' ⊢
        exact ih e (x+1) (by rw [dist_slot hlast]; omega) rfl hlow'
    have hstep := pass_succ (s := s) (x := x) rfl
    rw [show 2*(m+1)+e = 2*m+e+1+1 by omega, scan, hi]
    by_cases hp : s.pending x = true
    · rw [if_pos hp] at hstep
      have href : (s.pass (s.dist x)).refused x = s.refused x := rfl
      simp only [hpend, if_pos hp, href]
      cases hr : s.refused x with
      | false =>
        exact .inl ⟨x, ⟨eligible_iff.mpr ⟨hp, hr⟩, hlow⟩, rfl⟩
      | true =>
        -- the slot is looked at once more, marked
        have hne : (x : Nat) ≠ s.lastIndex := by
          intro he
          have hlt := he ▸ x.isLt
          rw [← slot_val (x := x), he] at hp hr
          exact hs ⟨hlt, hp, hr⟩
        have hdone : (s.pass (s.dist x + 1)).pending x = false := by
          simp [pending, pass]
          grind
        have hx : ¬ s.Eligible x := fun hel => by simp [eligible_iff, hr] at hel
        have hnext' := hnext hx e
        rw [if_pos rfl, ← hstep]
        change s.Found (if (x : Nat) = s.lastIndex then _ else _)
        rw [if_neg hne, scan, slot_val]
        simp only [hdone, Bool.false_eq_true, if_false]
        exact hnext'
    · rw [if_neg hp] at hstep
      simp only [hpend, if_neg hp]
      rw [← hstep]
      exact hnext (fun hx => hp (eligible_iff.mp hx).1) (e+1)

theorem getLastInCmd_cases (s : NwdCmd) :
    s.Stuck ∧ s.getLastInCmd = some (s.setDoing (slot s.lastIndex), none) ∨
      ¬ s.Stuck ∧ s.Found s.getLastInCmd := by
  by_cases hs : s.Stuck
  · refine .inl ⟨hs, ?_⟩
    obtain ⟨hlt, hp, hr⟩ := hs
    have hval : (slot s.lastIndex : Nat) = s.lastIndex := by
      rw [slot_coe hlt.le, Nat.mod_eq_of_lt hlt]
    rw [getLastInCmd, show 2*maxSmcCmd = 35+1 from rfl, scan]
    simp only [hp, hr, if_true, hval]
  · refine .inr ⟨hs, ?_⟩
    have hfirst : s.dist (slot s.lastIndex) = 0 := by
      have hlast := s.last.isLt
      rw [dist, slot_coe (i := s.lastIndex) hlast, lastIndex]
      simp only [maxSmcCmd] at *
      omega
    have hfound := scan_found hs maxSmcCmd 0 s.lastIndex
      (by rw [hfirst, Nat.add_zero]) rfl (by rw [hfirst]; exact fun _ _ => Nat.zero_le _)
    have hnone : s.pass 0 = s := by simp [pass]
    rwa [hfirst, hnone] at hfound

/-! ## Later calls -/

/-- The state after a call, if nobody else writes. -/
def next (s : NwdCmd) : NwdCmd := (s.getLastInCmd.map Prod.fst).getD s

def Returns (s : NwdCmd) (x : Slot) : Prop := ∃ s', s.getLastInCmd = some (s', some (s.slots x))

/-- The slots nobody works on. -/
def idle (s : NwdCmd) : Finset Slot := univ.filter fun x => s.doingBitmap x = false

theorem idle_ssubset {s' : NwdCmd} (h : ∀ z, s'.doingBitmap z = false → s.doingBitmap z = false)
    (hy : s.doingBitmap y = false) (hy' : s'.doingBitmap y = true) : s'.idle ⊂ s.idle := by
  refine ssubset_iff_of_subset (fun z => ?_) |>.mpr ⟨y, ?_, ?_⟩
  · simpa [idle] using h z
  · simp [idle, hy]
  · simp [idle, hy']

/-- A call returns an eligible slot, or leaves it and marks another. -/
theorem next_of_eligible (h : s.Eligible x) :
    s.Returns x ∨ s.next.Eligible x ∧ s.next.idle ⊂ s.idle := by
  rcases getLastInCmd_cases s with ⟨⟨-, hp, hr⟩, heq⟩ | ⟨-, ⟨y, hy, heq⟩ | ⟨hnone, -⟩⟩
  · have hnext : s.next = s.setDoing (slot s.lastIndex) := by rw [next, heq]; rfl
    have hne : x ≠ slot s.lastIndex := fun he => by simp [eligible_iff, he, hr] at h
    rw [hnext]
    refine .inr ⟨?_, idle_ssubset (y := slot s.lastIndex) ?_ ?_ ?_⟩
    · simpa [Eligible, setDoing, hne] using h
    · simp +contextual [setDoing, update_apply]
    · grind [pending]
    · simp [setDoing]
  · have hnext : s.next = (s.pass (s.dist y)).take y := by rw [next, heq]; rfl
    by_cases hxy : x = y
    · exact .inl ⟨_, hxy ▸ heq⟩
    have hle := hy.2 x h
    rw [hnext]
    refine .inr ⟨?_, idle_ssubset ?_ hy.1.2.1 ?_⟩
    · simp only [Eligible, take, setDoing, pass, update_apply] at h ⊢
      grind
    · simp +contextual [take, setDoing, pass, update_apply]
    · simp [take, setDoing]
  · exact absurd h (hnone x)

theorem returns_of_eligible (n : Nat) (h : s.Eligible x) (hn : s.idle.card ≤ n) :
    ∃ i < n, (next^[i] s).Returns x := by
  induction n generalizing s with
  | zero =>
    have hmem : x ∈ s.idle := by simp [idle, h.2.1]
    exact absurd (card_pos.mpr ⟨x, hmem⟩) (by omega)
  | succ n ih =>
    rcases next_of_eligible h with hr | ⟨hel, hlt⟩
    · exact ⟨0, Nat.succ_pos n, hr⟩
    · obtain ⟨i, hi, hr⟩ := ih hel (by have := card_lt_card hlt; omega)
      exact ⟨i+1, Nat.succ_lt_succ hi, hr⟩

/-- The first eligible slot is returned exactly if the scan does not begin at a slot that
it refuses, or nothing is eligible; an eligible slot is returned by one of the next calls in
any case. -/
theorem getLastInCmd_fair_iff (s : NwdCmd) : (s.Fair ↔ (∃ x, s.Eligible x) → ¬ s.Stuck) ∧
      ∀ x, s.Eligible x → ∃ n < maxSmcCmd, (next^[n] s).Returns x := by
  refine ⟨⟨?_, ?_⟩, fun x hx => returns_of_eligible maxSmcCmd hx (card_le_univ _)⟩
  · rintro ⟨s', cmd, heq, hfirst, -⟩ ⟨x, hx⟩ hs
    obtain ⟨y, hy⟩ := Set.exists_min_image {y | s.Eligible y} s.dist (Set.toFinite _) ⟨x, hx⟩
    rcases getLastInCmd_cases s with ⟨-, hstuck⟩ | ⟨hns, -⟩
    · cases heq.symm.trans hstuck
      cases (hfirst y hy).2
    · exact hns hs
  · intro h
    rcases getLastInCmd_cases s with ⟨hs, heq⟩ | ⟨-, ⟨y, hy, heq⟩ | ⟨hnone, heq⟩⟩
    · have hnone : ∀ x, ¬ s.Eligible x := fun x hx => h ⟨x, hx⟩ hs
      exact ⟨_, _, heq, fun x hx => absurd hx.1 (hnone x), fun _ => rfl⟩
    · refine ⟨_, _, heq, fun x hx => ?_, fun hnone => absurd hy.1 (hnone y)⟩
      rw [dist_inj (Nat.le_antisymm (hx.2 y hy.1) (hy.2 x hx.1))]
      exact ⟨rfl, rfl⟩
    · exact ⟨_, _, heq, fun x hx => absurd hx.1 (hnone x), fun _ => rfl⟩

/-- Slot 1 comes first and is refused: the slots behind it are eligible and not found. -/
theorem getLastInCmd_gives_up :
    let s : NwdCmd :=
      ⟨fun x => 0 < x.val, fun _ => false, fun x => { eventNr := x }, fun x => x.val = 1, slot 0⟩
    s.getLastInCmd.map Prod.snd = some none ∧ s.Eligible (slot 2) :=
  ⟨by decide, rfl, rfl, rfl, nofun⟩

end NwdCmd

end TeeOs.Gtask
