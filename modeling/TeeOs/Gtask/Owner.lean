import TeeOs.Gtask.Frame

/-!
# Who may call a session

A session belongs to the normal world, to the task that opened it, or to gtask itself.
Ownership is not stored: it shows in the fields a session gets when it is opened, and
`Owned` says how. `Out.allowed` is what may be sent to a session.
-/

namespace TeeOs.Gtask

/-- The fields of a session show who opened it. -/
def Session.wellOpened (s : Session) : Prop :=
  s.taskId ≠ smcmgrPid ∧ s.taskId ≠ ⟨0, 0⟩ ∧
    match s.opener with
    | .normalWorld d => s.ta2taFromTaskid = smcmgrPid ∧ s.cmdIn.devFileId = d
    | .task t => s.ta2taFromTaskid = t
    | .gtask => s.ta2taFromTaskid = ⟨0, 0⟩

/-- Every session shows its owner: in its fields, in the session it is linked to as a
child, and in its status once its owner has died. -/
structure Owned (g : Globals) : Prop where
  opened : ∀ s ∈ g.sessions, s.wellOpened
  father : ∀ s ∈ g.sessions, ∀ f ∈ g.sessions, s.father = some f.ref → s.opener = .task f.taskId
  earlier : ∀ s ∈ g.sessions, ∀ r, s.father = some r → r < g.next
  orphan : ∀ s ∈ g.sessions, s.sessionStatus = .fatherDead → ∃ t ∈ g.died, s.opener = .task t

/-- What may be recorded when the tasks in `died` have died: a message goes to a session
only on behalf of its owner. The answer of an agent resumes whoever waits for it. -/
def Out.allowed (died : List TaskId) : Out → Prop
  | .send (.normalWorld d) s _ => s.opener = .normalWorld d
  | .send (.agent d) s msg => msg.resumes ∨ s.opener = .normalWorld d
  | .send (.ta2ta t) s _ => s.opener = .task t ∧ s.ta2taFromTaskid = t
  | .send .fatherDead s _ => ∃ t ∈ died, s.opener = .task t
  | _ => True

theorem Out.notSend.allowed {o : Out} (h : o.notSend) {died : List TaskId} : o.allowed died := by
  cases o <;> trivial

theorem Out.allowed.mono {o : Out} {d d' : List TaskId} (h : o.allowed d) (hd : d ⊆ d') :
    o.allowed d' := by
  cases o with
  | send why s msg =>
    cases why with
    | fatherDead =>
      obtain ⟨t, ht, ho⟩ := h
      exact ⟨t, hd ht, ho⟩
    | normalWorld _ | agent _ | ta2ta _ => exact h
    | opening => trivial
  | _ => trivial

variable {g g' : Globals} {s s' : Session}

section

variable (h : s'.ident = s.ident)
include h

theorem ident_opener : s'.opener = s.opener := by
  have ht := congrArg Session.opener h
  exact ht

theorem ident_father : s'.father = s.father := by
  have ht := congrArg Session.father h
  exact ht

theorem ident_taskId : s'.taskId = s.taskId := by
  have ht := congrArg Session.taskId h
  exact ht

theorem ident_wellOpened (hs : s.wellOpened) : s'.wellOpened := by
  have hw : s'.ident.wellOpened := h ▸ hs
  exact hw

end

/-- Ownership is kept where sessions only go and none becomes an orphan. -/
theorem Owned.of_origin (h : Owned g) (hn : g.next ≤ g'.next) (hd : g.died ⊆ g'.died)
    (ho : ∀ s' ∈ g'.sessions, ∃ s ∈ g.sessions, s'.ident = s.ident ∧
      (s'.sessionStatus = .fatherDead → s.sessionStatus = .fatherDead ∨
        ∃ t ∈ g'.died, s'.opener = .task t)) : Owned g' where
  opened := by
    intro s' hs'
    obtain ⟨s, hs, hi, -⟩ := ho s' hs'
    exact ident_wellOpened hi (h.opened s hs)
  father := by
    intro s' hs' f' hf' hr
    obtain ⟨s, hs, hi, -⟩ := ho s' hs'
    obtain ⟨f, hf, hj, -⟩ := ho f' hf'
    rw [ident_opener hi, ident_taskId hj]
    exact h.father s hs f hf (by rw [← ident_father hi, hr, ident_ref hj])
  earlier := by
    intro s' hs' r hr
    obtain ⟨s, hs, hi, -⟩ := ho s' hs'
    exact Nat.lt_of_lt_of_le (h.earlier s hs r ((ident_father hi).symm.trans hr)) hn
  orphan := by
    intro s' hs' hst
    obtain ⟨s, hs, hi, hfd⟩ := ho s' hs'
    rcases hfd hst with hst | hdead
    · obtain ⟨t, ht, hop⟩ := h.orphan s hs hst
      exact ⟨t, hd ht, (ident_opener hi).trans hop⟩
    · exact hdead

theorem Owned.of_eq (h : Owned g) (sessions : g'.sessions = g.sessions) (next : g'.next = g.next)
    (died : g'.died = g.died) : Owned g' := by
  refine h.of_origin (Nat.le_of_eq next.symm) (fun _ hd => died ▸ hd) fun s hs => ?_
  exact ⟨s, sessions ▸ hs, rfl, .inl⟩

end TeeOs.Gtask
