import SrvAsync.Threaded.Defs

/-!
# What a step of the server with threads can be

## Main definitions

* `Threaded.Steps` — the steps, with what they find.

## Main results

* `steps_of_step`, `alive_of_step`.
-/

namespace SrvAsync

open Http

namespace Threaded

variable {avail : Finset Fd} {s s' : Threaded} {a : Act}

/-- The socket of a thread that stands here was not closed. -/
def ThreadPoint.holds : ThreadPoint → Bool
  | .count | .returned => false
  | _ => true

/-- The thread ended and did not close its socket. -/
def ThreadPoint.left : ThreadPoint → Bool
  | .exited _ => true
  | _ => false

theorem ThreadPoint.holds_of_left {pt : ThreadPoint} (h : pt.left = true) : pt.holds = true := by
  cases pt with
  | exited => rfl
  | _ => cases h

/-- **What a step can be.** -/
inductive Steps (avail : Finset Fd) (s : Threaded) : Act → Threaded → Prop
  | accept {fd : Fd} {spent : ℤ} (hm : s.main = .accept) (hfd : fd ∈ avail)
    (hfree : s.files fd = none) : Steps avail s (.accept (.ok fd) spent) (s.accepted fd spent)
  | create {fd : Fd} {spent now : ℤ} (hm : s.main = .create fd) :
    Steps avail s (.create none spent now) (s.created fd spent now)
  /-- A call failed and is made again. -/
  | retry {a : Act} (ha : ∀ k, a ≠ .count k) : Steps avail s a s
  /-- The process ends. -/
  | die {a : Act} {m : MainPoint} (hm : m.alive = false) (ha : ∀ k, a ≠ .count k) :
    Steps avail s a { s with main := m }
  | test {now : ℤ} (hm : s.main = .test now) : Steps avail s .main
    { s with main := if s.nConn - s.prevNConn ≠ 0 then .print now else .reset now }
  | print {now : ℤ} (hm : s.main = .print now) : Steps avail s .main
    { s with reports := s.reports ++ [s.report], main := .reset now }
  | reset {now : ℤ} (hm : s.main = .reset now) : Steps avail s .main
    { s with acceptTime := 0, handleTime := 0, prevNConn := s.nConn, allStart := now, main := .accept }
  /-- A thread that reads or writes goes on, or ends. -/
  | move {a : Act} {k : ℕ} {th th' : Thread} (hth : s.threads[k]? = some th)
    (hpt : th.point = .read ∨ th.point = .write) (hsock : th'.sock = th.sock)
    (hholds : th'.point.holds = true) (ha : ∀ k, a ≠ .count k) : Steps avail s a (s.setThread k th')
  | close {k : ℕ} {th : Thread} (hth : s.threads[k]? = some th) (hpt : th.point = .close) :
    Steps avail s (.close k)
      ({ s with files := Function.update s.files th.sock none }.setThread k { th with point := .count })
  | count {k : ℕ} {th : Thread} (hth : s.threads[k]? = some th) (hpt : th.point = .count) :
    Steps avail s (.count k)
      ({ s with nConn := s.nConn + 1 }.setThread k { th with point := .returned })

/-- A step of `main`. -/
theorem steps_of_mainStep (h : s.mainStep avail s.main a = some s') : Steps avail s a s' := by
  generalize hm : s.main = m at h
  unfold mainStep at h
  split at h
  · obtain ⟨hok, h⟩ := Option.ite_none_right_eq_some.mp h
    exact Option.some.inj h ▸ .accept hm hok.1 hok.2
  · split at h
    · exact Option.some.inj h ▸ .retry fun _ => Act.noConfusion
    · exact Option.some.inj h ▸ .die rfl fun _ => Act.noConfusion
  · exact Option.some.inj h ▸ .create hm
  · split at h
    · exact Option.some.inj h ▸ .retry fun _ => Act.noConfusion
    · exact Option.some.inj h ▸ .die rfl fun _ => Act.noConfusion
  · exact Option.some.inj h ▸ .test hm
  · exact Option.some.inj h ▸ .print hm
  · exact Option.some.inj h ▸ .reset hm
  · cases h

/-- A step of a thread. -/
theorem steps_of_threadStep {k : ℕ} {th : Thread} (hth : s.threads[k]? = some th)
    (hk : ∀ j, a = .close j ∨ a = .count j → j = k) (h : s.threadStep k th th.point a = some s') :
    Steps avail s a s' := by
  generalize hpt : th.point = pt at h
  unfold threadStep at h
  split at h
  · split at h
    · exact Option.some.inj h ▸ .move hth (.inl hpt) rfl rfl fun _ => Act.noConfusion
    · exact Option.some.inj h ▸ .move hth (.inl hpt) rfl rfl fun _ => Act.noConfusion
    · obtain ⟨-, h⟩ := Option.ite_none_right_eq_some.mp h
      exact Option.some.inj h ▸ .move hth (.inl hpt) rfl rfl fun _ => Act.noConfusion
  · split at h
    · exact Option.some.inj h ▸ .move hth (.inr hpt) rfl rfl fun _ => Act.noConfusion
    · exact Option.some.inj h ▸ .die rfl fun _ => Act.noConfusion
    · obtain ⟨-, h⟩ := Option.ite_none_right_eq_some.mp h
      exact Option.some.inj h ▸ .move hth (.inr hpt) rfl rfl fun _ => Act.noConfusion
  · obtain rfl := hk _ (.inl rfl)
    exact Option.some.inj h ▸ .close hth hpt
  · obtain rfl := hk _ (.inr rfl)
    exact Option.some.inj h ▸ .count hth hpt
  · cases h

/-- A process that makes a step is there. -/
theorem alive_of_step (h : s.step avail a = some s') : s.main.alive = true := by
  unfold step at h
  exact (Option.ite_none_right_eq_some.mp h).1

theorem steps_of_step (h : s.step avail a = some s') : Steps avail s a s' := by
  unfold step at h
  obtain ⟨-, h⟩ := Option.ite_none_right_eq_some.mp h
  split at h
  · obtain ⟨th, hth, h⟩ := Option.bind_eq_some_iff.mp h
    exact steps_of_threadStep hth (by simp) h
  · obtain ⟨th, hth, h⟩ := Option.bind_eq_some_iff.mp h
    exact steps_of_threadStep hth (by simp) h
  · obtain ⟨th, hth, h⟩ := Option.bind_eq_some_iff.mp h
    exact steps_of_threadStep hth (by simp) h
  · obtain ⟨th, hth, h⟩ := Option.bind_eq_some_iff.mp h
    exact steps_of_threadStep hth (by simp) h
  · exact steps_of_mainStep h

end Threaded
end SrvAsync
