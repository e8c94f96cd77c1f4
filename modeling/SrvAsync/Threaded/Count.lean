import SrvAsync.Threaded.Steps

/-!
# The count of the server with threads

`main` reads `n_conn` up to three times for a line: for the test, for the number it prints,
and to remember where the next interval starts.  The threads go on counting meanwhile.  What
they count before the second access is in the line; what they count between the last two, or
while there is no line, is in no line at all.

## Main definitions

* `Threaded.counted` — how many connections were handled.
* `Threaded.misses` — a connection is counted while `main` is about to remember the number.

## Main results

* `reports_account` — **every connection that was handled is in one line, is still to be
  printed, or was counted at that moment**.
-/

namespace SrvAsync

open Http Machine

namespace Threaded

variable {avail : Finset Fd} {s s' : Threaded} {a : Act}

/-- The threads that handled their connection. -/
def handled (ths : List Thread) : ℕ := ths.countP fun th => th.point = .returned

/-- How many connections were handled. -/
def counted (s : Threaded) : ℕ := handled s.threads

/-- `main` is about to remember the number. -/
def MainPoint.resetting : MainPoint → Bool
  | .reset _ => true
  | _ => false

/-- A connection is counted, and will be in no line. -/
def misses (s : Threaded) : Act → ℕ
  | .count _ => if s.main.resetting then 1 else 0
  | _ => 0

/-- The connections in the lines that were printed. -/
def reported (s : Threaded) : UInt64 := (s.reports.map Report.conns).sum

/-- The account of a process that is there, when `n` connections will be in no line. -/
structure Account (s : Threaded) (n : ℕ) : Prop where
  nConn : s.nConn = .ofNat s.counted
  lines : s.main.alive = true →
    s.reported + .ofNat n = if s.main.resetting then s.nConn else s.prevNConn

theorem account_start (now : ℤ) : (start now).Account 0 := ⟨rfl, fun _ => rfl⟩

/-- A thread that is set counts when it has returned. -/
theorem handled_set {k : ℕ} {th th' : Thread} (hth : s.threads[k]? = some th)
    (hnot : th.point ≠ .returned) :
    handled (s.threads.set k th') = s.counted + if th'.point = .returned then 1 else 0 := by
  have hlt := (List.getElem?_eq_some_iff.mp hth).1
  obtain rfl : s.threads[k] = th := (List.getElem?_eq_some_iff.mp hth).2
  unfold counted handled
  rw [List.countP_set hlt]
  simp [hnot]

/-- The line is printed. -/
theorem Account.print {n : ℕ} (h : s.Account n) {now : ℤ} (hm : s.main = .print now) :
    Account { s with reports := s.reports ++ [s.report], main := .reset now } n := by
  refine ⟨h.nConn, fun _ => ?_⟩
  have hlines : s.reported + .ofNat n = s.prevNConn := by
    have hlines := h.lines (by rw [hm]; rfl)
    rwa [hm] at hlines
  have hsum : ((s.reports ++ [s.report]).map Report.conns).sum =
      s.reported + (s.nConn - s.prevNConn) := by
    simp [reported, report]
  change ((s.reports ++ [s.report]).map Report.conns).sum + .ofNat n = s.nConn
  rw [hsum, add_right_comm, hlines]
  exact add_sub_cancel _ _

/-- A thread goes on that has not counted its connection. -/
theorem Account.setThread {n : ℕ} (h : s.Account n) {k : ℕ} {th th' : Thread}
    (hth : s.threads[k]? = some th) (hnot : th.point ≠ .returned) (hnot' : th'.point ≠ .returned) :
    (s.setThread k th').Account n := by
  refine ⟨?_, h.lines⟩
  change s.nConn = .ofNat (handled (s.threads.set k th'))
  rw [handled_set hth hnot, if_neg hnot']
  exact h.nConn

/-- A thread counts its connection. -/
theorem Account.count {n : ℕ} (h : s.Account n) {k : ℕ} {th : Thread}
    (hth : s.threads[k]? = some th) (hpt : th.point = .count) :
    Account ({ s with nConn := s.nConn + 1 }.setThread k { th with point := .returned })
      (n + s.misses (.count k)) := by
  have hnot : th.point ≠ .returned := by
    rw [hpt]
    exact ThreadPoint.noConfusion
  refine ⟨?_, fun halive => ?_⟩
  · change s.nConn + 1 = .ofNat (handled (s.threads.set k { th with point := .returned }))
    rw [handled_set hth hnot, if_pos rfl, h.nConn, UInt64.ofNat_add]
    rfl
  · have hlines := h.lines halive
    change s.reported + .ofNat (n + s.misses (.count k)) =
      if s.main.resetting then s.nConn + 1 else s.prevNConn
    unfold misses
    split at hlines
    · next hr =>
      simp only [hr, if_true, UInt64.ofNat_add, ← add_assoc, hlines]
      rfl
    · next hr => simpa [hr] using hlines

/-- **One step.** -/
theorem Account.step {n : ℕ} (h : s.Account n) (hs : s.step avail a = some s') :
    s'.Account (n + s.misses a) := by
  have hlines := h.lines (alive_of_step hs)
  have hother : ∀ {a}, (∀ k, a ≠ .count k) → s.misses a = 0 := by
    intro a ha
    cases a with
    | count k => exact absurd rfl (ha k)
    | _ => rfl
  cases steps_of_step hs with
  | accept hm =>
    rw [hm] at hlines
    exact ⟨h.nConn, fun _ => hlines⟩
  | create hm =>
    rw [hm] at hlines
    refine ⟨?_, fun _ => ?_⟩
    · rw [show (s.created _ _ _).nConn = s.nConn from rfl, h.nConn]
      simp [counted, handled, created]
    · unfold created
      simp only
      split <;> exact hlines
  | retry ha => exact hother ha ▸ h
  | die hm ha => exact ⟨h.nConn, fun halive => absurd (hm.symm.trans halive) Bool.false_ne_true⟩
  | test hm =>
    rw [hm] at hlines
    refine ⟨h.nConn, fun _ => ?_⟩
    change s.reported + .ofNat n = _
    by_cases hne : s.nConn - s.prevNConn ≠ 0
    · simp only [if_pos hne]
      exact hlines
    · -- there is no line when nothing was counted
      simp only [if_neg hne]
      rw [hlines]
      exact (sub_eq_zero.mp (not_not.mp hne)).symm
  | print hm => exact h.print hm
  | reset hm =>
    rw [hm] at hlines
    exact ⟨h.nConn, fun _ => hlines⟩
  | move hth hpt hsock hholds ha =>
    rw [hother ha]
    refine h.setThread hth ?_ fun he => ?_
    · rcases hpt with hpt | hpt <;> rw [hpt] <;> exact ThreadPoint.noConfusion
    · rw [he] at hholds
      cases hholds
  | @close k th hth hpt =>
    have hclosed : (s.setThread k { th with point := .count }).Account n :=
      h.setThread hth (by rw [hpt]; exact ThreadPoint.noConfusion) ThreadPoint.noConfusion
    exact ⟨hclosed.nConn, hclosed.lines⟩
  | count hth hpt => exact h.count hth hpt

/-- **Every connection that was handled is in one line, is still to be printed, or is in no
line**; and the last are those that a thread counted after `main` took the number for its line,
or found that there is none to print, and before it remembered it. -/
theorem reports_account {now : ℤ} {as : List Act}
    (h : run (step avail) (start now) as = some s) (halive : s.main.alive = true)
    (hm : s.main.resetting = false) :
    s.reported + .ofNat (tally misses (step avail) (start now) as) + (s.nConn - s.prevNConn) =
      .ofNat s.counted := by
  have hacc := run_tally (Q := Account) (fun _ _ _ _ hq hs => hq.step hs) as (account_start now) h
  have hlines := hacc.lines halive
  rw [hm, Nat.zero_add] at hlines
  simp only [Bool.false_eq_true, if_false] at hlines
  rw [hlines, ← hacc.nConn]
  exact add_sub_cancel _ _

/-- Two connections; the second one is counted while `main` is behind its line. -/
def missedRun : List Act :=
  [.accept (.ok 4) 3000000, .create none 1000000 0, .read 0 (some [71]), .write 0 (.sent 1024),
    .close 0, .count 0, .accept (.ok 5) 0, .create none 0 5, .read 1 (some [71]),
    .write 1 (.sent 10), .close 1, .main, .main, .count 1, .main]

theorem missedRun_isSome : (run (step {4, 5}) (start 0) missedRun).isSome = true := by decide +kernel

/-- The end of this run. -/
def missedEnd : Threaded := (run (step {4, 5}) (start 0) missedRun).get missedRun_isSome

theorem reports_account_missed : missedEnd.reported +
    .ofNat (tally misses (step {4, 5}) (start 0) missedRun) + (missedEnd.nConn - missedEnd.prevNConn) =
      .ofNat missedEnd.counted :=
  reports_account (Option.some_get missedRun_isSome).symm (by decide +kernel) (by decide +kernel)

example : missedEnd.reported = 1 ∧ missedEnd.counted = 2 ∧
    tally misses (step {4, 5}) (start 0) missedRun = 1 := by decide +kernel

end Threaded
end SrvAsync
