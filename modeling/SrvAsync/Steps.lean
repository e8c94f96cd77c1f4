import SrvAsync.Routines

/-!
# The steps of a worker, one by one

What has to hold for each step of a worker, and what it does, so that proofs about
runs need not unfold the main loop.

## Main definitions

* `Worker.PassStarts` — the pass over the queue starts, with all of it.
* `Worker.PassGoesOn` — the pass goes on behind a coroutine.

## Main results

* `step_block`, `step_poll`, `step_resume`, `step_co`, `step_back`, `step_endPass`.
* `step_read`, `step_write` — the steps of a coroutine that waits for its socket.
* `passStarts_polled` — what `epoll_pwait` leads to.
-/

namespace SrvAsync

open Http Machine

variable {P : Platform}

/-! ### The main loop -/

namespace Worker

variable {w w' : Worker} {t : Tick}

theorem step_block (hs : w.step P (t, .block) = some w') :
    w.ctl = .main ∧ w.phase = .head ∧ w' = { w with phase := .blocked } := by
  unfold step at hs
  simp only at hs
  split at hs
  · next hc =>
    unfold mainStep at hs
    split at hs <;> simp_all
  · cases hs
  · cases hs

/-- `epoll_pwait` returns at the head of the main loop, or out of its sleep. -/
theorem step_poll {r : EpollResult} (hs : w.step P (t, .poll r) = some w') :
    w.ctl = .main ∧ (w.phase = .head ∨ w.phase = .blocked) ∧ w.polled r = some w' := by
  unfold step at hs
  simp only at hs
  split at hs
  · next hc =>
    unfold mainStep at hs
    split at hs <;> simp_all
  · cases hs
  · cases hs

/-- The pass has come to a connection, and is about to switch to it. -/
def selected (w : Worker) (p : Ptr) (todo : List Ptr) : Worker :=
  { w with
    queue := { w.queue with currConn := some p }
    self := p
    phase := .resumed p todo }

/-- The pass switches to its next connection. -/
theorem step_resume {fcntlOk : Bool} (hs : w.step P (t, .resume fcntlOk) = some w') :
    ∃ p todo s', w.ctl = .main ∧ w.phase = .pass (p :: todo) ∧
      ((w.selected p todo).load p).step P t (.resume fcntlOk) = some s' ∧
      w' = (w.selected p todo).store p s' := by
  unfold step at hs
  simp only at hs
  split at hs
  · next hc =>
    unfold mainStep at hs
    split at hs
    · next he => cases he
    · next he => cases he
    · next he => cases he
    · next p todo fcntlOk' hph he =>
      cases he
      obtain ⟨s', hs', rfl⟩ := Option.map_eq_some_iff.mp hs
      refine ⟨p, todo, s', hc, hph, ?_, rfl⟩
      -- `resume` sets `self` itself, so it may as well be the connection before
      rw [← hs']
      unfold St.step
      simp only [selected, Worker.load, hc]
      rfl
    · next he => cases he
    · next he => cases he
    · cases hs
  · cases hs
  · cases hs

/-- The running coroutine goes on. -/
theorem step_co {op : Op} (hs : w.step P (t, .co op) = some w') :
    ∃ pt p s', w.ctl = .coro pt ∧ w.queue.currConn = some p ∧
      (w.load p).step P t op = some s' ∧ w' = w.store p s' := by
  unfold step at hs
  simp only at hs
  split at hs
  · next hc =>
    unfold mainStep at hs
    split at hs <;> simp_all
  · next pt hc =>
    split at hs
    · next op' p he hcur =>
      cases he
      obtain ⟨s', hs', rfl⟩ := Option.map_eq_some_iff.mp hs
      exact ⟨pt, p, s', hc, hcur, hs', rfl⟩
    · cases hs
  · cases hs

/-- The running coroutine gets an answer from its `read`. -/
theorem step_read {f : RecvFrame} {k : RecvCaller} {p : Ptr} (hctl : w.ctl = .coro (.recv f k))
    (hcur : w.queue.currConn = some p) (r : ReadResult) : w.step P (t, .co (.read r)) =
      if r.Fits f.toRecv then some (w.store p (recvRead (w.load p) t f k (recvReturned P t k) r))
      else none := by
  have hctl' : (w.load p).ctl = .coro (.recv f k) := hctl
  unfold step
  simp only [hctl, hcur, St.step, hctl']
  split <;> rfl

/-- The running coroutine gets an answer from its `write`. -/
theorem step_write {f : SendFrame} {k : SendCaller} {p : Ptr} (hctl : w.ctl = .coro (.send f k))
    (hcur : w.queue.currConn = some p) (r : WriteResult) : w.step P (t, .co (.write r)) =
      if r.Fits f.toSend then some (w.store p (sendWrite (w.load p) t f k (sendHttpMsgSent k) r))
      else none := by
  have hctl' : (w.load p).ctl = .coro (.send f k) := hctl
  unfold step
  simp only [hctl, hcur, St.step, hctl']
  split <;> rfl

/-- A `read` returns to a coroutine that is at its `read`. -/
theorem ctl_of_read {r : ReadResult} (hs : w.step P (t, .co (.read r)) = some w') :
    ∃ f k, w.ctl = .coro (.recv f k) := by
  obtain ⟨pt, p, s', hctl, -, hst, -⟩ := step_co hs
  obtain ⟨f, k, hc, -⟩ := St.step_read hst
  exact ⟨f, k, hc⟩

/-- A `write` returns to a coroutine that is at its `write`. -/
theorem ctl_of_write {r : WriteResult} (hs : w.step P (t, .co (.write r)) = some w') :
    ∃ f k, w.ctl = .coro (.send f k) := by
  obtain ⟨pt, p, s', hctl, -, hst, -⟩ := step_co hs
  obtain ⟨f, k, hc, -⟩ := St.step_write hst
  exact ⟨f, k, hc⟩

/-- A step leads to another state the worker can get into. -/
theorem Reachable.step {i : Tick × WorkerOp} (h : Reachable P w) (hs : w.step P i = some w') :
    Reachable P w' := by
  obtain ⟨heap, mem, outs, w₀, is, h₀, hr⟩ := h
  refine ⟨heap, mem, outs, w₀, is ++ [i], h₀, ?_⟩
  rw [run_append_of_eq _ hr]
  exact run_cons_eq_some_iff.mpr ⟨w', hs, rfl⟩

/-- A state a worker can get into is a first one, or a step led to it. -/
theorem Reachable.cases (h : Reachable P w) :
    (∃ heap mem outs, init heap mem outs = some w) ∨
      ∃ w₁ i, Reachable P w₁ ∧ w₁.step P i = some w := by
  obtain ⟨heap, mem, outs, w₀, is, h₀, hr⟩ := h
  rcases List.eq_nil_or_concat is with rfl | ⟨is, i, rfl⟩
  · obtain rfl := Option.some.inj hr
    exact .inl ⟨heap, mem, outs, h₀⟩
  · rw [List.concat_eq_append, run_append, Option.bind_eq_some_iff] at hr
    obtain ⟨w₁, h₁, hr⟩ := hr
    obtain ⟨w₂, h₂, hr⟩ := run_cons_eq_some_iff.mp hr
    obtain rfl := Option.some.inj hr
    exact .inr ⟨w₁, i, ⟨heap, mem, outs, w₀, is, h₀, h₁⟩, h₂⟩

/-- The coroutine has switched back. -/
theorem step_back (hs : w.step P (t, .back) = some w') :
    ∃ p todo, w.ctl = .main ∧ w.phase = .resumed p todo ∧ w' = w.swappedBack (t.clk 0) p todo := by
  unfold step at hs
  simp only at hs
  split at hs
  · next hc =>
    unfold mainStep at hs
    split at hs <;> simp_all
  · cases hs
  · cases hs

/-- What the main loop does behind `swap_to_conn_ctx`. -/
structure PassGoesOn (w : Worker) (now : Time) (p : Ptr) (todo : List Ptr) (w' : Worker) : Prop where
  ctl : w'.ctl = w.ctl
  queue : w'.queue.qconnList =
    if (w.heap p).isCompleted then w.queue.qconnList.erase p else w.queue.qconnList
  retired : w'.retired = if (w.heap p).isCompleted then w.heap p :: w.retired else w.retired
  phase : w'.phase = .pass todo
  accepted : w'.accepted = w.accepted
  lastCtxSwap : w'.queue.lastCtxSwap = now
  heap : w'.heap = w.heap
  mem : w'.mem = w.mem
  fds : w'.fds = w.fds

theorem passGoesOn_swappedBack (w : Worker) (now : Time) (p : Ptr) (todo : List Ptr) :
    PassGoesOn w now p todo (w.swappedBack now p todo) := by
  by_cases hc : (w.heap p).isCompleted = true
  · unfold Worker.swappedBack Worker.freeConnCtx
    simp only [hc, if_true]
    split <;> exact ⟨rfl, (if_pos hc).symm, (if_pos hc).symm, rfl, rfl, rfl, rfl, rfl, rfl⟩
  · unfold Worker.swappedBack
    simp only [if_neg hc]
    exact ⟨rfl, (if_neg hc).symm, (if_neg hc).symm, rfl, rfl, rfl, rfl, rfl, rfl⟩

/-- The coroutine has switched back, and the pass goes on. -/
theorem step_back_of_main {p : Ptr} {todo : List Ptr} (hctl : w.ctl = .main)
    (hph : w.phase = .resumed p todo) :
    w.step P (t, .back) = some (w.swappedBack (t.clk 0) p todo) := by
  unfold Worker.step
  simp only [hctl, mainStep, hph]

theorem step_endPass (hs : w.step P (t, .endPass) = some w') :
    w.ctl = .main ∧ w.phase = .pass [] ∧ w' = { w with phase := .head } := by
  unfold step at hs
  simp only at hs
  split at hs
  · next hc =>
    unfold mainStep at hs
    split at hs <;> simp_all
  · cases hs
  · cases hs

/-! ### What `epoll_pwait` leads to -/

/-- An allocation takes no context of the queue. -/
theorem fillRound_queue {o : Option Ptr} (hs : w.fillRound o = some w') :
    w'.queue = w.queue ∧ ∀ q ∈ w.queue.qconnList, w'.heap q = w.heap q := by
  cases o with
  | none =>
    obtain rfl := Option.some.inj hs
    exact ⟨rfl, fun _ _ => rfl⟩
  | some p =>
    unfold fillRound at hs
    simp only at hs
    split at hs
    · cases hs
    · next hnew =>
      obtain rfl := Option.some.inj hs
      rw [not_or] at hnew
      refine ⟨rfl, fun q hq => ?_⟩
      have hne : q ≠ p := by
        rintro rfl
        exact hnew.1 hq
      exact Function.update_of_ne hne ..

theorem foldlM_fillRound_queue {outs : List (Option Ptr)} : ∀ {w : Worker},
    outs.foldlM fillRound w = some w' →
    w'.queue = w.queue ∧ ∀ q ∈ w.queue.qconnList, w'.heap q = w.heap q := by
  induction outs with
  | nil =>
    intro w hs
    obtain rfl := Option.some.inj hs
    exact ⟨rfl, fun _ _ => rfl⟩
  | cons o outs ih =>
    intro w hs
    rw [List.foldlM_cons, Option.bind_eq_bind, Option.bind_eq_some_iff] at hs
    obtain ⟨w₁, h₁, hs⟩ := hs
    obtain ⟨hq₁, hh₁⟩ := fillRound_queue h₁
    obtain ⟨hq, hh⟩ := ih hs
    refine ⟨hq.trans hq₁, fun q hmem => ?_⟩
    rw [hh q (hq₁ ▸ hmem), hh₁ q hmem]

theorem refillConnCtxCache_queue {outs : List (Option Ptr)} (hs : w.refillConnCtxCache outs = some w') :
    w'.queue = w.queue ∧ ∀ q ∈ w.queue.qconnList, w'.heap q = w.heap q := by
  unfold refillConnCtxCache fillConnCtxCache at hs
  split at hs
  · split at hs
    · exact foldlM_fillRound_queue hs
    · cases hs
  · split at hs
    · obtain rfl := Option.some.inj hs
      exact ⟨rfl, fun _ _ => rfl⟩
    · cases hs

/-- Taking a context leaves the queue and the heap alone. -/
theorem takeConnCtx_some {p : Ptr} (hs : w.takeConnCtx = (some p, w')) :
    w'.queue = w.queue ∧ w'.heap = w.heap := by
  unfold takeConnCtx at hs
  split at hs
  · cases hs
  · split at hs
    · cases hs
    · obtain ⟨-, rfl⟩ := Prod.mk.inj hs
      exact ⟨rfl, rfl⟩

/-- Every connection in the queue that has a history was there before. -/
def QueueFrom (w w' : Worker) : Prop :=
  ∀ q ∈ w'.queue.qconnList, (w'.heap q).hist ≠ [] → q ∈ w.queue.qconnList ∧ w'.heap q = w.heap q

/-- A new connection has no history. -/
theorem queueFrom_startConn {p : Ptr} (fd : Fd) (m : ℕ)
    (hnd : (w.startConn p fd m).queue.qconnList.Nodup) : QueueFrom w (w.startConn p fd m) := by
  intro q hq hhist
  have hp : p ∉ w.queue.qconnList := (List.nodup_cons.mp hnd).1
  have hq' : q ∈ p :: w.queue.qconnList := hq
  rcases List.mem_cons.mp hq' with rfl | hmem
  · refine absurd ?_ hhist
    change (Function.update w.heap q (initNewConnCtx (w.heap q) q fd m) q).hist = []
    rw [Function.update_self]
    rfl
  · have hne : q ≠ p := by
      rintro rfl
      exact hp hmem
    exact ⟨hmem, Function.update_of_ne hne ..⟩

theorem queueFrom_createNewConn {fd : Fd} {m : ℕ} {outs : List (Option Ptr)}
    (hs : w.createNewConn fd m outs = some w') (hnd : w'.queue.qconnList.Nodup) :
    QueueFrom w w' ∨ ∃ d, w'.ctl = .dead d := by
  unfold createNewConn at hs
  obtain ⟨w₁, h₁, rfl⟩ := Option.map_eq_some_iff.mp hs
  obtain ⟨hq₁, hh₁⟩ := refillConnCtxCache_queue h₁
  revert hnd
  split
  · next p w₂ htake =>
    intro hnd
    obtain ⟨hq₂, hh₂⟩ := takeConnCtx_some htake
    refine .inl fun q hq hhist => ?_
    obtain ⟨hmem, hheap⟩ := queueFrom_startConn fd m hnd q hq hhist
    rw [hq₂, hq₁] at hmem
    refine ⟨hmem, ?_⟩
    rw [hheap, hh₂, hh₁ q hmem]
  · exact fun _ => .inr ⟨.exit, rfl⟩

/-- The pass over the queue starts with all of it, and only a new connection is not what it was. -/
structure PassStarts (w w' : Worker) : Prop where
  phase : w'.phase = .pass w'.queue.qconnList
  queueFrom : QueueFrom w w'

theorem passStarts_startPass (w : Worker) : PassStarts w w.startPass :=
  ⟨rfl, fun _ hq _ => ⟨hq, rfl⟩⟩

/-- **`epoll_pwait` leads to a pass over the queue**, or to the end of the process. -/
theorem passStarts_polled {r : EpollResult} (hs : w.polled r = some w')
    (hnd : w'.queue.qconnList.Nodup) : PassStarts w w' ∨ ∃ d, w'.ctl = .dead d := by
  cases r with
  | timeout => exact .inl (Option.some.inj hs ▸ passStarts_startPass w)
  | eintr => exact .inl (Option.some.inj hs ▸ passStarts_startPass w)
  | error => exact .inr ⟨.exit, Option.some.inj hs ▸ rfl⟩
  | ready accept outs =>
    cases accept with
    | none =>
      simp only [polled] at hs
      split at hs
      · exact .inl (Option.some.inj hs ▸ passStarts_startPass w)
      · cases hs
    | some fd =>
      simp only [polled] at hs
      split at hs
      · obtain ⟨w₁, h₁, rfl⟩ := Option.map_eq_some_iff.mp hs
        rcases queueFrom_createNewConn h₁ hnd with hfrom | ⟨d, hd⟩
        · exact .inl ⟨rfl, hfrom⟩
        · exact .inr ⟨d, hd⟩
      · cases hs

end Worker

end SrvAsync
