import SrvAsync.Isolation
import SrvAsync.Kernel

/-!
# Connections that fail

When a `read` or a `write` fails, the coroutine closes its connection and switches back,
and the main loop removes the connection from the queue.  A `write` on a socket whose peer
has gone fails with `EPIPE`, and the kernel also raises `SIGPIPE`, which ends a process that
did not block, ignore or handle it.

`main` sets a handler for `SIGINT`; `handle_connections_routine` blocks and ignores `SIGIO`
and sets another handler for `SIGINT`.  What `SIGPIPE` does is left as the program found it
when it was started: it is ignored when the parent ignored it, and has its default action
otherwise.

## Main definitions

* `Signals`, `workerSignals` — the signals of a worker process.
* `Process`, `Process.step` — a worker that signals can end.
* `Fails` — a step in which a call on the socket of the running connection fails.
* `Removed`, `SameBut`, `FaultIsolated`.

## Main results

* `worksOn_run` — what a running coroutine leaves alone.
* `faults_isolated` — **a failing call is isolated exactly when it raises no deadly signal**.
* `killed_by_epipe` — a client that has gone.
-/

namespace SrvAsync

open Http History Machine Worker

/-! ### The signals of a process -/

/-- The signals the server sets up, and the one a `write` raises. -/
inductive Signal
  | sigint
  | sigio
  | sigpipe
  deriving DecidableEq, Repr

/-- The signal mask of a process, and what its signals do. -/
structure Signals where
  blocked : Signal → Bool
  disposition : Signal → Disposition

namespace Signals

/-- The signals of a program that starts: none is blocked, and those the parent ignored
are ignored. -/
def exec (ignored : Signal → Bool) : Signals :=
  ⟨fun _ => false, fun s => if ignored s then .ign else .dfl⟩

/-- `sigprocmask(SIG_BLOCK)` for one signal. -/
def block (σ : Signals) (s : Signal) : Signals :=
  { σ with blocked := Function.update σ.blocked s true }

/-- `signal`. -/
def signal (σ : Signals) (s : Signal) (d : Disposition) : Signals :=
  { σ with disposition := Function.update σ.disposition s d }

/-- The signal ends the process that raises it: this is the default action of all three. -/
def Kills (σ : Signals) (s : Signal) : Prop := σ.blocked s = false ∧ σ.disposition s = .dfl

instance (σ : Signals) (s : Signal) : Decidable (σ.Kills s) := inferInstanceAs (Decidable (_ ∧ _))

end Signals

/-- The signal setup of `main`, which the workers inherit. -/
def mainSignals (σ : Signals) : Signals := σ.signal .sigint .handler

/-- The signal setup of `handle_connections_routine`. -/
def routineSignals (σ : Signals) : Signals :=
  ((σ.block .sigio).signal .sigio .ign).signal .sigint .handler

/-- The signals of a worker, in a server whose parent ignored these. -/
def workerSignals (ignored : Signal → Bool) : Signals :=
  routineSignals (mainSignals (.exec ignored))

/-- **Nothing is set up for `SIGPIPE`**: it kills a worker, unless the parent ignored it. -/
theorem kills_sigpipe_iff (ignored : Signal → Bool) :
    (workerSignals ignored).Kills .sigpipe ↔ ignored .sigpipe = false := by
  have hblocked : (workerSignals ignored).blocked .sigpipe = false := rfl
  have hdisp : (workerSignals ignored).disposition .sigpipe
      = if ignored .sigpipe then .ign else .dfl := rfl
  unfold Signals.Kills
  rw [hblocked, hdisp]
  cases ignored .sigpipe with
  | false => exact ⟨fun _ => rfl, fun _ => ⟨rfl, rfl⟩⟩
  | true => exact ⟨fun h => Disposition.noConfusion h.2, fun h => Bool.noConfusion h⟩

/-! ### A worker process -/

/-- Why a call on a socket failed, other than that it would block. -/
inductive Errno
  | epipe
  | econnreset
  | etimedout
  | other
  deriving DecidableEq, Repr

/-- A call on the socket of the running connection fails. -/
inductive Fails : WorkerOp → Prop
  | read : Fails (.co (.read .error))
  | write : Fails (.co (.write .error))

/-- The signal that the kernel raises in a step, when it leaves this in `errno`. -/
def raised : WorkerOp → Errno → Option Signal
  | .co (.write .error), .epipe => some .sigpipe
  | _, _ => none

/-- A worker process, or the signal that ended it. -/
inductive Process
  | running (w : Worker)
  | killed (s : Signal)

/-- What a step of a process takes from outside; `errno` counts when a call fails. -/
structure ProcessInput where
  tick : Tick
  op : WorkerOp
  errno : Errno

variable {P : Platform} {w w' w₁ w₂ : Worker} {p : Ptr} {t : Tick} {op : WorkerOp} {e : Errno}
  {ignored : Signal → Bool}

/-- One step of a process: a deadly signal comes before the failing call returns. -/
def Process.step (P : Platform) (σ : Signals) : Process → ProcessInput → Option Process
  | .running w, i =>
    (w.step P (i.tick, i.op)).map fun w' =>
      match raised i.op i.errno with
      | some s => if σ.Kills s then .killed s else .running w'
      | none => .running w'
  | .killed _, _ => none

/-- A `write` fails with `EPIPE` in a server whose parent did not ignore `SIGPIPE`. -/
def Broken (ignored : Signal → Bool) (op : WorkerOp) (e : Errno) : Prop :=
  op = .co (.write .error) ∧ e = .epipe ∧ ignored .sigpipe = false

theorem raised_cases (op : WorkerOp) (e : Errno) :
    raised op e = none ∨ op = .co (.write .error) ∧ e = .epipe ∧ raised op e = some .sigpipe := by
  unfold raised
  split
  · exact .inr ⟨rfl, rfl, rfl⟩
  · exact .inl rfl

/-- **Only a broken pipe ends a process**; every other step is the step of its worker. -/
theorem step_running (hs : w.step P (t, op) = some w') :
    (Process.running w).step P (workerSignals ignored) ⟨t, op, e⟩ = some (.running w') ∧
        ¬ Broken ignored op e ∨
      (Process.running w).step P (workerSignals ignored) ⟨t, op, e⟩ = some (.killed .sigpipe) ∧
        Broken ignored op e := by
  unfold Process.step
  simp only [hs, Option.map_some]
  rcases raised_cases op e with hr | ⟨hop, he, hr⟩
  · refine .inl ⟨by rw [hr], ?_⟩
    rintro ⟨rfl, rfl, -⟩
    cases hr
  · rw [hr]
    by_cases hk : (workerSignals ignored).Kills .sigpipe
    · refine .inr ⟨by simp only [if_pos hk], hop, he, (kills_sigpipe_iff ignored).mp hk⟩
    · refine .inl ⟨by simp only [if_neg hk], ?_⟩
      rintro ⟨-, -, hi⟩
      exact hk ((kills_sigpipe_iff ignored).mpr hi)

theorem step_running_of_not_broken (hs : w.step P (t, op) = some w') (hb : ¬ Broken ignored op e) :
    (Process.running w).step P (workerSignals ignored) ⟨t, op, e⟩ = some (.running w') := by
  rcases step_running hs with ⟨h, -⟩ | ⟨-, h⟩
  · exact h
  · exact absurd h hb

theorem step_killed_of_broken (hs : w.step P (t, op) = some w') (hb : Broken ignored op e) :
    (Process.running w).step P (workerSignals ignored) ⟨t, op, e⟩ = some (.killed .sigpipe) := by
  rcases step_running hs with ⟨-, h⟩ | ⟨h, -⟩
  · exact absurd hb h
  · exact h

/-- What a step of a process says about its worker. -/
theorem step_of_process {σ : Signals} {i : ProcessInput} {pr : Process}
    (hs : (Process.running w).step P σ i = some pr) : ∃ w', w.step P (i.tick, i.op) = some w' := by
  obtain ⟨w', hw', -⟩ := Option.map_eq_some_iff.mp hs
  exact ⟨w', hw'⟩

/-- A process that is running is in a state its worker can get into. -/
theorem reachable_of_running {σ : Signals} (is : List ProcessInput) (h : Reachable P w)
    (hr : run (Process.step P σ) (.running w) is = some (.running w')) : Reachable P w' := by
  refine run_invariant (P := fun pr => ∀ w, pr = .running w → Reachable P w)
    ?_ is ?_ hr w' rfl
  · intro pr i pr' hpr hs w₁ he
    cases pr with
    | killed s => cases hs
    | running w =>
      obtain ⟨w₂, hw₂, hmatch⟩ := Option.map_eq_some_iff.mp hs
      have hreach := (hpr w rfl).step hw₂
      -- whatever is raised, a process that goes on goes on with its worker
      have heq : w₁ = w₂ := by
        subst he
        revert hmatch
        cases raised i.op i.errno with
        | none => exact fun h => (Process.running.inj h).symm
        | some s =>
          simp only
          split
          · exact fun h => Process.noConfusion h
          · exact fun h => (Process.running.inj h).symm
      rw [heq]
      exact hreach
  · intro w₁ he
    rw [← Process.running.inj he]
    exact h

/-- A process in which no pipe breaks is not ended by a signal. -/
theorem running_of_along (is : List ProcessInput) (hno : ∀ i ∈ is, ¬ Broken ignored i.op i.errno)
    {pr : Process} (hr : run (Process.step P (workerSignals ignored)) (.running w) is = some pr) :
    ∃ w', pr = .running w' := by
  refine run_invariant_along (P := fun pr => ∃ w', pr = .running w')
    (Q := fun _ i => ¬ Broken ignored i.op i.errno) ?_ is ⟨w, rfl⟩ (along_of_forall fun i hi _ => hno i hi) hr
  rintro pr i pr' ⟨w, rfl⟩ hb hs
  obtain ⟨w', hw'⟩ := step_of_process hs
  exact ⟨w', Option.some.inj (hs.symm.trans (step_running_of_not_broken hw' hb))⟩

/-- A run of a worker is a run of its process, as long as no pipe breaks. -/
theorem running_of_run : ∀ {is : List ProcessInput} {w : Worker},
    (∀ i ∈ is, ¬ Broken ignored i.op i.errno) →
    run (Worker.step P) w (is.map fun i => (i.tick, i.op)) = some w' →
    run (Process.step P (workerSignals ignored)) (.running w) is = some (.running w') := by
  intro is
  induction is with
  | nil =>
    intro w _ hr
    obtain rfl := Option.some.inj hr
    rfl
  | cons i is ih =>
    intro w hno hr
    obtain ⟨w₁, h₁, hr⟩ := run_cons_eq_some_iff.mp hr
    have hstep := step_running_of_not_broken h₁ (hno i List.mem_cons_self)
    exact run_cons_eq_some_iff.mpr
      ⟨_, hstep, ih (fun j hj => hno j (List.mem_cons_of_mem _ hj)) hr⟩

/-! ### What a running coroutine leaves alone -/

/-- Only this connection was worked on: the main loop, the queue and every other connection are
as before. -/
structure WorksOn (p : Ptr) (w w' : Worker) : Prop where
  qconnList : w'.queue.qconnList = w.queue.qconnList
  phase : w'.phase = w.phase
  accepted : w'.accepted = w.accepted
  retired : w'.retired = w.retired
  self : w'.self = w.self
  connSock : (w'.heap p).connSock = (w.heap p).connSock
  heap : ∀ q, q ≠ p → w'.heap q = w.heap q
  mem : ∀ q, q ≠ p → w'.mem q = w.mem q
  fds : ∀ fd, fd ≠ (w.heap p).connSock → w'.fds fd = w.fds fd

theorem WorksOn.refl (p : Ptr) (w : Worker) : WorksOn p w w :=
  ⟨rfl, rfl, rfl, rfl, rfl, rfl, fun _ _ => rfl, fun _ _ => rfl, fun _ _ => rfl⟩

theorem WorksOn.trans (h : WorksOn p w w₁) (h' : WorksOn p w₁ w₂) : WorksOn p w w₂ where
  qconnList := h'.qconnList.trans h.qconnList
  phase := h'.phase.trans h.phase
  accepted := h'.accepted.trans h.accepted
  retired := h'.retired.trans h.retired
  self := h'.self.trans h.self
  connSock := h'.connSock.trans h.connSock
  heap := fun q hq => (h'.heap q hq).trans (h.heap q hq)
  mem := fun q hq => (h'.mem q hq).trans (h.mem q hq)
  fds := fun fd hfd => (h'.fds fd (h.connSock ▸ hfd)).trans (h.fds fd hfd)

/-- The socket a step of a coroutine may close is the one of its connection. -/
theorem fds_of_keeps {s s' : St} (h : Keeps s s' ∨ Exits s s') {fd : Fd}
    (hfd : fd ≠ s.curr.connSock) : s'.fds fd = s.fds fd := by
  have hcases : s'.fds = s.fds ∨ s'.fds = Function.update s.fds s.curr.connSock none := by
    rcases h with h | h
    · exact h.fds.imp_right And.right
    · exact .inr h.fds
  rcases hcases with he | he
  · rw [he]
  · rw [he, Function.update_of_ne hfd]

/-- **A step of the running coroutine works on its own connection only.** -/
theorem worksOn_co (h : Reachable P w) {op : Op} (hs : w.step P (t, .co op) = some w') :
    WorksOn w.self w w' := by
  obtain ⟨pt, p, s', hctl, hcur, hst, rfl⟩ := step_co hs
  obtain ⟨todo, -, hcur', hp, a, -, href⟩ := refines_of_coro h hctl
  obtain rfl : p = w.self := Option.some.inj (hcur.symm.trans hcur')
  have hbuf := ((inv_reachable h).owned _ hp).recvBufP
  have hkeeps := keeps_step href hst
  have hshares : Shares (w.load w.self) s' := shares_step href hst
  refine
    { qconnList := hshares.qconnList, phase := rfl, accepted := rfl, retired := rfl
      self := hshares.self, connSock := ?_, heap := fun q hq => w.store_heap_of_ne s' hq
      mem := fun q hq => hshares.mem q fun he => hq (he.trans hbuf)
      fds := fun fd hfd => fds_of_keeps hkeeps hfd }
  rw [store_heap_self]
  exact hshares.connSock

/-- The steps of a coroutine, one after the other. -/
def Coroutine (is : List (Tick × WorkerOp)) : Prop := ∀ i ∈ is, ∃ op, i.2 = .co op

/-- **However far the running coroutine goes**, it works on its own connection only. -/
theorem worksOn_run : ∀ {is : List (Tick × WorkerOp)} {w : Worker}, Reachable P w → Coroutine is →
    run (Worker.step P) w is = some w' → WorksOn w.self w w' ∧ Reachable P w' := by
  intro is
  induction is with
  | nil =>
    intro w h _ hr
    obtain rfl := Option.some.inj hr
    exact ⟨.refl _ _, h⟩
  | cons i is ih =>
    intro w h hco hr
    obtain ⟨t, op'⟩ := i
    obtain ⟨op, rfl⟩ : ∃ op, op' = .co op := hco _ List.mem_cons_self
    obtain ⟨w₁, h₁, hr⟩ := run_cons_eq_some_iff.mp hr
    have hstep := worksOn_co h h₁
    obtain ⟨hrest, hreach⟩ := ih (h.step h₁) (fun i hi => hco i (List.mem_cons_of_mem _ hi)) hr
    rw [hstep.self] at hrest
    exact ⟨hstep.trans hrest, hreach⟩

/-! ### Back in the main loop -/

/-- **Apart from this connection the workers are the same**: the queue, the rest of the pass, and
the state, the receive buffer and the socket of every other connection. -/
structure SameBut (p : Ptr) (w w' : Worker) : Prop where
  queue : w.queue.qconnList.erase p = w'.queue.qconnList.erase p
  phase : w.phase = w'.phase
  accepted : w.accepted = w'.accepted
  lastCtxSwap : w.queue.lastCtxSwap = w'.queue.lastCtxSwap
  heap : ∀ q, q ≠ p → w.heap q = w'.heap q
  mem : ∀ q, q ≠ p → w.mem q = w'.mem q
  fds : ∀ fd, fd ≠ (w.heap p).connSock → w.fds fd = w'.fds fd

/-- The queue without a connection does not show whether it was removed. -/
theorem Worker.PassGoesOn.erase_queue {now : Time} {todo : List Ptr} (h : PassGoesOn w now p todo w')
    (hnd : w.queue.qconnList.Nodup) : w'.queue.qconnList.erase p = w.queue.qconnList.erase p := by
  rw [h.queue]
  split
  · exact List.erase_of_not_mem fun hmem => (hnd.mem_erase_iff.mp hmem).1 rfl
  · rfl

/-- Two coroutines that worked on the same connection and switched back at the same time leave
the same behind, apart from that connection. -/
theorem sameBut_back {w₁' w₂' : Worker} {now : Time} {todo : List Ptr} (hnd : w.queue.qconnList.Nodup)
    (h₁ : WorksOn p w w₁) (h₂ : WorksOn p w w₂) (h₁' : PassGoesOn w₁ now p todo w₁')
    (h₂' : PassGoesOn w₂ now p todo w₂') : SameBut p w₁' w₂' where
  queue := by
    rw [h₁'.erase_queue (h₁.qconnList ▸ hnd), h₂'.erase_queue (h₂.qconnList ▸ hnd), h₁.qconnList,
      h₂.qconnList]
  phase := h₁'.phase.trans h₂'.phase.symm
  accepted := by rw [h₁'.accepted, h₂'.accepted, h₁.accepted, h₂.accepted]
  lastCtxSwap := h₁'.lastCtxSwap.trans h₂'.lastCtxSwap.symm
  heap := fun q hq => by rw [h₁'.heap, h₂'.heap, h₁.heap q hq, h₂.heap q hq]
  mem := fun q hq => by rw [h₁'.mem, h₂'.mem, h₁.mem q hq, h₂.mem q hq]
  fds := fun fd hfd => by
    rw [h₁'.heap, h₁.connSock] at hfd
    rw [h₁'.fds, h₂'.fds, h₁.fds fd hfd, h₂.fds fd hfd]

/-! ### Failing calls -/

/-- The connection was closed, and it was taken out of the queue. -/
structure Removed (w : Worker) (p : Ptr) (w' : Worker) : Prop where
  ctl : w'.ctl = .main
  queue : w'.queue.qconnList = w.queue.qconnList.erase p
  retired : ∃ c, w'.retired = c :: w.retired ∧ c.inst = (w.heap p).inst ∧ c.isCompleted = true ∧
    closes c.hist = [some c.inst]
  fds : w'.fds = Function.update w.fds (w.heap p).connSock none

/-- The connection of a running coroutine is open. -/
theorem opened_of_coro (h : Reachable P w) {pt : Point} (hctl : w.ctl = .coro pt) :
    (w.heap w.self).isCompleted = false := by
  obtain ⟨-, -, -, -, a, -, href⟩ := refines_of_coro h hctl
  obtain ⟨hrun, hrep⟩ := (refines_coro_iff hctl).mp href
  have hst : Stands P (w.heap w.self) a.size pt a.stage := hrep.stands
  generalize a.stage = st at hst
  cases hst with
  | recvHdr hat => exact hat.opened
  | recvBody hat => exact hat.opened
  | checkChunk hat => exact hat.opened
  | send hat => exact hat.opened
  | checkPacket hat => exact hat.opened
  | checkAnswered hat => exact hat.opened
  | _ => exact Bool.noConfusion hrun

/-- The connection was closed, and its coroutine has switched back. -/
structure Shut (w : Worker) (p : Ptr) (w' : Worker) : Prop where
  ctl : w'.ctl = .main
  qconnList : w'.queue.qconnList = w.queue.qconnList
  retired : w'.retired = w.retired
  phase : w'.phase = w.phase
  completed : (w'.heap p).isCompleted = true
  inst : (w'.heap p).inst = (w.heap p).inst
  closed : closes (w'.heap p).hist = closes (w.heap p).hist ++ [w.fds (w.heap p).connSock]
  fds : w'.fds = Function.update w.fds (w.heap p).connSock none

/-- `curr_conn_close` on an open connection, and the switch behind it. -/
theorem shut_currConnClose (hopen : (w.heap p).isCompleted = false) {ev : Event}
    (hev : closes [ev] = []) (pt : Point) :
    Shut w p (w.store p ((((w.load p).log ev).currConnClose).swapToMainCtx pt)) := by
  have hopen' : ((w.load p).log ev).curr.isCompleted = false := hopen
  unfold St.currConnClose
  rw [hopen']
  constructor
  case completed => rw [store_heap_self]; rfl
  case inst => rw [store_heap_self]; rfl
  case closed =>
    rw [store_heap_self]
    change closes (((w.heap p).hist ++ [ev]) ++ [.close (w.fds (w.heap p).connSock)]) = _
    rw [closes_append, closes_append, hev, List.append_nil]
    rfl
  all_goals rfl

/-- **A failing call closes its connection**, and the coroutine switches back. -/
theorem shut_of_fails (h : Reachable P w) (hf : Fails op) (hs : w.step P (t, op) = some w₁) :
    w.self ∈ w.queue.qconnList ∧ (w.heap w.self).isCompleted = false ∧
      (∃ todo, w.phase = .resumed w.self todo) ∧ Shut w w.self w₁ := by
  cases hf with
  | read =>
    obtain ⟨f, k, hctl⟩ := ctl_of_read hs
    obtain ⟨todo, hph, hcur, hp, -⟩ := refines_of_coro h hctl
    have hopen := opened_of_coro h hctl
    rw [step_read hctl hcur] at hs
    obtain ⟨-, hs⟩ := Option.ite_none_right_eq_some.mp hs
    obtain rfl := Option.some.inj hs
    exact ⟨hp, hopen, ⟨todo, hph⟩, shut_currConnClose hopen rfl _⟩
  | write =>
    obtain ⟨f, k, hctl⟩ := ctl_of_write hs
    obtain ⟨todo, hph, hcur, hp, -⟩ := refines_of_coro h hctl
    have hopen := opened_of_coro h hctl
    rw [step_write hctl hcur] at hs
    obtain ⟨-, hs⟩ := Option.ite_none_right_eq_some.mp hs
    obtain rfl := Option.some.inj hs
    exact ⟨hp, hopen, ⟨todo, hph⟩, shut_currConnClose hopen rfl _⟩

/-- The socket of an open connection, in a worker that makes a step. -/
theorem socket_of_opened (h : Reachable P w) (hs : w.step P (t, op) = some w')
    (hp : p ∈ w.queue.qconnList) (hopen : (w.heap p).isCompleted = false) :
    w.fds (w.heap p).connSock = some (w.heap p).inst ∧ closes (w.heap p).hist = [] := by
  rcases ((inv_reachable h).owned p hp).file with ⟨-, hf, hcl⟩ | ⟨hc, -⟩ | ⟨hd, -⟩
  · exact ⟨hf, hcl⟩
  · exact absurd (hopen.symm.trans hc) Bool.noConfusion
  · unfold Worker.step at hs
    rw [hd] at hs
    cases hs

/-- A connection that was shut is removed when the pass goes on. -/
theorem Shut.removed {now : Time} {todo : List Ptr} (h : Shut w p w₁) (hb : PassGoesOn w₁ now p todo w')
    (hfd : w.fds (w.heap p).connSock = some (w.heap p).inst)
    (hcl : closes (w.heap p).hist = []) : Removed w p w' where
  ctl := hb.ctl.trans h.ctl
  queue := by rw [hb.queue, if_pos h.completed, h.qconnList]
  retired := by
    refine ⟨w₁.heap p, ?_, h.inst, h.completed, ?_⟩
    · rw [hb.retired, if_pos h.completed, h.retired]
    · rw [h.closed, hcl, hfd, h.inst]
      rfl
  fds := hb.fds.trans h.fds

/-- **A failing call is isolated**: the process goes on, the connection is closed and taken out of
the queue, and when the pass goes on, the rest of the worker is as it would be had the call had
any other outcome, however far the coroutine had gone then. -/
def FaultIsolated (P : Platform) (σ : Signals) (w : Worker) (t : Tick) (op : WorkerOp) (e : Errno) :
    Prop :=
  ∀ t' e', ∃ w', run (Process.step P σ) (.running w) [⟨t, op, e⟩, ⟨t', .back, e'⟩]
      = some (.running w') ∧ Removed w w.self w' ∧
    ∀ is w₂, Coroutine is → run (Worker.step P) w (is ++ [(t', .back)]) = some w₂ →
      SameBut w.self w' w₂

/-- A failing call that raises no deadly signal is isolated. -/
theorem faultIsolated_of_not_broken (h : Reachable P w) (hf : Fails op)
    (hs : w.step P (t, op) = some w₁) (hb : ¬ Broken ignored op e) :
    FaultIsolated P (workerSignals ignored) w t op e := by
  intro t' e'
  obtain ⟨hp, hopen, ⟨todo, hph⟩, hshut⟩ := shut_of_fails h hf hs
  obtain ⟨hfd, hcl⟩ := socket_of_opened h hs hp hopen
  have hback := step_back_of_main (P := P) (t := t') hshut.ctl (hshut.phase.trans hph)
  have hpass := passGoesOn_swappedBack w₁ (t'.clk 0) w.self todo
  have hnb : ¬ Broken ignored .back e' := fun hb => WorkerOp.noConfusion hb.1
  have hco : ∃ op', op = .co op' := by cases hf <;> exact ⟨_, rfl⟩
  refine ⟨_, ?_, hshut.removed hpass hfd hcl, ?_⟩
  · refine run_cons_eq_some_iff.mpr ⟨_, step_running_of_not_broken hs hb, ?_⟩
    exact run_cons_eq_some_iff.mpr ⟨_, step_running_of_not_broken hback hnb, rfl⟩
  · intro is w₂ his hr
    obtain ⟨op', rfl⟩ := hco
    rw [run_append, Option.bind_eq_some_iff] at hr
    obtain ⟨u, hu, hr⟩ := hr
    obtain ⟨u', hu', hr⟩ := run_cons_eq_some_iff.mp hr
    obtain rfl := Option.some.inj hr
    obtain ⟨hworks, -⟩ := worksOn_run h his hu
    -- both coroutines were resumed by the same pass
    obtain ⟨q, todo', -, hph', rfl⟩ := step_back hu'
    obtain ⟨rfl, rfl⟩ := Phase.resumed.inj (hph.symm.trans (hworks.phase.symm.trans hph'))
    exact sameBut_back (inv_reachable h).nodup_queue (worksOn_co h hs) hworks hpass
      (passGoesOn_swappedBack u (t'.clk 0) w.self todo)

/-- A broken pipe is not isolated: a killed process makes no further step. -/
theorem not_faultIsolated_of_broken (hs : w.step P (t, op) = some w₁) (hb : Broken ignored op e) :
    ¬ FaultIsolated P (workerSignals ignored) w t op e := by
  intro hiso
  obtain ⟨w', hrun, -⟩ := hiso t .other
  obtain ⟨pr, hpr, hrun⟩ := run_cons_eq_some_iff.mp hrun
  obtain rfl := Option.some.inj (hpr.symm.trans (step_killed_of_broken hs hb))
  obtain ⟨pr', hpr', -⟩ := run_cons_eq_some_iff.mp hrun
  cases hpr'

/-- **The faults of a worker process**: in every run, a process in which no pipe breaks is not
ended by a signal; and wherever a run leads, a call on the socket of a connection that fails is
isolated exactly when it is not a `write` that returns `EPIPE` in a server whose parent did not
ignore `SIGPIPE`. -/
theorem faults_isolated {heap : Ptr → Conn} {mem : Ptr → ℕ → Byte} {outs : List (Option Ptr)}
    {w₀ : Worker} (h₀ : init heap mem outs = some w₀) (ignored : Signal → Bool)
    {is : List ProcessInput} {pr : Process}
    (hr : run (Process.step P (workerSignals ignored)) (.running w₀) is = some pr) :
    ((∀ i ∈ is, ¬ Broken ignored i.op i.errno) → ∃ w, pr = .running w) ∧
    ∀ w, pr = .running w → ∀ t op e, Fails op → (w.step P (t, op)).isSome →
      (FaultIsolated P (workerSignals ignored) w t op e ↔ ¬ Broken ignored op e) := by
  refine ⟨fun hno => running_of_along is hno hr, ?_⟩
  rintro w rfl t op e hf hsome
  obtain ⟨w₁, hs⟩ := Option.isSome_iff_exists.mp hsome
  have hw : Reachable P w := reachable_of_running is ⟨heap, mem, outs, w₀, [], h₀, rfl⟩ hr
  exact ⟨fun hiso hb => not_faultIsolated_of_broken hs hb hiso, faultIsolated_of_not_broken hw hf hs⟩

/-- Two clients: the first waits, and the response to the second is on its way. -/
def twoClients : List (Time × WorkerOp) :=
  [(0, .poll (.ready (some 5) [])), (1, .resume true), (2, .co (.read .again)), (3, .back),
    (4, .endPass), (5, .poll (.ready (some 6) [])), (6, .resume true),
    (7, .co (.read (.data (ascii "GET / HTTP/1.1\r\n\r\n"))))]

theorem twoClients_isSome : (script .plain twoContexts twoClients).isSome = true := by decide +kernel

/-- The worker of this script. -/
def responding : Worker := (script .plain twoContexts twoClients).get twoClients_isSome

/-- The `write` of the response may fail. -/
theorem fails_isSome :
    (responding.step .plain (Tick.atTime 8, .co (.write .error))).isSome = true := by decide +kernel

/-- The second client resets its connection: the first one keeps its place. -/
theorem faults_isolated_reset : responding.queue.qconnList = [1, 2] ∧
    FaultIsolated .plain (workerSignals fun _ => false) responding (Tick.atTime 8)
      (.co (.write .error)) .econnreset := by
  refine ⟨by decide +kernel, ?_⟩
  obtain ⟨w₀, h₀, hr⟩ := Option.bind_eq_some_iff.mp (Option.some_get twoClients_isSome).symm
  -- the script as a run of the process, with no failing call in it
  let is : List ProcessInput := twoClients.map fun op => ⟨Tick.atTime op.1, op.2, .other⟩
  have his : is.map (fun i => (i.tick, i.op)) = twoClients.map fun op => (Tick.atTime op.1, op.2) :=
    List.map_map ..
  have hno : ∀ i ∈ is, ¬ Broken (fun _ => false) i.op i.errno := by
    intro i hi hb
    obtain ⟨op, -, rfl⟩ := List.mem_map.mp hi
    exact Errno.noConfusion hb.2.1
  have hrun := running_of_run hno (his.symm ▸ hr)
  refine ((faults_isolated h₀ (fun _ => false) hrun).2 _ rfl _ _ _ .write fails_isSome).mpr ?_
  exact fun hb => Errno.noConfusion hb.2.1

/-- **The second client closes its socket before it reads the response**: the `write` raises
`SIGPIPE`, and the worker is gone with the connection of the first client. -/
theorem killed_by_epipe : ∃ w t, Reachable .plain w ∧ w.queue.qconnList = [1, 2] ∧
    (Process.running w).step .plain (workerSignals fun _ => false) ⟨t, .co (.write .error), .epipe⟩
      = some (.killed .sigpipe) ∧
    ¬ FaultIsolated .plain (workerSignals fun _ => false) w t (.co (.write .error)) .epipe := by
  obtain ⟨w₁, hs⟩ := Option.isSome_iff_exists.mp fails_isSome
  have hb : Broken (fun _ => false) (.co (.write .error)) .epipe := ⟨rfl, rfl, rfl⟩
  exact ⟨responding, Tick.atTime 8, reachable_get _ twoClients_isSome, by decide +kernel,
    step_killed_of_broken hs hb, not_faultIsolated_of_broken hs hb⟩

end SrvAsync
