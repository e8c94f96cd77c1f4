import SrvAsync.Lifecycle
import SrvAsync.Kernel
import SrvAsync.Refine.Tells

/-!
# Wake-ups of a worker

A connection that waits for its socket is read again in every pass over the queue, so a
wake-up can only be lost when the worker sleeps.  While it does not, `SIGIO` is blocked:
it stays pending, and the next `epoll_pwait` returns at once.  While it sleeps, `SIGIO`
is not blocked, and because it is ignored it is discarded.

## Main definitions

* `Session.Rereads` — a session whose last `read` gave nothing is about to read again.
* `Wakes` — the invariant of a system.

## Main results

* `again_of_main` — a coroutine that switched away after it read nothing, did so at once.
* `wakes_step` — one step of a system.
* `no_lost_wakeup` — **no wake-up is lost but those of data that arrive while the worker
  sleeps**.
* `lost_wakeup` — one of these.
-/

namespace SrvAsync

open Http History Machine Worker

variable {P : Platform}

/-! ### A session that reads again -/

/-- A stage in which `read` is called next. -/
def Stage.Receiving : Stage → Prop
  | .hdr .. | .body .. => True
  | _ => False

/-- A session that has read nothing at last is about to read again. -/
def Rereads (_ : ℕ) (a : Session) : Prop :=
  (a.answers.filterMap Answer.result).getLast? = some .again → a.stage.Receiving

theorem starts_rereads : Starts Rereads := by
  intro uses buf have_ curr _ he
  cases he

/-- No session that is about to read goes on by itself, or writes. -/
theorem Stage.Receiving.not_silent {a : Session} (h : a.stage.Receiving) : a.silent P = none := by
  unfold Session.silent
  generalize a.stage = st at h
  cases st with
  | hdr | body => rfl
  | _ => exact h.elim

theorem Stage.Receiving.not_write {a : Session} (h : a.stage.Receiving) (r : WriteResult) (b : Bool) :
    a.step P (some (.write r b)) = none := by
  unfold Session.step Session.visible
  generalize a.stage = st at h
  cases st with
  | hdr | body => rfl
  | _ => exact h.elim

/-- What a step of a session says about its last `read`. -/
theorem result_step {a a' : Session} {l : Option Answer} (h : a.step P l = some a') :
    (a'.answers.filterMap Answer.result).getLast? =
      (l.bind Answer.result).or (a.answers.filterMap Answer.result).getLast? := by
  rw [(Session.sees_step h).answers, List.filterMap_append]
  cases l with
  | none => simp
  | some l => cases l <;> simp [Answer.result]

theorem carries_rereads (op : Op) : Carries P Rereads op := by
  intro uses a l a' _ hr hs he
  rw [result_step hs] at he
  cases l with
  | none =>
    have hst := hr he
    exact absurd (hs.symm.trans hst.not_silent) (Option.some_ne_none _)
  | some l =>
    cases l with
    | write r b =>
      have hst := hr he
      exact absurd (hs.symm.trans (hst.not_write (P := P) r b)) (Option.some_ne_none _)
    | read r b =>
      obtain rfl : r = .again := Option.some.inj he
      change a.visible P (.read .again b) = some a' at hs
      -- `EAGAIN` leaves the stage as it is
      cases Session.hears_of_visible hs with
      | hdr he | body he =>
        change a.stage.Receiving
        rw [he]
        trivial

theorem Refines.lastRead {s : St} {a : Session} (h : Refines P s a) :
    lastRead s.curr.hist = (a.answers.filterMap Answer.result).getLast? := by
  unfold History.lastRead
  rw [h.tells.answers]
  rfl

/-- A coroutine that was resumed has a history. -/
theorem hist_ne_nil_of_stands {c : Conn} {size : ℕ} {pt : Point} {st : Stage}
    (h : Stands P c size pt st) (hpt : pt ≠ .start) : c.hist ≠ [] := by
  have hfresh : ∀ {q}, Dialogue P c.hist q → q ≠ .fresh → c.hist ≠ [] := by
    intro q hd hq he
    rw [he] at hd
    exact hq (path_nil_iff.mp hd).symm
  cases h with
  | start => exact absurd rfl hpt
  | recvHdr h => exact hfresh h.dialogue Talk.noConfusion
  | waitHdr h => exact hfresh h.dialogue Talk.noConfusion
  | recvBody h => exact hfresh h.dialogue Talk.noConfusion
  | waitBody h => exact hfresh h.dialogue Talk.noConfusion
  | checkChunk h => exact hfresh h.dialogue Talk.noConfusion
  | yieldChunk h => exact hfresh h.dialogue Talk.noConfusion
  | send h => exact hfresh h.dialogue Talk.noConfusion
  | waitSend h => exact hfresh h.dialogue Talk.noConfusion
  | checkPacket h => exact hfresh h.dialogue Talk.noConfusion
  | yieldPacket h => exact hfresh h.dialogue Talk.noConfusion
  | checkAnswered h => exact hfresh h.dialogue Talk.noConfusion
  | yieldAnswered h => exact hfresh h.dialogue Talk.noConfusion
  | recvFailed _ h => exact hfresh h.dialogue Talk.noConfusion
  | sendFailed _ h => exact hfresh h.dialogue Talk.noConfusion
  | ended h => exact hfresh h.dialogue Talk.noConfusion

/-- A coroutine that executes has a history. -/
theorem Refines.hist_ne_nil {s : St} {a : Session} {pt : Point} (h : Refines P s a)
    (hc : s.ctl = .coro pt) : s.curr.hist ≠ [] := by
  obtain ⟨hrun, hrep⟩ := (refines_coro_iff hc).mp h
  refine hist_ne_nil_of_stands hrep.stands ?_
  rintro rfl
  exact Bool.noConfusion hrun

/-- When the `fcntl` calls of a new connection fail, the process ends. -/
theorem dead_of_resume {s s' : St} {a : Session} {t : Tick} (h : Refines P s a)
    (hs : s.step P t (.resume false) = some s') (h0 : s.curr.hist = []) : s'.ctl = .dead .exit := by
  obtain ⟨hc, rfl⟩ := St.step_resume hs
  obtain ⟨-, -, -, hst⟩ := (refines_main_iff hc).mp h
  have hpt : s.curr.connCtx.point = .start := by
    by_contra hne
    exact hist_ne_nil_of_stands hst hne h0
  unfold resume
  simp only [hpt]
  rfl

/-- A coroutine that waits for its socket goes on to its `read` when it is resumed. -/
theorem ctl_resume {s : St} {a : Session} (t : Tick) (fcntlOk : Bool) (h : Refines P s a)
    (hst : a.stage.Receiving) (hc : s.ctl = .main) : ∃ pt, (resume P s t fcntlOk).ctl = .coro pt := by
  obtain ⟨-, -, hb, hstands⟩ := (refines_main_iff hc).mp h
  unfold resume
  simp only
  generalize s.curr.connCtx.point = pt at hstands
  generalize a.stage = st at hst hstands
  cases hstands with
  -- less was received than was asked for, so the `while` goes on
  | @waitHdr prev n f k hat hl =>
    have hto : f.toRecv = a.size - n := congrArg RecvFrame.toRecv hat.frame
    have hlt := hat.lt
    refine ⟨.recv f k, ?_⟩
    simp only
    unfold recvLoop
    rw [if_pos ⟨by omega, rfl, rfl⟩]
    rfl
  | @waitBody req bodyLen gotLen toRecv n f k hat hl =>
    have hto : f.toRecv = toRecv - n := congrArg RecvFrame.toRecv hat.frame
    have hlt := hat.lt
    refine ⟨.recv f k, ?_⟩
    simp only
    unfold recvLoop
    rw [if_pos ⟨by omega, rfl, rfl⟩]
    rfl
  | recvHdr hat => exact ⟨_, rfl⟩
  | recvBody hat => exact ⟨_, rfl⟩
  | _ => exact hst.elim

/-- **A coroutine that switched away after it read nothing, did so at once.** -/
theorem again_of_main {s s' : St} {a : Session} {t : Tick} {op : Op} (h : Refines P s a)
    (hr : Rereads s.curr.uses a) (hs : s.step P t op = some s') (hmain : s'.ctl = .main)
    (he : lastRead s'.curr.hist = some .again) : op = .read .again := by
  obtain ⟨a', h', ha⟩ := refines_step h hs
  rw [h'.lastRead] at he
  -- a step that is no answer cannot switch away from a receive operation
  have hquiet : op.Emits none → (a.answers.filterMap Answer.result).getLast? = some .again →
      op = .read .again := by
    intro hop hlast
    have hst := hr hlast
    cases op with
    | read r => obtain ⟨b, hb⟩ := hop; cases hb
    | write r => obtain ⟨b, hb⟩ := hop; cases hb
    | resume fcntlOk =>
      obtain ⟨hc, rfl⟩ := St.step_resume hs
      obtain ⟨pt, hpt⟩ := ctl_resume t fcntlOk h hst hc
      exact absurd (hpt.symm.trans hmain) Control.noConfusion
    | check =>
      obtain ⟨y, hc, -⟩ := St.step_check hs
      have hstands := ((refines_coro_iff hc).mp h).2.stands
      generalize a.stage = st at hst hstands
      cases hstands <;> exact hst.elim
  rcases ha with ⟨rfl, hop⟩ | ⟨l, hl, ha⟩
  · exact hquiet hop he
  · rw [result_step ha] at he
    cases l with
    | none => exact hquiet hl he
    | some l =>
      cases op with
      | resume fcntlOk => cases hl
      | check => cases hl
      | write r =>
        obtain ⟨b, hb⟩ := hl
        obtain rfl := Option.some.inj hb
        -- behind a read that gave nothing the coroutine does not write
        have hst := hr he
        exact absurd (ha.symm.trans (hst.not_write (P := P) r b)) (Option.some_ne_none _)
      | read r =>
        obtain ⟨b, hb⟩ := hl
        obtain rfl := Option.some.inj hb
        obtain rfl : r = .again := Option.some.inj he
        rfl

/-! ### The invariant of a system -/

/-- The connection is read again in the pass that goes on. -/
def Worker.Due (w : Worker) (p : Ptr) : Prop :=
  match w.phase with
  | .head | .blocked => False
  | .pass todo => p ∈ todo
  | .resumed q todo => p ∈ todo ∨ (p = q ∧ w.ctl ≠ .main)

section

variable {w : Worker} {p q : Ptr} {todo : List Ptr}

theorem not_due_head (hph : w.phase = .head) : ¬ w.Due p := by
  unfold Worker.Due
  rw [hph]
  exact id

theorem not_due_blocked (hph : w.phase = .blocked) : ¬ w.Due p := by
  unfold Worker.Due
  rw [hph]
  exact id

theorem due_pass_iff (hph : w.phase = .pass todo) : w.Due p ↔ p ∈ todo := by
  unfold Worker.Due
  rw [hph]

theorem due_resumed_iff (hph : w.phase = .resumed q todo) :
    w.Due p ↔ p ∈ todo ∨ (p = q ∧ w.ctl ≠ .main) := by
  unfold Worker.Due
  rw [hph]

end

/-- The connection in the queue has nothing to read, or will be read again: `SIGIO` is pending, or
the pass comes to it. -/
def System.Safe (σ : System) (p : Ptr) : Prop :=
  lastRead (σ.worker.heap p).hist = some .again →
    σ.rx (σ.worker.heap p).inst = [] ∨ σ.sigio.pending = true ∨ σ.worker.Due p

/-- What holds while the worker is alive. -/
structure System.Awake (σ : System) : Prop where
  mask : σ.sigio.blocked = false ↔ σ.worker.phase = .blocked
  asleep : σ.worker.phase = .blocked → σ.sigio.pending = false
  async : ∀ p ∈ σ.worker.queue.qconnList, (σ.worker.heap p).hist ≠ [] →
    σ.async (σ.worker.heap p).inst = true
  safe : ∀ p ∈ σ.worker.queue.qconnList, σ.Safe p

/-- **The invariant of a system.** -/
structure Wakes (P : Platform) (σ : System) : Prop where
  inv : Inv P Rereads σ.worker.accepted σ.worker
  ignored : σ.sigio.disposition = .ign
  awake : σ.Alive → σ.Awake

namespace System

variable {σ σ' : System} {t : Tick}

/-- The kernel does not touch the worker. -/
theorem worker_answer {op : WorkerOp} (h : σ.answer op = some σ') :
    σ'.worker = σ.worker ∧ σ'.sigio.disposition = σ.sigio.disposition := by
  unfold answer at h
  split at h
  · next r =>
    obtain ⟨p, -, h⟩ := Option.bind_eq_some_iff.mp h
    unfold answerRead at h
    split at h
    · split at h
      · exact Option.some.inj h ▸ ⟨rfl, rfl⟩
      · cases h
    · split at h
      · exact Option.some.inj h ▸ ⟨rfl, rfl⟩
      · cases h
    · split at h
      · exact Option.some.inj h ▸ ⟨rfl, rfl⟩
      · cases h
    · exact Option.some.inj h ▸ ⟨rfl, rfl⟩
  · split at h
    · cases h
    · exact Option.some.inj h ▸ ⟨rfl, rfl⟩
  · unfold answerPoll at h
    split at h
    · split at h
      · cases h
      · exact Option.some.inj h ▸ ⟨rfl, rfl⟩
    · split at h
      · split at h
        · exact Option.some.inj h ▸ ⟨rfl, rfl⟩
        · cases h
      · split at h
        · cases h
        · exact Option.some.inj h ▸ ⟨rfl, rfl⟩
      · exact Option.some.inj h ▸ ⟨rfl, rfl⟩
      · exact Option.some.inj h ▸ ⟨rfl, rfl⟩
  · unfold answerResume at h
    split at h <;> exact Option.some.inj h ▸ ⟨rfl, rfl⟩
  · exact Option.some.inj h ▸ ⟨rfl, rfl⟩

/-- A signal that is ignored stays pending when it is blocked, and does nothing else. -/
theorem generate_of_ign {s : Sigio} (h : s.disposition = .ign) :
    s.generate = ({ s with pending := s.pending || s.blocked }, false) := by
  obtain ⟨blocked, disposition, pending⟩ := s
  obtain rfl : disposition = .ign := h
  cases blocked <;> simp [Sigio.generate]

/-- Data arrive: an ignored signal does not touch the worker. -/
theorem arrive_eq (hign : σ.sigio.disposition = .ign) {file : ℕ} {bs : Bytes}
    (h : σ.arrive file bs = some σ') : σ.Alive ∧
      σ' = { σ with
        rx := Function.update σ.rx file (σ.rx file ++ bs)
        sigio := { σ.sigio with
          pending := σ.sigio.pending || (σ.async file && σ.sigio.blocked) } } ∧ bs ≠ [] := by
  unfold arrive at h
  split at h
  · next hcond =>
    obtain ⟨hne, halive, -⟩ := hcond
    refine ⟨halive, ?_, hne⟩
    simp only at h
    split at h
    · next hasync =>
      unfold signal at h
      rw [generate_of_ign hign] at h
      rw [hasync, Bool.true_and]
      exact (Option.some.inj h).symm
    · next hasync =>
      rw [Bool.not_eq_true] at hasync
      rw [hasync, Bool.false_and, Bool.or_false]
      exact (Option.some.inj h).symm
  · cases h

end System

/-- A connection that has read has a history. -/
theorem hist_ne_nil_of_lastRead {h : List Event} {r : ReadResult} (hr : lastRead h = some r) :
    h ≠ [] := by
  rintro rfl
  cases hr

namespace Wakes

variable {σ σ' : System} {t : Tick}

/-- Data arrive, and not for a connection that waits while the worker sleeps. -/
theorem arrive (h : Wakes P σ) {file : ℕ} {bs : Bytes} (hs : σ.arrive file bs = some σ')
    (hq : ¬ σ.ArrivesAsleep (.arrive file bs)) : Wakes P σ' := by
  obtain ⟨halive, rfl, -⟩ := System.arrive_eq h.ignored hs
  have hawake := h.awake halive
  refine ⟨h.inv, h.ignored, fun _ => ⟨hawake.mask, ?_, hawake.async, ?_⟩⟩
  · intro hph
    change (σ.sigio.pending || (σ.async file && σ.sigio.blocked)) = false
    rw [hawake.asleep hph, hawake.mask.mpr hph, Bool.and_false, Bool.or_false]
  · intro p hp hlast
    by_cases hfile : (σ.worker.heap p).inst = file
    · -- the signal is blocked, so it stays pending
      refine .inr (.inl ?_)
      have hph : σ.worker.phase ≠ .blocked := fun hph => hq ⟨hph, p, hp, hfile, hlast⟩
      have hblocked : σ.sigio.blocked = true := by
        rw [← Bool.not_eq_false]
        exact mt hawake.mask.mp hph
      have hasync := hawake.async p hp (hist_ne_nil_of_lastRead hlast)
      rw [hfile] at hasync
      change (σ.sigio.pending || (σ.async file && σ.sigio.blocked)) = true
      rw [hasync, hblocked, Bool.and_true, Bool.or_true]
    · rcases hawake.safe p hp hlast with hrx | hpend | hdue
      · refine .inl ?_
        change Function.update σ.rx file _ (σ.worker.heap p).inst = []
        rw [Function.update_of_ne hfile, hrx]
      · refine .inr (.inl ?_)
        change (σ.sigio.pending || _) = true
        rw [hpend, Bool.true_or]
      · exact .inr (.inr hdue)

/-- A coroutine that goes on in a live process keeps what it shares. -/
theorem keeps_of_alive {s s' : St} {a : Session} {op : Op} (h : Refines P s a)
    (hs : s.step P t op = some s') (halive : ∀ d, s'.ctl ≠ .dead d) : Keeps s s' := by
  rcases keeps_step h hs with hk | ⟨-, rfl⟩
  · exact hk
  · exact absurd rfl (halive .exit)

/-- A coroutine makes a step on its connection; `rx` is what is there to read afterwards. -/
theorem safe_store {w : Worker} {n : ℕ} (hi : Inv P Rereads n w) {p : Ptr} {todo : List Ptr}
    (hph : w.phase = .resumed p todo) {op : Op} {s' : St}
    (hs : (w.load p).step P t op = some s') (halive : ∀ d, s'.ctl ≠ .dead d)
    {sigio : Sigio} {async : ℕ → Bool} {rx : ℕ → Bytes}
    (hagain : op = .read .again → rx (w.heap p).inst = [])
    (hother : ∀ q ∈ w.queue.qconnList, q ≠ p → lastRead (w.heap q).hist = some .again →
      rx (w.heap q).inst = [] ∨ sigio.pending = true ∨ q ∈ todo) :
    ∀ q ∈ (w.store p s').queue.qconnList,
      System.Safe ⟨w.store p s', sigio, async, rx⟩ q := by
  have hcon := hi.control
  rw [hph] at hcon
  obtain ⟨-, -, -, hp, -, -, a, hr, href⟩ := hcon
  have hkeeps : Keeps (w.load p) s' := keeps_of_alive href hs halive
  intro q hq hlast
  have hq' : q ∈ w.queue.qconnList := hkeeps.qconnList ▸ hq
  by_cases hne : q = p
  · subst hne
    change lastRead ((w.store q s').heap q).hist = some .again at hlast
    change rx ((w.store q s').heap q).inst = [] ∨ _ ∨ _
    rw [store_heap_self] at hlast ⊢
    -- it switched away, and then because it read nothing; or it still runs
    by_cases hmain : s'.ctl = .main
    · refine .inl ?_
      rw [hkeeps.inst]
      exact hagain (again_of_main href hr hs hmain hlast)
    · refine .inr (.inr ?_)
      exact (due_resumed_iff (w := w.store q s') hph).mpr (.inr ⟨rfl, hmain⟩)
  · change lastRead ((w.store p s').heap q).hist = some .again at hlast
    change rx ((w.store p s').heap q).inst = [] ∨ _ ∨ _
    rw [store_heap_of_ne _ _ hne] at hlast ⊢
    rcases hother q hq' hne hlast with hrx | hpend | htodo
    · exact .inl hrx
    · exact .inr (.inl hpend)
    · refine .inr (.inr ?_)
      exact (due_resumed_iff (w := w.store p s') hph).mpr (.inl htodo)

/-- The worker goes to sleep: no signal is pending, so there is nothing to read. -/
theorem awake_block (h : σ.Awake) {w' : Worker} (hpend : σ.sigio.pending = false)
    (hs : σ.worker.step P (t, .block) = some w') :
    System.Awake { σ with worker := w', sigio := { σ.sigio with blocked := false } } := by
  obtain ⟨-, hph, rfl⟩ := step_block hs
  refine ⟨⟨fun _ => rfl, fun _ => rfl⟩, fun _ => hpend, h.async, fun p hp hlast => ?_⟩
  rcases h.safe p hp hlast with hrx | hp' | hdue
  · exact .inl hrx
  · exact absurd (hpend.symm.trans hp') Bool.noConfusion
  · exact absurd hdue (not_due_head hph)

/-- What `epoll_pwait` leaves of the signal. -/
theorem answerPoll_blocked (h : σ.Awake) {r : EpollResult} (hs : σ.answerPoll r = some σ') :
    σ'.sigio.blocked = true ∧ σ'.async = σ.async := by
  have hmask : σ.worker.phase ≠ .blocked → σ.sigio.blocked = true := by
    intro hne
    rw [← Bool.not_eq_false]
    exact mt h.mask.mp hne
  unfold System.answerPoll at hs
  split at hs
  · split at hs
    · cases hs
    · exact Option.some.inj hs ▸ ⟨rfl, rfl⟩
  · next hne =>
    split at hs
    · split at hs
      · exact Option.some.inj hs ▸ ⟨hmask hne, rfl⟩
      · cases hs
    · split at hs
      · cases hs
      · exact Option.some.inj hs ▸ ⟨hmask hne, rfl⟩
    · exact Option.some.inj hs ▸ ⟨hmask hne, rfl⟩
    · exact Option.some.inj hs ▸ ⟨hmask hne, rfl⟩

/-- `epoll_pwait` returned: the pass comes to every connection. -/
theorem awake_poll {w' : Worker} (h : σ.Awake) {r : EpollResult} (hs : σ.answerPoll r = some σ')
    (hw : σ.worker.step P (t, .poll r) = some w') (hnd : w'.queue.qconnList.Nodup)
    (halive : ∀ d, w'.ctl ≠ .dead d) : System.Awake { σ' with worker := w' } := by
  obtain ⟨-, -, hpoll⟩ := step_poll hw
  obtain ⟨hblocked, hasync⟩ := answerPoll_blocked h hs
  rcases passStarts_polled hpoll hnd with hpass | ⟨d, hd⟩
  · have hph : w'.phase ≠ .blocked := by
      rw [hpass.phase]
      exact Phase.noConfusion
    refine ⟨⟨fun he => absurd (hblocked.symm.trans he) Bool.noConfusion, fun he => absurd he hph⟩,
      fun he => absurd he hph, ?_, fun p hp _ => .inr (.inr ?_)⟩
    · -- a connection that was added by this pass has no history
      intro p hp hhist
      obtain ⟨hmem, hheap⟩ := hpass.queueFrom p hp hhist
      change σ'.async (w'.heap p).inst = true
      change (w'.heap p).hist ≠ [] at hhist
      rw [hheap] at hhist ⊢
      rw [hasync]
      exact h.async p hmem hhist
    · exact (due_pass_iff hpass.phase).mpr hp
  · exact absurd hd (halive d)

/-- The pass comes to its next connection. -/
theorem awake_resume {w' : Worker} {n : ℕ} (h : σ.Awake) (hi : Inv P Rereads n σ.worker)
    {fcntlOk : Bool} (hw : σ.worker.step P (t, .resume fcntlOk) = some w')
    (halive : ∀ d, w'.ctl ≠ .dead d) {f : ℕ → Bool}
    (hmono : ∀ file, σ.async file = true → f file = true)
    (hset : fcntlOk = true → ∀ p todo, σ.worker.phase = .pass (p :: todo) →
      f (σ.worker.heap p).inst = true) :
    System.Awake { σ with worker := w', async := f } := by
  obtain ⟨p, todo, s', hctl, hph, hs, rfl⟩ := step_resume hw
  have hsel : Inv P Rereads n (σ.worker.selected p todo) := hi.select hph hctl
  have hcon := hsel.control
  obtain ⟨-, -, -, hp, -, -, a, hr, href⟩ := hcon
  have hkeeps : Keeps ((σ.worker.selected p todo).load p) s' := keeps_of_alive href hs halive
  have hblocked : σ.worker.phase ≠ .blocked := by
    rw [hph]
    exact Phase.noConfusion
  refine ⟨⟨fun he => absurd (h.mask.mp he) hblocked, fun he => Phase.noConfusion he⟩,
    fun he => Phase.noConfusion he, ?_, ?_⟩
  · -- the file of a connection that has a history reports input: either it did before, or the code
    -- of the coroutine has just been entered and `fcntl` was called
    intro q hq hhist
    have hq' : q ∈ σ.worker.queue.qconnList := hkeeps.qconnList ▸ hq
    by_cases hne : q = p
    · subst hne
      change f ((Worker.store _ q s').heap q).inst = true
      change ((Worker.store _ q s').heap q).hist ≠ [] at hhist
      rw [store_heap_self] at hhist ⊢
      rw [hkeeps.inst]
      cases fcntlOk with
      | true => exact hset rfl q todo hph
      -- `fcntl` fails: the coroutine kills the process if it was just entered
      | false =>
        by_cases h0 : (σ.worker.heap q).hist = []
        · exact absurd (dead_of_resume href hs h0) (halive .exit)
        · exact hmono _ (h.async q hq' h0)
    · change f ((Worker.store _ p s').heap q).inst = true
      change ((Worker.store _ p s').heap q).hist ≠ [] at hhist
      rw [store_heap_of_ne _ _ hne] at hhist ⊢
      exact hmono _ (h.async q hq' hhist)
  · refine safe_store hsel rfl hs halive (fun he => Op.noConfusion he) ?_
    -- another connection that is due is still to come in this pass
    intro q hq hne hlast
    rcases h.safe q hq hlast with hrx | hpend | hdue
    · exact .inl hrx
    · exact .inr (.inl hpend)
    · have hmem : q ∈ p :: todo := (due_pass_iff hph).mp hdue
      exact .inr (.inr ((List.mem_cons.mp hmem).resolve_left hne))

/-- What `read` returns is taken from the bytes of its socket. -/
theorem answerRead_rx {file : ℕ} {r : ReadResult} (hs : σ.answerRead file r = some σ') :
    σ'.sigio = σ.sigio ∧ σ'.async = σ.async ∧ (r = .again → σ'.rx file = []) ∧
      ∀ file', file' ≠ file → σ'.rx file' = σ.rx file' := by
  unfold System.answerRead at hs
  split at hs
  · split at hs
    · refine Option.some.inj hs ▸ ⟨rfl, rfl, fun he => ReadResult.noConfusion he, fun file' hne => ?_⟩
      exact Function.update_of_ne hne ..
    · cases hs
  · split at hs
    · next h0 => exact Option.some.inj hs ▸ ⟨rfl, rfl, fun _ => h0, fun _ _ => rfl⟩
    · cases hs
  · split at hs
    · next h0 => exact Option.some.inj hs ▸ ⟨rfl, rfl, fun _ => h0, fun _ _ => rfl⟩
    · cases hs
  · exact Option.some.inj hs ▸ ⟨rfl, rfl, fun he => ReadResult.noConfusion he, fun _ _ => rfl⟩

/-- A coroutine goes on; `f` is what is there to read afterwards. -/
theorem awake_co {w' : Worker} {n : ℕ} (h : σ.Awake) (hi : Inv P Rereads n σ.worker) {op : Op}
    (hw : σ.worker.step P (t, .co op) = some w') (halive : ∀ d, w'.ctl ≠ .dead d) {f : ℕ → Bytes}
    (hagain : ∀ p, σ.worker.queue.currConn = some p → op = .read .again →
      f (σ.worker.heap p).inst = [])
    (hother : ∀ p, σ.worker.queue.currConn = some p → ∀ file, file ≠ (σ.worker.heap p).inst →
      f file = σ.rx file) : System.Awake { σ with worker := w', rx := f } := by
  obtain ⟨pt, p, s', hctl, hcur, hs, rfl⟩ := step_co hw
  obtain ⟨p', todo, hph, hcur', hp, -⟩ := hi.running hctl
  obtain rfl := Option.some.inj (hcur.symm.trans hcur')
  have hcon := hi.control
  rw [hph] at hcon
  obtain ⟨-, -, -, -, -, -, a, hr, href⟩ := hcon
  have hkeeps : Keeps (σ.worker.load p) s' := keeps_of_alive href hs halive
  have hblocked : σ.worker.phase ≠ .blocked := by
    rw [hph]
    exact Phase.noConfusion
  refine ⟨⟨fun he => absurd (h.mask.mp he) hblocked, fun he => absurd he hblocked⟩,
    fun he => absurd he hblocked, ?_, ?_⟩
  · -- the code of a coroutine does not touch which files report input
    intro q hq hhist
    have hq' : q ∈ σ.worker.queue.qconnList := hkeeps.qconnList ▸ hq
    by_cases hne : q = p
    · subst hne
      change σ.async ((Worker.store _ q s').heap q).inst = true
      rw [store_heap_self, hkeeps.inst]
      exact h.async q hp (href.hist_ne_nil hctl)
    · change σ.async ((Worker.store _ p s').heap q).inst = true
      change ((Worker.store _ p s').heap q).hist ≠ [] at hhist
      rw [store_heap_of_ne _ _ hne] at hhist ⊢
      exact h.async q hq' hhist
  · refine safe_store hi hph hs halive (hagain p hcur) ?_
    -- a read takes bytes of its own socket only
    intro q hq hne hlast
    have hinst : (σ.worker.heap q).inst ≠ (σ.worker.heap p).inst := hi.inst_ne hp hq hne
    rw [hother p hcur _ hinst]
    rcases h.safe q hq hlast with hrx | hpend | hdue
    · exact .inl hrx
    · exact .inr (.inl hpend)
    · have hdue' := (due_resumed_iff hph).mp hdue
      exact .inr (.inr (hdue'.resolve_right fun he => hne he.1))

/-- What the main loop does with a coroutine that has switched back. -/
theorem swappedBack_eq (w : Worker) (now : Time) (p : Ptr) (todo : List Ptr) :
    (w.swappedBack now p todo).heap = w.heap ∧ (w.swappedBack now p todo).phase = .pass todo ∧
      (w.swappedBack now p todo).queue.qconnList ⊆ w.queue.qconnList := by
  unfold Worker.swappedBack
  simp only
  split
  · unfold freeConnCtx
    split
    · exact ⟨rfl, rfl, List.erase_subset⟩
    · exact ⟨rfl, rfl, List.erase_subset⟩
  · exact ⟨rfl, rfl, List.Subset.refl _⟩

/-- The main loop goes on in its pass, or comes to its head. -/
theorem awake_main {w' : Worker} (h : σ.Awake) (hheap : w'.heap = σ.worker.heap)
    (hsub : w'.queue.qconnList ⊆ σ.worker.queue.qconnList) (hne : σ.worker.phase ≠ .blocked)
    (hne' : w'.phase ≠ .blocked) (hdue : ∀ p, σ.worker.Due p → w'.Due p) :
    System.Awake { σ with worker := w' } := by
  refine ⟨⟨fun he => absurd (h.mask.mp he) hne, fun he => absurd he hne'⟩,
    fun he => absurd he hne', fun p hp hhist => ?_, fun p hp hlast => ?_⟩
  · change σ.async (w'.heap p).inst = true
    change (w'.heap p).hist ≠ [] at hhist
    rw [hheap] at hhist ⊢
    exact h.async p (hsub hp) hhist
  · change lastRead (w'.heap p).hist = some .again at hlast
    change σ.rx (w'.heap p).inst = [] ∨ σ.sigio.pending = true ∨ w'.Due p
    rw [hheap] at hlast ⊢
    exact (h.safe p (hsub hp) hlast).imp_right fun h => h.imp_right (hdue p)

theorem workerCarries_rereads (op : WorkerOp) : WorkerCarries P Rereads op := by
  cases op with
  | resume fcntlOk => exact carries_rereads _
  | co op => exact carries_rereads _
  | block | poll | back | endPass => trivial

/-- The worker makes a step. -/
theorem worker (h : Wakes P σ) {op : WorkerOp} (hs : σ.step P (.worker t op) = some σ') :
    Wakes P σ' := by
  obtain ⟨σ₁, hans, hmap⟩ := Option.bind_eq_some_iff.mp hs
  obtain ⟨w', hw, rfl⟩ := Option.map_eq_some_iff.mp hmap
  obtain ⟨hworker, hdisp⟩ := System.worker_answer hans
  rw [hworker] at hw
  have hinv : Inv P Rereads w'.accepted w' :=
    inv_step starts_rereads h.inv (workerCarries_rereads op) hw
  refine ⟨hinv, hdisp.trans h.ignored, fun halive' => ?_⟩
  have halive : σ.Alive := by
    intro d hd
    unfold Worker.step at hw
    rw [hd] at hw
    cases hw
  have hawake := h.awake halive
  cases op with
  | block =>
    simp only [System.answer] at hans
    split at hans
    · cases hans
    · next hpend =>
      obtain rfl := Option.some.inj hans
      exact awake_block hawake (Bool.eq_false_iff.mpr hpend) hw
  | poll r => exact awake_poll hawake hans hw hinv.nodup_queue halive'
  | resume fcntlOk =>
    cases fcntlOk with
    | false =>
      obtain rfl := Option.some.inj hans
      exact awake_resume hawake h.inv hw halive' (fun _ h => h) fun he => Bool.noConfusion he
    | true =>
      obtain rfl := Option.some.inj hans
      obtain ⟨p, todo, s', hctl, hph, hs', rfl⟩ := step_resume hw
      have hset := awake_resume hawake h.inv hw halive'
        (f := Function.update σ.async (σ.worker.heap p).inst true) ?_ ?_
      · -- `fcntl` sets `O_ASYNC` on the file of the connection that comes next
        unfold System.answerResume
        rw [hph]
        exact hset
      · intro file hfile
        by_cases hne : file = (σ.worker.heap p).inst
        · rw [hne, Function.update_self]
        · rw [Function.update_of_ne hne, hfile]
      · intro _ p' todo' hph'
        obtain ⟨rfl, -⟩ := List.cons.inj (Phase.pass.inj (hph.symm.trans hph'))
        exact Function.update_self ..
  | co op =>
    cases op with
    | read r =>
      obtain ⟨p, hcur, hread⟩ := Option.bind_eq_some_iff.mp hans
      obtain ⟨hsig, hasync, hagain, hother⟩ := answerRead_rx hread
      have hco := awake_co hawake h.inv hw halive' (f := σ₁.rx) ?_ ?_
      · obtain ⟨worker, sigio, async, rx⟩ := σ₁
        obtain rfl : sigio = σ.sigio := hsig
        obtain rfl : async = σ.async := hasync
        exact hco
      · intro p' hcur' he
        obtain rfl := Option.some.inj (hcur.symm.trans hcur')
        exact hagain (Op.read.inj he)
      · intro p' hcur' file hne
        obtain rfl := Option.some.inj (hcur.symm.trans hcur')
        exact hother file hne
    | resume | write | check =>
      obtain rfl := Option.some.inj hans
      exact awake_co hawake h.inv hw halive' (fun _ _ he => Op.noConfusion he) fun _ _ _ _ => rfl
  | back =>
    obtain rfl := Option.some.inj hans
    obtain ⟨p, todo, hctl, hph, rfl⟩ := step_back hw
    obtain ⟨hheap, hph', hsub⟩ := swappedBack_eq σ.worker (t.clk 0) p todo
    refine awake_main hawake hheap hsub ?_ ?_ ?_
    · rw [hph]
      exact Phase.noConfusion
    · rw [hph']
      exact Phase.noConfusion
    · -- the connection that was resumed is not due: its coroutine has switched back
      intro q hdue
      have hdue' := (due_resumed_iff hph).mp hdue
      exact (due_pass_iff hph').mpr (hdue'.resolve_right fun he => he.2 hctl)
  | endPass =>
    obtain rfl := Option.some.inj hans
    obtain ⟨hctl, hph, rfl⟩ := step_endPass hw
    refine awake_main hawake rfl (List.Subset.refl _) ?_ Phase.noConfusion ?_
    · rw [hph]
      exact Phase.noConfusion
    · -- at the end of the pass nothing is due, so the loop may block
      intro q hdue
      exact absurd ((due_pass_iff hph).mp hdue) List.not_mem_nil

/-- A system starts with an empty queue. -/
theorem start (h : σ.Starts) : Wakes P σ := by
  obtain ⟨heap, mem, outs, w, hw, rfl⟩ := h
  have hinv : Inv P Rereads w.accepted w := inv_init hw
  have hempty : ∃ heap' mem' cache, w = { Worker.empty heap mem with
      heap := heap', mem := mem', cache := cache } := by
    unfold init fillConnCtxCache at hw
    split at hw
    · next hlen =>
      have hle : (Worker.empty heap mem).cache.cnt + outs.length ≤ maxConnCtxCacheCnt := by
        rw [hlen]
        change (0 : ℤ) + (minConnCtxCacheCnt - 0) ≤ maxConnCtxCacheCnt
        decide
      exact ((inv_empty (P := P) (R := Rereads) heap mem).foldlM_fillRound
        (fun _ _ => Phase.noConfusion) hle hw).2
    · cases hw
  obtain ⟨heap', mem', cache, rfl⟩ := hempty
  exact ⟨hinv, rfl, fun _ => ⟨⟨fun he => Bool.noConfusion he, fun he => Phase.noConfusion he⟩,
    fun he => Phase.noConfusion he, fun _ hp => absurd hp List.not_mem_nil,
    fun _ hp => absurd hp List.not_mem_nil⟩⟩

/-- **A step of a system** that is no arrival for a connection that waits while the worker
sleeps. -/
theorem step (h : Wakes P σ) {op : SystemOp} (hq : ¬ σ.ArrivesAsleep op)
    (hs : σ.step P op = some σ') : Wakes P σ' := by
  cases op with
  | arrive file bs => exact h.arrive hs hq
  | worker t op => exact h.worker hs

/-- A worker that sleeps is in its main context. -/
theorem ctl_eq_main (h : Wakes P σ) (halive : σ.Alive) (hph : σ.worker.phase = .blocked) :
    σ.worker.ctl = .main := by
  have hcon := h.inv.control
  rw [hph] at hcon
  rcases hcon.1 with hm | ⟨d, hd⟩
  · exact hm
  · exact absurd hd (halive d)

/-- A worker that sleeps has left nothing unread behind. -/
theorem noLostWakeup (h : Wakes P σ) : σ.NoLostWakeup := by
  intro hctl hph p hp hlast
  have halive : σ.Alive := fun d hd => Control.noConfusion (hctl.symm.trans hd)
  have hawake := h.awake halive
  rcases hawake.safe p hp hlast with hrx | hpend | hdue
  · exact hrx
  · exact absurd ((hawake.asleep hph).symm.trans hpend) Bool.noConfusion
  · exact absurd hdue (not_due_blocked hph)

/-- Data that arrive while the worker sleeps stay unread. -/
theorem lost (h : Wakes P σ) {op : SystemOp} (hq : σ.ArrivesAsleep op)
    (hs : σ.step P op = some σ') : ¬ σ'.NoLostWakeup := by
  intro hno
  cases op with
  | worker t op => exact hq
  | arrive file bs =>
    obtain ⟨hph, p, hp, rfl, hlast⟩ := hq
    obtain ⟨halive, rfl, hne⟩ := System.arrive_eq h.ignored hs
    have hrx := hno (h.ctl_eq_main halive hph) hph p hp hlast
    change Function.update σ.rx _ _ (σ.worker.heap p).inst = [] at hrx
    rw [Function.update_self] at hrx
    exact hne (List.append_eq_nil_iff.mp hrx).2

end Wakes

/-! ### Runs -/

/-- **No wake-up is lost but those of data that arrive while the worker sleeps**: in every state
of a run without such arrivals a sleeping worker has left nothing unread behind, and after such
an arrival it has. -/
theorem no_lost_wakeup {σ₀ σ : System} {ops : List SystemOp} (h₀ : σ₀.Starts)
    (hq : Along (fun σ op => ¬ σ.ArrivesAsleep op) (System.step P) σ₀ ops)
    (hr : run (System.step P) σ₀ ops = some σ) :
    σ.NoLostWakeup ∧
      ∀ op σ', σ.ArrivesAsleep op → σ.step P op = some σ' → ¬ σ'.NoLostWakeup := by
  have hwakes : Wakes P σ :=
    run_invariant_along (P := Wakes P) (fun _ _ _ h hq hs => h.step hq hs) ops (.start h₀) hq hr
  exact ⟨hwakes.noLostWakeup, fun op σ' hop hs => hwakes.lost hop hs⟩

/-- A system whose worker has one context. -/
def oneSystem : System :=
  ⟨(init (fun _ => Conn.zero) (fun _ _ => 0) oneContext).getD (Worker.empty (fun _ => .zero) fun _ _ => 0),
    sigioSetup, fun _ => false, fun _ => []⟩

theorem starts_oneSystem : oneSystem.Starts := by
  have hsome : (init (fun _ => Conn.zero) (fun _ _ => 0) oneContext).isSome = true := by decide
  obtain ⟨w, hw⟩ := Option.isSome_iff_exists.mp hsome
  refine ⟨_, _, _, w, hw, ?_⟩
  unfold oneSystem
  rw [hw]
  rfl

/-- A step of the worker, at one moment. -/
def SystemOp.at (now : Time) (op : WorkerOp) : SystemOp := .worker (Tick.atTime now) op

/-- A connection that waits for its first bytes, and is not active any more. -/
def waitingOps : List SystemOp :=
  [.at 0 (.poll (.ready (some 5) [])), .at 1 (.resume true), .at 200000000 (.co (.read .again))]

/-- Its first bytes arrive before the worker goes to sleep, which it does after it read them. -/
def wokenOps : List SystemOp :=
  waitingOps ++ [.arrive 0 (ascii "GET"), .at 200000001 .back, .at 200000002 .endPass,
    .at 200000003 (.poll .eintr), .at 200000004 (.resume true),
    .at 200000005 (.co (.read (.data (ascii "GET")))), .at 400000000 (.co (.read .again)),
    .at 400000001 .back, .at 400000002 .endPass, .at 400000003 .block]

theorem wokenOps_isSome : (run (System.step .plain) oneSystem wokenOps).isSome = true := by
  decide +kernel

theorem no_lost_wakeup_woken :
    ((run (System.step .plain) oneSystem wokenOps).get wokenOps_isSome).NoLostWakeup :=
  (no_lost_wakeup starts_oneSystem (by decide +kernel) (Option.some_get wokenOps_isSome).symm).1

/-- Its first bytes arrive while the worker sleeps. -/
def asleepOps : List SystemOp :=
  waitingOps ++ [.at 200000001 .back, .at 200000002 .endPass, .at 200000003 .block,
    .arrive 0 (ascii "GET")]

theorem asleepOps_isSome : (run (System.step .plain) oneSystem asleepOps).isSome = true := by
  decide +kernel

/-- **A wake-up that is lost**: the worker sleeps, and a connection has bytes to read. -/
theorem lost_wakeup : ¬ ∀ σ₀ ops σ, System.Starts σ₀ → run (System.step .plain) σ₀ ops = some σ →
    σ.NoLostWakeup := by
  intro h
  have hno := h _ _ _ starts_oneSystem (Option.some_get asleepOps_isSome).symm
  have hrx := hno (by rfl) (by decide +kernel) 1 (by decide +kernel) (by decide +kernel)
  exact absurd hrx (by decide +kernel)

end SrvAsync
