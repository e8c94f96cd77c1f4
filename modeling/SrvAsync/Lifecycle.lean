import SrvAsync.Invariant
import SrvAsync.Steps

/-!
# Queue, cache and the life of a connection

What the invariant of a worker says about the counters of the queue and the cache,
about the coroutines a blocked worker leaves suspended, and about the sockets of
its connections.

## Main results

* `books_balance` — the counters are right, the lists are disjoint.
* `suspended_of_inactive` — with no active connection, every coroutine waits for
  its socket.
* `lifecycle` — every socket is closed once, and no context is used twice.
-/

namespace SrvAsync

open Http History Machine Worker

variable {P : Platform} {R : ℕ → Session → Prop} {w : Worker}

/-! ### The counters -/

/-- The counters of the queue and the cache are right. -/
structure Balanced (w : Worker) : Prop where
  active : w.queue.activeConnCnt = w.queue.qconnList.countP fun p => (w.heap p).isActive
  inactive : w.queue.inactiveConnCnt = w.queue.qconnList.countP fun p => !(w.heap p).isActive
  cnt : w.cache.cnt = w.cache.qconnList.length
  cnt_le : w.cache.cnt ≤ maxConnCtxCacheCnt
  /-- No context occurs twice in a list, or in both. -/
  nodup : (w.queue.qconnList ++ w.cache.qconnList).Nodup
  /-- A running coroutine runs for a connection in the queue. -/
  running : ∀ pt, w.ctl = .coro pt → ∃ p ∈ w.queue.qconnList, w.queue.currConn = some p ∧ w.self = p

/-- **The books of a worker balance.** -/
theorem books_balance (h : Reachable P w) : Balanced w := by
  have hi := inv_reachable h
  refine ⟨hi.active, hi.inactive, hi.cnt, hi.cnt_le, hi.nodup, fun pt hctl => ?_⟩
  obtain ⟨p, todo, -, hcur, hp, hself⟩ := hi.running hctl
  exact ⟨p, hp, hcur, hself⟩

/-- A worker whose one connection waits for its first bytes, and is not active any more. -/
def waitingScript : List (Time × WorkerOp) :=
  [(0, .poll (.ready (some 5) [])), (1, .resume true), (200000000, .co (.read .again)),
    (200000000, .back), (200000000, .endPass)]

/-- The allocations at the start of a worker: the first succeeds. -/
def oneContext : List (Option Ptr) := some 1 :: List.replicate 49 none

theorem waitingScript_isSome : (script .plain oneContext waitingScript).isSome = true := by decide

theorem books_balance_waiting :
    Balanced ((script .plain oneContext waitingScript).get waitingScript_isSome) :=
  books_balance (reachable_get _ waitingScript_isSome)

/-! ### Suspended coroutines -/

/-- The coroutine is in the swap after `EAGAIN`, and this was its last system call. -/
def WaitsForSocket (c : Conn) : Prop :=
  (∃ f k, c.connCtx.point = .recvWait f k ∧ c.hist.getLast? = some (.read .again false)) ∨
  (∃ f k, c.connCtx.point = .sendWait f k ∧ c.hist.getLast? = some (.write .again [] false))

/-- An inactive coroutine of an open connection waits for its socket. -/
theorem Standing.waitsForSocket {p : Ptr} {c : Conn} {b : ℕ → Byte} (h : Standing P R p c b)
    (ha : c.isActive = false) (hc : c.isCompleted = false) : WaitsForSocket c := by
  obtain ⟨-, hrun, a, -, -, hst⟩ := h
  have hact : c.isActive ≠ true := by rw [ha]; exact Bool.false_ne_true
  have hcom : c.isCompleted ≠ true := by rw [hc]; exact Bool.false_ne_true
  unfold WaitsForSocket
  generalize c.connCtx.point = pt at hst hrun
  generalize a.stage = st at hst
  cases hst with
  | waitHdr h hl => exact .inl ⟨_, _, rfl, hl⟩
  | waitBody h hl => exact .inl ⟨_, _, rfl, hl⟩
  | waitSend h hl => exact .inr ⟨_, _, rfl, hl⟩
  | start _ ha' => exact absurd ha' hact
  | yieldChunk h => exact absurd h.active hact
  | yieldPacket h => exact absurd h.active hact
  | yieldAnswered h => exact absurd h.active hact
  | recvFailed _ h => exact absurd h.closed hcom
  | sendFailed _ h => exact absurd h.closed hcom
  | ended h => exact absurd h.closed hcom
  | recvHdr | recvBody | send | checkChunk | checkPacket | checkAnswered => cases hrun

/-- **With no active connection, every coroutine in the queue waits for its socket.** -/
theorem suspended_of_inactive (h : Reachable P w) (hph : w.phase = .head)
    (h0 : w.queue.activeConnCnt = 0) :
    ∀ p ∈ w.queue.qconnList, WaitsForSocket (w.heap p) ∧ (w.heap p).isCompleted = false := by
  have hi := inv_reachable h
  have hb : w.Between := fun p todo he => Phase.noConfusion (hph.symm.trans he)
  have hnone : (w.queue.qconnList.countP fun p => (w.heap p).isActive) = 0 := by
    have := hi.active
    omega
  intro p hp
  have hopen := (hi.between hb).2 p hp (Option.some_ne_none p)
  have hact : (w.heap p).isActive = false := by
    simpa using List.countP_eq_zero.mp hnone p hp
  exact ⟨(hi.standing p hp fun ⟨todo, he⟩ => hb p todo he).waitsForSocket hact hopen, hopen⟩

theorem suspended_of_inactive_waiting :
    WaitsForSocket (((script .plain oneContext waitingScript).get waitingScript_isSome).heap 1) ∧
      (((script .plain oneContext waitingScript).get waitingScript_isSome).heap 1).isCompleted
        = false :=
  suspended_of_inactive (reachable_get _ waitingScript_isSome) (by rfl) (by decide) 1 (by decide)

/-! ### Sockets and contexts -/

/-- The connections of a worker: those in the queue and those that left it. -/
def Worker.conns (w : Worker) : List Conn := (w.queue.qconnList.map w.heap) ++ w.retired

/-- The main loop is between two passes over the queue, or at the end of one. -/
def Worker.PassOver (w : Worker) : Prop :=
  w.ctl = .main ∧ (w.phase = .head ∨ w.phase = .blocked ∨ w.phase = .pass [])

/-- The life of the connections of a worker. -/
structure LivesWell (P : Platform) (w : Worker) : Prop where
  /-- Only sockets that were accepted are closed, each at most once. -/
  closedOnce : (w.conns.flatMap fun c => closes c.hist).Nodup ∧
    ∀ file ∈ w.conns.flatMap fun c => closes c.hist, ∃ i < w.accepted, file = some i
  /-- A connection that left the queue is completed, and its socket was closed. -/
  retired : ∀ c ∈ w.retired, c.isCompleted = true ∧ closes c.hist = [some c.inst]
  /-- At the end of a pass the queue holds no completed connection, and their sockets are open. -/
  passOver : w.PassOver → ∀ p ∈ w.queue.qconnList, (w.heap p).isCompleted = false ∧
    w.fds (w.heap p).connSock = some (w.heap p).inst ∧ closes (w.heap p).hist = []
  /-- No coroutine is resumed after its connection is completed. -/
  resume : ∀ t fcntlOk w', w.step P (t, .resume fcntlOk) = some w' →
    ∃ p todo, w.phase = .pass (p :: todo) ∧ p ∈ w.queue.qconnList ∧ (w.heap p).isCompleted = false
  /-- A connection enters the queue on a context that is not in the queue. -/
  newConn : ∀ t r w', w.step P (t, .poll r) = some w' → w'.queue.qconnList = w.queue.qconnList ∨
    ∃ p, w'.queue.qconnList = p :: w.queue.qconnList ∧ p ∉ w.queue.qconnList
  /-- The lists do not share a context. -/
  disjoint : (w.queue.qconnList ++ w.cache.qconnList).Nodup

/-- What a connection closed is the socket it came from, and nothing else. -/
theorem FileOf.closes_sublist {c : Conn} {fds : Fd → Option ℕ} {ctl : Control}
    (h : FileOf c fds ctl) : (closes c.hist).Sublist [some c.inst] := by
  rcases h with ⟨-, -, he⟩ | ⟨-, he⟩ | ⟨-, he⟩ <;> rw [he]
  exact List.nil_sublist _

/-- Lists inside singletons, one after the other. -/
theorem flatMap_sublist_map {α β : Type*} {f : α → List β} {g : α → β} :
    ∀ {l : List α}, (∀ a ∈ l, (f a).Sublist [g a]) → (l.flatMap f).Sublist (l.map g)
  | [], _ => List.Sublist.slnil
  | a :: l, h => by
    rw [List.flatMap_cons, List.map_cons, ← List.singleton_append]
    exact (h a List.mem_cons_self).append
      (flatMap_sublist_map fun b hb => h b (List.mem_cons_of_mem _ hb))

namespace Worker.Inv

variable {n : ℕ}

/-- What the connections closed is among the sockets they came from. -/
theorem closes_sublist (h : Inv P R n w) :
    (w.conns.flatMap fun c => closes c.hist).Sublist (w.conns.map fun c => some c.inst) := by
  refine flatMap_sublist_map fun c hc => ?_
  rcases List.mem_append.mp hc with hc | hc
  · obtain ⟨p, hp, rfl⟩ := List.mem_map.mp hc
    exact (h.owned p hp).file.closes_sublist
  · rw [(h.gone c hc).closed]

theorem nodup_insts (h : Inv P R n w) : (w.conns.map fun c => some c.inst).Nodup := by
  have hmap : w.conns.map (fun c => some c.inst)
      = ((w.queue.qconnList.map fun p => (w.heap p).inst) ++ w.retired.map Conn.inst).map some := by
    simp [conns, Function.comp_def]
  rw [hmap]
  exact h.insts.map (Option.some_injective _)

theorem inst_lt (h : Inv P R n w) : ∀ c ∈ w.conns, c.inst < n := by
  intro c hc
  rcases List.mem_append.mp hc with hc | hc
  · obtain ⟨p, hp, rfl⟩ := List.mem_map.mp hc
    exact (h.owned p hp).inst_lt
  · exact (h.gone c hc).inst_lt

end Worker.Inv

/-- What `epoll_pwait` and the code behind it do to the queue. -/
theorem qconnList_polled {w' : Worker} {n : ℕ} (h : Inv P R n w) (hph : w.Between) {r : EpollResult}
    (hs : w.polled r = some w') : w'.queue.qconnList = w.queue.qconnList ∨
      ∃ p, w'.queue.qconnList = p :: w.queue.qconnList := by
  cases r with
  | ready fd outs =>
    cases fd with
    | none =>
      simp only [polled] at hs
      split at hs
      · exact .inl (Option.some.inj hs ▸ rfl)
      · cases hs
    | some fd =>
      simp only [polled] at hs
      split at hs
      · next hfd =>
        obtain ⟨w₁, h₁, rfl⟩ := Option.map_eq_some_iff.mp hs
        obtain ⟨w₂, -, ⟨heap, mem, cache, rfl⟩, ⟨p, -, -, -, rfl⟩ | rfl⟩ :=
          (h.accept hph hfd.2 w.accepted).createNewConn_cases hph h₁
        · exact .inr ⟨p, rfl⟩
        · exact .inl rfl
      · cases hs
  | timeout => exact .inl (Option.some.inj hs ▸ rfl)
  | eintr => exact .inl (Option.some.inj hs ▸ rfl)
  | error => exact .inl (Option.some.inj hs ▸ rfl)

/-- **The life of the connections of a worker.** -/
theorem lifecycle (h : Reachable P w) : LivesWell P w := by
  have hi := inv_reachable h
  refine ⟨⟨hi.closes_sublist.nodup hi.nodup_insts, fun file hf => ?_⟩, fun c hc => ?_,
    fun hover p hp => ?_, fun t fcntlOk w' hs => ?_, fun t r w' hs => ?_, hi.nodup⟩
  · obtain ⟨c, hc, rfl⟩ := List.mem_map.mp (hi.closes_sublist.subset hf)
    exact ⟨c.inst, hi.inst_lt c hc, rfl⟩
  · exact ⟨(hi.gone c hc).completed, (hi.gone c hc).closed⟩
  · obtain ⟨hctl, hph⟩ := hover
    have hb : w.Between := by
      rintro q todo he
      rcases hph with hph | hph | hph <;> exact Phase.noConfusion (hph.symm.trans he)
    have hopen := (hi.between hb).2 p hp (Option.some_ne_none p)
    rcases (hi.owned p hp).file with ⟨-, hf, he⟩ | ⟨hc, -⟩ | ⟨hd, -⟩
    · exact ⟨hopen, hf, he⟩
    · exact absurd (hopen.symm.trans hc) Bool.noConfusion
    · exact absurd (hctl.symm.trans hd) Control.noConfusion
  · obtain ⟨p, todo, -, -, hph, -⟩ := step_resume hs
    have hcon := hi.control
    rw [hph] at hcon
    have hp := hcon.2.2.1 List.mem_cons_self
    exact ⟨p, todo, hph, hp, hcon.2.1 p hp (Option.some_ne_none p)⟩
  · obtain ⟨-, hph, hpoll⟩ := step_poll hs
    have hb : w.Between := by
      rintro q todo he
      rcases hph with hph | hph <;> exact Phase.noConfusion (hph.symm.trans he)
    rcases qconnList_polled hi hb hpoll with hq | ⟨p, hq⟩
    · exact .inl hq
    · have hnd := (inv_step (i := (t, .poll r)) (fun _ _ _ _ _ => trivial) hi trivial hs).nodup_queue
      rw [hq] at hnd
      exact .inr ⟨p, hq, (List.nodup_cons.mp hnd).1⟩

/-- A worker whose one connection was closed by its client. -/
def closedScript : List (Time × WorkerOp) :=
  [(0, .poll (.ready (some 5) [])), (1, .resume true), (2, .co (.read .eof)), (3, .back),
    (4, .endPass)]

theorem closedScript_isSome : (script .plain oneContext closedScript).isSome = true := by decide

theorem lifecycle_closed :
    LivesWell .plain ((script .plain oneContext closedScript).get closedScript_isSome) :=
  lifecycle (reachable_get _ closedScript_isSome)

/-- A client that gets its answer and goes. -/
def answeredScript : List (Time × WorkerOp) :=
  [(0, .poll (.ready (some 5) [])), (1, .resume true),
    (2, .co (.read (.data (ascii "GET / HTTP/1.1\r\n\r\n")))), (3, .co (.write (.sent 387))),
    (4, .co .check), (5, .co .check), (6, .co (.read .eof)), (7, .back), (8, .endPass)]

end SrvAsync
