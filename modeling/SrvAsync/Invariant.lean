import SrvAsync.Base.Count
import SrvAsync.Frame
import SrvAsync.Refine.Step
import SrvAsync.Routines
import SrvAsync.Steps

/-!
# The invariant of a worker

`Inv P R n w` holds in every state a worker can get into.  It has the bookkeeping
of the queue and the cache, the sockets of the connections, and for every
connection the session its coroutine is at.  `R` is any property of sessions, and
of how often the context was used, that holds at the start of a connection and
goes on from step to step.

A step of the main loop is taken apart into the operations on the queue and the
cache; a step of a coroutine goes through `keeps_step` and `refines_step`.

## Main definitions

* `Standing`, `Executing`, `Owned`, `Spare`, `Gone`.
* `Starts`, `Carries` — the properties of sessions that can be carried along.
* `Inv`.

## Main results

* `inv_step`, `inv_along`, `inv_of_carries`, `inv_reachable`.
-/

namespace SrvAsync

open Http History Machine

variable {P : Platform} {R : ℕ → Session → Prop}

/-! ### Connections and contexts -/

section

variable (P : Platform) (R : ℕ → Session → Prop)

/-- The coroutine of a connection is suspended, at a stage of its session. -/
def Standing (p : Ptr) (c : Conn) (b : ℕ → Byte) : Prop :=
  c.connCtx.owner = p ∧ c.connCtx.point.running = false ∧
    ∃ a, R c.uses a ∧ Rep P c b c.connCtx.point a

/-- The connection a coroutine is executing for is at a stage of its session. -/
def Executing (s : St) : Prop := ∃ a, R s.curr.uses a ∧ Refines P s a

/-- The property holds at the start of a session; on a context that was never used before
the buffer is empty. -/
def Starts : Prop :=
  ∀ uses buf have_ curr, (uses = 1 → buf = (fun _ => 0) ∧ have_ = 0 ∧ curr = 0) →
    R uses (Session.start recvBufSize.toNat buf have_ curr)

/-- The property goes on from every step of a session that the step of a coroutine can be. -/
def Carries (op : Op) : Prop :=
  ∀ uses a l a', op.Emits l → R uses a → a.step P l = some a' → R uses a'

/-- The same for a step of a worker. -/
def WorkerCarries : Worker.WorkerOp → Prop
  | .resume fcntlOk => Carries P R (.resume fcntlOk)
  | .co op => Carries P R op
  | _ => True

end

/-- The socket of a connection: open, or closed by the time the connection is completed. -/
def FileOf (c : Conn) (fds : Fd → Option ℕ) (ctl : Control) : Prop :=
  (c.isCompleted = false ∧ fds c.connSock = some c.inst ∧ closes c.hist = []) ∨
  (c.isCompleted = true ∧ closes c.hist = [some c.inst]) ∨
  (ctl = .dead .exit ∧ closes c.hist = [some c.inst])

/-- What a connection in the queue owns, when `n` sockets were accepted before the one
that may be on its way. -/
structure Owned (n : ℕ) (w : Worker) (p : Ptr) : Prop where
  recvBufP : (w.heap p).recvBufP = p
  recvBufSize : (w.heap p).recvBufSize = recvBufSize
  used : 0 < (w.heap p).uses
  inst_lt : (w.heap p).inst < n
  file : FileOf (w.heap p) w.fds w.ctl

/-- A context in the cache: the cursors stay where the last connection left them. -/
structure Spare (c : Conn) (p : Ptr) (b : ℕ → Byte) : Prop where
  recvBufP : c.recvBufP = p
  recvBufSize : c.recvBufSize = SrvAsync.recvBufSize
  cursors : ∃ have_ curr : ℕ, c.recvBufHave = have_ ∧ c.recvBufCurr = curr ∧ curr ≤ have_ ∧
    (have_ : ℤ) ≤ SrvAsync.recvBufSize
  unused : c.uses = 0 → b = (fun _ => 0) ∧ c.recvBufHave = 0 ∧ c.recvBufCurr = 0

/-- A connection that left the queue. -/
structure Gone (P : Platform) (R : ℕ → Session → Prop) (n : ℕ) (c : Conn) : Prop where
  completed : c.isCompleted = true
  closed : closes c.hist = [some c.inst]
  inst_lt : c.inst < n
  rep : ∃ a b, R c.uses a ∧ Rep P c b c.connCtx.point a

/-! ### The worker -/

namespace Worker

/-- The pass is in the `swap_to_conn_ctx` of this connection. -/
def Busy (w : Worker) (p : Ptr) : Prop := ∃ todo, w.phase = .resumed p todo

/-- The pass is not in a `swap_to_conn_ctx`. -/
def Between (w : Worker) : Prop := ∀ p todo, w.phase ≠ .resumed p todo

/-- No connection in the queue but this one is completed. -/
def OpenBut (w : Worker) (p : Option Ptr) : Prop :=
  ∀ q ∈ w.queue.qconnList, some q ≠ p → (w.heap q).isCompleted = false

/-- The main context runs, or the process has ended. -/
def InMain (w : Worker) : Prop := w.ctl = .main ∨ ∃ d, w.ctl = .dead d

/-- Where the main loop stands. -/
def Controlled (P : Platform) (R : ℕ → Session → Prop) (w : Worker) : Phase → Prop
  | .head => w.InMain ∧ w.OpenBut none
  | .blocked => w.InMain ∧ w.OpenBut none ∧ w.queue.activeConnCnt = 0
  | .pass todo => w.InMain ∧ w.OpenBut none ∧ todo ⊆ w.queue.qconnList ∧ todo.Nodup
  | .resumed p todo => w.OpenBut (some p) ∧ todo ⊆ w.queue.qconnList ∧ (p :: todo).Nodup ∧
      p ∈ w.queue.qconnList ∧ w.queue.currConn = some p ∧ w.self = p ∧ Executing P R (w.load p)

/-- **The invariant of a worker** that accepted `n` sockets, apart from one that may be
on its way to the queue. -/
structure Inv (P : Platform) (R : ℕ → Session → Prop) (n : ℕ) (w : Worker) : Prop where
  nodup : (w.queue.qconnList ++ w.cache.qconnList).Nodup
  cnt : w.cache.cnt = w.cache.qconnList.length
  cnt_le : w.cache.cnt ≤ maxConnCtxCacheCnt
  active : w.queue.activeConnCnt = w.queue.qconnList.countP fun p => (w.heap p).isActive
  inactive : w.queue.inactiveConnCnt = w.queue.qconnList.countP fun p => !(w.heap p).isActive
  insts : ((w.queue.qconnList.map fun p => (w.heap p).inst) ++ w.retired.map Conn.inst).Nodup
  owned : ∀ p ∈ w.queue.qconnList, Owned n w p
  spare : ∀ p ∈ w.cache.qconnList, Spare (w.heap p) p (w.mem p)
  standing : ∀ p ∈ w.queue.qconnList, ¬ w.Busy p → Standing P R p (w.heap p) (w.mem p)
  gone : ∀ c ∈ w.retired, Gone P R n c
  control : w.Controlled P R w.phase

namespace Inv

variable {n : ℕ} {w : Worker} {p q : Ptr} {todo : List Ptr}

theorem nodup_queue (h : Inv P R n w) : w.queue.qconnList.Nodup := (List.nodup_append.mp h.nodup).1

theorem not_mem_cache (h : Inv P R n w) (hp : p ∈ w.queue.qconnList) : p ∉ w.cache.qconnList :=
  fun hc => (List.nodup_append.mp h.nodup).2.2 p hp p hc rfl

/-- Two connections in the queue come from different `accept`s. -/
theorem inst_ne (h : Inv P R n w) (hp : p ∈ w.queue.qconnList) (hq : q ∈ w.queue.qconnList)
    (hne : q ≠ p) : (w.heap q).inst ≠ (w.heap p).inst := by
  have hmap := (List.nodup_append.mp h.insts).1
  exact fun he => hne (List.inj_on_of_nodup_map hmap hq hp he)

end Inv

/-! ### A step of a coroutine -/

section

variable {w : Worker} {p : Ptr} {s' : St}

@[simp] theorem store_heap_self (w : Worker) (p : Ptr) (s : St) :
    (w.store p s).heap p = s.curr := Function.update_self ..

theorem store_heap_of_ne (w : Worker) (s : St) {p q : Ptr} (h : q ≠ p) :
    (w.store p s).heap q = w.heap q := Function.update_of_ne h ..

@[simp] theorem load_store (w : Worker) (p : Ptr) (s : St) : (w.store p s).load p = s := by
  unfold load
  rw [store_heap_self]
  rfl

end

end Worker

/-- A step of a coroutine goes on with its session. -/
theorem Executing.step {s s' : St} {t : Tick} {op : Op} (h : Executing P R s)
    (hR : Carries P R op) (hs : s.step P t op = some s') : Executing P R s' ∧ (Keeps s s' ∨ Exits s s') := by
  obtain ⟨a, hr, href⟩ := h
  have hk := keeps_step href hs
  obtain ⟨a', href', ha⟩ := refines_step href hs
  have huses : s'.curr.uses = s.curr.uses := (shares_step href hs).uses
  refine ⟨⟨a', ?_, href'⟩, hk⟩
  rw [huses]
  rcases ha with ⟨rfl, -⟩ | ⟨l, hl, ha⟩
  · exact hr
  · exact hR _ _ l _ hl hr ha

/-! ### A step of a coroutine -/

/-- The socket of the connection whose coroutine makes a step. -/
theorem FileOf.of_keeps {s s' : St} (h : FileOf s.curr s.fds s.ctl) (hctl : ∀ d, s.ctl ≠ .dead d)
    (hk : Keeps s s') : FileOf s'.curr s'.fds s'.ctl := by
  rcases h with ⟨hc, hf, he⟩ | ⟨hc, he⟩ | ⟨hd, -⟩
  · rcases hk.closes with ⟨hc', hf', he'⟩ | ⟨-, hc', -, he'⟩
    · exact .inl ⟨hc'.trans hc, by rw [hf', hk.connSock, hk.inst, hf], he'.trans he⟩
    · exact .inr (.inl ⟨hc', by rw [he', he, hf, hk.inst]; rfl⟩)
  · rcases hk.closes with ⟨hc', -, he'⟩ | ⟨hc', -⟩
    · exact .inr (.inl ⟨hc'.trans hc, by rw [he', he, hk.inst]⟩)
    · exact absurd (hc.symm.trans hc') Bool.noConfusion
  · exact absurd hd (hctl _)

/-- The socket of the connection whose coroutine exits. -/
theorem FileOf.of_exits {s s' : St} (h : FileOf s.curr s.fds s.ctl) (hctl : ∀ d, s.ctl ≠ .dead d)
    (hx : Exits s s') : FileOf s'.curr s'.fds s'.ctl := by
  obtain ⟨hc, rfl⟩ := hx
  rcases h with ⟨-, hf, he⟩ | ⟨hc', -⟩ | ⟨hd, -⟩
  · refine .inr (.inr ⟨rfl, ?_⟩)
    change closes (s.curr.hist ++ [_]) = [some s.curr.inst]
    rw [closes_append, he, hf]
    rfl
  · exact absurd (hc.symm.trans hc') Bool.noConfusion
  · exact absurd hd (hctl _)

/-- The socket of a connection whose coroutine does not run. -/
theorem FileOf.of_ne {c : Conn} {s s' : St} (h : FileOf c s.fds s.ctl) (hctl : ∀ d, s.ctl ≠ .dead d)
    (hs : FileOf s.curr s.fds s.ctl) (hne : c.inst ≠ s.curr.inst)
    (hfds : s'.fds = s.fds ∨ (s.curr.isCompleted = false ∧
      s'.fds = Function.update s.fds s.curr.connSock none)) : FileOf c s'.fds s'.ctl := by
  rcases h with ⟨hc, hf, he⟩ | h | ⟨hd, -⟩
  · refine .inl ⟨hc, ?_, he⟩
    rcases hfds with hfds | ⟨hco, hfds⟩
    · rw [hfds, hf]
    · rcases hs with ⟨-, hf', -⟩ | ⟨hc', -⟩ | ⟨hd, -⟩
      · have hsock : c.connSock ≠ s.curr.connSock := fun heq => hne (by
          rw [heq, hf'] at hf
          exact (Option.some.inj hf).symm)
        rw [hfds, Function.update_of_ne hsock, hf]
      · exact absurd (hco.symm.trans hc') Bool.noConfusion
      · exact absurd hd (hctl _)
  · exact .inr (.inl h)
  · exact absurd hd (hctl _)

namespace Worker.Inv

variable {n : ℕ} {w w' : Worker} {p : Ptr} {todo : List Ptr} {s' : St}

/-- The code of a coroutine was executed on its connection. -/
theorem store (h : Inv P R n w) (hph : w.phase = .resumed p todo) (hctl : ∀ d, w.ctl ≠ .dead d)
    (hs : Shares (w.load p) s') (hx : Executing P R s') (hfile : FileOf s'.curr s'.fds s'.ctl)
    (hfds : s'.fds = w.fds ∨ ((w.heap p).isCompleted = false ∧
      s'.fds = Function.update w.fds (w.heap p).connSock none)) : Inv P R n (w.store p s') := by
  have hcon := h.control
  rw [hph] at hcon
  obtain ⟨hopen, hsub, hnd, hp, hcurr, hself, -⟩ := hcon
  have hown := h.owned p hp
  have hlist : (w.store p s').queue.qconnList = w.queue.qconnList := hs.qconnList
  have hheap : ∀ q, q ≠ p → (w.store p s').heap q = w.heap q := fun q hq => w.store_heap_of_ne s' hq
  have hact : ∀ q ∈ w.queue.qconnList, q ≠ p →
      ((w.store p s').heap q).isActive = (w.heap q).isActive := fun q _ hq => by rw [hheap q hq]
  have hmem : ∀ q, q ≠ p → (w.store p s').mem q = w.mem q := fun q hq =>
    hs.mem q fun he => hq (he.trans hown.recvBufP)
  have hinst : ∀ q, ((w.store p s').heap q).inst = (w.heap q).inst := by
    intro q
    by_cases hq : q = p
    · rw [hq, store_heap_self]
      exact hs.inst
    · rw [hheap q hq]
  have hne : ∀ q ∈ w.cache.qconnList, q ≠ p := fun q hq he => h.not_mem_cache hp (he ▸ hq)
  refine
    { nodup := ?_, cnt := h.cnt, cnt_le := h.cnt_le, active := ?_, inactive := ?_, insts := ?_,
      owned := ?_, spare := ?_, standing := ?_, gone := h.gone, control := ?_ }
  · rw [hlist]
    exact h.nodup
  · -- the counters change by what the one connection changed
    rw [hlist, List.countP_of_agree h.nodup_queue hp hact, store_heap_self]
    exact hs.active.trans (by rw [← h.active]; rfl)
  · rw [hlist, List.countP_of_agree h.nodup_queue hp fun q hq hne => by rw [hact q hq hne],
      store_heap_self, ← h.inactive]
    refine hs.inactive.trans ?_
    change w.queue.inactiveConnCnt - ((if s'.curr.isActive then 1 else 0)
      - if (w.heap p).isActive then 1 else 0) = _
    cases s'.curr.isActive <;> cases (w.heap p).isActive <;> simp [Int.sub_eq_add_neg]
  · rw [hlist]
    simp only [hinst]
    exact h.insts
  · intro q hq
    rw [hlist] at hq
    by_cases he : q = p
    · subst he
      constructor
      all_goals rw [store_heap_self]
      · exact hs.recvBufP.trans hown.recvBufP
      · exact hs.recvBufSize.trans hown.recvBufSize
      · exact hs.uses ▸ hown.used
      · exact hs.inst ▸ hown.inst_lt
      · exact hfile
    · have hoq := h.owned q hq
      constructor
      all_goals rw [hheap q he]
      · exact hoq.recvBufP
      · exact hoq.recvBufSize
      · exact hoq.used
      · exact hoq.inst_lt
      · -- a coroutine closes its own file only
        exact hoq.file.of_ne (s := w.load p) hctl hown.file (h.inst_ne hp hq he) hfds
  · intro q hq
    rw [hheap q (hne q hq), hmem q (hne q hq)]
    exact h.spare q hq
  · intro q hq hb
    rw [hlist] at hq
    -- `p` is the connection whose coroutine runs, which does not stand at a switch
    have he : q ≠ p := fun he => hb ⟨todo, he ▸ hph⟩
    rw [hheap q he, hmem q he]
    exact h.standing q hq hb
  · change Controlled P R _ w.phase
    rw [hph]
    refine ⟨?_, hlist ▸ hsub, hnd, hlist ▸ hp, hs.currConn.trans hcurr, hs.self.trans hself, ?_⟩
    · intro q hq hqp
      rw [hlist] at hq
      rw [hheap q fun he => hqp (congrArg some he)]
      exact hopen q hq hqp
    · rw [load_store]
      exact hx

/-- **A step of a coroutine keeps the invariant.** -/
theorem co_step (h : Inv P R n w) (hph : w.phase = .resumed p todo) (hctl : ∀ d, w.ctl ≠ .dead d)
    {t : Tick} {op : Op} (hR : Carries P R op) (hst : (w.load p).step P t op = some s') : Inv P R n (w.store p s') := by
  have hcon := h.control
  rw [hph] at hcon
  obtain ⟨-, -, -, hp, -, -, hx⟩ := hcon
  have hown := h.owned p hp
  obtain ⟨hx', hk | he⟩ := hx.step hR hst
  · exact h.store hph hctl hk.toShares hx' (FileOf.of_keeps hown.file hctl hk) hk.fds
  · exact h.store hph hctl he.shares hx' (FileOf.of_exits hown.file hctl he) (.inr ⟨he.1, he.fds⟩)

/-- Between two coroutine steps of a pass the main context runs, and no connection in
the queue is completed. -/
theorem between (h : Inv P R n w) (hph : w.Between) : w.InMain ∧ w.OpenBut none := by
  have hcon := h.control
  cases hph' : w.phase with
  | head => rw [hph'] at hcon; exact hcon
  | blocked => rw [hph'] at hcon; exact ⟨hcon.1, hcon.2.1⟩
  | pass todo => rw [hph'] at hcon; exact ⟨hcon.1, hcon.2.1⟩
  | resumed q todo => exact absurd hph' (hph q todo)

theorem mono (h : Inv P R n w) : Inv P R (n + 1) w :=
  { h with
    owned := fun q hq => { h.owned q hq with inst_lt := Nat.lt_succ_of_lt (h.owned q hq).inst_lt }
    gone := fun c hc => { h.gone c hc with inst_lt := Nat.lt_succ_of_lt (h.gone c hc).inst_lt } }

/-! ### The cache -/

/-- A context that no list holds is put into the cache. -/
theorem pushCache (h : Inv P R n w) {c : Conn} {b : ℕ → Byte} (hq : p ∉ w.queue.qconnList)
    (hc : p ∉ w.cache.qconnList) (hle : w.cache.cnt < maxConnCtxCacheCnt) (hs : Spare c p b)
    (hph : w.Between) :
    Inv P R n { w with
      heap := Function.update w.heap p c
      mem := Function.update w.mem p b
      cache := ⟨p :: w.cache.qconnList, w.cache.cnt + 1⟩ } := by
  have hne : ∀ q ∈ w.queue.qconnList, q ≠ p := fun q hqm he => hq (he ▸ hqm)
  have hheap : ∀ q ∈ w.queue.qconnList, Function.update w.heap p c q = w.heap q :=
    fun q hqm => Function.update_of_ne (hne q hqm) ..
  -- no connection of the queue is touched
  refine
    { nodup := ?_, cnt := ?_, cnt_le := ?_, active := ?_, inactive := ?_, insts := ?_,
      owned := ?_, spare := ?_, standing := ?_, gone := h.gone, control := ?_ }
  · exact (List.nodup_middle.mpr (List.nodup_cons.mpr ⟨by simp [hq, hc], h.nodup⟩))
  · simp only [List.length_cons, h.cnt]
    push_cast
    rfl
  · simp only
    omega
  · refine h.active.trans (congrArg _ (List.countP_of_agree_all fun q hqm => ?_).symm)
    simp only [hheap q hqm]
  · refine h.inactive.trans (congrArg _ (List.countP_of_agree_all fun q hqm => ?_).symm)
    simp only [hheap q hqm]
  · have hmap : w.queue.qconnList.map (fun q => (Function.update w.heap p c q).inst)
        = w.queue.qconnList.map fun q => (w.heap q).inst :=
      List.map_congr_left fun q hqm => by rw [hheap q hqm]
    rw [hmap]
    exact h.insts
  · intro q hqm
    have hoq := h.owned q hqm
    constructor
    all_goals simp only [hheap q hqm]
    · exact hoq.recvBufP
    · exact hoq.recvBufSize
    · exact hoq.used
    · exact hoq.inst_lt
    · exact hoq.file
  · intro q hqm
    rcases List.mem_cons.mp hqm with rfl | hqm
    · simp only [Function.update_self]
      exact hs
    · have hqp : q ≠ p := fun he => hc (he ▸ hqm)
      simp only [Function.update_of_ne hqp]
      exact h.spare q hqm
  · intro q hqm hb
    simp only [Function.update_of_ne (hne q hqm)]
    exact h.standing q hqm hb
  · have hopen : ∀ o, w.OpenBut o → OpenBut { w with
        heap := Function.update w.heap p c
        mem := Function.update w.mem p b
        cache := ⟨p :: w.cache.qconnList, w.cache.cnt + 1⟩ } o := fun o ho q hqm hqo => by
      simp only [hheap q hqm]
      exact ho q hqm hqo
    have hcon := h.control
    change Controlled P R _ w.phase
    cases hph' : w.phase with
    | head => rw [hph'] at hcon; exact ⟨hcon.1, hopen _ hcon.2⟩
    | blocked => rw [hph'] at hcon; exact ⟨hcon.1, hopen _ hcon.2.1, hcon.2.2⟩
    | pass todo => rw [hph'] at hcon; exact ⟨hcon.1, hopen _ hcon.2.1, hcon.2.2⟩
    | resumed q todo => exact absurd hph' (hph q todo)

/-- One round of `fill_conn_ctx_cache`. -/
theorem fillRound (h : Inv P R n w) (hph : w.Between) (hle : w.cache.cnt < maxConnCtxCacheCnt)
    {o : Option Ptr} (hf : w.fillRound o = some w') :
    Inv P R n w' ∧ w'.cache.cnt ≤ w.cache.cnt + 1 ∧
      ∃ heap mem cache, w' = { w with heap := heap, mem := mem, cache := cache } := by
  cases o with
  | none =>
    obtain rfl := Option.some.inj hf
    exact ⟨h, by omega, w.heap, w.mem, w.cache, rfl⟩
  | some p =>
    unfold Worker.fillRound at hf
    simp only at hf
    split at hf
    · cases hf
    · next hnew =>
      obtain rfl := Option.some.inj hf
      rw [not_or] at hnew
      refine ⟨h.pushCache hnew.1 hnew.2 hle ⟨rfl, rfl, ?_, fun _ => ⟨rfl, rfl, rfl⟩⟩ hph, Int.le_refl _,
        _, _, _, rfl⟩
      exact ⟨0, 0, rfl, rfl, le_rfl, by decide⟩

/-- `fill_conn_ctx_cache`. -/
theorem foldlM_fillRound {outs : List (Option Ptr)} : ∀ {w : Worker}, Inv P R n w → w.Between →
    w.cache.cnt + outs.length ≤ maxConnCtxCacheCnt → outs.foldlM Worker.fillRound w = some w' →
    Inv P R n w' ∧ ∃ heap mem cache, w' = { w with heap := heap, mem := mem, cache := cache } := by
  induction outs with
  | nil =>
    intro w h _ _ hf
    obtain rfl := Option.some.inj hf
    exact ⟨h, w.heap, w.mem, w.cache, rfl⟩
  | cons o outs ih =>
    intro w h hph hle hf
    rw [List.foldlM_cons, Option.bind_eq_bind, Option.bind_eq_some_iff] at hf
    obtain ⟨w₁, h₁, hf⟩ := hf
    rw [List.length_cons] at hle
    push_cast at hle
    obtain ⟨hi, hcnt, heap, mem, cache, rfl⟩ := h.fillRound hph (by omega) h₁
    obtain ⟨hi', heap', mem', cache', rfl⟩ := ih hi hph (by omega) hf
    exact ⟨hi', heap', mem', cache', rfl⟩

theorem refillConnCtxCache (h : Inv P R n w) (hph : w.Between) {outs : List (Option Ptr)}
    (hf : w.refillConnCtxCache outs = some w') :
    Inv P R n w' ∧ ∃ heap mem cache, w' = { w with heap := heap, mem := mem, cache := cache } := by
  unfold Worker.refillConnCtxCache fillConnCtxCache at hf
  split at hf
  · split at hf
    · next hlen =>
      refine h.foldlM_fillRound hph ?_ hf
      unfold minConnCtxCacheCnt at hlen
      unfold maxConnCtxCacheCnt
      omega
    · cases hf
  · split at hf
    · obtain rfl := Option.some.inj hf
      exact ⟨h, w.heap, w.mem, w.cache, rfl⟩
    · cases hf

/-- The first context is taken from the cache. -/
theorem popCache (h : Inv P R n w) {ps : List Ptr} (hl : w.cache.qconnList = p :: ps) :
    Inv P R n { w with cache := ⟨ps, w.cache.cnt - 1⟩ } ∧ p ∉ w.queue.qconnList ∧ p ∉ ps ∧
      Spare (w.heap p) p (w.mem p) := by
  have hnd := h.nodup
  rw [hl] at hnd
  obtain ⟨hp, hnd⟩ := List.nodup_cons.mp (List.nodup_middle.mp hnd)
  rw [List.mem_append, not_or] at hp
  have hcnt := h.cnt
  rw [hl, List.length_cons] at hcnt
  push_cast at hcnt
  have hle := h.cnt_le
  refine ⟨{ h with nodup := hnd, cnt := ?_, cnt_le := ?_, spare := fun q hq => ?_, owned := fun q hq => { h.owned q hq with }, control := ?_ }, hp.1, hp.2, ?_⟩
  · simp only
    omega
  · simp only
    omega
  · exact h.spare q (by rw [hl]; exact List.mem_cons_of_mem _ hq)
  · exact h.control
  · exact h.spare p (by rw [hl]; exact List.mem_cons_self)

/-! ### New connections -/

/-- `accept` gives a descriptor that is not open. -/
theorem accept (h : Inv P R n w) (hph : w.Between) {fd : Fd} (hfd : w.fds fd = none) (m : ℕ) :
    Inv P R n { w with fds := Function.update w.fds fd (some m), accepted := w.accepted + 1 } := by
  have hfile : ∀ q ∈ w.queue.qconnList, FileOf (w.heap q) (Function.update w.fds fd (some m)) w.ctl := by
    intro q hq
    rcases (h.owned q hq).file with ⟨hc, hf, he⟩ | hf | hf
    · refine .inl ⟨hc, ?_, he⟩
      rw [Function.update_of_ne, hf]
      intro heq
      rw [heq, hfd] at hf
      cases hf
    · exact .inr (.inl hf)
    · exact .inr (.inr hf)
  have hcon := h.control
  refine { h with owned := fun q hq => { h.owned q hq with file := hfile q hq }, control := ?_ }
  change Controlled P R _ w.phase
  cases hph' : w.phase with
  | head => rw [hph'] at hcon; exact hcon
  | blocked => rw [hph'] at hcon; exact hcon
  | pass todo => rw [hph'] at hcon; exact hcon
  | resumed q todo => exact absurd hph' (hph q todo)

/-- The pass over the queue starts. -/
theorem startPass (h : Inv P R n w) (hph : w.Between) : Inv P R n w.startPass :=
  { h with
    owned := fun q hq => { h.owned q hq with }
    standing := fun q hq _ => h.standing q hq fun ⟨todo, he⟩ => hph q todo he
    control := ⟨(h.between hph).1, (h.between hph).2, List.Subset.refl _, h.nodup_queue⟩ }

/-- The process ends while the main context runs. -/
theorem die (h : Inv P R n w) (hph : w.Between) (hctl : w.ctl = .main) (d : Death) :
    Inv P R n (w.die d) := by
  have hcon := h.control
  have hm : (w.die d).InMain := .inr ⟨d, rfl⟩
  refine { h with owned := fun q hq => { h.owned q hq with file := ?_ }, control := ?_ }
  · rcases (h.owned q hq).file with hf | hf | ⟨hd, -⟩
    · exact .inl hf
    · exact .inr (.inl hf)
    · exact absurd (hctl.symm.trans hd) Control.noConfusion
  · change Controlled P R _ w.phase
    cases hph' : w.phase with
    | head => rw [hph'] at hcon; exact ⟨hm, hcon.2⟩
    | blocked => rw [hph'] at hcon; exact ⟨hm, hcon.2⟩
    | pass todo => rw [hph'] at hcon; exact ⟨hm, hcon.2⟩
    | resumed q todo => exact absurd hph' (hph q todo)

/-- A connection that was just made stands at its start. -/
theorem standing_initNewConnCtx {c : Conn} {b : ℕ → Byte} (hR : Starts R) (hs : Spare c p b)
    (fd : Fd) (inst : ℕ) :
    Standing P R p (initNewConnCtx c p fd inst) b := by
  obtain ⟨have_, curr, hh, hc, hle, hle'⟩ := hs.cursors
  have hsz : recvBufSize = 8192 := rfl
  refine ⟨rfl, rfl, Session.start recvBufSize.toNat b have_ curr, hR _ b have_ curr ?_, ?_⟩
  · intro hu
    have hu' : c.uses = 0 := Nat.succ.inj hu
    obtain ⟨hb, h1, h2⟩ := hs.unused hu'
    exact ⟨hb, by omega, by omega⟩
  · exact
      { size := by
          change c.recvBufSize = _
          rw [hs.recvBufSize]
          rfl
        buf := rfl
        have_ := hh
        curr := hc
        curr_le := hle
        have_le := by
          change have_ ≤ recvBufSize.toNat
          omega
        size_pos := by
          change 0 < recvBufSize.toNat
          omega
        hist := .nil
        stands := .start rfl rfl rfl .nil }

/-- A connection is added to the queue. -/
theorem startConn (h : Inv P R n w) (hR : Starts R) (hph : w.Between) (hq : p ∉ w.queue.qconnList)
    (hc : p ∉ w.cache.qconnList) (hs : Spare (w.heap p) p (w.mem p)) {fd : Fd}
    (hfd : w.fds fd = some n) : Inv P R (n + 1) (w.startConn p fd n).startPass := by
  obtain ⟨hm, ho⟩ := h.between hph
  have hne : ∀ q ∈ w.queue.qconnList, q ≠ p := fun q hqm he => hq (he ▸ hqm)
  have hne' : ∀ q ∈ w.cache.qconnList, q ≠ p := fun q hqm he => hc (he ▸ hqm)
  have hself : (w.startConn p fd n).startPass.heap p = initNewConnCtx (w.heap p) p fd n :=
    Function.update_self ..
  have hheap : ∀ q, q ≠ p → (w.startConn p fd n).startPass.heap q = w.heap q :=
    fun q hqp => Function.update_of_ne hqp ..
  have hlist : (w.startConn p fd n).startPass.queue.qconnList = p :: w.queue.qconnList := rfl
  have hact : ((Function.update w.heap p (initNewConnCtx (w.heap p) p fd n)) p).isActive = true := by
    rw [Function.update_self]
    rfl
  refine
    { nodup := ?_, cnt := h.cnt, cnt_le := h.cnt_le, active := ?_, inactive := ?_, insts := ?_,
      owned := ?_, spare := ?_, standing := ?_,
      gone := fun c hcm => { h.gone c hcm with inst_lt := Nat.lt_succ_of_lt (h.gone c hcm).inst_lt },
      control := ?_ }
  · rw [hlist]
    exact List.nodup_cons.mpr ⟨fun hm => (List.mem_append.mp hm).elim hq hc, h.nodup⟩
  · rw [hlist, List.countP_cons, hself]
    change w.queue.activeConnCnt + (if _ then 1 else 0) = _
    have hagree : ∀ q ∈ w.queue.qconnList,
        ((w.startConn p fd n).startPass.heap q).isActive = (w.heap q).isActive :=
      fun q hqm => by rw [hheap q (hne q hqm)]
    rw [hact, h.active, List.countP_of_agree_all hagree]
    rfl
  · rw [hlist, List.countP_cons, hself]
    change w.queue.inactiveConnCnt + (if _ then 0 else 1) = _
    have hagree : ∀ q ∈ w.queue.qconnList,
        (!((w.startConn p fd n).startPass.heap q).isActive) = !(w.heap q).isActive :=
      fun q hqm => by rw [hheap q (hne q hqm)]
    rw [hact, h.inactive, List.countP_of_agree_all hagree]
    simp [initNewConnCtx]
  · have hmap : w.queue.qconnList.map (fun q => ((w.startConn p fd n).startPass.heap q).inst)
        = w.queue.qconnList.map fun q => (w.heap q).inst :=
      List.map_congr_left fun q hqm => by rw [hheap q (hne q hqm)]
    rw [hlist, List.map_cons, hself, hmap]
    -- the instance is new: all that were ever accepted have a smaller number
    refine List.nodup_cons.mpr ⟨fun hmem => ?_, h.insts⟩
    rcases List.mem_append.mp hmem with hmem | hmem
    · obtain ⟨q, hqm, he⟩ := List.mem_map.mp hmem
      exact absurd he (h.owned q hqm).inst_lt.ne
    · obtain ⟨c, hcm, he⟩ := List.mem_map.mp hmem
      exact absurd he (h.gone c hcm).inst_lt.ne
  · intro q hqm
    rcases List.mem_cons.mp hqm with rfl | hqm
    · constructor
      all_goals rw [hself]
      · exact hs.recvBufP
      · exact hs.recvBufSize
      · exact Nat.succ_pos _
      · exact Nat.lt_succ_self n
      · exact .inl ⟨rfl, hfd, rfl⟩
    · have hoq := h.owned q hqm
      constructor
      all_goals rw [hheap q (hne q hqm)]
      · exact hoq.recvBufP
      · exact hoq.recvBufSize
      · exact hoq.used
      · exact Nat.lt_succ_of_lt hoq.inst_lt
      · exact hoq.file
  · intro q hqm
    rw [hheap q (hne' q hqm)]
    exact h.spare q hqm
  · intro q hqm _
    rcases List.mem_cons.mp hqm with rfl | hqm
    · rw [hself]
      exact standing_initNewConnCtx hR hs fd n
    · rw [hheap q (hne q hqm)]
      exact h.standing q hqm fun ⟨todo, he⟩ => hph q todo he
  · refine ⟨hm, fun q hqm _ => ?_, List.Subset.refl _, List.nodup_cons.mpr ⟨hq, h.nodup_queue⟩⟩
    rcases List.mem_cons.mp hqm with rfl | hqm
    · rw [hself]
      rfl
    · rw [hheap q (hne q hqm)]
      exact ho q hqm (Option.some_ne_none q)

/-- What `create_new_conn` does: a context is taken for the connection, or the process
exits. -/
theorem createNewConn_cases (h : Inv P R n w) (hph : w.Between) {fd : Fd} {m : ℕ}
    {outs : List (Option Ptr)} (hc : w.createNewConn fd m outs = some w') :
    ∃ w₁, Inv P R n w₁ ∧ (∃ heap mem cache, w₁ = { w with heap := heap, mem := mem, cache := cache }) ∧
      ((∃ p, p ∉ w₁.queue.qconnList ∧ p ∉ w₁.cache.qconnList ∧ Spare (w₁.heap p) p (w₁.mem p) ∧
        w' = w₁.startConn p fd m) ∨ w' = w₁.die .exit) := by
  unfold Worker.createNewConn at hc
  obtain ⟨w₁, h₁, rfl⟩ := Option.map_eq_some_iff.mp hc
  obtain ⟨hi, heap, mem, cache, rfl⟩ := h.refillConnCtxCache hph h₁
  unfold takeConnCtx
  split
  · next hsome =>
    split at hsome
    · cases hsome
    · split at hsome
      · cases hsome
      · next hl =>
        cases hsome
        obtain ⟨hi', hq, hc, hs⟩ := hi.popCache hl
        exact ⟨_, hi', ⟨_, _, _, rfl⟩, .inl ⟨_, hq, hc, hs, rfl⟩⟩
  · next hnone =>
    split at hnone
    · cases hnone
      exact ⟨_, hi, ⟨_, _, _, rfl⟩, .inr rfl⟩
    · next hcnt =>
      split at hnone
      · next hl =>
        have hlen := hi.cnt
        rw [hl] at hlen
        exact absurd hlen hcnt
      · cases hnone

theorem createNewConn (h : Inv P R n w) (hR : Starts R) (hctl : w.ctl = .main) (hph : w.Between) {fd : Fd}
    (hfd : w.fds fd = some n) {outs : List (Option Ptr)} (hc : w.createNewConn fd n outs = some w') :
    Inv P R (n + 1) w'.startPass := by
  obtain ⟨w₁, hi, ⟨heap, mem, cache, rfl⟩, ⟨p, hq, hpc, hs, rfl⟩ | rfl⟩ := h.createNewConn_cases hph hc
  · exact hi.startConn hR hph hq hpc hs hfd
  · exact (hi.die hph hctl .exit).mono.startPass hph

/-- `create_new_conn` accepts nothing. -/
theorem accepted_createNewConn {fd : Fd} {m : ℕ} {outs : List (Option Ptr)} (h : Inv P R n w)
    (hph : w.Between) (hc : w.createNewConn fd m outs = some w') : w'.accepted = w.accepted := by
  obtain ⟨w₁, -, ⟨heap, mem, cache, rfl⟩, ⟨p, -, -, -, rfl⟩ | rfl⟩ := h.createNewConn_cases hph hc <;>
  rfl

/-! ### Leaving the queue -/

/-- The connection of the coroutine that switched back stands where it was saved. -/
theorem standing_resumed (h : Inv P R n w) (hph : w.phase = .resumed p todo) (hctl : w.ctl = .main) :
    Standing P R p (w.heap p) (w.mem p) := by
  have hcon := h.control
  rw [hph] at hcon
  obtain ⟨-, -, -, hp, -, hself, a, hr, href⟩ := hcon
  have hbuf := (h.owned p hp).recvBufP
  obtain ⟨ho, hrun, hrep⟩ := (refines_main_iff hctl).mp href
  refine ⟨ho.trans hself, hrun, a, hr, ?_⟩
  change Rep P (w.heap p) (w.mem (w.heap p).recvBufP) _ a at hrep
  rwa [hbuf] at hrep

/-- The pass goes on. -/
theorem passOn (h : Inv P R n w) (hph : w.phase = .resumed p todo) (hctl : w.ctl = .main)
    (hc : (w.heap p).isCompleted = false) (now : Time) :
    Inv P R n { w with queue := { w.queue with lastCtxSwap := now }, phase := .pass todo } := by
  have hcon := h.control
  rw [hph] at hcon
  obtain ⟨hopen, hsub, hnd, -⟩ := hcon
  refine
    { h with
      owned := fun q hq => { h.owned q hq with }
      standing := fun q hq _ => ?_
      control := ⟨.inl hctl, fun q hq _ => ?_, hsub, (List.nodup_cons.mp hnd).2⟩ }
  · by_cases he : q = p
    · exact he ▸ h.standing_resumed hph hctl
    · refine h.standing q hq fun ⟨todo', hph'⟩ => he ?_
      rw [hph] at hph'
      cases hph'
      rfl
  · by_cases he : q = p
    · exact he ▸ hc
    · exact hopen q hq fun hqp => he (Option.some.inj hqp)

/-- A completed connection leaves the queue. -/
theorem removeConnFromQueue (h : Inv P R n w) (hph : w.phase = .resumed p todo) (hctl : w.ctl = .main)
    (hc : (w.heap p).isCompleted = true) (now : Time) :
    Inv P R n (({ w with
      queue := { w.queue with lastCtxSwap := now }
      phase := .pass todo } : Worker).removeConnFromQueue p) := by
  have hcon := h.control
  rw [hph] at hcon
  obtain ⟨hopen, hsub, hnd, hp, -⟩ := hcon
  have hperm := List.perm_cons_erase hp
  have hmem : ∀ {q}, q ∈ w.queue.qconnList.erase p → q ∈ w.queue.qconnList ∧ q ≠ p := fun hq =>
    ⟨List.mem_of_mem_erase hq, fun he => (List.Nodup.not_mem_erase h.nodup_queue) (he ▸ hq)⟩
  -- the others stand at a switch: only `p` was resumed
  have hstand : ∀ q ∈ w.queue.qconnList, q ≠ p → Standing P R q (w.heap q) (w.mem q) := by
    intro q hq he
    refine h.standing q hq fun ⟨todo', hph'⟩ => he ?_
    rw [hph] at hph'
    cases hph'
    rfl
  refine
    { nodup := ?_, cnt := h.cnt, cnt_le := h.cnt_le, active := ?_, inactive := ?_, insts := ?_,
      owned := fun q hq => { h.owned q (hmem hq).1 with }, spare := h.spare,
      standing := fun q hq _ => hstand q (hmem hq).1 (hmem hq).2, gone := ?_, control := ?_ }
  · exact (List.erase_sublist.append_right _).nodup h.nodup
  · change w.queue.activeConnCnt - (if (w.heap p).isActive then 1 else 0)
      = (w.queue.qconnList.erase p).countP _
    rw [h.active, hperm.countP_eq, List.countP_cons]
    split <;> simp <;> rfl
  · change w.queue.inactiveConnCnt - (if (w.heap p).isActive then 0 else 1)
      = (w.queue.qconnList.erase p).countP _
    rw [h.inactive, hperm.countP_eq, List.countP_cons]
    cases (w.heap p).isActive <;> simp <;> rfl
  · -- its instance goes from the queue to the ones that are gone
    have hmap : ((w.queue.qconnList.map fun q => (w.heap q).inst) ++ w.retired.map Conn.inst).Perm
        (((w.queue.qconnList.erase p).map fun q => (w.heap q).inst) ++
          (w.heap p).inst :: w.retired.map Conn.inst) := by
      refine ((hperm.map _).append_right _).trans ?_
      rw [List.map_cons]
      exact List.perm_middle.symm
    exact hmap.nodup_iff.mp h.insts
  · intro c hcm
    rcases List.mem_cons.mp hcm with rfl | hcm
    · obtain ⟨-, -, a, hr, hrep⟩ := h.standing_resumed hph hctl
      refine ⟨hc, ?_, (h.owned p hp).inst_lt, a, _, hr, hrep⟩
      -- a completed connection has no file
      rcases (h.owned p hp).file with ⟨hc', -⟩ | ⟨-, he⟩ | ⟨-, he⟩
      · exact absurd (hc.symm.trans hc') Bool.noConfusion
      · exact he
      · exact he
    · exact h.gone c hcm
  · refine ⟨.inl hctl, fun q hq _ => ?_, fun q hq => ?_, (List.nodup_cons.mp hnd).2⟩
    · exact hopen q (hmem hq).1 fun hqp => (hmem hq).2 (Option.some.inj hqp)
    · have hqp : q ≠ p := fun he => (List.nodup_cons.mp hnd).1 (he ▸ hq)
      exact (List.mem_erase_of_ne hqp).mpr (hsub hq)

/-- The context of a connection that left the queue is freed. -/
theorem freeConnCtx (h : Inv P R n w) (hph : w.Between) (hq : p ∉ w.queue.qconnList)
    (hc : p ∉ w.cache.qconnList) (hs : Spare (w.heap p) p (w.mem p)) : Inv P R n (w.freeConnCtx p) := by
  unfold Worker.freeConnCtx
  split
  · next hlt =>
    have hpush := h.pushCache hq hc hlt hs hph
    rwa [Function.update_eq_self, Function.update_eq_self] at hpush
  · exact h

/-- A context that a connection was on can be used again. -/
theorem spare_of_standing {c : Conn} {b : ℕ → Byte} (h : Standing P R p c b) (hp : c.recvBufP = p)
    (hsz : c.recvBufSize = SrvAsync.recvBufSize) (hu : 0 < c.uses) : Spare c p b := by
  obtain ⟨-, -, a, -, hrep⟩ := h
  have hle := hrep.have_le
  have hsize := hrep.size
  refine ⟨hp, hsz, ⟨a.have_, a.curr, hrep.have_, hrep.curr, hrep.curr_le, ?_⟩, fun h0 => ?_⟩
  · rw [← hsz, hsize]
    exact_mod_cast hle
  · omega

/-- The coroutine switched back. -/
theorem swappedBack (h : Inv P R n w) (hph : w.phase = .resumed p todo) (hctl : w.ctl = .main)
    (now : Time) : Inv P R n (w.swappedBack now p todo) := by
  have hcon := h.control
  rw [hph] at hcon
  obtain ⟨-, -, -, hp, -⟩ := hcon
  have hown := h.owned p hp
  unfold Worker.swappedBack
  simp only
  split
  · next hc =>
    refine (h.removeConnFromQueue hph hctl hc now).freeConnCtx (fun _ _ => Phase.noConfusion)
      (List.Nodup.not_mem_erase h.nodup_queue) (h.not_mem_cache hp) ?_
    exact spare_of_standing (h.standing_resumed hph hctl) hown.recvBufP hown.recvBufSize hown.used
  · next hc => exact h.passOn hph hctl (Bool.eq_false_iff.mpr hc) now

theorem accepted_swappedBack (w : Worker) (now : Time) (p : Ptr) (todo : List Ptr) :
    (w.swappedBack now p todo).accepted = w.accepted := by
  unfold Worker.swappedBack
  simp only
  split
  · unfold Worker.freeConnCtx
    split <;> rfl
  · rfl

/-! ### The main loop -/

/-- `epoll_pwait` returned. -/
theorem polled (h : Inv P R w.accepted w) (hR : Starts R) (hctl : w.ctl = .main) (hph : w.Between) {r : EpollResult}
    (hp : w.polled r = some w') : Inv P R w'.accepted w' := by
  cases r with
  | ready fd outs =>
    cases fd with
    | none =>
      simp only [Worker.polled] at hp
      split at hp
      · exact Option.some.inj hp ▸ h.startPass hph
      · cases hp
    | some fd =>
      simp only [Worker.polled] at hp
      split at hp
      · next hfd =>
        obtain ⟨w₁, h₁, rfl⟩ := Option.map_eq_some_iff.mp hp
        have hacc := h.accept hph hfd.2 w.accepted
        have hnew := hacc.createNewConn hR hctl hph (Function.update_self ..) h₁
        have hcnt : w₁.accepted = w.accepted + 1 := hacc.accepted_createNewConn hph h₁
        change Inv P R w₁.accepted _
        rw [hcnt]
        exact hnew
      · cases hp
  | timeout => exact Option.some.inj hp ▸ h.startPass hph
  | eintr => exact Option.some.inj hp ▸ h.startPass hph
  | error => exact Option.some.inj hp ▸ h.die hph hctl .exit

/-- `epoll_pwait` blocks. -/
theorem block (h : Inv P R n w) (hph : w.Between) (h0 : w.queue.activeConnCnt = 0) :
    Inv P R n { w with phase := .blocked } :=
  { h with
    owned := fun q hq => { h.owned q hq with }
    standing := fun q hq _ => h.standing q hq fun ⟨todo, he⟩ => hph q todo he
    control := ⟨(h.between hph).1, (h.between hph).2, h0⟩ }

/-- The pass is over. -/
theorem endPass (h : Inv P R n w) (hph : w.Between) : Inv P R n { w with phase := .head } :=
  { h with
    owned := fun q hq => { h.owned q hq with }
    standing := fun q hq _ => h.standing q hq fun ⟨todo, he⟩ => hph q todo he
    control := h.between hph }

/-- The pass comes to its next connection. -/
theorem select (h : Inv P R n w) (hph : w.phase = .pass (p :: todo)) (hctl : w.ctl = .main) :
    Inv P R n { w with
      queue := { w.queue with currConn := some p }
      self := p
      phase := .resumed p todo } := by
  have hbetween : w.Between := fun q todo' he => Phase.noConfusion (hph.symm.trans he)
  have hcon := h.control
  rw [hph] at hcon
  obtain ⟨-, hopen, hsub, hnd⟩ := hcon
  have hp : p ∈ w.queue.qconnList := hsub List.mem_cons_self
  have hbuf := (h.owned p hp).recvBufP
  refine
    { h with
      owned := fun q hq => { h.owned q hq with }
      standing := fun q hq _ => h.standing q hq fun ⟨todo', he⟩ => hbetween q todo' he
      control := ⟨fun q hq _ => hopen q hq (Option.some_ne_none q),
        fun q hq => hsub (List.mem_cons_of_mem _ hq), hnd, hp, rfl, rfl, ?_⟩ }
  obtain ⟨ho, hrun, a, hr, hrep⟩ := h.standing p hp fun ⟨todo', he⟩ => hbetween p todo' he
  refine ⟨a, hr, ?_⟩
  refine (refines_main_iff hctl).mpr ⟨ho, hrun, ?_⟩
  change Rep P (w.heap p) (w.mem (w.heap p).recvBufP) _ a
  rwa [hbuf]

/-- The main context switches to a coroutine. -/
theorem resume (h : Inv P R n w) (hph : w.phase = .pass (p :: todo)) (hctl : w.ctl = .main) {t : Tick}
    {fcntlOk : Bool} {s' : St} (hR : Carries P R (.resume fcntlOk))
    (hs : (Worker.load { w with
      queue := { w.queue with currConn := some p }
      phase := .resumed p todo } p).step P t (.resume fcntlOk) = some s') :
    Inv P R n (Worker.store { w with
      queue := { w.queue with currConn := some p }
      phase := .resumed p todo } p s') := by
  -- `resume` sets `self` itself, so it may as well be the connection before
  have hsel := h.select hph hctl
  have hcon := hsel.control
  obtain ⟨-, -, -, -, -, -, a, -, href⟩ := hcon
  refine hsel.co_step rfl (fun d hd => Control.noConfusion (hctl.symm.trans hd)) (t := t) hR ?_
  rw [← hs]
  unfold St.step
  simp only [Worker.load, hctl]
  rfl

end Worker.Inv

namespace Worker

variable {w w' : Worker}

/-- While a coroutine executes, `curr_conn` is its connection. -/
theorem Inv.running {n : ℕ} (h : Inv P R n w) {pt : Point} (hctl : w.ctl = .coro pt) :
    ∃ p todo, w.phase = .resumed p todo ∧ w.queue.currConn = some p ∧ p ∈ w.queue.qconnList ∧
      w.self = p := by
  have hcon := h.control
  have hmain : ¬ w.InMain := by
    rintro (hm | ⟨d, hd⟩)
    · exact Control.noConfusion (hctl.symm.trans hm)
    · exact Control.noConfusion (hctl.symm.trans hd)
  cases hph : w.phase with
  | head => rw [hph] at hcon; exact absurd hcon.1 hmain
  | blocked => rw [hph] at hcon; exact absurd hcon.1 hmain
  | pass todo => rw [hph] at hcon; exact absurd hcon.1 hmain
  | resumed p todo =>
    rw [hph] at hcon
    obtain ⟨-, -, -, hp, hcur, hself, -⟩ := hcon
    exact ⟨p, todo, rfl, hcur, hp, hself⟩

/-- **A step of a worker keeps the invariant.** -/
theorem inv_step {i : Tick × WorkerOp} (hR : Starts R) (h : Inv P R w.accepted w)
    (hi : WorkerCarries P R i.2) (hs : w.step P i = some w') :
    Inv P R w'.accepted w' := by
  obtain ⟨t, op⟩ := i
  unfold step at hs
  simp only at hs
  split at hs
  · next hctl =>
    -- the main context: one operation for each phase of the main loop
    unfold mainStep at hs
    split at hs
    · next hph =>
      split at hs
      · next h0 =>
        obtain rfl := Option.some.inj hs
        exact h.block (fun q todo he => Phase.noConfusion (hph.symm.trans he)) h0
      · cases hs
    · next hph =>
      split at hs
      · cases hs
      · exact h.polled hR hctl (fun q todo he => Phase.noConfusion (hph.symm.trans he)) hs
    · next hph =>
      split at hs
      · cases hs
      · exact h.polled hR hctl (fun q todo he => Phase.noConfusion (hph.symm.trans he)) hs
    · next hph =>
      obtain ⟨s', hs', rfl⟩ := Option.map_eq_some_iff.mp hs
      exact h.resume hph hctl hi hs'
    · next hph =>
      obtain rfl := Option.some.inj hs
      rw [Inv.accepted_swappedBack]
      exact h.swappedBack hph hctl _
    · next hph =>
      obtain rfl := Option.some.inj hs
      exact h.endPass fun q todo he => Phase.noConfusion (hph.symm.trans he)
    · cases hs
  · next p hctl =>
    split at hs
    · next op conn hcur =>
      -- the coroutine that runs is the one of the current connection
      obtain ⟨s', hs', rfl⟩ := Option.map_eq_some_iff.mp hs
      obtain ⟨conn', todo, hph, hcur', -, -⟩ := h.running hctl
      obtain rfl := Option.some.inj (hcur.symm.trans hcur')
      exact h.co_step hph (fun d hd => Control.noConfusion (hctl.symm.trans hd)) hi hs'
    · cases hs
  · cases hs

theorem inv_empty (heap : Ptr → Conn) (mem : Ptr → ℕ → Byte) : Inv P R 0 (empty heap mem) where
  nodup := .nil
  cnt := rfl
  cnt_le := by
    change (0 : ℤ) ≤ maxConnCtxCacheCnt
    decide
  active := rfl
  inactive := rfl
  insts := .nil
  owned := fun _ hq => absurd hq List.not_mem_nil
  spare := fun _ hq => absurd hq List.not_mem_nil
  standing := fun _ hq => absurd hq List.not_mem_nil
  gone := fun _ hc => absurd hc List.not_mem_nil
  control := ⟨.inl rfl, fun _ hq => absurd hq List.not_mem_nil⟩

/-- The cache of a new worker is filled, and nothing else has happened. -/
theorem init_cases {heap : Ptr → Conn} {mem : Ptr → ℕ → Byte} {outs : List (Option Ptr)}
    (h : init heap mem outs = some w) : Inv P R 0 w ∧
      ∃ heap' mem' cache, w = { empty heap mem with heap := heap', mem := mem', cache := cache } := by
  unfold init fillConnCtxCache at h
  split at h
  · next hlen =>
    have hcnt : (empty heap mem).cache.cnt = 0 := rfl
    have hle : (empty heap mem).cache.cnt + outs.length ≤ maxConnCtxCacheCnt := by
      rw [hlen, hcnt]
      decide
    exact (inv_empty heap mem).foldlM_fillRound (fun _ _ => Phase.noConfusion) hle h
  · cases h

theorem inv_init {heap : Ptr → Conn} {mem : Ptr → ℕ → Byte} {outs : List (Option Ptr)}
    (h : init heap mem outs = some w) : Inv P R w.accepted w := by
  obtain ⟨hi, heap', mem', cache, hw⟩ := init_cases (P := P) (R := R) h
  have h0 : w.accepted = 0 := by rw [hw]; rfl
  rwa [h0]

/-- **The invariant holds in every state of a run** whose steps carry the property on. -/
theorem inv_along (hR : Starts R) {heap : Ptr → Conn} {mem : Ptr → ℕ → Byte}
    {outs : List (Option Ptr)} {w₀ : Worker} {is : List (Tick × WorkerOp)}
    (h₀ : init heap mem outs = some w₀) (hc : Along (fun _ i => WorkerCarries P R i.2) (step P) w₀ is)
    (hr : run (step P) w₀ is = some w) : Inv P R w.accepted w :=
  run_invariant_along (P := fun w => Inv P R w.accepted w)
    (fun _ _ _ hi hq hs => inv_step hR hi hq hs) is (inv_init h₀) hc hr

/-- **The invariant holds in every state of a worker**, for a property that every step
carries on. -/
theorem inv_of_carries (hR : Starts R) (hc : ∀ op, Carries P R op) (h : Reachable P w) :
    Inv P R w.accepted w := by
  obtain ⟨heap, mem, outs, w₀, is, h₀, hr⟩ := h
  have hstep : ∀ (w : Worker) (i : Tick × WorkerOp), WorkerCarries P R i.2 := by
    rintro w ⟨t, op⟩
    cases op with
    | resume fcntlOk => exact hc _
    | co op => exact hc _
    | block | poll | back | endPass => trivial
  refine run_invariant_along (P := fun w => Inv P R w.accepted w) (Q := fun _ _ => True)
    (fun w i _ hi _ hs => inv_step hR hi (hstep w i) hs) is (inv_init h₀) (along_true is w₀) hr

/-- The invariant, without a property of the sessions. -/
theorem inv_reachable (h : Reachable P w) : Inv P (fun _ _ => True) w.accepted w :=
  inv_of_carries (fun _ _ _ _ _ => trivial) (fun _ _ _ _ _ _ _ _ => trivial) h

/-! ### How a worker dies -/

/-- What `epoll_pwait` leads to: the main context goes on, or the process exits. -/
theorem ctl_polled {n : ℕ} (h : Inv P R n w) (hph : w.Between) (hctl : w.ctl = .main)
    {r : EpollResult} (hs : w.polled r = some w') : w'.ctl = .main ∨ w'.ctl = .dead .exit := by
  cases r with
  | timeout => exact .inl (Option.some.inj hs ▸ hctl)
  | eintr => exact .inl (Option.some.inj hs ▸ hctl)
  | error => exact .inr (Option.some.inj hs ▸ rfl)
  | ready accept outs =>
    cases accept with
    | none =>
      simp only [polled] at hs
      split at hs
      · exact .inl (Option.some.inj hs ▸ hctl)
      · cases hs
    | some fd =>
      simp only [polled] at hs
      split at hs
      · next hfd =>
        obtain ⟨w₁, h₁, rfl⟩ := Option.map_eq_some_iff.mp hs
        obtain ⟨w₂, -, ⟨heap, mem, cache, rfl⟩, hcase⟩ :=
          (h.accept hph hfd.2 w.accepted).createNewConn_cases hph h₁
        rcases hcase with ⟨p, -, -, -, rfl⟩ | rfl
        · exact .inl hctl
        · exact .inr rfl
      · cases hs

/-- **The main loop only dies of an `exit`**; every other death is one of a coroutine. -/
theorem exit_or_resumed (h : Reachable P w) {d : Death} (hd : w.ctl = .dead d) :
    d = .exit ∨ ∃ p todo, w.phase = .resumed p todo := by
  obtain ⟨heap, mem, outs, w₀, is, h₀, hr⟩ := h
  have hinv := run_invariant
    (P := fun w => Inv P (fun _ _ => True) w.accepted w ∧ ∀ d, w.ctl = .dead d →
      d = .exit ∨ ∃ p todo, w.phase = .resumed p todo) ?_ is ⟨inv_init h₀, ?_⟩ hr
  · exact hinv.2 d hd
  · rintro w ⟨t, op⟩ w' ⟨hi, -⟩ hs
    have hi' : Inv P (fun _ _ => True) w'.accepted w' := by
      refine inv_step (fun _ _ _ _ _ => trivial) hi ?_ hs
      cases op with
      | resume | co => exact fun _ _ _ _ _ _ _ => trivial
      | block | poll | back | endPass => trivial
    refine ⟨hi', ?_⟩
    intro d hd
    -- the main context can only have died while it handled an `epoll_pwait`
    have hmain : w'.ctl ≠ .main := fun hm => Control.noConfusion (hm.symm.trans hd)
    cases op with
    | block =>
      obtain ⟨hc, -, rfl⟩ := step_block hs
      exact absurd hc hmain
    | poll r =>
      obtain ⟨hc, hph, hp⟩ := step_poll hs
      have hb : w.Between := by
        intro p todo he
        rcases hph with hph | hph
        · exact Phase.noConfusion (hph.symm.trans he)
        · exact Phase.noConfusion (hph.symm.trans he)
      rcases ctl_polled hi hb hc hp with hm | he
      · exact absurd hm hmain
      · exact .inl (Control.dead.inj (hd.symm.trans he))
    | resume fcntlOk =>
      obtain ⟨p, todo, s', -, -, -, rfl⟩ := step_resume hs
      exact .inr ⟨p, todo, rfl⟩
    | co op =>
      obtain ⟨pt, p, s', hc, -, -, rfl⟩ := step_co hs
      obtain ⟨p', todo, hph, -⟩ := hi.running hc
      exact .inr ⟨p', todo, hph⟩
    | back =>
      obtain ⟨p, todo, hc, -, rfl⟩ := step_back hs
      refine absurd ?_ hmain
      unfold Worker.swappedBack
      simp only
      split
      · unfold Worker.freeConnCtx
        split
        · exact hc
        · exact hc
      · exact hc
    | endPass =>
      obtain ⟨hc, -, rfl⟩ := step_endPass hs
      exact absurd hc hmain
  · intro d hd
    obtain ⟨-, heap', mem', cache, hw⟩ := init_cases (P := P) (R := fun _ _ => True) h₀
    have hmain : w₀.ctl = .main := by rw [hw]; rfl
    exact absurd (hmain.symm.trans hd) Control.noConfusion

end Worker

end SrvAsync
