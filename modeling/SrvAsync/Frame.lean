import SrvAsync.Refine.Code

/-!
# What the code of a coroutine leaves alone

`Keeps s s'` says how a piece of coroutine code may change what it shares with
the rest of the worker: the counters of the queue follow the `is_active` flag of
the connection, only the receive buffer of the connection is written, and the
socket of the connection is closed exactly when the connection is completed.

The one piece of code outside this is the `exit` at the start of
`handle_one_connection`.

## Main definitions

* `Closes`, `Shares`, `Keeps`, `Exits`.

## Main results

* `keeps_step` — every step of a coroutine keeps it, or is that `exit`.
-/

namespace SrvAsync

open Http History

/-- The connection is as completed as before, or it was completed and its socket closed. -/
def Closes (s s' : St) : Prop :=
  (s'.curr.isCompleted = s.curr.isCompleted ∧ s'.fds = s.fds ∧
    closes s'.curr.hist = closes s.curr.hist) ∨
  (s.curr.isCompleted = false ∧ s'.curr.isCompleted = true ∧
    s'.fds = Function.update s.fds s.curr.connSock none ∧
    closes s'.curr.hist = closes s.curr.hist ++ [s.fds s.curr.connSock])

/-- How the code of a coroutine changes what it shares, apart from sockets. -/
structure Shares (s s' : St) : Prop where
  self : s'.self = s.self
  qconnList : s'.queue.qconnList = s.queue.qconnList
  currConn : s'.queue.currConn = s.queue.currConn
  active : s'.queue.activeConnCnt = s.queue.activeConnCnt
    + ((if s'.curr.isActive then 1 else 0) - if s.curr.isActive then 1 else 0)
  inactive : s'.queue.inactiveConnCnt = s.queue.inactiveConnCnt
    - ((if s'.curr.isActive then 1 else 0) - if s.curr.isActive then 1 else 0)
  mem : ∀ p, p ≠ s.curr.recvBufP → s'.mem p = s.mem p
  recvBufP : s'.curr.recvBufP = s.curr.recvBufP
  recvBufSize : s'.curr.recvBufSize = s.curr.recvBufSize
  connSock : s'.curr.connSock = s.curr.connSock
  inst : s'.curr.inst = s.curr.inst
  uses : s'.curr.uses = s.curr.uses

/-- **How the code of a coroutine changes what it shares.** -/
structure Keeps (s s' : St) : Prop extends Shares s s' where
  closes : Closes s s'

/-- The socket was closed and the process exits. -/
def Exits (s s' : St) : Prop := s.curr.isCompleted = false ∧ s' = s.closeSock.die .exit

namespace Keeps

variable {s s' s'' : St}

theorem refl (s : St) : Keeps s s where
  self := rfl
  qconnList := rfl
  currConn := rfl
  active := by omega
  inactive := by omega
  mem := fun _ _ => rfl
  recvBufP := rfl
  recvBufSize := rfl
  connSock := rfl
  inst := rfl
  uses := rfl
  closes := .inl ⟨rfl, rfl, rfl⟩

theorem trans (h : Keeps s s') (h' : Keeps s' s'') : Keeps s s'' where
  self := h'.self.trans h.self
  qconnList := h'.qconnList.trans h.qconnList
  currConn := h'.currConn.trans h.currConn
  active := by rw [h'.active, h.active]; omega
  inactive := by rw [h'.inactive, h.inactive]; omega
  mem := fun p hp => (h'.mem p (h.recvBufP ▸ hp)).trans (h.mem p hp)
  recvBufP := h'.recvBufP.trans h.recvBufP
  recvBufSize := h'.recvBufSize.trans h.recvBufSize
  connSock := h'.connSock.trans h.connSock
  inst := h'.inst.trans h.inst
  uses := h'.uses.trans h.uses
  closes := by
    rcases h.closes with ⟨c1, f1, e1⟩ | ⟨c0, c1, f1, e1⟩ <;>
    rcases h'.closes with ⟨c2, f2, e2⟩ | ⟨c0', c2, f2, e2⟩
    · exact .inl ⟨c2.trans c1, f2.trans f1, e2.trans e1⟩
    · refine .inr ⟨c1 ▸ c0', c2, ?_, ?_⟩
      · rw [f2, f1, h.connSock]
      · rw [e2, e1, f1, h.connSock]
    · exact .inr ⟨c0, c2.trans c1, f2.trans f1, e2.trans e1⟩
    · exact absurd (c1.symm.trans c0') Bool.noConfusion

/-- The code goes on, ends or switches away. -/
theorem goto (h : Keeps s s') (p : Point) : Keeps s (s'.goto p) := { h with }

theorem die (h : Keeps s s') (d : Death) : Keeps s (s'.die d) := { h with }

theorem swapToMainCtx (h : Keeps s s') (p : Point) : Keeps s (s'.swapToMainCtx p) := { h with }

theorem swappedBack (h : Keeps s s') (now : Time) : Keeps s (s'.swappedBack now) := { h with }

theorem create (h : Keeps s s') (o : Obj) : Keeps s (s'.create o) := { h with }

theorem destroy (h : Keeps s s') (o : Obj) : Keeps s (s'.destroy o) := { h with }

theorem startOp (h : Keeps s s') (now : Time) : Keeps s (s'.currConnStartOp now) := { h with }

theorem setCursors (h : Keeps s s') (n m : ℤ) : Keeps s (s'.setCursors n m) := { h with }

/-- Something happens that is not a `close`. -/
theorem log (h : Keeps s s') (e : Event) (he : History.closes [e] = []) : Keeps s (s'.log e) := by
  have hlog : Keeps s' (s'.log e) :=
    { Keeps.refl s' with
      closes := .inl ⟨rfl, rfl, by
        change History.closes (s'.curr.hist ++ [e]) = _
        rw [closes_append, he, List.append_nil]⟩ }
  exact h.trans hlog

theorem updateActive (h : Keeps s s') (now : Time) : Keeps s (s'.currConnUpdateActive now) := by
  have hact : Keeps s' (s'.currConnUpdateActive now) := by
    rw [currConnUpdateActive_eq]
    refine { Keeps.refl s' with active := ?_, inactive := ?_ } <;>
    · simp only [if_true]
      split <;> omega
  exact h.trans hact

theorem setInactive (h : Keeps s s') : Keeps s s'.currConnSetInactive := by
  have hact : Keeps s' s'.currConnSetInactive := by
    rw [currConnSetInactive_eq]
    refine { Keeps.refl s' with active := ?_, inactive := ?_ } <;>
    · simp only [Bool.false_eq_true, if_false]
      split <;> omega
  exact h.trans hact

/-- The own receive buffer is written. -/
theorem poke (h : Keeps s s') {p : Ptr} (hp : p = s.curr.recvBufP) (off : ℤ) (bs : Bytes) :
    Keeps s (s'.poke p off bs) :=
  { h with mem := fun q hq => (Function.update_of_ne (hp ▸ hq) _ _).trans (h.mem q hq) }

theorem currConnClose (h : Keeps s s') : Keeps s s'.currConnClose := by
  have hclose : Keeps s' s'.currConnClose := by
    unfold St.currConnClose
    split
    · exact .refl s'
    · next hc =>
      refine { Keeps.refl s' with closes := .inr ⟨by simpa using hc, rfl, rfl, ?_⟩ }
      exact closes_append _ _
  exact h.trans hclose

end Keeps

/-- Only the own socket is closed, and only once. -/
theorem Keeps.fds {s s' : St} (h : Keeps s s') : s'.fds = s.fds ∨
    (s.curr.isCompleted = false ∧ s'.fds = Function.update s.fds s.curr.connSock none) := by
  rcases h.closes with ⟨-, hf, -⟩ | ⟨hc, -, hf, -⟩
  · exact .inl hf
  · exact .inr ⟨hc, hf⟩

theorem Exits.shares {s s' : St} (h : Exits s s') : Shares s s' := by
  obtain ⟨-, rfl⟩ := h
  exact { (Keeps.refl s).toShares with }

theorem Exits.fds {s s' : St} (h : Exits s s') :
    s'.fds = Function.update s.fds s.curr.connSock none := by
  obtain ⟨-, rfl⟩ := h
  rfl

/-! ### The code -/

section

variable {P : Platform} {s s' : St} {t : Tick}

theorem Keeps.handleOneConnectionEnd (h : Keeps s s') : Keeps s (handleOneConnectionEnd s') :=
  h.currConnClose.swapToMainCtx _

theorem Keeps.clientRequestReturned (h : Keeps s s') (more : Bool) :
    Keeps s (clientRequestReturned s' more) := ((h.destroy _).destroy _).log _ rfl

theorem Keeps.handleOneClientRequestNull (h : Keeps s s') :
    Keeps s (handleOneClientRequestNull s') := (h.log _ rfl).handleOneConnectionEnd

theorem Keeps.handleOneClientRequestSent (h : Keeps s s') (req : HttpRequestMsg)
    (resp : HttpResponseMsg) (size : ℤ) : Keeps s (handleOneClientRequestSent s' req resp size) := by
  unfold SrvAsync.handleOneClientRequestSent
  split
  · exact (h.clientRequestReturned _).handleOneConnectionEnd
  · split
    · exact h.die _
    · exact (h.clientRequestReturned _).handleOneConnectionEnd
    · exact h.goto _

theorem Keeps.sendHttpMsgSent (h : Keeps s s') (k : SendCaller) (count : ℤ) :
    Keeps s (sendHttpMsgSent k s' count) := by
  unfold SrvAsync.sendHttpMsgSent
  split
  · exact (h.destroy _).handleOneClientRequestSent _ _ _
  · exact h.goto _

theorem Keeps.sendLoop (h : Keeps s s') (f : SendFrame) (k : SendCaller) (b b' : Bool) :
    Keeps s (sendLoop s' f k b b' (SrvAsync.sendHttpMsgSent k)) := by
  unfold SrvAsync.sendLoop
  split
  · exact h.goto _
  · exact h.sendHttpMsgSent k _

theorem Keeps.sendHttpMsgLoop (h : Keeps s s') (req : HttpRequestMsg) (resp : HttpResponseMsg)
    (msg : Bytes) (curr : ℤ) : Keeps s (sendHttpMsgLoop s' t req resp msg curr) := by
  unfold SrvAsync.sendHttpMsgLoop
  split
  · exact ((h.updateActive _).startOp _).sendLoop _ _ _ _
  · exact (h.destroy _).handleOneClientRequestSent _ _ _

theorem Keeps.handleOneClientRequestRecv (h : Keeps s s') (req : HttpRequestMsg) :
    Keeps s (handleOneClientRequestRecv P s' t req) := by
  unfold SrvAsync.handleOneClientRequestRecv
  have hlog := h.log (.request req) rfl
  split
  · exact hlog.die _
  · exact ((((hlog.create _).log _ rfl).create _)).sendHttpMsgLoop _ _ _ _

theorem Keeps.recvHttpMsgChunk (h : Keeps s s') (req : HttpRequestMsg) (p : Ptr)
    (size bodyLen gotLen toRecv count : ℤ) :
    Keeps s (recvHttpMsgChunk req p size bodyLen gotLen toRecv s' count) := by
  unfold SrvAsync.recvHttpMsgChunk
  split
  · exact (h.destroy _).handleOneClientRequestNull
  · exact h.goto _

theorem Keeps.recvHttpMsgBody (h : Keeps s s') (req : HttpRequestMsg) (p : Ptr)
    (size bodyLen gotLen : ℤ) :
    Keeps s (recvHttpMsgBody P s' t req p size bodyLen gotLen) := by
  unfold SrvAsync.recvHttpMsgBody recvFromCurrConn recvLoop
  split
  · have hop := (h.updateActive (t.clk 2)).startOp (t.clk 3)
    simp only
    split
    · exact hop.goto _
    · exact hop.recvHttpMsgChunk _ _ _ _ _ _ _
  · exact h.handleOneClientRequestRecv req

theorem Keeps.recvHttpMsgHdr (h : Keeps s s') (hdr : Bytes) :
    Keeps s (recvHttpMsgHdr P s' t hdr) := by
  unfold SrvAsync.recvHttpMsgHdr
  split
  · exact h.handleOneClientRequestNull
  · have hreq := h.create .request
    simp only
    split
    · unfold recvHttpMsgHave
      simp only
      split
      · exact hreq.die _
      · split
        · exact (hreq.setCursors _ _).recvHttpMsgBody _ _ _ _ _
        · exact (hreq.setCursors _ _).recvHttpMsgBody _ _ _ _ _
    · exact hreq.handleOneClientRequestRecv _

theorem Keeps.recvHttpHdrEnd (h : Keeps s s') (p : Ptr) (nHave nCurr hdrSize : ℤ) :
    Keeps s (recvHttpHdrEnd P s' t p nHave nCurr hdrSize) := by
  unfold SrvAsync.recvHttpHdrEnd
  exact (h.setCursors _ _).recvHttpMsgHdr _

theorem Keeps.recvReturned (h : Keeps s s') (k : RecvCaller) (count : ℤ) :
    Keeps s (recvReturned P t k s' count) := by
  cases k with
  | hdr p nHave =>
    unfold SrvAsync.recvReturned recvHttpHdrRecv
    simp only
    split
    · exact h.recvHttpMsgHdr _
    · exact h.recvHttpHdrEnd _ _ _ _
  | body req p size bodyLen gotLen toRecv => exact h.recvHttpMsgChunk _ _ _ _ _ _ _

theorem Keeps.recvLoop (h : Keeps s s') (f : RecvFrame) (k : RecvCaller) (b b' : Bool) :
    Keeps s (recvLoop s' f k b b' (SrvAsync.recvReturned P t k)) := by
  unfold SrvAsync.recvLoop
  split
  · exact h.goto _
  · exact h.recvReturned k _

theorem Keeps.recvHttpMsg (h : Keeps s s') : Keeps s (recvHttpMsg P s' t) := by
  unfold SrvAsync.recvHttpMsg recvHttpHdr
  have hcall := h.log .call rfl
  have hp : s'.curr.recvBufP = s.curr.recvBufP := h.recvBufP
  simp only
  split
  · split
    · exact (((hcall.poke hp _ _).updateActive _).startOp _).recvLoop _ (.hdr _ _) _ _
    · exact hcall.recvHttpHdrEnd _ _ _ _
  · exact ((hcall.updateActive _).startOp _).recvLoop _ (.hdr _ _) _ _

theorem Keeps.passYield (h : Keeps s s') (y : Yield) : Keeps s (passYield P s' t y) := by
  cases y with
  | body req p size bodyLen gotLen => exact h.recvHttpMsgBody _ _ _ _ _
  | packet req resp msg curr => exact h.sendHttpMsgLoop _ _ _ _
  | request req resp => exact (h.clientRequestReturned _).recvHttpMsg

theorem keeps_recvRead {f : RecvFrame} {k : RecvCaller} (hf : f.buf = s.curr.recvBufP)
    (r : ReadResult) : Keeps s (recvRead s t f k (recvReturned P t k) r) := by
  have h := Keeps.refl s
  cases r with
  | again =>
    simp only [recvRead]
    have hlog := h.log (.read .again false) rfl
    split
    · exact hlog.setInactive.swapToMainCtx _
    · exact hlog.swapToMainCtx _
  | error => exact (h.log (.read .error false) rfl).currConnClose.swapToMainCtx _
  | eof => exact (h.log (.read .eof false) rfl).recvLoop _ _ _ _
  | data bs =>
    simp only [recvRead]
    have hdata := ((h.poke hf f.nRecv bs).updateActive (t.clk 0)).log (.read (.data bs)
      (f.timeout != timeoutInf && ((s.poke f.buf f.nRecv bs).currConnUpdateActive
        (t.clk 0)).currConnOpTimeout (t.clk 1) f.timeout)) rfl
    split
    · exact hdata.die _
    · exact hdata.recvLoop _ k _ _

theorem keeps_sendWrite (f : SendFrame) (k : SendCaller) (r : WriteResult) :
    Keeps s (sendWrite s t f k (sendHttpMsgSent k) r) := by
  have h := Keeps.refl s
  cases r with
  | again =>
    simp only [sendWrite]
    have hlog := h.log (.write .again [] false) rfl
    split
    · exact hlog.setInactive.swapToMainCtx _
    · exact hlog.swapToMainCtx _
  | error => exact (h.log (.write .error [] false) rfl).currConnClose.swapToMainCtx _
  | zero => exact (h.log (.write .zero [] false) rfl).sendLoop _ _ _ _
  | sent n => exact ((h.updateActive _).log _ rfl).sendLoop _ k _ _

/-- The main context switches to the coroutine of the connection. -/
theorem keeps_resume {fcntlOk : Bool} (ho : s.curr.connCtx.owner = s.self)
    (hc : s.curr.connCtx.point = .start → s.curr.isCompleted = false) :
    Keeps s (resume P s t fcntlOk) ∨ Exits s (resume P s t fcntlOk) := by
  have h := Keeps.refl s
  have hback := h.swappedBack (t.clk 0)
  unfold resume
  simp only [ho]
  split
  · next hp =>
    unfold handleOneConnection
    split
    · exact .inl h.recvHttpMsg
    · exact .inr ⟨hc hp, rfl⟩
  · exact .inl (hback.recvLoop _ _ _ _)
  · exact .inl (hback.recvReturned _ _)
  · exact .inl (hback.sendLoop _ _ _ _)
  · exact .inl (hback.sendHttpMsgSent _ _)
  · exact .inl (hback.passYield _)
  · exact .inl (hback.swapToMainCtx _)
  · exact .inl (h.goto _)

/-- **A step of a coroutine.** -/
theorem keeps_step {op : Op} {a : Session} (h : Refines P s a) (hs : s.step P t op = some s') :
    Keeps s s' ∨ Exits s s' := by
  cases op with
  | resume fcntlOk =>
    obtain ⟨hc, rfl⟩ := St.step_resume hs
    obtain ⟨ho, -, -, hst⟩ := (refines_main_iff hc).mp h
    refine keeps_resume ho fun hp => ?_
    rw [hp] at hst
    generalize a.stage = st at hst
    cases hst with
    | start hc => exact hc
  | read r =>
    obtain ⟨f, k, hc, -, rfl⟩ := St.step_read hs
    obtain ⟨-, -, hst⟩ := (refines_coro_iff hc).mp h
    have hf : f.buf = s.curr.recvBufP := by
      generalize a.stage = st at hst
      cases hst with
      | recvHdr hat => rw [hat.frame]
      | recvBody hat => rw [hat.frame]
    exact .inl (keeps_recvRead hf r)
  | write r =>
    obtain ⟨f, k, -, -, rfl⟩ := St.step_write hs
    exact .inl (keeps_sendWrite f k r)
  | check =>
    obtain ⟨y, -, rfl | rfl⟩ := St.step_check hs
    · exact .inl ((Keeps.refl s).swapToMainCtx _)
    · exact .inl ((Keeps.refl s).passYield y)

/-- Whatever a step of a coroutine does, it changes what it shares as `Shares` says. -/
theorem shares_step {op : Op} {a : Session} (h : Refines P s a) (hs : s.step P t op = some s') :
    Shares s s' := by
  rcases keeps_step h hs with hk | hx
  · exact hk.toShares
  · exact hx.shares

end

end SrvAsync
