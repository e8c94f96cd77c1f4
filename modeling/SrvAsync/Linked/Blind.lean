import SrvAsync.Http.SendRecv

/-!
# The code of a coroutine does not look at the queue

The functions a coroutine runs work on `curr_conn` and on the counters of the queue; none
of them follows a link of the list of connections.  So what they do is the same whatever
that list is, and they leave it as it was.

## Main definitions

* `St.withList` — the same state with another list of connections.
* `Blind` — a continuation that does not look at the list.

## Main results

* `St.step_withList` — **a step of a coroutine does not look at the list**.
-/

namespace SrvAsync

open Http

namespace St

/-- The same state, with this list of connections. -/
def withList (s : St) (xs : List Ptr) : St := { s with queue := { s.queue with qconnList := xs } }

variable (s s' : St) (xs : List Ptr)

@[simp] theorem curr_withList : (s.withList xs).curr = s.curr := rfl

@[simp] theorem mem_withList : (s.withList xs).mem = s.mem := rfl

@[simp] theorem ctl_withList : (s.withList xs).ctl = s.ctl := rfl

@[simp] theorem view_withList (p : Ptr) (off len : ℤ) :
    (s.withList xs).view p off len = s.view p off len := rfl

@[simp] theorem needCtxSwap_withList (now : Time) :
    (s.withList xs).needCtxSwap now = s.needCtxSwap now := rfl

@[simp] theorem currConnOpTimeout_withList (now timeout : Time) :
    (s.withList xs).currConnOpTimeout now timeout = s.currConnOpTimeout now timeout := rfl

@[simp] theorem currConnActiveTimeout_withList (now : Time) :
    (s.withList xs).currConnActiveTimeout now = s.currConnActiveTimeout now := rfl

@[simp] theorem goto_withList (p : Point) : (s.withList xs).goto p = (s.goto p).withList xs := rfl

@[simp] theorem die_withList (d : Death) : (s.withList xs).die d = (s.die d).withList xs := rfl

@[simp] theorem swapToMainCtx_withList (p : Point) :
    (s.withList xs).swapToMainCtx p = (s.swapToMainCtx p).withList xs := rfl

@[simp] theorem swappedBack_withList (now : Time) :
    (s.withList xs).swappedBack now = (s.swappedBack now).withList xs := rfl

@[simp] theorem log_withList (e : Event) : (s.withList xs).log e = (s.log e).withList xs := rfl

@[simp] theorem create_withList (o : Obj) : (s.withList xs).create o = (s.create o).withList xs := rfl

@[simp] theorem destroy_withList (o : Obj) :
    (s.withList xs).destroy o = (s.destroy o).withList xs := rfl

@[simp] theorem poke_withList (p : Ptr) (off : ℤ) (bs : Bytes) :
    (s.withList xs).poke p off bs = (s.poke p off bs).withList xs := rfl

@[simp] theorem setCursors_withList (n m : ℤ) :
    (s.withList xs).setCursors n m = (s.setCursors n m).withList xs := rfl

@[simp] theorem closeSock_withList : (s.withList xs).closeSock = s.closeSock.withList xs := rfl

@[simp] theorem currConnStartOp_withList (now : Time) :
    (s.withList xs).currConnStartOp now = (s.currConnStartOp now).withList xs := rfl

@[simp] theorem ite_withList (c : Prop) [Decidable c] :
    (if c then s else s').withList xs = if c then s.withList xs else s'.withList xs :=
  apply_ite (St.withList · xs) c s s'

@[simp] theorem currConnClose_withList :
    (s.withList xs).currConnClose = s.currConnClose.withList xs := by
  unfold currConnClose
  rw [ite_withList]
  rfl

@[simp] theorem currConnSetInactive_withList :
    (s.withList xs).currConnSetInactive = s.currConnSetInactive.withList xs := by
  unfold currConnSetInactive
  rw [ite_withList]
  rfl

@[simp] theorem currConnUpdateActive_withList (now : Time) :
    (s.withList xs).currConnUpdateActive now = (s.currConnUpdateActive now).withList xs := by
  unfold currConnUpdateActive
  simp only
  rw [ite_withList]
  rfl

end St

/-- What is done with a count does not look at the list of connections. -/
def Blind (ret : St → ℤ → St) : Prop :=
  ∀ (s : St) (n : ℤ) (xs : List Ptr), ret (s.withList xs) n = (ret s n).withList xs

variable {P : Platform} {ret : St → ℤ → St} {t : Tick} (s : St) (xs : List Ptr)

/-! ### Receiving and sending raw data -/

theorem recvLoop_withList (h : Blind ret) (f : RecvFrame) (k : RecvCaller) (b b' : Bool) :
    recvLoop (s.withList xs) f k b b' ret = (recvLoop s f k b b' ret).withList xs := by
  simp [recvLoop, h s]

theorem recvFromCurrConn_withList (h : Blind ret) (buf : Ptr) (toRecv nRecv : ℤ) (timeout : Time)
    (terminator : Bool) (k : RecvCaller) :
    recvFromCurrConn (s.withList xs) t buf toRecv nRecv timeout terminator k ret =
      (recvFromCurrConn s t buf toRecv nRecv timeout terminator k ret).withList xs := by
  simp [recvFromCurrConn, recvLoop_withList _ xs h]

theorem recvRead_withList (h : Blind ret) (f : RecvFrame) (k : RecvCaller) (r : ReadResult) :
    recvRead (s.withList xs) t f k ret r = (recvRead s t f k ret r).withList xs := by
  cases r with
  | again =>
    unfold recvRead
    simp only [St.log_withList, St.currConnActiveTimeout_withList, St.currConnSetInactive_withList]
    split <;> rfl
  | error => simp [recvRead]
  | eof => simp [recvRead, recvLoop_withList _ xs h]
  | data bs =>
    simp only [recvRead, St.poke_withList, St.currConnUpdateActive_withList, St.mem_withList,
      St.curr_withList, St.currConnOpTimeout_withList, St.log_withList]
    split
    · rfl
    · exact recvLoop_withList _ xs h _ _ _ _

theorem sendLoop_withList (h : Blind ret) (f : SendFrame) (k : SendCaller) (b b' : Bool) :
    sendLoop (s.withList xs) f k b b' ret = (sendLoop s f k b b' ret).withList xs := by
  simp [sendLoop, h s]

theorem sendToCurrConn_withList (h : Blind ret) (buf : Bytes) (toSend : ℤ) (timeout : Time)
    (k : SendCaller) :
    sendToCurrConn (s.withList xs) t buf toSend timeout k ret =
      (sendToCurrConn s t buf toSend timeout k ret).withList xs := by
  simp [sendToCurrConn, sendLoop_withList _ xs h]

theorem sendWrite_withList (h : Blind ret) (f : SendFrame) (k : SendCaller) (r : WriteResult) :
    sendWrite (s.withList xs) t f k ret r = (sendWrite s t f k ret r).withList xs := by
  cases r with
  | again =>
    unfold sendWrite
    simp only [St.log_withList, St.currConnActiveTimeout_withList, St.currConnSetInactive_withList]
    split <;> rfl
  | error => simp [sendWrite]
  | zero => simp [sendWrite, sendLoop_withList _ xs h]
  | sent n => simp [sendWrite, sendLoop_withList _ xs h]

/-! ### Sending responses -/

@[simp] theorem handleOneConnectionEnd_withList :
    handleOneConnectionEnd (s.withList xs) = (handleOneConnectionEnd s).withList xs := by
  simp [handleOneConnectionEnd]

@[simp] theorem clientRequestReturned_withList (more : Bool) :
    clientRequestReturned (s.withList xs) more = (clientRequestReturned s more).withList xs := by
  simp [clientRequestReturned]

@[simp] theorem handleOneClientRequestSent_withList (req : HttpRequestMsg) (resp : HttpResponseMsg)
    (size : ℤ) : handleOneClientRequestSent (s.withList xs) req resp size =
      (handleOneClientRequestSent s req resp size).withList xs := by
  unfold handleOneClientRequestSent
  split
  · simp
  · split <;> simp

theorem blind_sendHttpMsgSent (k : SendCaller) : Blind (sendHttpMsgSent k) := by
  intro s n xs
  simp [sendHttpMsgSent]

@[simp] theorem sendHttpMsgLoop_withList (req : HttpRequestMsg) (resp : HttpResponseMsg)
    (msg : Bytes) (curr : ℤ) : sendHttpMsgLoop (s.withList xs) t req resp msg curr =
      (sendHttpMsgLoop s t req resp msg curr).withList xs := by
  simp [sendHttpMsgLoop, sendToCurrConn_withList _ xs (blind_sendHttpMsgSent _)]

@[simp] theorem handleOneClientRequestRecv_withList (req : HttpRequestMsg) :
    handleOneClientRequestRecv P (s.withList xs) t req =
      (handleOneClientRequestRecv P s t req).withList xs := by
  unfold handleOneClientRequestRecv
  simp only
  split <;> simp [sendHttpMsg]

@[simp] theorem handleOneClientRequestNull_withList :
    handleOneClientRequestNull (s.withList xs) = (handleOneClientRequestNull s).withList xs := by
  simp [handleOneClientRequestNull]

/-! ### Receiving requests -/

theorem blind_recvHttpMsgChunk (req : HttpRequestMsg) (recvBufP : Ptr)
    (recvBufSize bodyLen gotLen toRecv : ℤ) :
    Blind (recvHttpMsgChunk req recvBufP recvBufSize bodyLen gotLen toRecv) := by
  intro s n xs
  simp [recvHttpMsgChunk]

@[simp] theorem recvHttpMsgBody_withList (req : HttpRequestMsg) (recvBufP : Ptr)
    (recvBufSize bodyLen gotLen : ℤ) :
    recvHttpMsgBody P (s.withList xs) t req recvBufP recvBufSize bodyLen gotLen =
      (recvHttpMsgBody P s t req recvBufP recvBufSize bodyLen gotLen).withList xs := by
  simp [recvHttpMsgBody, recvFromCurrConn_withList _ xs (blind_recvHttpMsgChunk _ _ _ _ _ _)]

@[simp] theorem recvHttpMsgHave_withList (req : HttpRequestMsg) :
    recvHttpMsgHave P (s.withList xs) t req = (recvHttpMsgHave P s t req).withList xs := by
  cases hlen : (req.getHeaderValue (ascii "Content-Length")).asSizeT with
  | none => simp [recvHttpMsgHave, hlen]
  | some bodyLen =>
    -- the test whether the buffer is used up, and what is written back then
    have hset : ∀ n k : ℤ, (if n = k then (s.withList xs).setCursors 0 0
        else (s.withList xs).setCursors k n) =
        (if n = k then s.setCursors 0 0 else s.setCursors k n).withList xs := by
      intro n k
      simp
    unfold recvHttpMsgHave
    simp only [hlen]
    rw [hset]
    exact recvHttpMsgBody_withList _ xs _ _ _ _ _

@[simp] theorem recvHttpMsgHdr_withList (httpHdr : Bytes) :
    recvHttpMsgHdr P (s.withList xs) t httpHdr = (recvHttpMsgHdr P s t httpHdr).withList xs := by
  simp [recvHttpMsgHdr]

@[simp] theorem recvHttpHdrEnd_withList (recvBufP : Ptr) (nHave nCurr hdrSize : ℤ) :
    recvHttpHdrEnd P (s.withList xs) t recvBufP nHave nCurr hdrSize =
      (recvHttpHdrEnd P s t recvBufP nHave nCurr hdrSize).withList xs := by
  simp only [recvHttpHdrEnd, St.view_withList, St.setCursors_withList, recvHttpMsgHdr_withList]
  rfl

theorem blind_recvHttpHdrRecv (recvBufP : Ptr) (nHave : ℤ) :
    Blind (recvHttpHdrRecv P t recvBufP nHave) := by
  intro s n xs
  simp [recvHttpHdrRecv]

@[simp] theorem recvHttpHdr_withList :
    recvHttpHdr P (s.withList xs) t = (recvHttpHdr P s t).withList xs := by
  simp [recvHttpHdr, recvFromCurrConn_withList _ xs (blind_recvHttpHdrRecv _ _)]

@[simp] theorem recvHttpMsg_withList :
    recvHttpMsg P (s.withList xs) t = (recvHttpMsg P s t).withList xs := by
  simp [recvHttpMsg]

theorem blind_recvReturned (k : RecvCaller) : Blind (recvReturned P t k) := by
  cases k with
  | hdr recvBufP nHave => exact blind_recvHttpHdrRecv recvBufP nHave
  | body => exact blind_recvHttpMsgChunk _ _ _ _ _ _

/-! ### A step -/

@[simp] theorem passYield_withList (y : Yield) :
    passYield P (s.withList xs) t y = (passYield P s t y).withList xs := by
  cases y <;> simp [passYield]

@[simp] theorem handleOneConnection_withList (fcntlOk : Bool) :
    handleOneConnection P (s.withList xs) t fcntlOk =
      (handleOneConnection P s t fcntlOk).withList xs := by
  simp [handleOneConnection]

theorem resume_withList (fcntlOk : Bool) :
    resume P (s.withList xs) t fcntlOk = (resume P s t fcntlOk).withList xs := by
  let s₁ : St := { s with self := s.curr.connCtx.owner }
  let back := s₁.swappedBack (t.clk 0)
  unfold resume
  simp only [St.curr_withList]
  cases s.curr.connCtx.point with
  | start => exact handleOneConnection_withList s₁ xs _
  | recvWait f k => exact recvLoop_withList back xs (blind_recvReturned k) f k false false
  | recvFailed f k => exact blind_recvReturned k back (-1) xs
  | sendWait f k => exact sendLoop_withList back xs (blind_sendHttpMsgSent k) f k false false
  | sendFailed f k => exact blind_sendHttpMsgSent k back (-1) xs
  | yielded y => exact passYield_withList back xs y
  | _ => rfl

/-- **A step of a coroutine does not look at the list of connections**, and leaves it as it
was. -/
theorem St.step_withList (op : Op) :
    (s.withList xs).step P t op = (s.step P t op).map (·.withList xs) := by
  unfold St.step
  cases op with
  | resume fcntlOk =>
    cases hc : s.ctl <;> simp [hc, resume_withList]
  | read r =>
    simp only [St.ctl_withList]
    split
    · split
      · exact congrArg some (recvRead_withList s xs (blind_recvReturned _) _ _ _)
      · rfl
    · rfl
  | write r =>
    simp only [St.ctl_withList]
    split
    · split
      · exact congrArg some (sendWrite_withList s xs (blind_sendHttpMsgSent _) _ _ _)
      · rfl
    · rfl
  | check =>
    simp only [St.ctl_withList, St.needCtxSwap_withList, passYield_withList]
    split
    · cases s.needCtxSwap (t.clk 0) <;> rfl
    · rfl

end SrvAsync
