import SrvAsync.Conn.SendRecv

/-!
# Receiving requests and sending responses

`srv_http_send_recv.cpp`, and `handle_one_connection` of `srv_routines.c`: the
code every coroutine runs.  A function of the source that calls into
`srv_conn_send_recv.c` or yields is cut at these calls; the piece behind a call
carries the name of the function with the call added.  The pieces are in the
order in which they can be written, so a function comes after what follows it.

`St.step` is one step of a coroutine: what it does from one system call, clock
test or switch to the next.

## Main definitions

* `findHttpHeadersEnd`, `getMethodToken`, `ofHeader`.
* `recvHttpHdr`, `recvHttpMsg`, `sendHttpMsg` and their pieces.
* `resume`, `passYield`, `St.step`.
-/

namespace SrvAsync

open Http

/-- `find_http_headers_end`: the offset just past the empty line, or 0. -/
def findHttpHeadersEnd (buf : Bytes) : ℕ :=
  match List.firstInfix? headersEnd buf with
  | some pos => pos + headersEnd.length
  | none => 0

/-- No end is found exactly when the empty line is nowhere. -/
theorem findHttpHeadersEnd_eq_zero_iff {W : Bytes} :
    findHttpHeadersEnd W = 0 ↔ List.firstInfix? headersEnd W = none := by
  unfold findHttpHeadersEnd
  split
  · next pos hpos =>
    have hlen : headersEnd.length = 4 := rfl
    constructor
    · intro h; omega
    · intro h; cases hpos.symm.trans h
  · next h => exact ⟨fun _ => h, fun _ => rfl⟩

/-- The end lies in the string. -/
theorem findHttpHeadersEnd_le (W : Bytes) : findHttpHeadersEnd W ≤ W.length := by
  unfold findHttpHeadersEnd
  split
  · next h => exact List.firstInfix?_add_length_le headersEnd_ne_nil h
  · exact Nat.zero_le _

/-- `get_method_token`. -/
def getMethodToken (buf : Bytes) : Bytes :=
  match findByte SP buf with
  | some sp => buf.take sp
  | none => []

/-- The request `recv_http_msg` makes of a header section, before it looks for a
body. -/
def ofHeader (httpHdr : Bytes) : HttpRequestMsg :=
  if maxHttpHdrSize < httpHdr.length then HttpRequestMsg.ofError .headerFieldsTooLarge
  else
    let req := HttpRequestMsg.create (getMethodToken httpHdr)
    if req.isOk then req.parseRequestHeader httpHdr else req

/-- Does `recv_http_msg` receive a body after this header section? -/
def wantsBody (httpHdr : Bytes) : Bool :=
  decide (httpHdr.length ≤ maxHttpHdrSize) && (ofHeader httpHdr).isOk &&
    methodHasBody (getMethodToken httpHdr)

section

variable (P : Platform)

/-! ### The end of a request -/

/-- The end of `handle_one_connection`: no more requests are handled. -/
def handleOneConnectionEnd (s : St) : St := (s.currConnClose).swapToMainCtx .ended

/-- `handle_one_client_request` returns; its objects are destroyed. -/
def clientRequestReturned (s : St) (more : Bool) : St :=
  ((s.destroy .response).destroy .request).log (.returned more)

/-- `handle_one_client_request` behind `send_http_msg`. -/
def handleOneClientRequestSent (s : St) (req : HttpRequestMsg) (resp : HttpResponseMsg)
    (size : ℤ) : St :=
  if size ≤ 0 then handleOneConnectionEnd (clientRequestReturned s false)
  else
    match req.wantKeepAlive with
    -- `std::get` throws in `WantKeepAlive`, and nobody catches
    | none => s.die .terminate
    | some false => handleOneConnectionEnd (clientRequestReturned s false)
    | some true => s.goto (.check (.request req resp))

/-! ### Sending a response -/

/-- `send_http_msg` behind `send_to_curr_conn`. -/
def sendHttpMsgSent (k : SendCaller) (s : St) (count : ℤ) : St :=
  if count ≠ k.toSend then handleOneClientRequestSent (s.destroy .text) k.req k.resp 0
  else s.goto (.check (.packet k.req k.resp k.msg (k.curr + k.toSend)))

/-- `send_http_msg` at the test of its loop. -/
def sendHttpMsgLoop (s : St) (t : Tick) (req : HttpRequestMsg) (resp : HttpResponseMsg)
    (msg : Bytes) (curr : ℤ) : St :=
  if curr < msg.length then
    let toSend := min sendPacketSize (msg.length - curr)
    let k : SendCaller := ⟨req, resp, msg, curr, toSend⟩
    sendToCurrConn s t (msg.drop curr.toNat) toSend clientOpTimeout k (sendHttpMsgSent k)
  else handleOneClientRequestSent (s.destroy .text) req resp msg.length

/-- `send_http_msg`. -/
def sendHttpMsg (s : St) (t : Tick) (req : HttpRequestMsg) (resp : HttpResponseMsg) : St :=
  sendHttpMsgLoop (s.create .text) t req resp (resp.serialize P) 0

/-- `handle_one_client_request` behind a `recv_http_msg` that returned a request. -/
def handleOneClientRequestRecv (s : St) (t : Tick) (req : HttpRequestMsg) : St :=
  let s := s.log (.request req)
  match makeResponse P t.date req with
  | none => s.die .terminate
  | some resp => sendHttpMsg P ((s.create .response).log (.response resp)) t req resp

/-- `handle_one_client_request` behind a `recv_http_msg` that returned `nullptr`. -/
def handleOneClientRequestNull (s : St) : St :=
  handleOneConnectionEnd (s.log (.returned false))

/-! ### Receiving a request -/

/-- The body loop of `recv_http_msg` behind `recv_from_curr_conn`. -/
def recvHttpMsgChunk (req : HttpRequestMsg) (recvBufP : Ptr)
    (recvBufSize bodyLen gotLen toRecv : ℤ) (s : St) (count : ℤ) : St :=
  if count ≠ toRecv then handleOneClientRequestNull (s.destroy .request)
  else
    s.goto (.check (.body (req.appendBody (s.view recvBufP 0 count)) recvBufP recvBufSize bodyLen
      (gotLen + count)))

/-- `recv_http_msg` at the test of its body loop. -/
def recvHttpMsgBody (s : St) (t : Tick) (req : HttpRequestMsg) (recvBufP : Ptr)
    (recvBufSize bodyLen gotLen : ℤ) : St :=
  if gotLen < bodyLen then
    let toRecv := min (bodyLen - gotLen) recvBufSize
    recvFromCurrConn s t recvBufP toRecv 0 clientOpTimeout false
      (.body req recvBufP recvBufSize bodyLen gotLen toRecv)
      (recvHttpMsgChunk req recvBufP recvBufSize bodyLen gotLen toRecv)
  else handleOneClientRequestRecv P s t req

/-- `recv_http_msg` on a valid request with a body: what is in the buffer comes
first. -/
def recvHttpMsgHave (s : St) (t : Tick) (req : HttpRequestMsg) : St :=
  let recvBufP := s.curr.recvBufP
  let nHave := s.curr.recvBufHave
  let nCurr := s.curr.recvBufCurr
  match (req.getHeaderValue (ascii "Content-Length")).asSizeT with
  -- `std::get` throws in `AsSizeT`, and nobody catches
  | none => s.die .terminate
  | some bodyLen =>
    let gotLen := min (nHave - nCurr) bodyLen
    let req := req.appendBody (s.view recvBufP nCurr gotLen)
    let nCurr := nCurr + gotLen
    let s := if nCurr = nHave then s.setCursors 0 0 else s.setCursors nHave nCurr
    recvHttpMsgBody P s t req recvBufP s.curr.recvBufSize bodyLen gotLen

/-- `recv_http_msg` behind `recv_http_hdr`. -/
def recvHttpMsgHdr (s : St) (t : Tick) (httpHdr : Bytes) : St :=
  if httpHdr.isEmpty then handleOneClientRequestNull s
  else
    let s := s.create .request
    let req := ofHeader httpHdr
    if wantsBody httpHdr then recvHttpMsgHave P s t req
    else handleOneClientRequestRecv P s t req

/-- The end of `recv_http_hdr`. -/
def recvHttpHdrEnd (s : St) (t : Tick) (recvBufP : Ptr) (nHave nCurr hdrSize : ℤ) : St :=
  let hdrSize := if hdrSize = 0 then
      (findHttpHeadersEnd (s.view recvBufP nCurr (nHave - nCurr)) : ℤ)
    else hdrSize
  recvHttpMsgHdr P (s.setCursors nHave (nCurr + hdrSize)) t
    (if hdrSize ≠ 0 then s.view recvBufP nCurr hdrSize else [])

/-- `recv_http_hdr` behind `recv_from_curr_conn`. -/
def recvHttpHdrRecv (t : Tick) (recvBufP : Ptr) (nHave : ℤ) (s : St) (count : ℤ) : St :=
  if count ≤ 0 then recvHttpMsgHdr P s t []
  else recvHttpHdrEnd P s t recvBufP (nHave + count) 0 0

/-- `recv_http_hdr`. -/
def recvHttpHdr (s : St) (t : Tick) : St :=
  let recvBufP := s.curr.recvBufP
  let recvBufSize := s.curr.recvBufSize
  let nHave := s.curr.recvBufHave
  let nCurr := s.curr.recvBufCurr
  if nCurr ≠ nHave then
    let hdrSize : ℤ := findHttpHeadersEnd (s.view recvBufP nCurr (nHave - nCurr))
    if hdrSize = 0 then
      -- no whole header section is unread: `memmove` to the front, and more is received behind it
      let s := s.poke recvBufP 0 (s.view recvBufP nCurr (nHave - nCurr))
      let nHave := nHave - nCurr
      recvFromCurrConn s t recvBufP (recvBufSize - nHave) nHave timeoutInf true
        (.hdr recvBufP nHave) (recvHttpHdrRecv P t recvBufP nHave)
    else recvHttpHdrEnd P s t recvBufP nHave nCurr hdrSize
  else
    recvFromCurrConn s t recvBufP recvBufSize 0 timeoutInf true
      (.hdr recvBufP 0) (recvHttpHdrRecv P t recvBufP 0)

/-- `recv_http_msg`. -/
def recvHttpMsg (s : St) (t : Tick) : St := recvHttpHdr P (s.log .call) t

/-- What a `recv_from_curr_conn` returns to. -/
def recvReturned (t : Tick) : RecvCaller → St → ℤ → St
  | .hdr recvBufP nHave => recvHttpHdrRecv P t recvBufP nHave
  | .body req recvBufP recvBufSize bodyLen gotLen toRecv =>
    recvHttpMsgChunk req recvBufP recvBufSize bodyLen gotLen toRecv

/-! ### One step of a coroutine -/

/-- What a coroutine does behind a `cond_swap_to_main_ctx`. -/
def passYield (s : St) (t : Tick) : Yield → St
  | .body req recvBufP recvBufSize bodyLen gotLen =>
    recvHttpMsgBody P s t req recvBufP recvBufSize bodyLen gotLen
  | .packet req resp msg curr => sendHttpMsgLoop s t req resp msg curr
  | .request _ _ => recvHttpMsg P (clientRequestReturned s true) t

/-- `set_nonblock` and `set_async` at the start of `handle_one_connection`.  When
an `fcntl` fails the socket is closed and the process exits. -/
def handleOneConnection (s : St) (t : Tick) (fcntlOk : Bool) : St :=
  if fcntlOk then recvHttpMsg P s t
  else s.closeSock.die .exit

/-- The main context switched to the coroutine of the current connection. -/
def resume (s : St) (t : Tick) (fcntlOk : Bool) : St :=
  let s := { s with self := s.curr.connCtx.owner }
  let back := s.swappedBack (t.clk 0)
  match s.curr.connCtx.point with
  | .start => handleOneConnection P s t fcntlOk
  -- the `continue` behind `swap_to_main_ctx`: the loop test is made again
  | .recvWait f k => recvLoop back f k false false (recvReturned P t k)
  -- "Should never get here" of the source
  | .recvFailed _ k => recvReturned P t k back (-1)
  | .sendWait f k => sendLoop back f k false false (sendHttpMsgSent k)
  | .sendFailed _ k => sendHttpMsgSent k back (-1)
  | .yielded y => passYield P back t y
  | .ended => back.swapToMainCtx .ended
  -- at the other points no coroutine switches away
  | p => s.goto p

/-- What makes a step of the process. -/
inductive Op
  /-- The main context switches to the current connection; the flag says whether
  the `fcntl` calls of a new one succeed. -/
  | resume (fcntlOk : Bool)
  /-- `read` returns. -/
  | read (r : ReadResult)
  /-- `write` returns. -/
  | write (r : WriteResult)
  /-- The clock test of `cond_swap_to_main_ctx` is made. -/
  | check
  deriving DecidableEq, Repr

/-- May `read` return this when asked for `toRecv` bytes? -/
def ReadResult.Fits (toRecv : ℤ) : ReadResult → Prop
  | .data bs => bs ≠ [] ∧ (bs.length : ℤ) ≤ toRecv
  | _ => True

/-- May `write` return this when given `toSend` bytes? -/
def WriteResult.Fits (toSend : ℤ) : WriteResult → Prop
  | .sent n => 0 < n ∧ (n : ℤ) ≤ toSend
  | _ => True

instance (toRecv : ℤ) : (r : ReadResult) → Decidable (r.Fits toRecv)
  | .data bs => inferInstanceAs (Decidable (bs ≠ [] ∧ (bs.length : ℤ) ≤ toRecv))
  | .again | .eof | .error => isTrue trivial

instance (toSend : ℤ) : (r : WriteResult) → Decidable (r.Fits toSend)
  | .sent n => inferInstanceAs (Decidable (0 < n ∧ (n : ℤ) ≤ toSend))
  | .again | .zero | .error => isTrue trivial

/-- One step: the main context switches to the current connection, or its
coroutine goes on from the call it is in. -/
def St.step (s : St) (t : Tick) : Op → Option St
  | .resume fcntlOk =>
    match s.ctl with
    | .main => some (resume P s t fcntlOk)
    | _ => none
  | .read r =>
    match s.ctl with
    | .coro (.recv f k) =>
      if r.Fits f.toRecv then some (recvRead s t f k (recvReturned P t k) r) else none
    | _ => none
  | .write r =>
    match s.ctl with
    | .coro (.send f k) =>
      if r.Fits f.toSend then some (sendWrite s t f k (sendHttpMsgSent k) r) else none
    | _ => none
  | .check =>
    match s.ctl with
    | .coro (.check y) =>
      if s.needCtxSwap (t.clk 0) then some (s.swapToMainCtx (.yielded y))
      else some (passYield P s t y)
    | _ => none

/-! ### What a step of a coroutine can be -/

variable {P} {s s' : St} {t : Tick}

/-- The main context switched to the coroutine. -/
theorem St.step_resume {fcntlOk : Bool} (hs : s.step P t (.resume fcntlOk) = some s') :
    s.ctl = .main ∧ s' = resume P s t fcntlOk := by
  unfold St.step at hs
  cases hc : s.ctl with
  | main =>
    rw [hc] at hs
    exact ⟨rfl, (Option.some.inj hs).symm⟩
  | coro p =>
    rw [hc] at hs
    cases hs
  | dead d =>
    rw [hc] at hs
    cases hs

/-- `read` returned to the coroutine. -/
theorem St.step_read {r : ReadResult} (hs : s.step P t (.read r) = some s') :
    ∃ f k, s.ctl = .coro (.recv f k) ∧ r.Fits f.toRecv ∧
      s' = recvRead s t f k (recvReturned P t k) r := by
  unfold St.step at hs
  simp only at hs
  split at hs
  · next f k hc =>
    obtain ⟨hfits, hs⟩ := Option.ite_none_right_eq_some.mp hs
    exact ⟨f, k, hc, hfits, (Option.some.inj hs).symm⟩
  · cases hs

/-- `write` returned to the coroutine. -/
theorem St.step_write {r : WriteResult} (hs : s.step P t (.write r) = some s') :
    ∃ f k, s.ctl = .coro (.send f k) ∧ r.Fits f.toSend ∧
      s' = sendWrite s t f k (sendHttpMsgSent k) r := by
  unfold St.step at hs
  simp only at hs
  split at hs
  · next f k hc =>
    obtain ⟨hfits, hs⟩ := Option.ite_none_right_eq_some.mp hs
    exact ⟨f, k, hc, hfits, (Option.some.inj hs).symm⟩
  · cases hs

/-- The clock test of `cond_swap_to_main_ctx` was made. -/
theorem St.step_check (hs : s.step P t .check = some s') :
    ∃ y, s.ctl = .coro (.check y) ∧
      (s' = s.swapToMainCtx (.yielded y) ∨ s' = passYield P s t y) := by
  unfold St.step at hs
  simp only at hs
  split at hs
  · next y hc =>
    refine ⟨y, hc, ?_⟩
    split at hs
    · exact .inl (Option.some.inj hs).symm
    · exact .inr (Option.some.inj hs).symm
  · cases hs

/-! What makes a step possible. -/

theorem St.step_of_main (hc : s.ctl = .main) (t : Tick) (fcntlOk : Bool) :
    s.step P t (.resume fcntlOk) = some (resume P s t fcntlOk) := by
  unfold St.step
  simp only
  rw [hc]

theorem St.step_of_recv {f : RecvFrame} {k : RecvCaller} {r : ReadResult}
    (hc : s.ctl = .coro (.recv f k)) (hr : r.Fits f.toRecv) (t : Tick) :
    s.step P t (.read r) = some (recvRead s t f k (recvReturned P t k) r) := by
  unfold St.step
  simp only
  rw [hc]
  exact if_pos hr

theorem St.step_of_send {f : SendFrame} {k : SendCaller} {r : WriteResult}
    (hc : s.ctl = .coro (.send f k)) (hr : r.Fits f.toSend) (t : Tick) :
    s.step P t (.write r) = some (sendWrite s t f k (sendHttpMsgSent k) r) := by
  unfold St.step
  simp only
  rw [hc]
  exact if_pos hr

theorem St.step_of_check {y : Yield} (hc : s.ctl = .coro (.check y)) (t : Tick) :
    s.step P t .check =
      if s.needCtxSwap (t.clk 0) then some (s.swapToMainCtx (.yielded y))
      else some (passYield P s t y) := by
  unfold St.step
  simp only
  rw [hc]

end

end SrvAsync
