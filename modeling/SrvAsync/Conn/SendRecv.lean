import SrvAsync.Conn.Ctxt

/-!
# Receiving and sending raw data

`srv_conn_send_recv.c`.  Both functions are a loop around one system call.  The
loop test is a function of its own (`recvLoop`, `sendLoop`): it either goes to
the next call or hands the count to the caller, which is the argument `ret`.
What the loop body does with an outcome is `recvRead` and `sendWrite`.

The readings `clk 0` and `clk 1` of a tick are the ones taken while an outcome is
processed, `clk 2` and `clk 3` the ones at the start of an operation.

## Main definitions

* `startsWith` — `strncmp` against a terminator, up to the guard page.
* `isHttpMessageEnd`, with `scanOffsets` for the comparisons it makes.
* `recvFromCurrConn`, `recvLoop`, `recvRead`.
* `sendToCurrConn`, `sendLoop`, `sendWrite`.
-/

namespace SrvAsync

open Http

/-! ### The terminator check -/

/-- Do the cells from `i` on start with these bytes?  The comparison stops at the
first difference; `none` says that it touched the guard page. -/
def startsWith (m : ℕ → Byte) (size : ℕ) : ℕ → Bytes → Option Bool
  | _, [] => some true
  | i, b :: bs =>
    if i < size then
      if m i = b then startsWith m size (i + 1) bs else some false
    else none

/-- The first comparison that succeeds decides. -/
def anyStartsWith (m : ℕ → Byte) (size : ℕ) (pat : Bytes) : List ℕ → Option Bool
  | [] => some false
  | i :: is =>
    match startsWith m size i pat with
    | none => none
    | some true => some true
    | some false => anyStartsWith m size pat is

/-- The offsets `is_http_message_end` compares at, in its order: the end of the
message, the boundary of the previous and the current chunk, the current chunk. -/
def scanOffsets (prev n : ℕ) : List ℕ :=
  (n - 4) :: (([3, 2, 1].filter fun i => decide (i ≤ prev)).map fun i => prev - i)
    ++ List.range' prev (n - 3 - prev)

/-- `is_http_message_end`. -/
def isHttpMessageEnd (m : ℕ → Byte) (size prev n : ℕ) : Option Bool :=
  if n < 4 then some false else anyStartsWith m size headersEnd (scanOffsets prev n)

/-! ### Receiving -/

/-- The test of the loop of `recv_from_curr_conn`. -/
def recvLoop (s : St) (f : RecvFrame) (k : RecvCaller) (recvTerm recvTimeout : Bool)
    (ret : St → ℤ → St) : St :=
  if f.toRecv ≠ 0 ∧ recvTerm = false ∧ recvTimeout = false then s.goto (.recv f k)
  else ret s (f.nRecv - f.prevNRecv)

/-- `recv_from_curr_conn` up to its first loop test. -/
def recvFromCurrConn (s : St) (t : Tick) (buf : Ptr) (toRecv nRecv : ℤ) (timeout : Time)
    (terminator : Bool) (k : RecvCaller) (ret : St → ℤ → St) : St :=
  recvLoop ((s.currConnUpdateActive (t.clk 2)).currConnStartOp (t.clk 3))
    ⟨buf, toRecv, nRecv, nRecv, timeout, terminator⟩ k false false ret

/-- The body of the loop of `recv_from_curr_conn`, on what `read` returned. -/
def recvRead (s : St) (t : Tick) (f : RecvFrame) (k : RecvCaller) (ret : St → ℤ → St) :
    ReadResult → St
  -- `EAGAIN`: the connection waits for its socket, and the loop goes on when it is resumed
  | .again =>
    let s := s.log (.read .again false)
    let s := if s.currConnActiveTimeout (t.clk 0) then s.currConnSetInactive else s
    s.swapToMainCtx (.recvWait f k)
  -- any other error: the connection is closed, so the main loop does not come back
  | .error => ((s.log (.read .error false)).currConnClose).swapToMainCtx (.recvFailed f k)
  | .data bs =>
    let s := (s.poke f.buf f.nRecv bs).currConnUpdateActive (t.clk 0)
    let n := f.nRecv + bs.length
    let recvTerm := if f.terminator then
        isHttpMessageEnd (s.mem f.buf) s.curr.recvBufSize.toNat f.nRecv.toNat n.toNat
      else some false
    let recvTimeout := f.timeout != timeoutInf && s.currConnOpTimeout (t.clk 1) f.timeout
    let s := s.log (.read (.data bs) recvTimeout)
    match recvTerm with
    | none => s.die .segv
    | some recvTerm =>
      recvLoop s { f with nRecv := n, toRecv := f.toRecv - bs.length } k recvTerm recvTimeout ret
  -- the client sends no more: the loop ends as if a terminator had come
  | .eof => recvLoop (s.log (.read .eof false)) f k true false ret

/-! ### Sending -/

/-- The test of the loop of `send_to_curr_conn`. -/
def sendLoop (s : St) (f : SendFrame) (k : SendCaller) (sendEnded sendTimeout : Bool)
    (ret : St → ℤ → St) : St :=
  if f.toSend ≠ 0 ∧ sendEnded = false ∧ sendTimeout = false then s.goto (.send f k)
  else ret s f.nSend

/-- `send_to_curr_conn` up to its first loop test. -/
def sendToCurrConn (s : St) (t : Tick) (buf : Bytes) (toSend : ℤ) (timeout : Time)
    (k : SendCaller) (ret : St → ℤ → St) : St :=
  sendLoop ((s.currConnUpdateActive (t.clk 2)).currConnStartOp (t.clk 3))
    ⟨buf, toSend, 0, timeout⟩ k false false ret

/-- The body of the loop of `send_to_curr_conn`, on what `write` returned. -/
def sendWrite (s : St) (t : Tick) (f : SendFrame) (k : SendCaller) (ret : St → ℤ → St) :
    WriteResult → St
  -- as for `read`
  | .again =>
    let s := s.log (.write .again [] false)
    let s := if s.currConnActiveTimeout (t.clk 0) then s.currConnSetInactive else s
    s.swapToMainCtx (.sendWait f k)
  | .error => ((s.log (.write .error [] false)).currConnClose).swapToMainCtx (.sendFailed f k)
  | .sent n =>
    let s := s.currConnUpdateActive (t.clk 0)
    let sendTimeout := f.timeout != timeoutInf && s.currConnOpTimeout (t.clk 1) f.timeout
    let s := s.log (.write (.sent n) ((f.buf.drop f.nSend.toNat).take n) sendTimeout)
    sendLoop s { f with nSend := f.nSend + n, toSend := f.toSend - n } k false sendTimeout ret
  -- `write` took nothing: the loop ends, and less was sent than asked for
  | .zero => sendLoop (s.log (.write .zero [] false)) f k true false ret

end SrvAsync
