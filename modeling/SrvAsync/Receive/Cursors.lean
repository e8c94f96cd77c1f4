import SrvAsync.Isolation

/-!
# The receive buffer and its cursors

Everything `recv_http_hdr`, `recv_http_msg` and `recv_from_curr_conn` do with the receive
buffer, in the numbers they compute: the `read` and `memmove` calls, the views, the lengths
that are passed on and the cursors that are written back.

The code is written down once more with what it does to the buffer (`Watched`), and what is
left when that is forgotten is the code (`fst_step`).

## Main definitions

* `BufferUse`, `BufferUse.Inside`.
* `Watched`, `Watched.step` — the code, watched.
* `St.uses`, `Worker.uses` — what a step does with the receive buffer.
* `Conn.CursorsInside` — `0 ≤ recv_buf_curr ≤ recv_buf_have ≤ recv_buf_size`.

## Main results

* `Watched.fst_step` — the watched code is the code.
* `Watched.inside_step` — one step of a coroutine.
* `cursors_inside` — **the cursors and all uses of the buffer stay inside**.
-/

namespace SrvAsync

open Http History Machine Worker

/-! ### What the code does with the buffer -/

/-- What the code does with a receive buffer. -/
inductive BufferUse
  /-- `read(fd, buf + off, len)`. -/
  | read (buf : Ptr) (off len : ℤ)
  /-- `memmove(buf, buf + src, len)`. -/
  | memmove (buf : Ptr) (src len : ℤ)
  /-- The `string_view(buf + off, len)`. -/
  | view (buf : Ptr) (off len : ℤ)
  /-- A length is passed on: `to_recv`, `got_len`, or what remains of a body. -/
  | length (n : ℤ)
  /-- `recv_buf_have` and `recv_buf_curr` are written back. -/
  | cursors (have_ curr : ℤ)

/-- The use keeps to the buffer of this size at this address. -/
def BufferUse.Inside (p : Ptr) (size : ℤ) : BufferUse → Prop
  | .read buf off len | .view buf off len => buf = p ∧ 0 ≤ off ∧ 0 ≤ len ∧ off + len ≤ size
  | .memmove buf src len => buf = p ∧ 0 ≤ src ∧ 0 ≤ len ∧ src + len ≤ size
  | .length n => 0 ≤ n
  | .cursors have_ curr => 0 ≤ curr ∧ curr ≤ have_ ∧ have_ ≤ size

/-- The state after a piece of code, and what it did with the buffer. -/
abbrev Watched := St × List BufferUse

namespace Watched

/-- Code that does nothing with the buffer. -/
def nothing (s : St) : Watched := (s, [])

/-- What is done with the buffer before a piece of code. -/
def use (us : List BufferUse) (x : Watched) : Watched := (x.1, us ++ x.2)

section

variable (P : Platform)

/-- The body loop of `recv_http_msg` behind `recv_from_curr_conn`. -/
def recvHttpMsgChunk (req : HttpRequestMsg) (recvBufP : Ptr)
    (recvBufSize bodyLen gotLen toRecv : ℤ) (s : St) (count : ℤ) : Watched :=
  if count ≠ toRecv then nothing (handleOneClientRequestNull (s.destroy .request))
  else
    use [.view recvBufP 0 count] <|
    nothing (s.goto (.check (.body (req.appendBody (s.view recvBufP 0 count)) recvBufP recvBufSize
      bodyLen (gotLen + count))))

/-- The test of the loop of `recv_from_curr_conn`. -/
def recvLoop (s : St) (f : RecvFrame) (k : RecvCaller) (recvTerm recvTimeout : Bool)
    (ret : St → ℤ → Watched) : Watched :=
  if f.toRecv ≠ 0 ∧ recvTerm = false ∧ recvTimeout = false then nothing (s.goto (.recv f k))
  else ret s (f.nRecv - f.prevNRecv)

/-- `recv_from_curr_conn` up to its first loop test. -/
def recvFromCurrConn (s : St) (t : Tick) (buf : Ptr) (toRecv nRecv : ℤ) (timeout : Time)
    (terminator : Bool) (k : RecvCaller) (ret : St → ℤ → Watched) : Watched :=
  use [.length toRecv] <|
  recvLoop ((s.currConnUpdateActive (t.clk 2)).currConnStartOp (t.clk 3))
    ⟨buf, toRecv, nRecv, nRecv, timeout, terminator⟩ k false false ret

/-- `recv_http_msg` at the test of its body loop. -/
def recvHttpMsgBody (s : St) (t : Tick) (req : HttpRequestMsg) (recvBufP : Ptr)
    (recvBufSize bodyLen gotLen : ℤ) : Watched :=
  use [.length (bodyLen - gotLen)] <|
  if gotLen < bodyLen then
    let toRecv := min (bodyLen - gotLen) recvBufSize
    recvFromCurrConn s t recvBufP toRecv 0 clientOpTimeout false
      (.body req recvBufP recvBufSize bodyLen gotLen toRecv)
      (recvHttpMsgChunk req recvBufP recvBufSize bodyLen gotLen toRecv)
  else nothing (handleOneClientRequestRecv P s t req)

/-- `recv_http_msg` on a valid request with a body. -/
def recvHttpMsgHave (s : St) (t : Tick) (req : HttpRequestMsg) : Watched :=
  let recvBufP := s.curr.recvBufP
  let nHave := s.curr.recvBufHave
  let nCurr := s.curr.recvBufCurr
  match (req.getHeaderValue (ascii "Content-Length")).asSizeT with
  | none => nothing (s.die .terminate)
  | some bodyLen =>
    let gotLen := min (nHave - nCurr) bodyLen
    let req := req.appendBody (s.view recvBufP nCurr gotLen)
    let s := if nCurr + gotLen = nHave then s.setCursors 0 0 else s.setCursors nHave (nCurr + gotLen)
    use [.length gotLen, .view recvBufP nCurr gotLen,
      .cursors s.curr.recvBufHave s.curr.recvBufCurr] <|
    recvHttpMsgBody P s t req recvBufP s.curr.recvBufSize bodyLen gotLen

/-- `recv_http_msg` behind `recv_http_hdr`. -/
def recvHttpMsgHdr (s : St) (t : Tick) (httpHdr : Bytes) : Watched :=
  if httpHdr.isEmpty then nothing (handleOneClientRequestNull s)
  else
    let s := s.create .request
    let req := ofHeader httpHdr
    if wantsBody httpHdr then recvHttpMsgHave P s t req
    else nothing (handleOneClientRequestRecv P s t req)

/-- The end of `recv_http_hdr`. -/
def recvHttpHdrEnd (s : St) (t : Tick) (recvBufP : Ptr) (nHave nCurr hdrSize : ℤ) : Watched :=
  use (if hdrSize = 0 then [.view recvBufP nCurr (nHave - nCurr)] else []) <|
  let hdrSize := if hdrSize = 0 then
      (findHttpHeadersEnd (s.view recvBufP nCurr (nHave - nCurr)) : ℤ)
    else hdrSize
  use (.cursors nHave (nCurr + hdrSize) ::
    if hdrSize ≠ 0 then [.view recvBufP nCurr hdrSize] else []) <|
  recvHttpMsgHdr P (s.setCursors nHave (nCurr + hdrSize)) t
    (if hdrSize ≠ 0 then s.view recvBufP nCurr hdrSize else [])

/-- `recv_http_hdr` behind `recv_from_curr_conn`. -/
def recvHttpHdrRecv (t : Tick) (recvBufP : Ptr) (nHave : ℤ) (s : St) (count : ℤ) : Watched :=
  if count ≤ 0 then recvHttpMsgHdr P s t []
  else recvHttpHdrEnd P s t recvBufP (nHave + count) 0 0

/-- `recv_http_hdr`. -/
def recvHttpHdr (s : St) (t : Tick) : Watched :=
  let recvBufP := s.curr.recvBufP
  let recvBufSize := s.curr.recvBufSize
  let nHave := s.curr.recvBufHave
  let nCurr := s.curr.recvBufCurr
  if nCurr ≠ nHave then
    use [.view recvBufP nCurr (nHave - nCurr)] <|
    let hdrSize : ℤ := findHttpHeadersEnd (s.view recvBufP nCurr (nHave - nCurr))
    if hdrSize = 0 then
      use [.memmove recvBufP nCurr (nHave - nCurr)] <|
      let s := s.poke recvBufP 0 (s.view recvBufP nCurr (nHave - nCurr))
      let nHave := nHave - nCurr
      recvFromCurrConn s t recvBufP (recvBufSize - nHave) nHave timeoutInf true
        (.hdr recvBufP nHave) (recvHttpHdrRecv P t recvBufP nHave)
    else recvHttpHdrEnd P s t recvBufP nHave nCurr hdrSize
  else
    recvFromCurrConn s t recvBufP recvBufSize 0 timeoutInf true
      (.hdr recvBufP 0) (recvHttpHdrRecv P t recvBufP 0)

/-- `recv_http_msg`. -/
def recvHttpMsg (s : St) (t : Tick) : Watched := recvHttpHdr P (s.log .call) t

/-- What a `recv_from_curr_conn` returns to. -/
def recvReturned (t : Tick) : RecvCaller → St → ℤ → Watched
  | .hdr recvBufP nHave => recvHttpHdrRecv P t recvBufP nHave
  | .body req recvBufP recvBufSize bodyLen gotLen toRecv =>
    recvHttpMsgChunk req recvBufP recvBufSize bodyLen gotLen toRecv

/-- The body of the loop of `recv_from_curr_conn`. -/
def recvRead (s : St) (t : Tick) (f : RecvFrame) (k : RecvCaller) (ret : St → ℤ → Watched) :
    ReadResult → Watched
  | .again => use [.read f.buf f.nRecv f.toRecv] <|
    let s := s.log (.read .again false)
    let s := if s.currConnActiveTimeout (t.clk 0) then s.currConnSetInactive else s
    nothing (s.swapToMainCtx (.recvWait f k))
  | .error => use [.read f.buf f.nRecv f.toRecv] <|
    nothing (((s.log (.read .error false)).currConnClose).swapToMainCtx (.recvFailed f k))
  | .data bs => use [.read f.buf f.nRecv f.toRecv] <|
    let s := (s.poke f.buf f.nRecv bs).currConnUpdateActive (t.clk 0)
    let n := f.nRecv + bs.length
    let recvTerm := if f.terminator then
        isHttpMessageEnd (s.mem f.buf) s.curr.recvBufSize.toNat f.nRecv.toNat n.toNat
      else some false
    let recvTimeout := f.timeout != timeoutInf && s.currConnOpTimeout (t.clk 1) f.timeout
    let s := s.log (.read (.data bs) recvTimeout)
    match recvTerm with
    | none => nothing (s.die .segv)
    | some recvTerm =>
      recvLoop s { f with nRecv := n, toRecv := f.toRecv - bs.length } k recvTerm recvTimeout ret
  | .eof => use [.read f.buf f.nRecv f.toRecv] <|
    recvLoop (s.log (.read .eof false)) f k true false ret

/-- What a coroutine does behind a `cond_swap_to_main_ctx`. -/
def passYield (s : St) (t : Tick) : Yield → Watched
  | .body req recvBufP recvBufSize bodyLen gotLen =>
    recvHttpMsgBody P s t req recvBufP recvBufSize bodyLen gotLen
  | .packet req resp msg curr => nothing (sendHttpMsgLoop s t req resp msg curr)
  | .request _ _ => recvHttpMsg P (clientRequestReturned s true) t

/-- `handle_one_connection` up to its first request. -/
def handleOneConnection (s : St) (t : Tick) (fcntlOk : Bool) : Watched :=
  if fcntlOk then recvHttpMsg P s t else nothing (s.closeSock.die .exit)

/-- The main context switched to the coroutine of the current connection. -/
def resume (s : St) (t : Tick) (fcntlOk : Bool) : Watched :=
  let s := { s with self := s.curr.connCtx.owner }
  let back := s.swappedBack (t.clk 0)
  match s.curr.connCtx.point with
  | .start => handleOneConnection P s t fcntlOk
  | .recvWait f k => recvLoop back f k false false (recvReturned P t k)
  | .recvFailed _ k => recvReturned P t k back (-1)
  | .sendWait f k => nothing (sendLoop back f k false false (sendHttpMsgSent k))
  | .sendFailed _ k => nothing (sendHttpMsgSent k back (-1))
  | .yielded y => passYield P back t y
  | .ended => nothing (back.swapToMainCtx .ended)
  | p => nothing (s.goto p)

/-- One step of a coroutine. -/
def step (s : St) (t : Tick) : Op → Option Watched
  | .resume fcntlOk =>
    match s.ctl with
    | .main => some (resume P s t fcntlOk)
    | _ => none
  | .read r =>
    match s.ctl with
    | .coro (.recv f k) =>
      if r.Fits f.toRecv then some (recvRead s t f k (recvReturned P t k) r) else none
    | _ => none
  | .write r =>
    match s.ctl with
    | .coro (.send f k) =>
      if r.Fits f.toSend then some (nothing (sendWrite s t f k (sendHttpMsgSent k) r)) else none
    | _ => none
  | .check =>
    match s.ctl with
    | .coro (.check y) =>
      if s.needCtxSwap (t.clk 0) then some (nothing (s.swapToMainCtx (.yielded y)))
      else some (passYield P s t y)
    | _ => none

end

/-! ### The watched code is the code -/

@[simp] theorem fst_use (us : List BufferUse) (x : Watched) : (use us x).1 = x.1 := rfl

section

variable (P : Platform) (s : St) (t : Tick)

@[simp] theorem fst_recvHttpMsgChunk (req : HttpRequestMsg) (p : Ptr)
    (size bodyLen gotLen toRecv count : ℤ) :
    (recvHttpMsgChunk req p size bodyLen gotLen toRecv s count).1
      = SrvAsync.recvHttpMsgChunk req p size bodyLen gotLen toRecv s count := by
  unfold recvHttpMsgChunk SrvAsync.recvHttpMsgChunk
  split <;> rfl

theorem fst_recvLoop (f : RecvFrame) (k : RecvCaller) (b b' : Bool) {ret : St → ℤ → Watched}
    {ret' : St → ℤ → St} (hret : ∀ s count, (ret s count).1 = ret' s count) :
    (recvLoop s f k b b' ret).1 = SrvAsync.recvLoop s f k b b' ret' := by
  unfold recvLoop SrvAsync.recvLoop
  split
  · rfl
  · exact hret _ _

theorem fst_recvFromCurrConn (buf : Ptr) (toRecv nRecv : ℤ) (timeout : Time) (b : Bool)
    (k : RecvCaller) {ret : St → ℤ → Watched} {ret' : St → ℤ → St}
    (hret : ∀ s count, (ret s count).1 = ret' s count) :
    (recvFromCurrConn s t buf toRecv nRecv timeout b k ret).1
      = SrvAsync.recvFromCurrConn s t buf toRecv nRecv timeout b k ret' :=
  fst_recvLoop _ _ k false false hret

@[simp] theorem fst_recvHttpMsgBody (req : HttpRequestMsg) (p : Ptr) (size bodyLen gotLen : ℤ) :
    (recvHttpMsgBody P s t req p size bodyLen gotLen).1
      = SrvAsync.recvHttpMsgBody P s t req p size bodyLen gotLen := by
  unfold recvHttpMsgBody SrvAsync.recvHttpMsgBody
  rw [fst_use]
  split
  · exact fst_recvFromCurrConn _ _ _ _ _ _ _ _ fun s count => fst_recvHttpMsgChunk s ..
  · rfl

@[simp] theorem fst_recvHttpMsgHave (req : HttpRequestMsg) :
    (recvHttpMsgHave P s t req).1 = SrvAsync.recvHttpMsgHave P s t req := by
  unfold recvHttpMsgHave SrvAsync.recvHttpMsgHave
  cases (req.getHeaderValue (ascii "Content-Length")).asSizeT with
  | none => rfl
  | some bodyLen => exact fst_recvHttpMsgBody P _ t ..

@[simp] theorem fst_recvHttpMsgHdr (hdr : Bytes) :
    (recvHttpMsgHdr P s t hdr).1 = SrvAsync.recvHttpMsgHdr P s t hdr := by
  unfold recvHttpMsgHdr SrvAsync.recvHttpMsgHdr
  split
  · rfl
  · simp only
    split
    · exact fst_recvHttpMsgHave P _ t _
    · rfl

@[simp] theorem fst_recvHttpHdrEnd (p : Ptr) (nHave nCurr hdrSize : ℤ) :
    (recvHttpHdrEnd P s t p nHave nCurr hdrSize).1
      = SrvAsync.recvHttpHdrEnd P s t p nHave nCurr hdrSize := by
  unfold recvHttpHdrEnd SrvAsync.recvHttpHdrEnd
  rw [fst_use, fst_use, fst_recvHttpMsgHdr]

@[simp] theorem fst_recvReturned (k : RecvCaller) (count : ℤ) :
    (recvReturned P t k s count).1 = SrvAsync.recvReturned P t k s count := by
  cases k with
  | hdr p nHave =>
    change (recvHttpHdrRecv P t p nHave s count).1 = SrvAsync.recvHttpHdrRecv P t p nHave s count
    unfold recvHttpHdrRecv SrvAsync.recvHttpHdrRecv
    split
    · exact fst_recvHttpMsgHdr P s t []
    · exact fst_recvHttpHdrEnd P s t ..
  | body req p size bodyLen gotLen toRecv => exact fst_recvHttpMsgChunk s ..

@[simp] theorem fst_recvHttpMsg : (recvHttpMsg P s t).1 = SrvAsync.recvHttpMsg P s t := by
  unfold recvHttpMsg SrvAsync.recvHttpMsg recvHttpHdr SrvAsync.recvHttpHdr
  simp only
  split
  · rw [fst_use]
    split
    · rw [fst_use]
      exact fst_recvFromCurrConn _ _ _ _ _ _ _ _ fun s count => fst_recvReturned P s t (.hdr _ _) count
    · exact fst_recvHttpHdrEnd P _ t ..
  · exact fst_recvFromCurrConn _ _ _ _ _ _ _ _ fun s count => fst_recvReturned P s t (.hdr _ _) count

@[simp] theorem fst_recvRead (f : RecvFrame) (k : RecvCaller) (r : ReadResult) :
    (recvRead s t f k (recvReturned P t k) r).1
      = SrvAsync.recvRead s t f k (SrvAsync.recvReturned P t k) r := by
  have hret : ∀ s count, (recvReturned P t k s count).1 = SrvAsync.recvReturned P t k s count :=
    fun s count => fst_recvReturned P s t k count
  cases r with
  | again => rfl
  | error => rfl
  | eof => exact fst_recvLoop _ f k true false hret
  | data bs =>
    -- whatever the check for the terminator says
    have hterm : ∀ (s : St) (f : RecvFrame) (recvTimeout : Bool) (recvTerm : Option Bool),
        (match recvTerm with
          | none => nothing (s.die .segv)
          | some recvTerm => recvLoop s f k recvTerm recvTimeout (recvReturned P t k)).1 =
        match recvTerm with
          | none => s.die .segv
          | some recvTerm =>
            SrvAsync.recvLoop s f k recvTerm recvTimeout (SrvAsync.recvReturned P t k) := by
      intro s f recvTimeout recvTerm
      cases recvTerm with
      | none => rfl
      | some recvTerm => exact fst_recvLoop s f k recvTerm recvTimeout hret
    exact hterm _ _ _ _

@[simp] theorem fst_passYield (y : Yield) :
    (passYield P s t y).1 = SrvAsync.passYield P s t y := by
  cases y with
  | body req p size bodyLen gotLen => exact fst_recvHttpMsgBody P s t ..
  | packet req resp msg curr => rfl
  | request req resp => exact fst_recvHttpMsg P _ t

@[simp] theorem fst_resume (fcntlOk : Bool) :
    (resume P s t fcntlOk).1 = SrvAsync.resume P s t fcntlOk := by
  unfold resume SrvAsync.resume
  simp only
  cases s.curr.connCtx.point with
  | start =>
    unfold handleOneConnection SrvAsync.handleOneConnection
    simp only
    split
    · exact fst_recvHttpMsg P _ t
    · rfl
  | recvWait f k => exact fst_recvLoop _ f k _ _ fun s count => fst_recvReturned P s t k count
  | recvFailed f k => exact fst_recvReturned P _ t k _
  | yielded y => exact fst_passYield P _ t y
  | recv | send | check | sendWait | sendFailed | ended => rfl

/-- **The watched code is the code**, when what it does with the buffer is forgotten. -/
theorem fst_step (op : Op) : (step P s t op).map Prod.fst = s.step P t op := by
  unfold step St.step
  cases op with
  | resume fcntlOk =>
    cases s.ctl with
    | main => exact congrArg some (fst_resume P s t fcntlOk)
    | _ => rfl
  | read r =>
    cases s.ctl with
    | coro pt =>
      cases pt with
      | recv f k =>
        simp only
        split
        · exact congrArg some (fst_recvRead P s t f k r)
        · rfl
      | _ => rfl
    | _ => rfl
  | write r =>
    cases s.ctl with
    | coro pt =>
      cases pt with
      | send f k =>
        simp only
        split <;> rfl
      | _ => rfl
    | _ => rfl
  | check =>
    cases s.ctl with
    | coro pt =>
      cases pt with
      | check y =>
        simp only
        split
        · rfl
        · exact congrArg some (fst_passYield P s t y)
      | _ => rfl
    | _ => rfl

end

end Watched

/-! ### The cursors -/

/-- **The invariant of the cursors.** -/
structure Conn.CursorsInside (c : Conn) : Prop where
  curr_nonneg : 0 ≤ c.recvBufCurr
  curr_le : c.recvBufCurr ≤ c.recvBufHave
  have_le : c.recvBufHave ≤ c.recvBufSize

/-- The current connection has this buffer, and its cursors are inside. -/
structure Buffered (p : Ptr) (size : ℤ) (s : St) : Prop where
  recvBufP : s.curr.recvBufP = p
  recvBufSize : s.curr.recvBufSize = size
  cursors : s.curr.CursorsInside

namespace Buffered

variable {p : Ptr} {size : ℤ} {s : St}

theorem log (h : Buffered p size s) (e : Event) : Buffered p size (s.log e) :=
  { h with cursors := { h.cursors with } }

theorem create (h : Buffered p size s) (o : Obj) : Buffered p size (s.create o) :=
  { h with cursors := { h.cursors with } }

theorem destroy (h : Buffered p size s) (o : Obj) : Buffered p size (s.destroy o) :=
  { h with cursors := { h.cursors with } }

theorem goto (h : Buffered p size s) (pt : Point) : Buffered p size (s.goto pt) := { h with }

theorem die (h : Buffered p size s) (d : Death) : Buffered p size (s.die d) := { h with }

theorem swapToMainCtx (h : Buffered p size s) (pt : Point) : Buffered p size (s.swapToMainCtx pt) :=
  { h with cursors := { h.cursors with } }

theorem swappedBack (h : Buffered p size s) (now : Time) : Buffered p size (s.swappedBack now) :=
  { h with }

theorem startOp (h : Buffered p size s) (now : Time) : Buffered p size (s.currConnStartOp now) :=
  { h with cursors := { h.cursors with } }

theorem updateActive (h : Buffered p size s) (now : Time) :
    Buffered p size (s.currConnUpdateActive now) := by
  rw [currConnUpdateActive_eq]
  exact { h with cursors := { h.cursors with } }

theorem setInactive (h : Buffered p size s) : Buffered p size s.currConnSetInactive := by
  rw [currConnSetInactive_eq]
  exact { h with cursors := { h.cursors with } }

theorem poke (h : Buffered p size s) (q : Ptr) (off : ℤ) (bs : Bytes) :
    Buffered p size (s.poke q off bs) := { h with }

theorem closeSock (h : Buffered p size s) : Buffered p size s.closeSock :=
  { h with cursors := { h.cursors with } }

theorem currConnClose (h : Buffered p size s) : Buffered p size s.currConnClose := by
  unfold St.currConnClose
  split
  · exact h
  · exact { h with cursors := { h.cursors with } }

/-- The cursors are written back, inside the buffer. -/
theorem setCursors (h : Buffered p size s) {n m : ℤ} (hm : 0 ≤ m) (hmn : m ≤ n) (hn : n ≤ size) :
    Buffered p size (s.setCursors n m) :=
  { h with cursors := ⟨hm, hmn, h.recvBufSize.symm ▸ hn⟩ }

/-! The code that does nothing with the buffer. -/

variable {P : Platform} {t : Tick}

theorem handleOneConnectionEnd (h : Buffered p size s) : Buffered p size (handleOneConnectionEnd s) :=
  h.currConnClose.swapToMainCtx _

theorem clientRequestReturned (h : Buffered p size s) (more : Bool) :
    Buffered p size (clientRequestReturned s more) := ((h.destroy _).destroy _).log _

theorem handleOneClientRequestNull (h : Buffered p size s) :
    Buffered p size (handleOneClientRequestNull s) := (h.log _).handleOneConnectionEnd

theorem handleOneClientRequestSent (h : Buffered p size s) (req : HttpRequestMsg)
    (resp : HttpResponseMsg) (n : ℤ) :
    Buffered p size (handleOneClientRequestSent s req resp n) := by
  unfold SrvAsync.handleOneClientRequestSent
  split
  · exact (h.clientRequestReturned _).handleOneConnectionEnd
  · split
    · exact h.die _
    · exact (h.clientRequestReturned _).handleOneConnectionEnd
    · exact h.goto _

theorem sendHttpMsgSent (h : Buffered p size s) (k : SendCaller) (count : ℤ) :
    Buffered p size (sendHttpMsgSent k s count) := by
  unfold SrvAsync.sendHttpMsgSent
  split
  · exact (h.destroy _).handleOneClientRequestSent _ _ _
  · exact h.goto _

theorem sendLoop (h : Buffered p size s) (f : SendFrame) (k : SendCaller) (b b' : Bool) :
    Buffered p size (sendLoop s f k b b' (SrvAsync.sendHttpMsgSent k)) := by
  unfold SrvAsync.sendLoop
  split
  · exact h.goto _
  · exact h.sendHttpMsgSent k _

theorem sendHttpMsgLoop (h : Buffered p size s) (req : HttpRequestMsg) (resp : HttpResponseMsg)
    (msg : Bytes) (curr : ℤ) : Buffered p size (sendHttpMsgLoop s t req resp msg curr) := by
  unfold SrvAsync.sendHttpMsgLoop
  split
  · exact ((h.updateActive _).startOp _).sendLoop _ _ _ _
  · exact (h.destroy _).handleOneClientRequestSent _ _ _

theorem handleOneClientRequestRecv (h : Buffered p size s) (req : HttpRequestMsg) :
    Buffered p size (handleOneClientRequestRecv P s t req) := by
  unfold SrvAsync.handleOneClientRequestRecv
  simp only
  split
  · exact (h.log _).die _
  · exact ((((h.log _).create _).log _).create _).sendHttpMsgLoop _ _ _ _

theorem sendWrite (h : Buffered p size s) (f : SendFrame) (k : SendCaller) (r : WriteResult) :
    Buffered p size (sendWrite s t f k (SrvAsync.sendHttpMsgSent k) r) := by
  cases r with
  | again =>
    unfold SrvAsync.sendWrite
    simp only
    split
    · exact (h.log _).setInactive.swapToMainCtx _
    · exact (h.log _).swapToMainCtx _
  | error => exact (h.log _).currConnClose.swapToMainCtx _
  | zero => exact (h.log _).sendLoop _ _ _ _
  | sent n => exact ((h.updateActive _).log _).sendLoop _ _ _ _

end Buffered

namespace Watched

/-! ### Inside the buffer -/

/-- A piece of code kept to the buffer, and left the cursors inside. -/
structure Inside (p : Ptr) (size : ℤ) (x : Watched) : Prop where
  uses : ∀ u ∈ x.2, u.Inside p size
  buffered : Buffered p size x.1

variable {P : Platform} {p : Ptr} {size : ℤ} {s : St} {t : Tick}

theorem inside_nothing (h : Buffered p size s) : Inside p size (nothing s) :=
  ⟨fun _ hu => absurd hu List.not_mem_nil, h⟩

theorem Inside.use {x : Watched} (h : Inside p size x) {us : List BufferUse}
    (hus : ∀ u ∈ us, u.Inside p size) : Inside p size (use us x) :=
  ⟨fun u hu => (List.mem_append.mp hu).elim (hus u) (h.uses u), h.buffered⟩

theorem inside_recvHttpMsgChunk (h : Buffered p size s) (req : HttpRequestMsg)
    {bodyLen gotLen toRecv : ℤ} (h0 : 0 ≤ toRecv) (hle : toRecv ≤ size) (count : ℤ) :
    Inside p size (recvHttpMsgChunk req p size bodyLen gotLen toRecv s count) := by
  unfold recvHttpMsgChunk
  split
  · exact inside_nothing (h.destroy _).handleOneClientRequestNull
  · next hc =>
    have hcount : count = toRecv := not_not.mp hc
    refine (inside_nothing (h.goto _)).use fun u hu => ?_
    obtain rfl := List.mem_singleton.mp hu
    exact ⟨rfl, Int.le_refl _, by omega, by omega⟩

theorem inside_recvLoop (h : Buffered p size s) (f : RecvFrame) (k : RecvCaller) (b b' : Bool)
    {ret : St → ℤ → Watched} (hret : Inside p size (ret s (f.nRecv - f.prevNRecv))) :
    Inside p size (recvLoop s f k b b' ret) := by
  unfold recvLoop
  split
  · exact inside_nothing (h.goto _)
  · exact hret

/-- A receive operation starts: nothing was received when its loop is not entered. -/
theorem inside_recvFromCurrConn (h : Buffered p size s) {toRecv : ℤ} (h0 : 0 ≤ toRecv) (buf : Ptr)
    (nRecv : ℤ) (timeout : Time) (b : Bool) (k : RecvCaller) {ret : St → ℤ → Watched}
    (hret : ∀ s, Buffered p size s → Inside p size (ret s 0)) :
    Inside p size (recvFromCurrConn s t buf toRecv nRecv timeout b k ret) := by
  have hstart := (h.updateActive (t.clk 2)).startOp (t.clk 3)
  refine (inside_recvLoop hstart _ k false false ?_).use fun u hu => ?_
  · rw [sub_self]
    exact hret _ hstart
  · obtain rfl := List.mem_singleton.mp hu
    exact h0

theorem inside_recvHttpMsgBody (h : Buffered p size s) (hsize : 0 ≤ size) (req : HttpRequestMsg)
    {bodyLen gotLen : ℤ} (hle : gotLen ≤ bodyLen) :
    Inside p size (recvHttpMsgBody P s t req p size bodyLen gotLen) := by
  unfold recvHttpMsgBody
  refine Inside.use ?_ fun u hu => ?_
  · split
    · have h0 : 0 ≤ min (bodyLen - gotLen) size := by omega
      exact inside_recvFromCurrConn h h0 _ _ _ _ _ fun s hs =>
        inside_recvHttpMsgChunk hs req h0 (by omega) 0
    · exact inside_nothing (h.handleOneClientRequestRecv req)
  · obtain rfl := List.mem_singleton.mp hu
    exact Int.sub_nonneg_of_le hle

theorem inside_recvHttpMsgHave (h : Buffered p size s) (req : HttpRequestMsg) :
    Inside p size (recvHttpMsgHave P s t req) := by
  unfold recvHttpMsgHave
  cases (req.getHeaderValue (ascii "Content-Length")).asSizeT with
  | none => exact inside_nothing (h.die _)
  | some bodyLen =>
    obtain ⟨hp, hsize, h0, hle, hle'⟩ := id h
    rw [hsize] at hle'
    simp only
    set gotLen := min (s.curr.recvBufHave - s.curr.recvBufCurr) (bodyLen : ℤ) with hgot
    have hs : Buffered p size (if s.curr.recvBufCurr + gotLen = s.curr.recvBufHave then
        s.setCursors 0 0 else s.setCursors s.curr.recvBufHave (s.curr.recvBufCurr + gotLen)) := by
      split
      · exact h.setCursors (Int.le_refl _) (Int.le_refl _) (by omega)
      · exact h.setCursors (by omega) (by omega) hle'
    revert hs
    generalize (if s.curr.recvBufCurr + gotLen = s.curr.recvBufHave then
      s.setCursors 0 0 else s.setCursors s.curr.recvBufHave (s.curr.recvBufCurr + gotLen)) = s'
    intro hs
    rw [hp, hs.recvBufSize]
    refine (inside_recvHttpMsgBody hs (by omega) _ (by omega)).use fun u hu => ?_
    rcases List.mem_cons.mp hu with rfl | hu
    · show 0 ≤ gotLen
      omega
    rcases List.mem_cons.mp hu with rfl | hu
    · exact ⟨rfl, h0, by omega, by omega⟩
    · obtain rfl := List.mem_singleton.mp hu
      exact ⟨hs.cursors.curr_nonneg, hs.cursors.curr_le, hs.recvBufSize ▸ hs.cursors.have_le⟩

theorem inside_recvHttpMsgHdr (h : Buffered p size s) (hdr : Bytes) :
    Inside p size (recvHttpMsgHdr P s t hdr) := by
  unfold recvHttpMsgHdr
  split
  · exact inside_nothing h.handleOneClientRequestNull
  · simp only
    split
    · exact inside_recvHttpMsgHave (h.create _) _
    · exact inside_nothing ((h.create _).handleOneClientRequestRecv _)

/-- What is found in a view lies in it. -/
theorem find_view_le (s : St) (q : Ptr) (off len : ℤ) (h0 : 0 ≤ len) :
    (findHttpHeadersEnd (s.view q off len) : ℤ) ≤ len := by
  have hle := findHttpHeadersEnd_le (s.view q off len)
  have hlen : (s.view q off len).length = len.toNat := Memory.length_window ..
  omega

theorem inside_recvHttpHdrEnd (h : Buffered p size s) {nHave nCurr hdrSize : ℤ} (h0 : 0 ≤ nCurr)
    (hle : nCurr ≤ nHave) (hle' : nHave ≤ size) (hh : 0 ≤ hdrSize) (hh' : hdrSize ≤ nHave - nCurr) :
    Inside p size (recvHttpHdrEnd P s t p nHave nCurr hdrSize) := by
  unfold recvHttpHdrEnd
  simp only
  set hdrSize' : ℤ := if hdrSize = 0 then
    (findHttpHeadersEnd (s.view p nCurr (nHave - nCurr)) : ℤ) else hdrSize with hdef
  have hbound : 0 ≤ hdrSize' ∧ hdrSize' ≤ nHave - nCurr := by
    rw [hdef]
    split
    · exact ⟨Int.natCast_nonneg _, find_view_le s p nCurr _ (by omega)⟩
    · exact ⟨hh, hh'⟩
  have hs := h.setCursors (n := nHave) (m := nCurr + hdrSize') (by omega) (by omega) hle'
  refine Inside.use (Inside.use (inside_recvHttpMsgHdr hs _) fun u hu => ?_) fun u hu => ?_
  · rcases List.mem_cons.mp hu with rfl | hu
    · exact ⟨by omega, by omega, hle'⟩
    · split at hu
      · obtain rfl := List.mem_singleton.mp hu
        exact ⟨rfl, h0, hbound.1, by omega⟩
      · cases hu
  · split at hu
    · obtain rfl := List.mem_singleton.mp hu
      exact ⟨rfl, h0, by omega, by omega⟩
    · cases hu

theorem inside_recvHttpHdrRecv (h : Buffered p size s) {nHave count : ℤ} (h0 : 0 ≤ nHave)
    (hle : nHave + count ≤ size) : Inside p size (recvHttpHdrRecv P t p nHave s count) := by
  unfold recvHttpHdrRecv
  split
  · exact inside_recvHttpMsgHdr h []
  · exact inside_recvHttpHdrEnd h (Int.le_refl _) (by omega) hle (Int.le_refl _) (by omega)

/-- **`recv_http_msg` keeps to the buffer.** -/
theorem inside_recvHttpMsg (h : Buffered p size s) : Inside p size (recvHttpMsg P s t) := by
  unfold recvHttpMsg recvHttpHdr
  have hcall := h.log .call
  generalize s.log .call = s at hcall
  obtain ⟨rfl, hsize, h0, hle, hle'⟩ := id hcall
  rw [hsize] at hle'
  simp only [hsize]
  split
  · have hfind := find_view_le s s.curr.recvBufP s.curr.recvBufCurr
      (s.curr.recvBufHave - s.curr.recvBufCurr) (by omega)
    refine Inside.use ?_ fun u hu => ?_
    · split
      · refine Inside.use ?_ fun u hu => ?_
        · refine inside_recvFromCurrConn (hcall.poke _ _ _) (by omega) _ _ _ _ _ fun s hs => ?_
          exact inside_recvHttpHdrRecv hs (by omega) (by omega)
        · obtain rfl := List.mem_singleton.mp hu
          exact ⟨rfl, h0, by omega, by omega⟩
      · exact inside_recvHttpHdrEnd hcall h0 hle hle' (Int.natCast_nonneg _) hfind
    · obtain rfl := List.mem_singleton.mp hu
      exact ⟨rfl, h0, by omega, by omega⟩
  · refine inside_recvFromCurrConn hcall (by omega) _ _ _ _ _ fun s hs => ?_
    exact inside_recvHttpHdrRecv hs (Int.le_refl _) (by omega)

/-! ### One step -/

/-- The caller of a receive operation can take this count. -/
def Takes (p : Ptr) (size count : ℤ) : RecvCaller → Prop
  | .hdr q nHave => q = p ∧ 0 ≤ nHave ∧ nHave + count ≤ size
  | .body _ q sz _ _ toRecv => q = p ∧ sz = size ∧ 0 ≤ toRecv ∧ toRecv ≤ size

theorem inside_recvReturned (h : Buffered p size s) {k : RecvCaller} {count : ℤ}
    (hk : Takes p size count k) : Inside p size (recvReturned P t k s count) := by
  cases k with
  | hdr q nHave =>
    obtain ⟨rfl, h0, hle⟩ := hk
    exact inside_recvHttpHdrRecv h h0 hle
  | body req q sz bodyLen gotLen toRecv =>
    obtain ⟨rfl, rfl, h0, hle⟩ := hk
    exact inside_recvHttpMsgChunk h req h0 hle count

/-- A receive operation that was abandoned returns -1. -/
theorem inside_recvReturned_failed (h : Buffered p size s) {k : RecvCaller} (hk : k.Fails) :
    Inside p size (recvReturned P t k s (-1)) := by
  cases k with
  | hdr q nHave =>
    change Inside p size (recvHttpHdrRecv P t q nHave s (-1))
    unfold recvHttpHdrRecv
    rw [if_pos (by decide)]
    exact inside_recvHttpMsgHdr h []
  | body req q sz bodyLen gotLen toRecv =>
    have hne : (-1 : ℤ) ≠ toRecv := by
      have h0 : 0 ≤ toRecv := hk
      omega
    change Inside p size (recvHttpMsgChunk req q sz bodyLen gotLen toRecv s (-1))
    unfold recvHttpMsgChunk
    rw [if_pos hne]
    exact inside_nothing (h.destroy _).handleOneClientRequestNull

/-- A receive operation that reads into the buffer. -/
structure Reads (p : Ptr) (size : ℤ) (f : RecvFrame) (k : RecvCaller) : Prop where
  buf : f.buf = p
  nRecv_nonneg : 0 ≤ f.nRecv
  toRecv_nonneg : 0 ≤ f.toRecv
  sum_le : f.nRecv + f.toRecv ≤ size
  takes : ∀ count, count ≤ f.nRecv + f.toRecv - f.prevNRecv → Takes p size count k

theorem reads_of_hdrAt {c : Conn} {sz prev n : ℕ} {f : RecvFrame} {k : RecvCaller}
    (h : HdrAt P c sz prev n f k) : Reads c.recvBufP sz f k := by
  have hlt := h.lt
  have hle := h.prev_le
  obtain rfl := h.frame
  obtain rfl := h.caller
  refine ⟨rfl, Int.natCast_nonneg _, ?_, ?_, fun count hc => ⟨rfl, Int.natCast_nonneg _, ?_⟩⟩
  · simp only
    omega
  · simp only
    omega
  · simp only at hc
    omega

theorem reads_of_bodyAt {c : Conn} {req : HttpRequestMsg} {sz bodyLen gotLen toRecv n : ℕ}
    {f : RecvFrame} {k : RecvCaller} (h : BodyAt P c sz req bodyLen gotLen toRecv n f k) :
    Reads c.recvBufP sz f k := by
  have hlt := h.lt
  have hle := h.toRecv_le
  obtain rfl := h.frame
  obtain rfl := h.caller
  refine ⟨rfl, Int.natCast_nonneg _, ?_, ?_, fun _ _ => ⟨rfl, rfl, Int.natCast_nonneg _, ?_⟩⟩
  · simp only
    omega
  · simp only
    omega
  · omega

theorem inside_recvRead (h : Buffered p size s) {f : RecvFrame} {k : RecvCaller}
    (hf : Reads p size f k) {r : ReadResult} (hfits : r.Fits f.toRecv) :
    Inside p size (recvRead s t f k (recvReturned P t k) r) := by
  have huse : ∀ u ∈ [BufferUse.read f.buf f.nRecv f.toRecv], u.Inside p size := by
    intro u hu
    obtain rfl := List.mem_singleton.mp hu
    exact ⟨hf.buf, hf.nRecv_nonneg, hf.toRecv_nonneg, hf.sum_le⟩
  have h0 := hf.toRecv_nonneg
  cases r with
  | again =>
    refine Inside.use ?_ huse
    simp only
    split
    · exact inside_nothing ((h.log _).setInactive.swapToMainCtx _)
    · exact inside_nothing ((h.log _).swapToMainCtx _)
  | error => exact (inside_nothing ((h.log _).currConnClose.swapToMainCtx _)).use huse
  | eof =>
    exact (inside_recvLoop (h.log _) f k true false
      (inside_recvReturned (h.log _) (hf.takes _ (by omega)))).use huse
  | data bs =>
    obtain ⟨-, hlen⟩ := hfits
    refine Inside.use ?_ huse
    have hs := (h.poke f.buf f.nRecv bs).updateActive (t.clk 0)
    simp only
    split
    · exact inside_nothing ((hs.log _).die _)
    · refine inside_recvLoop (hs.log _) _ k _ _ (inside_recvReturned (hs.log _) (hf.takes _ ?_))
      simp only
      omega

/-- The cursors of a connection that is at a stage of its session are inside. -/
theorem cursorsInside_of_base {c : Conn} {b : ℕ → Byte} {a : Session}
    (h : Base P c b a) : c.CursorsInside := by
  have hle := h.curr_le
  have hle' := h.have_le
  refine ⟨?_, ?_, ?_⟩
  · rw [h.curr]
    exact Int.natCast_nonneg _
  · rw [h.curr, h.have_]
    exact Int.ofNat_le.mpr hle
  · rw [h.have_, h.size]
    exact Int.ofNat_le.mpr hle'

/-- What a coroutine does behind a yield. -/
theorem inside_passYield (h : Buffered p size s) {y : Yield}
    (hy : ∀ req q sz bodyLen gotLen, y = .body req q sz bodyLen gotLen →
      q = p ∧ sz = size ∧ gotLen ≤ bodyLen) : Inside p size (passYield P s t y) := by
  cases y with
  | body req q sz bodyLen gotLen =>
    obtain ⟨rfl, rfl, hle⟩ := hy _ _ _ _ _ rfl
    have h0 := h.cursors.curr_nonneg
    have hle' := h.cursors.curr_le
    have hle'' := h.cursors.have_le
    rw [h.recvBufSize] at hle''
    exact inside_recvHttpMsgBody h (by omega) req hle
  | packet req resp msg curr => exact inside_nothing (h.sendHttpMsgLoop _ _ _ _)
  | request req resp => exact inside_recvHttpMsg (h.clientRequestReturned _)

theorem inside_passYield_of_chunkAt {c : Conn} {req : HttpRequestMsg} {sz bodyLen gotLen : ℕ}
    {y : Yield} (h : Buffered c.recvBufP sz s) (hy : ChunkAt P c sz req bodyLen gotLen y) :
    Inside c.recvBufP sz (passYield P s t y) := by
  obtain rfl := hy.yield
  refine inside_passYield h fun _ _ _ _ _ he => ?_
  obtain ⟨-, rfl, rfl, rfl, rfl⟩ := Yield.body.inj he
  exact ⟨rfl, rfl, Int.ofNat_le.mpr hy.got_le⟩

/-- The main context switches to a coroutine. -/
theorem inside_resume {a : Session}
    (h : Rep P s.curr (s.mem s.curr.recvBufP) s.curr.connCtx.point a) (b : Bool) :
    Inside s.curr.recvBufP a.size (resume P s t b) := by
  have hs : Buffered s.curr.recvBufP a.size { s with self := s.curr.connCtx.owner } :=
    ⟨rfl, h.size, cursorsInside_of_base h.toBase⟩
  have hback := hs.swappedBack (t.clk 0)
  have hst := h.stands
  unfold resume
  generalize hpt : s.curr.connCtx.point = pt at hst
  generalize a.stage = st at hst
  simp only [hpt]
  -- one case for each point at which a coroutine can have switched to the main context
  cases hst with
  | start =>
    unfold handleOneConnection
    simp only
    split
    · exact inside_recvHttpMsg hs
    · exact inside_nothing (hs.closeSock.die _)
  | waitHdr hat =>
    have hr := reads_of_hdrAt hat
    have h0 := hr.toRecv_nonneg
    exact inside_recvLoop hback _ _ _ _ (inside_recvReturned hback (hr.takes _ (by omega)))
  | waitBody hat =>
    have hr := reads_of_bodyAt hat
    have h0 := hr.toRecv_nonneg
    exact inside_recvLoop hback _ _ _ _ (inside_recvReturned hback (hr.takes _ (by omega)))
  | recvFailed hk => exact inside_recvReturned_failed hback hk
  | waitSend => exact inside_nothing (hback.sendLoop _ _ _ _)
  | sendFailed => exact inside_nothing (hback.sendHttpMsgSent _ _)
  | yieldChunk hat => exact inside_passYield_of_chunkAt hback hat
  | yieldPacket hat =>
    obtain rfl := hat.yield
    exact inside_passYield hback fun _ _ _ _ _ he => Yield.noConfusion he
  | yieldAnswered hat =>
    obtain rfl := hat.yield
    exact inside_passYield hback fun _ _ _ _ _ he => Yield.noConfusion he
  | ended => exact inside_nothing (hback.swapToMainCtx _)
  | recvHdr | recvBody | send | checkChunk | checkPacket | checkAnswered =>
    exact inside_nothing (hs.goto _)

/-- **A step of a coroutine keeps to its buffer.** -/
theorem inside_step {a : Session} {op : Op} {x : Watched} (h : Refines P s a)
    (hs : step P s t op = some x) : Inside s.curr.recvBufP s.curr.recvBufSize x := by
  unfold step at hs
  cases hc : s.ctl with
  | dead d => cases op <;> simp [hc] at hs
  | main =>
    cases op with
    | resume b =>
      obtain ⟨-, -, hrep⟩ := (refines_main_iff hc).mp h
      simp only [hc, Option.some.injEq] at hs
      rw [hrep.size]
      exact hs ▸ inside_resume hrep b
    | _ => simp [hc] at hs
  | coro pt =>
    obtain ⟨-, hrep⟩ := (refines_coro_iff hc).mp h
    simp only [hc] at hs
    have hbuf : Buffered s.curr.recvBufP a.size s :=
      ⟨rfl, hrep.size, cursorsInside_of_base hrep.toBase⟩
    rw [hrep.size]
    have hst := hrep.stands
    generalize a.stage = st at hst
    cases op with
    | resume b => cases hs
    | read r =>
      -- only the two receive operations read
      cases hst with
      | recvHdr hat =>
        obtain ⟨hfits, hs⟩ := Option.ite_none_right_eq_some.mp hs
        exact Option.some.inj hs ▸ inside_recvRead hbuf (reads_of_hdrAt hat) hfits
      | recvBody hat =>
        obtain ⟨hfits, hs⟩ := Option.ite_none_right_eq_some.mp hs
        exact Option.some.inj hs ▸ inside_recvRead hbuf (reads_of_bodyAt hat) hfits
      | _ => cases hs
    | write r =>
      cases hst with
      | send hat =>
        obtain ⟨-, hs⟩ := Option.ite_none_right_eq_some.mp hs
        exact Option.some.inj hs ▸ inside_nothing (hbuf.sendWrite _ _ _)
      | _ => cases hs
    | check =>
      -- with or without a switch, the check comes to the code behind the yield
      have hswap : ∀ y, Inside s.curr.recvBufP a.size (passYield P s t y) →
          (if s.needCtxSwap (t.clk 0) then some (nothing (s.swapToMainCtx (.yielded y)))
            else some (passYield P s t y)) = some x → Inside s.curr.recvBufP a.size x := by
        intro y hy hs
        split at hs
        · exact Option.some.inj hs ▸ inside_nothing (hbuf.swapToMainCtx _)
        · exact Option.some.inj hs ▸ hy
      cases hst with
      | checkChunk hat => exact hswap _ (inside_passYield_of_chunkAt hbuf hat) hs
      | checkPacket hat =>
        obtain rfl := hat.yield
        exact hswap _ (inside_passYield hbuf fun _ _ _ _ _ he => Yield.noConfusion he) hs
      | checkAnswered hat =>
        obtain rfl := hat.yield
        exact hswap _ (inside_passYield hbuf fun _ _ _ _ _ he => Yield.noConfusion he) hs
      | _ => cases hs

end Watched

/-! ### The worker -/

/-- What a step of a coroutine does with the receive buffer. -/
def St.uses (P : Platform) (s : St) (t : Tick) (op : Op) : List BufferUse :=
  match Watched.step P s t op with
  | some x => x.2
  | none => []

/-- What a step of a worker does with a receive buffer. -/
def Worker.uses (P : Platform) (w : Worker) (t : Tick) : WorkerOp → List BufferUse
  | .resume fcntlOk =>
    match w.phase with
    | .pass (p :: todo) => ((w.selected p todo).load p).uses P t (.resume fcntlOk)
    | _ => []
  | .co op =>
    match w.queue.currConn with
    | some p => (w.load p).uses P t op
    | none => []
  | _ => []

variable {P : Platform} {w w' : Worker} {t : Tick} {p : Ptr}

/-- One step of a coroutine, seen from its worker. -/
theorem inside_of_step {s s' : St} {a : Session} {op : Op} (h : Refines P s a)
    (hs : s.step P t op = some s') :
    (∀ u ∈ s.uses P t op, u.Inside s.curr.recvBufP s.curr.recvBufSize) ∧
      Buffered s.curr.recvBufP s.curr.recvBufSize s' := by
  rw [← Watched.fst_step] at hs
  obtain ⟨x, hx, rfl⟩ := Option.map_eq_some_iff.mp hs
  have hin := Watched.inside_step h hx
  unfold St.uses
  rw [hx]
  exact ⟨hin.uses, hin.buffered⟩

/-- The pass switches to a connection, which is at a stage of its session. -/
theorem refines_selected (h : Reachable P w) {todo : List Ptr} (hph : w.phase = .pass (p :: todo))
    (hctl : w.ctl = .main) : ∃ a, Refines P ((w.selected p todo).load p) a := by
  obtain ⟨-, -, -, -, -, -, a, -, href⟩ := ((inv_reachable h).select hph hctl).control
  exact ⟨a, href⟩

/-- **What a step of a worker does with the buffer of its connection.** -/
theorem inside_of_resume (h : Reachable P w) {b : Bool} (hs : w.step P (t, .resume b) = some w') :
    (∀ u ∈ w.uses P t (.resume b), u.Inside w'.self recvBufSize) ∧
      ∃ todo, w'.phase = .resumed w'.self todo ∧ (w'.heap w'.self).CursorsInside := by
  obtain ⟨p, todo, s', hctl, hph, hst, rfl⟩ := step_resume hs
  obtain ⟨a, href⟩ := refines_selected h hph hctl
  have hp : p ∈ w.queue.qconnList := by
    have hcon := (inv_reachable h).control
    rw [hph] at hcon
    exact hcon.2.2.1 List.mem_cons_self
  have howned := (inv_reachable h).owned p hp
  have hself : ((w.selected p todo).store p s').self = p := (shares_step href hst).self
  obtain ⟨huses, hbuf⟩ := inside_of_step href hst
  rw [hself, store_heap_self]
  refine ⟨fun u hu => ?_, todo, rfl, hbuf.cursors⟩
  unfold Worker.uses at hu
  rw [hph] at hu
  have hin := huses u hu
  change u.Inside (w.heap p).recvBufP (w.heap p).recvBufSize at hin
  rwa [howned.recvBufP, howned.recvBufSize] at hin

theorem inside_of_co (h : Reachable P w) {op : Op} (hs : w.step P (t, .co op) = some w') :
    (∀ u ∈ w.uses P t (.co op), u.Inside w'.self recvBufSize) ∧
      ∃ todo, w'.phase = .resumed w'.self todo ∧ (w'.heap w'.self).CursorsInside := by
  obtain ⟨pt, p, s', hctl, hcur, hst, rfl⟩ := step_co hs
  obtain ⟨todo, hph, hcur', hp, a, -, href⟩ := refines_of_coro h hctl
  obtain rfl : p = w.self := Option.some.inj (hcur.symm.trans hcur')
  have howned := (inv_reachable h).owned _ hp
  have hself : (w.store w.self s').self = w.self := (shares_step href hst).self
  obtain ⟨huses, hbuf⟩ := inside_of_step href hst
  rw [hself, store_heap_self]
  refine ⟨fun u hu => ?_, todo, hph, hbuf.cursors⟩
  unfold Worker.uses at hu
  rw [hcur'] at hu
  have hin := huses u hu
  change u.Inside (w.heap w.self).recvBufP (w.heap w.self).recvBufSize at hin
  rwa [howned.recvBufP, howned.recvBufSize] at hin

/-- `epoll_pwait` does not lead into a coroutine. -/
theorem phase_polled {r : Worker.EpollResult} (hs : w.polled r = some w') :
    w'.phase = w.phase ∨ ∃ todo, w'.phase = .pass todo := by
  cases r with
  | timeout =>
    obtain rfl := Option.some.inj hs
    exact .inr ⟨_, rfl⟩
  | eintr =>
    obtain rfl := Option.some.inj hs
    exact .inr ⟨_, rfl⟩
  | error =>
    obtain rfl := Option.some.inj hs
    exact .inl rfl
  | ready accept outs =>
    cases accept with
    | none =>
      simp only [polled] at hs
      obtain ⟨-, hs⟩ := Option.ite_none_right_eq_some.mp hs
      obtain rfl := Option.some.inj hs
      exact .inr ⟨_, rfl⟩
    | some fd =>
      simp only [polled] at hs
      obtain ⟨-, hs⟩ := Option.ite_none_right_eq_some.mp hs
      obtain ⟨w₁, -, rfl⟩ := Option.map_eq_some_iff.mp hs
      exact .inr ⟨_, rfl⟩

/-- The cursors of the connection whose coroutine ended the process. -/
theorem cursorsInside_of_dead (h : Reachable P w) {d : Death} (hd : w.ctl = .dead d)
    {todo : List Ptr} (hph : w.phase = .resumed p todo) : (w.heap p).CursorsInside := by
  have hmain : w.ctl ≠ .main := fun hm => Control.noConfusion (hm.symm.trans hd)
  -- only a coroutine that was resumed or went on can have died in this phase
  rcases h.cases with ⟨heap, mem, outs, h₀⟩ | ⟨w₁, ⟨t, op⟩, h₁, hs⟩
  · obtain ⟨-, heap', mem', cache, rfl⟩ := init_cases (P := P) (R := fun _ _ => True) h₀
    cases hph
  · cases op with
    | block =>
      obtain ⟨-, -, rfl⟩ := step_block hs
      cases hph
    | poll r =>
      obtain ⟨-, hph₁, hpoll⟩ := step_poll hs
      rcases phase_polled hpoll with he | ⟨todo', he⟩
      · rw [he] at hph
        rcases hph₁ with he' | he'
        · cases he'.symm.trans hph
        · cases he'.symm.trans hph
      · cases he.symm.trans hph
    | resume b =>
      obtain ⟨-, todo', he, hin⟩ := inside_of_resume h₁ hs
      obtain ⟨rfl, -⟩ := Phase.resumed.inj (hph.symm.trans he)
      exact hin
    | co op =>
      obtain ⟨-, todo', he, hin⟩ := inside_of_co h₁ hs
      obtain ⟨rfl, -⟩ := Phase.resumed.inj (hph.symm.trans he)
      exact hin
    | back =>
      obtain ⟨q, todo', -, -, rfl⟩ := step_back hs
      have hpass := passGoesOn_swappedBack w₁ (t.clk 0) q todo'
      cases hpass.phase.symm.trans hph
    | endPass =>
      obtain ⟨-, -, rfl⟩ := step_endPass hs
      cases hph

/-- The cursors of a connection in the queue. -/
theorem cursorsInside_of_queue (h : Reachable P w) (hp : p ∈ w.queue.qconnList) :
    (w.heap p).CursorsInside := by
  have hi := inv_reachable h
  by_cases hb : w.Busy p
  · obtain ⟨todo, hph⟩ := hb
    cases hctl : w.ctl with
    | main =>
      obtain ⟨-, -, a, -, hrep⟩ := hi.standing_resumed hph hctl
      exact Watched.cursorsInside_of_base hrep.toBase
    | coro pt =>
      obtain ⟨todo', hph', -, -, -⟩ := refines_of_coro h hctl
      obtain ⟨rfl, -⟩ := Phase.resumed.inj (hph.symm.trans hph')
      obtain ⟨-, -, -, -, a, -, hrep⟩ := rep_of_coro h hctl
      exact Watched.cursorsInside_of_base hrep.toBase
    | dead d => exact cursorsInside_of_dead h hctl hph
  · obtain ⟨-, -, a, -, hrep⟩ := hi.standing p hp hb
    exact Watched.cursorsInside_of_base hrep.toBase

/-- The cursors a connection left behind in its context. -/
theorem Spare.cursorsInside {c : Conn} {b : ℕ → Byte} (h : Spare c p b) : c.CursorsInside := by
  obtain ⟨have_, curr, hhave, hcurr, hle, hle'⟩ := h.cursors
  refine ⟨?_, ?_, ?_⟩
  · rw [hcurr]
    exact Int.natCast_nonneg _
  · rw [hhave, hcurr]
    exact Int.ofNat_le.mpr hle
  · rw [hhave, h.recvBufSize]
    exact hle'

/-- **The receive buffers of a worker**: in every state it can get into, the cursors of every
context, in the queue or in the cache, are inside its buffer; and in every step, everything the
code does with a receive buffer stays inside the one of the connection it works on, with lengths
that are not negative. -/
theorem cursors_inside (h : Reachable P w) :
    (∀ p ∈ w.queue.qconnList ++ w.cache.qconnList, (w.heap p).recvBufP = p ∧
      (w.heap p).recvBufSize = recvBufSize ∧ (w.heap p).CursorsInside) ∧
    ∀ t op w', w.step P (t, op) = some w' → ∀ u ∈ w.uses P t op, u.Inside w'.self recvBufSize := by
  have hi := inv_reachable h
  constructor
  · intro p hp
    rcases List.mem_append.mp hp with hp | hp
    · have howned := hi.owned p hp
      exact ⟨howned.recvBufP, howned.recvBufSize, cursorsInside_of_queue h hp⟩
    · have hspare := hi.spare p hp
      exact ⟨hspare.recvBufP, hspare.recvBufSize, hspare.cursorsInside⟩
  · intro t op w' hs u hu
    cases op with
    | resume b => exact (inside_of_resume h hs).1 u hu
    | co op => exact (inside_of_co h hs).1 u hu
    | block | poll | back | endPass => cases hu

/-- A request with a body of two bytes, and the start of the next one behind it. -/
def leftoverScript : List (Time × WorkerOp) :=
  [(0, .poll (.ready (some 5) [])), (1, .resume true),
    (2, .co (.read (.data (ascii "POST / HTTP/1.1\r\nContent-Length: 2\r\n\r\nabGET"))))]

theorem leftoverScript_isSome : (script .plain oneContext leftoverScript).isSome = true := by
  decide +kernel

/-- The worker of this script. -/
def leftover : Worker := (script .plain oneContext leftoverScript).get leftoverScript_isSome

theorem reachable_leftover : Reachable .plain leftover := reachable_get _ leftoverScript_isSome

/-- Three bytes are left behind the body, and the cursors are inside. -/
theorem cursors_inside_leftover : (leftover.heap 1).recvBufHave = 43 ∧
    (leftover.heap 1).recvBufCurr = 40 ∧ (leftover.heap 1).CursorsInside := by
  have hat : 1 ∈ leftover.queue.qconnList ++ leftover.cache.qconnList ∧
      (leftover.heap 1).recvBufHave = 43 ∧ (leftover.heap 1).recvBufCurr = 40 := by
    decide +kernel
  obtain ⟨hmem, hhave, hcurr⟩ := hat
  obtain ⟨hcursors, -⟩ := cursors_inside reachable_leftover
  obtain ⟨-, -, hin⟩ := hcursors 1 hmem
  exact ⟨hhave, hcurr, hin⟩

end SrvAsync
