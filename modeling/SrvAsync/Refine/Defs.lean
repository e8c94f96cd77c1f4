import SrvAsync.Dialogue
import SrvAsync.Session

/-!
# A coroutine refines a session: the relation

`Refines P s a` says that the state `s` of a coroutine is the session `a`: the
cursors and the receive buffer agree, the history shows the notes, and the
coroutine stands where the stage says, with the locals the stage says.  The
frames carry everything a proof about the code needs to know of them, so this is
also where the invariants of the code live:

* the cursors satisfy `0 ≤ recv_buf_curr ≤ recv_buf_have ≤ recv_buf_size`;
* a coroutine that may yield voluntarily is flagged active;
* the objects that are alive are the ones of the frames;
* the history is a legal one, and has come to where the coroutine stands.

## Main definitions

* `Shows`.
* `Base`, `Stands`, `Rep`, `Refines`.
-/

namespace SrvAsync

open Http History

/-- An event is what a note says. -/
inductive Shows (P : Platform) : Event → Note → Prop
  | call : Shows P .call .call
  | read (r : ReadResult) (b : Bool) : Shows P (.read r b) (.read r b)
  | request (r : HttpRequestMsg) : Shows P (.request r) (.request r)
  | response (a : Reply) (d : Date) : Shows P (.response (a.response P d)) (.response a)
  | write (r : WriteResult) (bs : Bytes) (b : Bool) (h : bs.length = r.count) :
    Shows P (.write r bs b) (.write r b)
  | returned (b : Bool) : Shows P (.returned b) (.returned b)
  | close (file : Option ℕ) : Shows P (.close file) .close

/-- The data of a connection and its receive buffer are those of a session. -/
structure Base (P : Platform) (c : Conn) (b : ℕ → Byte) (a : Session) : Prop where
  size : c.recvBufSize = a.size
  buf : b = a.buf
  have_ : c.recvBufHave = a.have_
  curr : c.recvBufCurr = a.curr
  curr_le : a.curr ≤ a.have_
  have_le : a.have_ ≤ a.size
  size_pos : 0 < a.size
  hist : List.Forall₂ (Shows P) c.hist a.notes

/-! ### The frames of a stage -/

/-- The locals while a header section is received. -/
structure HdrAt (P : Platform) (c : Conn) (size prev n : ℕ) (f : RecvFrame) (k : RecvCaller) :
    Prop where
  frame : f = ⟨c.recvBufP, size - n, n, prev, timeoutInf, true⟩
  caller : k = .hdr c.recvBufP prev
  prev_le : prev ≤ n
  lt : n < size
  opened : c.isCompleted = false
  live : c.live = []
  dialogue : Dialogue P c.hist .reading

/-- The locals while a chunk of a body is received. -/
structure BodyAt (P : Platform) (c : Conn) (size : ℕ) (req : HttpRequestMsg)
    (bodyLen gotLen toRecv n : ℕ) (f : RecvFrame) (k : RecvCaller) : Prop where
  frame : f = ⟨c.recvBufP, toRecv - n, n, 0, clientOpTimeout, false⟩
  caller : k = .body req c.recvBufP size bodyLen gotLen toRecv
  lt : n < toRecv
  toRecv_le : toRecv ≤ size
  got_le : gotLen + toRecv ≤ bodyLen
  opened : c.isCompleted = false
  live : c.live = [.request]
  dialogue : Dialogue P c.hist .reading

/-- The locals after a chunk of a body. -/
structure ChunkAt (P : Platform) (c : Conn) (size : ℕ) (req : HttpRequestMsg)
    (bodyLen gotLen : ℕ) (y : Yield) : Prop where
  yield : y = .body req c.recvBufP size bodyLen gotLen
  got_le : gotLen ≤ bodyLen
  opened : c.isCompleted = false
  active : c.isActive = true
  live : c.live = [.request]
  dialogue : Dialogue P c.hist .reading

/-- The locals while a packet is sent. -/
structure SendAt (P : Platform) (c : Conn) (req : HttpRequestMsg) (reply : Reply) (d : Date)
    (curr toSend n : ℕ) (f : SendFrame) (k : SendCaller) : Prop where
  frame : f = ⟨((reply.response P d).serialize P).drop curr, toSend - n, n, clientOpTimeout⟩
  caller : k = ⟨req, reply.response P d, (reply.response P d).serialize P, curr, toSend⟩
  lt : n < toSend
  toSend_le : curr + toSend ≤ reply.size P
  keepAlive : req.wantKeepAlive = some reply.keepAlive
  opened : c.isCompleted = false
  live : c.live = [.text, .response, .request]
  dialogue : Dialogue P c.hist
    (.replying (reply.response P d) (((reply.response P d).serialize P).take (curr + n)))

/-- The locals after a packet was sent. -/
structure PacketAt (P : Platform) (c : Conn) (req : HttpRequestMsg) (reply : Reply) (d : Date)
    (curr : ℕ) (y : Yield) : Prop where
  yield : y = .packet req (reply.response P d) ((reply.response P d).serialize P) curr
  curr_le : curr ≤ reply.size P
  keepAlive : req.wantKeepAlive = some reply.keepAlive
  opened : c.isCompleted = false
  active : c.isActive = true
  live : c.live = [.text, .response, .request]
  dialogue : Dialogue P c.hist
    (.replying (reply.response P d) (((reply.response P d).serialize P).take curr))

/-- The locals after the whole response was sent. -/
structure AnsweredAt (P : Platform) (c : Conn) (req : HttpRequestMsg) (resp : HttpResponseMsg)
    (y : Yield) : Prop where
  yield : y = .request req resp
  keepsAlive : resp.KeepsAlive
  opened : c.isCompleted = false
  active : c.isActive = true
  live : c.live = [.response, .request]
  dialogue : Dialogue P c.hist (.replying resp (resp.serialize P))

/-- The connection was closed. -/
structure ClosedAt (P : Platform) (c : Conn) (objs : List Obj) : Prop where
  closed : c.isCompleted = true
  live : c.live = objs
  dialogue : Dialogue P c.hist .over

/-- The objects a receive operation leaves alive when it is abandoned. -/
def RecvCaller.objs : RecvCaller → List Obj
  | hdr .. => []
  | body .. => [.request]

/-- A receive operation whose caller takes -1 for a failure. -/
def RecvCaller.Fails : RecvCaller → Prop
  | hdr .. => True
  | body _ _ _ _ _ toRecv => 0 ≤ toRecv

/-- A coroutine at a point is at a stage of its session. -/
inductive Stands (P : Platform) (c : Conn) (size : ℕ) : Point → Stage → Prop
  | start (hc : c.isCompleted = false) (ha : c.isActive = true) (hl : c.live = [])
    (hd : Dialogue P c.hist .fresh) : Stands P c size .start .idle
  | recvHdr {prev n f k} (h : HdrAt P c size prev n f k) :
    Stands P c size (.recv f k) (.hdr prev n)
  | waitHdr {prev n f k} (h : HdrAt P c size prev n f k)
    (hl : c.hist.getLast? = some (.read .again false)) :
    Stands P c size (.recvWait f k) (.hdr prev n)
  | recvBody {req bodyLen gotLen toRecv n f k}
    (h : BodyAt P c size req bodyLen gotLen toRecv n f k) :
    Stands P c size (.recv f k) (.body req bodyLen gotLen toRecv n)
  | waitBody {req bodyLen gotLen toRecv n f k}
    (h : BodyAt P c size req bodyLen gotLen toRecv n f k)
    (hl : c.hist.getLast? = some (.read .again false)) :
    Stands P c size (.recvWait f k) (.body req bodyLen gotLen toRecv n)
  | checkChunk {req bodyLen gotLen y} (h : ChunkAt P c size req bodyLen gotLen y) :
    Stands P c size (.check y) (.chunk req bodyLen gotLen)
  | yieldChunk {req bodyLen gotLen y} (h : ChunkAt P c size req bodyLen gotLen y) :
    Stands P c size (.yielded y) (.chunk req bodyLen gotLen)
  | send {req reply d curr toSend n f k} (h : SendAt P c req reply d curr toSend n f k) :
    Stands P c size (.send f k) (.send req reply curr toSend n)
  | waitSend {req reply d curr toSend n f k} (h : SendAt P c req reply d curr toSend n f k)
    (hl : c.hist.getLast? = some (.write .again [] false)) :
    Stands P c size (.sendWait f k) (.send req reply curr toSend n)
  | checkPacket {req reply d curr y} (h : PacketAt P c req reply d curr y) :
    Stands P c size (.check y) (.packet req reply curr)
  | yieldPacket {req reply d curr y} (h : PacketAt P c req reply d curr y) :
    Stands P c size (.yielded y) (.packet req reply curr)
  | checkAnswered {req reply d y} (h : AnsweredAt P c req (reply.response P d) y) :
    Stands P c size (.check y) (.answered req reply)
  | yieldAnswered {req reply d y} (h : AnsweredAt P c req (reply.response P d) y) :
    Stands P c size (.yielded y) (.answered req reply)
  | recvFailed {f k} (hk : k.Fails) (h : ClosedAt P c k.objs) :
    Stands P c size (.recvFailed f k) .failed
  | sendFailed {f k} (hk : 0 ≤ k.toSend) (h : ClosedAt P c [.text, .response, .request]) :
    Stands P c size (.sendFailed f k) .failed
  | ended (h : ClosedAt P c []) : Stands P c size .ended .ended

/-- A connection whose coroutine stands at this point is a session. -/
structure Rep (P : Platform) (c : Conn) (b : ℕ → Byte) (p : Point) (a : Session) : Prop
    extends Base P c b a where
  stands : Stands P c a.size p a.stage

/-- Does a coroutine at this point execute? -/
def Point.running : Point → Bool
  | recv .. | send .. | check .. => true
  | _ => false

/-- The process ended while the coroutine of the connection ran.  `exit` comes after
the `close` of a connection that never got to its first request. -/
def Ends (P : Platform) (c : Conn) (a : Session) : Death → Prop
  | .exit => List.Forall₂ (Shows P) c.hist (a.notes ++ [.close])
  | d => a.stage = .dead d ∧ List.Forall₂ (Shows P) c.hist a.notes

/-- **The state of a coroutine is a session.** -/
def Refines (P : Platform) (s : St) (a : Session) : Prop :=
  match s.ctl with
  | .coro p => p.running = true ∧ Rep P s.curr (s.mem s.curr.recvBufP) p a
  | .main => s.curr.connCtx.owner = s.self ∧ s.curr.connCtx.point.running = false ∧
      Rep P s.curr (s.mem s.curr.recvBufP) s.curr.connCtx.point a
  | .dead d => (∃ q, Dialogue P s.curr.hist q ∧ q ≠ .idle) ∧ Ends P s.curr a d

section

variable {P : Platform} {s : St} {a : Session}

theorem refines_coro_iff {p : Point} (hc : s.ctl = .coro p) :
    Refines P s a ↔ p.running = true ∧ Rep P s.curr (s.mem s.curr.recvBufP) p a := by
  unfold Refines
  rw [hc]

theorem refines_main_iff (hc : s.ctl = .main) :
    Refines P s a ↔ s.curr.connCtx.owner = s.self ∧ s.curr.connCtx.point.running = false ∧
      Rep P s.curr (s.mem s.curr.recvBufP) s.curr.connCtx.point a := by
  unfold Refines
  rw [hc]

theorem refines_dead_iff {d : Death} (hc : s.ctl = .dead d) :
    Refines P s a ↔ (∃ q, Dialogue P s.curr.hist q ∧ q ≠ .idle) ∧ Ends P s.curr a d := by
  unfold Refines
  rw [hc]

end

end SrvAsync
