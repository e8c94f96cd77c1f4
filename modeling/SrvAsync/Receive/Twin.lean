import SrvAsync.Receive.Kin
import SrvAsync.Refine.Step

/-!
# Two contexts with different residues

What a connection leaves in its context is the receive buffer with its two cursors.  Two
states of a coroutine that differ in this residue only make the same steps, as long as the
part of the buffer that was written since they agreed is the only part that is looked at.

## Main definitions

* `Residue`, `St.withResidue` — what is left in a context, and the state on top of it.
* `Twins`, `Twin` — the residues of two states that deliver the same requests.

## Main results

* `Twins.recvRead`, `Twins.sendWrite`, `Twins.passYield`, `Twins.resume` — **twins go on as
  twins**, whatever happens next.
-/

namespace SrvAsync

open Http History Machine Memory

/-! ### Residues -/

/-- What is left in a context. -/
structure Residue where
  mem : ℕ → Byte
  have_ : ℤ
  curr : ℤ
  uses : ℕ

/-- The same state of the same coroutine, on a context with this residue. -/
def St.withResidue (s : St) (x : Residue) : St :=
  { s with
    mem := Function.update s.mem s.curr.recvBufP x.mem
    curr := { s.curr with recvBufHave := x.have_, recvBufCurr := x.curr, uses := x.uses } }

section

variable {P : Platform} {s : St} {x : Residue}

/-! What each operation does is the same on every residue. -/

@[simp] theorem withResidue_log (e : Event) :
    (s.withResidue x).log e = (s.log e).withResidue x := rfl

@[simp] theorem withResidue_startOp (now : Time) :
    (s.withResidue x).currConnStartOp now = (s.currConnStartOp now).withResidue x := rfl

@[simp] theorem withResidue_updateActive (now : Time) :
    (s.withResidue x).currConnUpdateActive now = (s.currConnUpdateActive now).withResidue x := by
  rw [currConnUpdateActive_eq, currConnUpdateActive_eq]
  rfl

@[simp] theorem withResidue_setInactive :
    (s.withResidue x).currConnSetInactive = s.currConnSetInactive.withResidue x := by
  rw [currConnSetInactive_eq, currConnSetInactive_eq]
  rfl

@[simp] theorem withResidue_close :
    (s.withResidue x).currConnClose = s.currConnClose.withResidue x := by
  unfold St.currConnClose
  by_cases h : s.curr.isCompleted = true
  · rw [if_pos h, if_pos (show (s.withResidue x).curr.isCompleted = true from h)]
  · rw [if_neg h, if_neg (show ¬ (s.withResidue x).curr.isCompleted = true from h)]
    rfl

@[simp] theorem withResidue_mem : (s.withResidue x).mem s.curr.recvBufP = x.mem :=
  Function.update_self ..

theorem withResidue_poke (off : ℤ) (bs : Bytes) :
    (s.withResidue x).poke s.curr.recvBufP off bs =
      (s.poke s.curr.recvBufP off bs).withResidue { x with mem := store x.mem off.toNat bs } := by
  unfold St.poke
  rw [withResidue_mem]
  unfold St.withResidue
  simp only [Function.update_idem]

theorem withResidue_view (off len : ℤ) :
    (s.withResidue x).view s.curr.recvBufP off len = window x.mem off.toNat len.toNat := by
  unfold St.view
  rw [withResidue_mem]

end

/-! ### The locals of a coroutine -/

/-- The caller of a receive operation on this buffer, which started behind `prev` bytes. -/
def RecvCaller.Called (q : Ptr) (prev : ℤ) : RecvCaller → Prop
  | .hdr recvBufP nHave => recvBufP = q ∧ nHave = prev ∧ 0 ≤ prev
  | .body _ recvBufP _ _ _ _ => recvBufP = q ∧ 0 ≤ prev

/-- A receive operation on the buffer of a connection. -/
structure RecvFrame.Inside (f : RecvFrame) (k : RecvCaller) (c : Conn) : Prop where
  buf : f.buf = c.recvBufP
  nonneg : 0 ≤ f.nRecv
  fits : f.nRecv + f.toRecv ≤ c.recvBufSize
  caller : k.Called c.recvBufP f.prevNRecv

/-- The buffer in the locals of a yield is the one of the connection. -/
def Yield.Inside (c : Conn) : Yield → Prop
  | .body _ recvBufP _ _ _ => recvBufP = c.recvBufP
  | _ => True

/-- What the locals of a coroutine say about its connection. -/
def Point.Inside (c : Conn) : Point → Prop
  | .recv f k | .recvWait f k => f.Inside k c
  | .recvFailed _ k => k.Fails
  | .check y | .yielded y => y.Inside c
  | _ => True

section

variable {P : Platform} {c : Conn} {size : ℕ} {f : RecvFrame} {k : RecvCaller}

theorem HdrAt.inside {prev n : ℕ} (h : HdrAt P c size prev n f k) (hsz : c.recvBufSize = size) :
    f.Inside k c := by
  obtain ⟨rfl, rfl, -, hlt, -, -, -⟩ := h
  refine ⟨rfl, Int.natCast_nonneg n, ?_, rfl, rfl, Int.natCast_nonneg prev⟩
  simp only
  omega

theorem BodyAt.inside {req : HttpRequestMsg} {bodyLen gotLen toRecv n : ℕ}
    (h : BodyAt P c size req bodyLen gotLen toRecv n f k) (hsz : c.recvBufSize = size) :
    f.Inside k c := by
  obtain ⟨rfl, rfl, hlt, hle, -, -, -, -⟩ := h
  refine ⟨rfl, Int.natCast_nonneg n, ?_, rfl, Int.le_refl 0⟩
  simp only
  omega

theorem ChunkAt.inside {req : HttpRequestMsg} {bodyLen gotLen : ℕ} {y : Yield}
    (h : ChunkAt P c size req bodyLen gotLen y) : y.Inside c := by
  rw [h.yield]
  exact rfl

theorem PacketAt.inside {req : HttpRequestMsg} {reply : Reply} {d : Date} {curr : ℕ} {y : Yield}
    (h : PacketAt P c req reply d curr y) : y.Inside c := by
  rw [h.yield]
  exact trivial

theorem AnsweredAt.inside {req : HttpRequestMsg} {resp : HttpResponseMsg} {y : Yield}
    (h : AnsweredAt P c req resp y) : y.Inside c := by
  rw [h.yield]
  exact trivial

theorem Rep.inside {b : ℕ → Byte} {p : Point} {a : Session} (h : Rep P c b p a) : p.Inside c := by
  obtain ⟨hb, hst⟩ := h
  generalize a.stage = st at hst
  cases hst with
  | start | send | waitSend | sendFailed | ended => exact trivial
  | recvHdr h | waitHdr h => exact h.inside hb.size
  | recvBody h | waitBody h => exact h.inside hb.size
  | checkChunk h | yieldChunk h => exact h.inside
  | checkPacket h | yieldPacket h => exact h.inside
  | checkAnswered h | yieldAnswered h => exact h.inside
  | recvFailed hk => exact hk

end

/-! ### Twins -/

/-- Both contexts have the same cursors, and what is unread was written since they agree. -/
structure SameCursors (m : ℕ) (have_ curr : ℤ) (x : Residue) : Prop where
  have_eq : x.have_ = have_
  curr_eq : x.curr = curr
  nonneg : 0 ≤ curr
  le : curr ≤ have_
  le_filled : have_ ≤ m

/-- The residue `x` makes no difference to this state: the buffers agree in front of `m`, and the
cursors are the same, or nothing is unread. -/
structure Twins (clean : Prop) (m : ℕ) (s : St) (x : Residue) : Prop where
  kin : Kin clean s.curr.recvBufSize.toNat m (s.mem s.curr.recvBufP) x.mem
  cursors : (s.curr.recvBufCurr = s.curr.recvBufHave ∧ x.curr = x.have_) ∨
    SameCursors m s.curr.recvBufHave s.curr.recvBufCurr x

/-- The bytes at the front of the buffer that a receive operation goes on behind. -/
def Point.filled : Point → ℕ
  | .recv f _ | .recvWait f _ => f.nRecv.toNat
  | _ => 0

/-- The same for a state. -/
def St.filled (s : St) : ℕ :=
  match s.ctl with
  | .coro p => p.filled
  | .main => s.curr.connCtx.point.filled
  | .dead _ => 0

/-- **Two states that deliver the same requests**: they differ in a residue that makes no
difference; the buffer may be `clean` behind what was written. -/
def Twin (clean : Prop) (s s₀ : St) : Prop := ∃ m x, Twins clean m s x ∧ s₀ = s.withResidue x ∧ s.filled ≤ m

section

variable {clean : Prop} {P : Platform} {s : St} {x : Residue} {m : ℕ} {t : Tick}

namespace Twins

theorem log (h : Twins clean m s x) (e : Event) : Twins clean m (s.log e) x := ⟨h.kin, h.cursors⟩

theorem create (h : Twins clean m s x) (o : Obj) : Twins clean m (s.create o) x := ⟨h.kin, h.cursors⟩

theorem destroy (h : Twins clean m s x) (o : Obj) : Twins clean m (s.destroy o) x := ⟨h.kin, h.cursors⟩

theorem swappedBack (h : Twins clean m s x) (now : Time) : Twins clean m (s.swappedBack now) x :=
  ⟨h.kin, h.cursors⟩

theorem startOp (h : Twins clean m s x) (now : Time) : Twins clean m (s.currConnStartOp now) x :=
  ⟨h.kin, h.cursors⟩

theorem closeSock (h : Twins clean m s x) : Twins clean m s.closeSock x := ⟨h.kin, h.cursors⟩

theorem updateActive (h : Twins clean m s x) (now : Time) : Twins clean m (s.currConnUpdateActive now) x := by
  rw [currConnUpdateActive_eq]
  exact ⟨h.kin, h.cursors⟩

theorem setInactive (h : Twins clean m s x) : Twins clean m s.currConnSetInactive x := by
  rw [currConnSetInactive_eq]
  exact ⟨h.kin, h.cursors⟩

theorem close (h : Twins clean m s x) : Twins clean m s.currConnClose x := by
  unfold St.currConnClose
  split
  · exact h
  · exact ⟨h.kin, h.cursors⟩

/-- The coroutine goes on to a point. -/
theorem goto (h : Twins clean m s x) {p : Point} (hp : p.filled ≤ m) :
    Twin clean (s.goto p) ((s.withResidue x).goto p) := ⟨m, x, ⟨h.kin, h.cursors⟩, rfl, hp⟩

theorem die (h : Twins clean m s x) (d : Death) : Twin clean (s.die d) ((s.withResidue x).die d) :=
  ⟨m, x, ⟨h.kin, h.cursors⟩, rfl, Nat.zero_le m⟩

theorem swapToMainCtx (h : Twins clean m s x) {p : Point} (hp : p.filled ≤ m) :
    Twin clean (s.swapToMainCtx p) ((s.withResidue x).swapToMainCtx p) :=
  ⟨m, x, ⟨h.kin, h.cursors⟩, rfl, hp⟩

/-- The coroutine waits for its socket, and may have become inactive. -/
theorem wait (h : Twins clean m s x) (now : Time) {p : Point} (hp : p.filled ≤ m) :
    Twin clean ((if s.currConnActiveTimeout now then s.currConnSetInactive else s).swapToMainCtx p)
      ((if (s.withResidue x).currConnActiveTimeout now then (s.withResidue x).currConnSetInactive
        else s.withResidue x).swapToMainCtx p) := by
  have hnow : (s.withResidue x).currConnActiveTimeout now = s.currConnActiveTimeout now := rfl
  rw [hnow]
  split
  · rw [withResidue_setInactive]
    exact h.setInactive.swapToMainCtx hp
  · exact h.swapToMainCtx hp

/-! What follows a request. -/

theorem handleOneConnectionEnd (h : Twins clean m s x) :
    Twin clean (handleOneConnectionEnd s) (handleOneConnectionEnd (s.withResidue x)) := by
  unfold SrvAsync.handleOneConnectionEnd
  rw [withResidue_close]
  exact h.close.swapToMainCtx (Nat.zero_le m)

theorem clientRequestReturned (h : Twins clean m s x) (more : Bool) :
    Twins clean m (clientRequestReturned s more) x := ((h.destroy _).destroy _).log _

theorem handleOneClientRequestNull (h : Twins clean m s x) :
    Twin clean (handleOneClientRequestNull s) (handleOneClientRequestNull (s.withResidue x)) :=
  (h.log _).handleOneConnectionEnd

theorem handleOneClientRequestSent (h : Twins clean m s x) (req : HttpRequestMsg)
    (resp : HttpResponseMsg) (n : ℤ) : Twin clean (handleOneClientRequestSent s req resp n)
      (handleOneClientRequestSent (s.withResidue x) req resp n) := by
  unfold SrvAsync.handleOneClientRequestSent
  split
  · exact (h.clientRequestReturned _).handleOneConnectionEnd
  · cases req.wantKeepAlive with
    | none => exact h.die _
    | some keepAlive =>
      cases keepAlive with
      | false => exact (h.clientRequestReturned _).handleOneConnectionEnd
      | true => exact h.goto (Nat.zero_le m)

theorem sendHttpMsgSent (h : Twins clean m s x) (k : SendCaller) (count : ℤ) :
    Twin clean (sendHttpMsgSent k s count) (sendHttpMsgSent k (s.withResidue x) count) := by
  unfold SrvAsync.sendHttpMsgSent
  split
  · exact (h.destroy _).handleOneClientRequestSent _ _ _
  · exact h.goto (Nat.zero_le m)

theorem sendLoop (h : Twins clean m s x) (f : SendFrame) (k : SendCaller) (b b' : Bool) :
    Twin clean (sendLoop s f k b b' (SrvAsync.sendHttpMsgSent k))
      (sendLoop (s.withResidue x) f k b b' (SrvAsync.sendHttpMsgSent k)) := by
  unfold SrvAsync.sendLoop
  split
  · exact h.goto (Nat.zero_le m)
  · exact h.sendHttpMsgSent k _

theorem sendHttpMsgLoop (h : Twins clean m s x) (req : HttpRequestMsg) (resp : HttpResponseMsg)
    (msg : Bytes) (curr : ℤ) : Twin clean (sendHttpMsgLoop s t req resp msg curr)
      (sendHttpMsgLoop (s.withResidue x) t req resp msg curr) := by
  unfold SrvAsync.sendHttpMsgLoop
  split
  · simp only [sendToCurrConn, withResidue_updateActive]
    exact ((h.updateActive _).startOp _).sendLoop _ _ _ _
  · exact (h.destroy _).handleOneClientRequestSent _ _ _

theorem handleOneClientRequestRecv (h : Twins clean m s x) (req : HttpRequestMsg) :
    Twin clean (handleOneClientRequestRecv P s t req)
      (handleOneClientRequestRecv P (s.withResidue x) t req) := by
  unfold SrvAsync.handleOneClientRequestRecv
  cases makeResponse P t.date req with
  | none => exact (h.log _).die _
  | some resp => exact ((((h.log _).create _).log _).create _).sendHttpMsgLoop _ _ _ _

theorem sendWrite (h : Twins clean m s x) (f : SendFrame) (k : SendCaller) (r : WriteResult) :
    Twin clean (sendWrite s t f k (SrvAsync.sendHttpMsgSent k) r)
      (sendWrite (s.withResidue x) t f k (SrvAsync.sendHttpMsgSent k) r) := by
  cases r with
  | again => exact (h.log _).wait (t.clk 0) (Nat.zero_le m)
  | error =>
    simp only [SrvAsync.sendWrite, withResidue_log, withResidue_close]
    exact (h.log _).close.swapToMainCtx (Nat.zero_le m)
  | zero => exact (h.log _).sendLoop _ _ _ _
  | sent n =>
    simp only [SrvAsync.sendWrite, withResidue_updateActive]
    exact ((h.updateActive _).log _).sendLoop _ _ _ _

/-! What the code does with the buffer. -/

theorem setCursors (h : Twins clean m s x) {n c : ℤ} (hc : 0 ≤ c) (hcn : c ≤ n) (hn : n ≤ m) :
    Twins clean m (s.setCursors n c) { x with have_ := n, curr := c } :=
  ⟨h.kin, .inr ⟨rfl, rfl, hc, hcn, hn⟩⟩

/-- The same bytes are written to both buffers. -/
theorem poke (h : Twins clean m s x) {off : ℤ} {bs : Bytes} (hoff : off.toNat ≤ m)
    (hle : off.toNat + bs.length ≤ s.curr.recvBufSize.toNat) :
    Twins clean (max m (off.toNat + bs.length)) (s.poke s.curr.recvBufP off bs)
      { x with mem := store x.mem off.toNat bs } where
  kin := by
    have hkin := h.kin.store hoff hle
    show Kin clean _ _ (Function.update s.mem s.curr.recvBufP _ s.curr.recvBufP) _
    rw [Function.update_self]
    exact hkin
  cursors := h.cursors.imp id fun hc =>
    ⟨hc.have_eq, hc.curr_eq, hc.nonneg, hc.le,
      Int.le_trans hc.le_filled (Int.ofNat_le.mpr (Nat.le_max_left m _))⟩

theorem view_eq (h : Twins clean m s x) {off len : ℤ} (hle : off.toNat + len.toNat ≤ m) :
    (s.withResidue x).view s.curr.recvBufP off len = s.view s.curr.recvBufP off len := by
  rw [withResidue_view]
  exact (h.kin.window hle).symm

theorem recvHttpMsgChunk (h : Twins clean m s x) (req : HttpRequestMsg) (size bodyLen gotLen toRecv : ℤ)
    {count : ℤ} (hc : count ≤ m) :
    Twin clean (recvHttpMsgChunk req s.curr.recvBufP size bodyLen gotLen toRecv s count)
      (recvHttpMsgChunk req s.curr.recvBufP size bodyLen gotLen toRecv (s.withResidue x) count) := by
  unfold SrvAsync.recvHttpMsgChunk
  split
  · exact (h.destroy _).handleOneClientRequestNull
  · rw [h.view_eq (by omega)]
    exact h.goto (Nat.zero_le m)

theorem recvLoop (h : Twins clean m s x) {f : RecvFrame} (hf : f.nRecv.toNat ≤ m) (k : RecvCaller)
    (b b' : Bool) {ret : St → ℤ → St}
    (hret : Twin clean (ret s (f.nRecv - f.prevNRecv)) (ret (s.withResidue x) (f.nRecv - f.prevNRecv))) :
    Twin clean (recvLoop s f k b b' ret) (recvLoop (s.withResidue x) f k b b' ret) := by
  unfold SrvAsync.recvLoop
  split
  · exact h.goto hf
  · exact hret

/-- A receive operation starts: nothing was received when its loop is not entered. -/
theorem recvFromCurrConn (h : Twins clean m s x) (buf : Ptr) (toRecv : ℤ) {nRecv : ℤ}
    (hf : nRecv.toNat ≤ m) (timeout : Time) (b : Bool) (k : RecvCaller) {ret : St → ℤ → St}
    (hret : ∀ s', s'.curr.recvBufP = s.curr.recvBufP → Twins clean m s' x →
      Twin clean (ret s' 0) (ret (s'.withResidue x) 0)) :
    Twin clean (recvFromCurrConn s t buf toRecv nRecv timeout b k ret)
      (recvFromCurrConn (s.withResidue x) t buf toRecv nRecv timeout b k ret) := by
  have hstart := (h.updateActive (t.clk 2)).startOp (t.clk 3)
  have hbuf : ((s.currConnUpdateActive (t.clk 2)).currConnStartOp (t.clk 3)).curr.recvBufP =
      s.curr.recvBufP := by
    rw [currConnUpdateActive_eq]
    rfl
  unfold SrvAsync.recvFromCurrConn
  rw [withResidue_updateActive, withResidue_startOp]
  refine hstart.recvLoop hf k false false ?_
  rw [sub_self]
  exact hret _ hbuf hstart

theorem recvHttpMsgBody (h : Twins clean m s x) (req : HttpRequestMsg) (size bodyLen gotLen : ℤ) :
    Twin clean (recvHttpMsgBody P s t req s.curr.recvBufP size bodyLen gotLen)
      (recvHttpMsgBody P (s.withResidue x) t req s.curr.recvBufP size bodyLen gotLen) := by
  unfold SrvAsync.recvHttpMsgBody
  split
  · have h0 : (0 : ℤ).toNat ≤ m := Nat.zero_le m
    refine h.recvFromCurrConn _ _ h0 _ _ _ fun s' hbuf hs' => ?_
    rw [← hbuf]
    exact hs'.recvHttpMsgChunk _ _ _ _ _ (Int.natCast_nonneg m)
  · exact h.handleOneClientRequestRecv req

/-- The part of the body that is in the buffer. -/
theorem recvHttpMsgHave (h : Twins clean m s x)
    (hc : SameCursors m s.curr.recvBufHave s.curr.recvBufCurr x) (req : HttpRequestMsg) :
    Twin clean (recvHttpMsgHave P s t req) (recvHttpMsgHave P (s.withResidue x) t req) := by
  have hhave : (s.withResidue x).curr.recvBufHave = s.curr.recvBufHave := hc.have_eq
  have hcurr : (s.withResidue x).curr.recvBufCurr = s.curr.recvBufCurr := hc.curr_eq
  have hbuf : (s.withResidue x).curr.recvBufP = s.curr.recvBufP := rfl
  have hnonneg := hc.nonneg
  have hle := hc.le
  have hfilled := hc.le_filled
  unfold SrvAsync.recvHttpMsgHave
  cases (req.getHeaderValue (ascii "Content-Length")).asSizeT with
  | none => exact h.die _
  | some bodyLen =>
    simp only [hhave, hcurr, hbuf]
    rw [h.view_eq (by omega)]
    split
    · exact (h.setCursors (by omega) (by omega) (by omega)).recvHttpMsgBody _ _ _ _
    · exact (h.setCursors (by omega) (by omega) (by omega)).recvHttpMsgBody _ _ _ _

/-- A header section was received, or none. -/
theorem recvHttpMsgHdr (h : Twins clean m s x) {httpHdr : Bytes}
    (hc : httpHdr = [] ∨ SameCursors m s.curr.recvBufHave s.curr.recvBufCurr x) :
    Twin clean (recvHttpMsgHdr P s t httpHdr) (recvHttpMsgHdr P (s.withResidue x) t httpHdr) := by
  unfold SrvAsync.recvHttpMsgHdr
  split
  · exact h.handleOneClientRequestNull
  · next hne =>
    have hc := hc.resolve_left fun hnil => hne (by rw [hnil]; rfl)
    simp only
    split
    · exact (h.create _).recvHttpMsgHave hc _
    · exact (h.create _).handleOneClientRequestRecv _

theorem recvHttpHdrEnd (h : Twins clean m s x) {nHave nCurr : ℤ} {hdrSize : ℤ} (h0 : 0 ≤ nCurr)
    (hle : nCurr ≤ nHave) (hm : nHave ≤ m) (hpos : 0 ≤ hdrSize) (hsz : nCurr + hdrSize ≤ nHave) :
    Twin clean (recvHttpHdrEnd P s t s.curr.recvBufP nHave nCurr hdrSize)
      (recvHttpHdrEnd P (s.withResidue x) t s.curr.recvBufP nHave nCurr hdrSize) := by
  unfold SrvAsync.recvHttpHdrEnd
  have hfind := findHttpHeadersEnd_le (s.view s.curr.recvBufP nCurr (nHave - nCurr))
  have hlen : (s.view s.curr.recvBufP nCurr (nHave - nCurr)).length = (nHave - nCurr).toNat :=
    length_window ..
  rw [h.view_eq (by omega)]
  generalize hn : (if hdrSize = 0 then
    (findHttpHeadersEnd (s.view s.curr.recvBufP nCurr (nHave - nCurr)) : ℤ) else hdrSize) = n
  have hbounds : 0 ≤ n ∧ nCurr + n ≤ nHave := by
    rw [← hn]
    split <;> omega
  simp only
  rw [h.view_eq (by omega)]
  have h1 : 0 ≤ nCurr + n := by omega
  exact (h.setCursors h1 hbounds.2 hm).recvHttpMsgHdr (.inr ⟨rfl, rfl, h1, hbounds.2, hm⟩)

/-- A receive operation for a header section returns. -/
theorem recvHttpHdrRecv (h : Twins clean m s x) {nHave count : ℤ} (h0 : 0 ≤ nHave)
    (hm : 0 < count → nHave + count ≤ m) :
    Twin clean (recvHttpHdrRecv P t s.curr.recvBufP nHave s count)
      (recvHttpHdrRecv P t s.curr.recvBufP nHave (s.withResidue x) count) := by
  unfold SrvAsync.recvHttpHdrRecv
  split
  · exact h.recvHttpMsgHdr (.inl rfl)
  · exact h.recvHttpHdrEnd (Int.le_refl 0) (by omega) (hm (by omega)) (Int.le_refl 0) (by omega)

/-- `recv_http_hdr` waits for more behind what it has. -/
theorem recvHttpHdrMore (h : Twins clean m s x) (toRecv : ℤ) {nHave : ℤ} (h0 : 0 ≤ nHave)
    (hm : nHave ≤ m) :
    Twin clean (SrvAsync.recvFromCurrConn s t s.curr.recvBufP toRecv nHave timeoutInf true
        (.hdr s.curr.recvBufP nHave) (SrvAsync.recvHttpHdrRecv P t s.curr.recvBufP nHave))
      (SrvAsync.recvFromCurrConn (s.withResidue x) t s.curr.recvBufP toRecv nHave timeoutInf true
        (.hdr s.curr.recvBufP nHave) (SrvAsync.recvHttpHdrRecv P t s.curr.recvBufP nHave)) := by
  refine h.recvFromCurrConn _ _ (by omega) _ _ _ fun s' hbuf hs' => ?_
  rw [← hbuf]
  exact hs'.recvHttpHdrRecv h0 fun hlt => absurd hlt (Int.lt_irrefl 0)

/-- Nothing is unread in either context. -/
theorem recvHttpHdr_drained (h : Twins clean m s x) (hs : s.curr.recvBufCurr = s.curr.recvBufHave)
    (hx : x.curr = x.have_) :
    Twin clean (recvHttpHdr P s t) (recvHttpHdr P (s.withResidue x) t) := by
  have hx' : (s.withResidue x).curr.recvBufCurr = (s.withResidue x).curr.recvBufHave := hx
  unfold SrvAsync.recvHttpHdr
  simp only
  rw [if_neg (not_not.mpr hs), if_neg (not_not.mpr hx')]
  exact h.recvHttpHdrMore _ (Int.le_refl 0) (Int.natCast_nonneg m)

theorem recvHttpHdr (h : Twins clean m s x) :
    Twin clean (recvHttpHdr P s t) (recvHttpHdr P (s.withResidue x) t) := by
  -- both contexts are drained, or they have the same bytes unread
  rcases h.cursors with ⟨hs, hx⟩ | hc
  · exact h.recvHttpHdr_drained hs hx
  by_cases hs : s.curr.recvBufCurr = s.curr.recvBufHave
  · exact h.recvHttpHdr_drained hs (hc.curr_eq.trans (hs.trans hc.have_eq.symm))
  have hhave : (s.withResidue x).curr.recvBufHave = s.curr.recvBufHave := hc.have_eq
  have hcurr : (s.withResidue x).curr.recvBufCurr = s.curr.recvBufCurr := hc.curr_eq
  have hbuf : (s.withResidue x).curr.recvBufP = s.curr.recvBufP := rfl
  have hnonneg := hc.nonneg
  have hle := hc.le
  have hfilled := hc.le_filled
  have hkin := h.kin.le
  have hfind := findHttpHeadersEnd_le (s.view s.curr.recvBufP s.curr.recvBufCurr
    (s.curr.recvBufHave - s.curr.recvBufCurr))
  have hlen : (s.view s.curr.recvBufP s.curr.recvBufCurr
      (s.curr.recvBufHave - s.curr.recvBufCurr)).length =
      (s.curr.recvBufHave - s.curr.recvBufCurr).toNat := length_window ..
  unfold SrvAsync.recvHttpHdr
  simp only [hhave, hcurr, hbuf]
  rw [if_pos hs, if_pos hs, h.view_eq (by omega)]
  split
  · -- the rest is moved to the front
    rw [withResidue_poke]
    have hoff : (0 : ℤ).toNat ≤ m := Nat.zero_le m
    have hroom : (0 : ℤ).toNat + (s.view s.curr.recvBufP s.curr.recvBufCurr
        (s.curr.recvBufHave - s.curr.recvBufCurr)).length ≤ s.curr.recvBufSize.toNat := by
      rw [hlen]
      omega
    exact (h.poke hoff hroom).recvHttpHdrMore _ (by omega) (by omega)
  · exact h.recvHttpHdrEnd hnonneg hle hfilled (by omega) (by omega)

theorem recvHttpMsg (h : Twins clean m s x) :
    Twin clean (recvHttpMsg P s t) (recvHttpMsg P (s.withResidue x) t) := (h.log _).recvHttpHdr

/-- A receive operation returns. -/
theorem recvReturned (h : Twins clean m s x) {k : RecvCaller} {prev n : ℤ}
    (hk : k.Called s.curr.recvBufP prev) (hn : n ≤ m) :
    Twin clean (recvReturned P t k s (n - prev)) (recvReturned P t k (s.withResidue x) (n - prev)) := by
  cases k with
  | hdr recvBufP nHave =>
    obtain ⟨rfl, rfl, h0⟩ := hk
    exact h.recvHttpHdrRecv h0 fun _ => by omega
  | body req recvBufP recvBufSize bodyLen gotLen toRecv =>
    obtain ⟨rfl, h0⟩ := hk
    exact h.recvHttpMsgChunk _ _ _ _ _ (by omega)

/-- A receive operation failed. -/
theorem recvReturned_failed (h : Twins clean m s x) {k : RecvCaller} (hk : k.Fails) :
    Twin clean (SrvAsync.recvReturned P t k s (-1))
      (SrvAsync.recvReturned P t k (s.withResidue x) (-1)) := by
  cases k with
  | hdr recvBufP nHave => exact h.recvHttpMsgHdr (P := P) (t := t) (.inl rfl)
  | body req recvBufP recvBufSize bodyLen gotLen toRecv =>
    have hpos : 0 ≤ toRecv := hk
    have hne : (-1 : ℤ) ≠ toRecv := by omega
    simp only [SrvAsync.recvReturned, SrvAsync.recvHttpMsgChunk, if_pos hne]
    exact (h.destroy _).handleOneClientRequestNull

/-- The loop test of a receive operation. -/
theorem recvLoop_called (h : Twins clean m s x) {f : RecvFrame} {k : RecvCaller}
    (hk : k.Called s.curr.recvBufP f.prevNRecv) (hm : f.nRecv ≤ m) (b b' : Bool) :
    Twin clean (SrvAsync.recvLoop s f k b b' (SrvAsync.recvReturned P t k))
      (SrvAsync.recvLoop (s.withResidue x) f k b b' (SrvAsync.recvReturned P t k)) :=
  h.recvLoop (Int.toNat_le.mpr hm) k b b' (h.recvReturned hk hm)

/-- The check for the end of a header section behind a `read` that gave bytes. -/
theorem scan (h : Twins clean m s x) {n : ℤ} (hm : n ≤ m) {bs : Bytes}
    (hroom : n.toNat + bs.length ≤ s.curr.recvBufSize.toNat) :
    let found := fun b => isHttpMessageEnd (Memory.store b n.toNat bs) s.curr.recvBufSize.toNat
      n.toNat (n.toNat + bs.length)
    found (s.mem s.curr.recvBufP) = found x.mem ∨ found (s.mem s.curr.recvBufP) = none ∨
      found (s.mem s.curr.recvBufP) = some true ∧ ¬ clean :=
  isHttpMessageEnd_kin (h.kin.store (Int.toNat_le.mpr hm) hroom) n.toNat (Nat.le_max_right m _)

/-- `read` gave bytes, and the check for the end of a header section has the same result in both
states. -/
theorem recvData (h : Twins clean m s x) {f : RecvFrame} {k : RecvCaller} (hf : f.Inside k s.curr)
    (hm : f.nRecv ≤ m) {bs : Bytes} (hlen : (bs.length : ℤ) ≤ f.toRecv)
    (hscan : f.terminator = true →
      isHttpMessageEnd (Memory.store (s.mem s.curr.recvBufP) f.nRecv.toNat bs)
          s.curr.recvBufSize.toNat f.nRecv.toNat (f.nRecv + bs.length).toNat =
        isHttpMessageEnd (Memory.store x.mem f.nRecv.toNat bs)
          s.curr.recvBufSize.toNat f.nRecv.toNat (f.nRecv + bs.length).toNat) :
    Twin clean (SrvAsync.recvRead s t f k (SrvAsync.recvReturned P t k) (.data bs))
      (SrvAsync.recvRead (s.withResidue x) t f k (SrvAsync.recvReturned P t k) (.data bs)) := by
  obtain ⟨buf, toRecv, nRecv, prev, timeout, terminator⟩ := f
  obtain ⟨rfl, hnonneg, hfits, hcaller⟩ := hf
  simp only at hnonneg hfits hcaller hm hlen hscan ⊢
  have hoff : nRecv.toNat ≤ m := Int.toNat_le.mpr hm
  have hroom : nRecv.toNat + bs.length ≤ s.curr.recvBufSize.toNat := by omega
  -- the same bytes go to the same place of both buffers, which are kin from then on up to
  -- their end
  have hgo := (h.poke hoff hroom).updateActive (t.clk 0)
  have hm' : nRecv + bs.length ≤ (max m (nRecv.toNat + bs.length) : ℕ) := by omega
  unfold SrvAsync.recvRead
  simp only
  rw [withResidue_poke, withResidue_updateActive]
  have hstore : ({ x with mem := Memory.store x.mem nRecv.toNat bs } : Residue).mem =
      Memory.store x.mem nRecv.toNat bs := rfl
  generalize hx' : ({ x with mem := Memory.store x.mem nRecv.toNat bs } : Residue) = x' at hgo hstore ⊢
  generalize hs' : (s.poke s.curr.recvBufP nRecv bs).currConnUpdateActive (t.clk 0) = s' at hgo ⊢
  have hp : s'.curr.recvBufP = s.curr.recvBufP := by
    rw [← hs', recvBufP_updateActive]
    rfl
  have hsize : s'.curr.recvBufSize = s.curr.recvBufSize := by
    rw [← hs', recvBufSize_updateActive]
    rfl
  have hmem : s'.mem s.curr.recvBufP =
      Memory.store (s.mem s.curr.recvBufP) nRecv.toNat bs := by
    rw [← hs', mem_updateActive]
    exact Function.update_self ..
  have hmem' : (s'.withResidue x').mem s.curr.recvBufP = x'.mem := by
    rw [← hp]
    exact withResidue_mem
  have hsize' : (s'.withResidue x').curr.recvBufSize = s.curr.recvBufSize := hsize
  have htimed : (s'.withResidue x').currConnOpTimeout (t.clk 1) timeout =
      s'.currConnOpTimeout (t.clk 1) timeout := rfl
  have hloop : ∀ recvTerm timedOut : Bool, Twin clean
      (SrvAsync.recvLoop (s'.log (.read (.data bs) timedOut))
        ⟨s.curr.recvBufP, toRecv - bs.length, nRecv + bs.length, prev, timeout, terminator⟩ k recvTerm timedOut
        (SrvAsync.recvReturned P t k))
      (SrvAsync.recvLoop ((s'.withResidue x').log (.read (.data bs) timedOut))
        ⟨s.curr.recvBufP, toRecv - bs.length, nRecv + bs.length, prev, timeout, terminator⟩ k recvTerm timedOut
        (SrvAsync.recvReturned P t k)) := by
    intro recvTerm timedOut
    exact (hgo.log _).recvLoop_called (hp ▸ hcaller) hm' _ _
  rw [hmem, hmem', hsize, hsize', htimed]
  cases terminator with
  -- a body is not scanned
  | false => exact hloop false _
  | true =>
    simp only [if_true]
    rw [hscan rfl, hstore]
    cases isHttpMessageEnd (Memory.store x.mem nRecv.toNat bs) s.curr.recvBufSize.toNat
        nRecv.toNat (nRecv + bs.length).toNat with
    | none => exact (hgo.log _).die .segv
    | some recvTerm => exact hloop recvTerm _

/-- `read` returned. -/
theorem recvRead (h : Twins clean m s x) {f : RecvFrame} {k : RecvCaller} (hf : f.Inside k s.curr)
    (hm : f.nRecv ≤ m) {r : ReadResult} (hr : r.Fits f.toRecv)
    (hscan : ∀ bs, r = .data bs → f.terminator = true →
      isHttpMessageEnd (Memory.store (s.mem s.curr.recvBufP) f.nRecv.toNat bs)
          s.curr.recvBufSize.toNat f.nRecv.toNat (f.nRecv + bs.length).toNat =
        isHttpMessageEnd (Memory.store x.mem f.nRecv.toNat bs)
          s.curr.recvBufSize.toNat f.nRecv.toNat (f.nRecv + bs.length).toNat) :
    Twin clean (SrvAsync.recvRead s t f k (SrvAsync.recvReturned P t k) r)
      (SrvAsync.recvRead (s.withResidue x) t f k (SrvAsync.recvReturned P t k) r) := by
  cases r with
  | again => exact (h.log _).wait (t.clk 0) (Int.toNat_le.mpr hm)
  | error =>
    simp only [SrvAsync.recvRead, withResidue_log, withResidue_close]
    exact (h.log _).close.swapToMainCtx (Nat.zero_le m)
  | eof => exact (h.log _).recvLoop_called hf.caller hm _ _
  | data bs => exact h.recvData hf hm hr.2 (hscan bs rfl)

theorem passYield (h : Twins clean m s x) {y : Yield} (hy : y.Inside s.curr) :
    Twin clean (passYield P s t y) (passYield P (s.withResidue x) t y) := by
  cases y with
  | body req recvBufP recvBufSize bodyLen gotLen =>
    obtain rfl : recvBufP = s.curr.recvBufP := hy
    exact h.recvHttpMsgBody _ _ _ _
  | packet req resp msg curr => exact h.sendHttpMsgLoop _ _ _ _
  | request req resp => exact (h.clientRequestReturned true).recvHttpMsg

theorem handleOneConnection (h : Twins clean m s x) (fcntlOk : Bool) :
    Twin clean (handleOneConnection P s t fcntlOk) (handleOneConnection P (s.withResidue x) t fcntlOk) := by
  cases fcntlOk with
  | true => exact h.recvHttpMsg
  | false => exact h.closeSock.die .exit

/-- The main context switched to the coroutine. -/
theorem resume (h : Twins clean m s x) (hp : s.curr.connCtx.point.Inside s.curr)
    (hm : s.curr.connCtx.point.filled ≤ m) (fcntlOk : Bool) :
    Twin clean (resume P s t fcntlOk) (resume P (s.withResidue x) t fcntlOk) := by
  have hself : Twins clean m { s with self := s.curr.connCtx.owner } x := ⟨h.kin, h.cursors⟩
  have hback := hself.swappedBack (t.clk 0)
  obtain ⟨p, hpt⟩ : ∃ p, s.curr.connCtx.point = p := ⟨_, rfl⟩
  have hpt₀ : (s.withResidue x).curr.connCtx.point = p := hpt
  rw [hpt] at hp hm
  simp only [SrvAsync.resume, hpt, hpt₀]
  cases p with
  | start => exact hself.handleOneConnection fcntlOk
  | recvWait f k => exact hback.recvLoop_called hp.caller (Int.toNat_le.mp hm) false false
  | recvFailed f k => exact hback.recvReturned_failed hp
  | sendWait f k => exact hback.sendLoop _ _ _ _
  | sendFailed f k => exact hback.sendHttpMsgSent _ _
  | yielded y => exact hback.passYield hp
  | ended => exact hback.swapToMainCtx (Nat.zero_le m)
  | recv f k | send f k | check y => exact hself.goto hm

end Twins

end

end SrvAsync
