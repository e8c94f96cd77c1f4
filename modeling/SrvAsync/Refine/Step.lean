import SrvAsync.Refine.Code

/-!
# A coroutine refines a session: the steps

A step of a coroutine either does nothing to its session or is one step of it:
an answer of the socket is the visible step with that answer, and passing a
possible yield is a silent step.  Resuming a coroutine in the middle of a receive
or send operation, and yielding, do nothing.

## Main results

* `refines_recvRead`, `refines_sendWrite` — the answers of the socket.
* `refines_passYield` — the silent steps.
* `refines_step` — one step.
-/

namespace SrvAsync

open Http History

@[simp] theorem Session.goto_stage (a : Session) : a.goto a.stage = a := rfl

variable {P : Platform} {s s' : St} {a : Session} {t : Tick}

/-! ### What the frames say of the state -/

theorem HdrAt.going {prev n : ℕ} {f : RecvFrame} {k : RecvCaller}
    (h : HdrAt P s.curr a.size prev n f k) (hb : Base P s.curr (s.mem s.curr.recvBufP) a) :
    Going P s a [] .reading := { hb with opened := h.opened, live := h.live, dialogue := h.dialogue }

theorem BodyAt.going {req : HttpRequestMsg} {bodyLen gotLen toRecv n : ℕ} {f : RecvFrame}
    {k : RecvCaller} (h : BodyAt P s.curr a.size req bodyLen gotLen toRecv n f k)
    (hb : Base P s.curr (s.mem s.curr.recvBufP) a) : Going P s a [.request] .reading :=
  { hb with opened := h.opened, live := h.live, dialogue := h.dialogue }

theorem ChunkAt.going {req : HttpRequestMsg} {bodyLen gotLen : ℕ} {y : Yield}
    (h : ChunkAt P s.curr a.size req bodyLen gotLen y)
    (hb : Base P s.curr (s.mem s.curr.recvBufP) a) : Going P s a [.request] .reading :=
  { hb with opened := h.opened, live := h.live, dialogue := h.dialogue }

theorem SendAt.going {req : HttpRequestMsg} {reply : Reply} {d : Date} {curr toSend n : ℕ}
    {f : SendFrame} {k : SendCaller} (h : SendAt P s.curr req reply d curr toSend n f k)
    (hb : Base P s.curr (s.mem s.curr.recvBufP) a) :
    Going P s a [.text, .response, .request] (.replying (reply.response P d)
      (((reply.response P d).serialize P).take (curr + n))) :=
  { hb with opened := h.opened, live := h.live, dialogue := h.dialogue }

theorem PacketAt.going {req : HttpRequestMsg} {reply : Reply} {d : Date} {curr : ℕ} {y : Yield}
    (h : PacketAt P s.curr req reply d curr y) (hb : Base P s.curr (s.mem s.curr.recvBufP) a) :
    Going P s a [.text, .response, .request] (.replying (reply.response P d)
      (((reply.response P d).serialize P).take curr)) :=
  { hb with opened := h.opened, live := h.live, dialogue := h.dialogue }

theorem AnsweredAt.going {req : HttpRequestMsg} {resp : HttpResponseMsg} {y : Yield}
    (h : AnsweredAt P s.curr req resp y) (hb : Base P s.curr (s.mem s.curr.recvBufP) a) :
    Going P s a [.response, .request] (.replying resp (resp.serialize P)) :=
  { hb with opened := h.opened, live := h.live, dialogue := h.dialogue }

@[simp] theorem recvBufP_updateActive (s : St) (now : Time) :
    (s.currConnUpdateActive now).curr.recvBufP = s.curr.recvBufP := by
  rw [currConnUpdateActive_eq]

@[simp] theorem recvBufSize_updateActive (s : St) (now : Time) :
    (s.currConnUpdateActive now).curr.recvBufSize = s.curr.recvBufSize := by
  rw [currConnUpdateActive_eq]

@[simp] theorem isActive_updateActive (s : St) (now : Time) :
    (s.currConnUpdateActive now).curr.isActive = true := by
  rw [currConnUpdateActive_eq]

@[simp] theorem mem_updateActive (s : St) (now : Time) :
    (s.currConnUpdateActive now).mem = s.mem := by
  rw [currConnUpdateActive_eq]

@[simp] theorem recvBufP_setInactive (s : St) :
    s.currConnSetInactive.curr.recvBufP = s.curr.recvBufP := by
  rw [currConnSetInactive_eq]

@[simp] theorem hist_setInactive (s : St) : s.currConnSetInactive.curr.hist = s.curr.hist := by
  rw [currConnSetInactive_eq]

/-! ### The loop tests -/

/-- The loop test while a header section is received. -/
theorem Going.refines_recvLoop_hdr {prev n : ℕ} {f : RecvFrame} {k : RecvCaller}
    (h : Going P s a [] .reading) (hf : f = ⟨s.curr.recvBufP, a.size - n, n, prev, timeoutInf, true⟩)
    (hk : k = .hdr s.curr.recvBufP prev) (hpn : prev ≤ n) (hle : n ≤ a.size) (recvTerm : Bool) :
    Refines P (recvLoop s f k recvTerm false (recvReturned P t k))
      (if n ≠ a.size ∧ recvTerm = false then a.goto (.hdr prev n) else a.hdrReceived P prev n) := by
  have hto : f.toRecv = a.size - n := by rw [hf]
  unfold recvLoop
  by_cases hc : n ≠ a.size ∧ recvTerm = false
  · rw [if_pos ⟨by omega, hc.2, rfl⟩, if_pos hc]
    exact h.refines_goto rfl
      (.recvHdr ⟨hf, hk, hpn, by omega, h.opened, h.live, h.dialogue⟩)
  · rw [if_neg fun hn => hc ⟨by omega, hn.2.1⟩, if_neg hc, hk, hf]
    simp only [← Nat.cast_sub hpn]
    exact refines_recvHttpHdrRecv h hpn hle

/-- The loop test while a chunk of a body is received. -/
theorem Going.refines_recvLoop_body {bodyLen gotLen toRecv n : ℕ} {f : RecvFrame}
    {k : RecvCaller} (h : Going P s a [.request] .reading) (req : HttpRequestMsg)
    (hf : f = ⟨s.curr.recvBufP, toRecv - n, n, 0, clientOpTimeout, false⟩)
    (hk : k = .body req s.curr.recvBufP a.size bodyLen gotLen toRecv) (hn : n ≤ toRecv)
    (hto : toRecv ≤ a.size) (hgot : gotLen + toRecv ≤ bodyLen)
    (hact : n = toRecv → s.curr.isActive = true) (recvTerm recvTimeout : Bool) :
    Refines P (recvLoop s f k recvTerm recvTimeout (recvReturned P t k))
      (if n ≠ toRecv ∧ recvTerm = false ∧ recvTimeout = false then
        a.goto (.body req bodyLen gotLen toRecv n)
      else a.bodyReceived req bodyLen gotLen toRecv n) := by
  have hft : f.toRecv = toRecv - n := by rw [hf]
  unfold recvLoop
  by_cases hc : n ≠ toRecv ∧ recvTerm = false ∧ recvTimeout = false
  · rw [if_pos ⟨by omega, hc.2⟩, if_pos hc]
    exact h.refines_goto rfl
      (.recvBody ⟨hf, hk, by omega, hto, hgot, h.opened, h.live, h.dialogue⟩)
  · rw [if_neg fun hn => hc ⟨by omega, hn.2⟩, if_neg hc, hk, hf]
    simp only [Int.sub_zero]
    exact refines_recvHttpMsgChunk h hgot hact

/-- The loop test while a packet is sent. -/
theorem Going.refines_sendLoop {req : HttpRequestMsg} {reply : Reply} {d : Date}
    {curr toSend n : ℕ} {f : SendFrame} {k : SendCaller}
    (h : Going P s a [.text, .response, .request]
      (.replying (reply.response P d) (((reply.response P d).serialize P).take (curr + n))))
    (hf : f = ⟨((reply.response P d).serialize P).drop curr, toSend - n, n, clientOpTimeout⟩)
    (hk : k = ⟨req, reply.response P d, (reply.response P d).serialize P, curr, toSend⟩)
    (hn : n ≤ toSend) (hpos : 0 < toSend) (hle : curr + toSend ≤ reply.size P)
    (hka : req.wantKeepAlive = some reply.keepAlive)
    (hact : n = toSend → s.curr.isActive = true) (sendEnded sendTimeout : Bool) :
    Refines P (sendLoop s f k sendEnded sendTimeout (sendHttpMsgSent k))
      (if n ≠ toSend ∧ sendEnded = false ∧ sendTimeout = false then
        a.goto (.send req reply curr toSend n)
      else a.sent req reply curr toSend n) := by
  have hft : f.toSend = toSend - n := by rw [hf]
  unfold sendLoop
  by_cases hc : n ≠ toSend ∧ sendEnded = false ∧ sendTimeout = false
  · rw [if_pos ⟨by omega, hc.2⟩, if_pos hc]
    exact h.refines_goto rfl
      (.send ⟨hf, hk, by omega, hle, hka, h.opened, h.live, h.dialogue⟩)
  · rw [if_neg fun hn => hc ⟨by omega, hn.2⟩, if_neg hc, hk, hf]
    exact refines_sendHttpMsgSent h hn hpos hle hact hka

/-! ### `read` answers -/

/-- `EAGAIN` while receiving. -/
theorem Going.refines_recvAgain {objs : List Obj} {f : RecvFrame} {k : RecvCaller}
    (h : Going P s a objs .reading)
    (hst : ∀ s' : St, Going P s' (a.note (.read .again false)) objs .reading →
      s'.curr.recvBufP = s.curr.recvBufP →
      s'.curr.hist.getLast? = some (.read .again false) →
      Stands P s'.curr a.size (.recvWait f k) a.stage) (ret : St → ℤ → St) :
    Refines P (recvRead s t f k ret .again) (a.note (.read .again false)) := by
  have hlog := h.log (.read .again false) (.read .again false)
  have hlast : (s.log (.read .again false)).curr.hist.getLast? = some (.read .again false) :=
    List.getLast?_concat
  simp only [recvRead]
  split
  · refine hlog.setInactive.refines_swapToMainCtx rfl (hst _ hlog.setInactive ?_ ?_)
    · rw [recvBufP_setInactive]; rfl
    · rw [hist_setInactive]; exact hlast
  · exact hlog.refines_swapToMainCtx rfl (hst _ hlog rfl hlast)

/-- A hard error while receiving. -/
theorem Going.refines_recvError {f : RecvFrame} {k : RecvCaller} (h : Going P s a k.objs .reading)
    (hk : k.Fails) (ret : St → ℤ → St) :
    Refines P (recvRead s t f k ret .error) (a.note (.read .error false)).fail := by
  have hlog := h.log (.read .error false) (.read .error false)
  obtain ⟨hb, hc⟩ := hlog.close fun file => .readFailed file
  exact hb.refines_swapToMainCtx rfl (.recvFailed hk hc)

/-- Bytes are received, up to the event. -/
theorem Going.recvData {objs : List Obj} {n : ℕ} (h : Going P s a objs .reading) (bs : Bytes)
    (now : Time) (timedOut : Bool) :
    Going P (((s.poke s.curr.recvBufP n bs).currConnUpdateActive now).log (.read (.data bs) timedOut))
      { a.note (.read (.data bs) timedOut) with buf := Memory.store a.buf n bs } objs .reading :=
  ((h.poke n bs).updateActive now).log (.read (.data bs) timedOut) (.read (.data bs) timedOut)

/-- The receive buffer after bytes were received. -/
theorem Base.mem_recvData {n : ℕ} (h : Base P s.curr (s.mem s.curr.recvBufP) a) (bs : Bytes)
    (now : Time) : ((s.poke s.curr.recvBufP n bs).currConnUpdateActive now).mem s.curr.recvBufP
      = Memory.store a.buf n bs := by
  rw [mem_updateActive]
  change Function.update s.mem s.curr.recvBufP _ s.curr.recvBufP = _
  rw [Function.update_self, h.buf, Int.toNat_natCast]

/-- `read` answers while a header section is received. -/
theorem refines_recvRead_hdr {prev n : ℕ} {f : RecvFrame} {k : RecvCaller} {r : ReadResult}
    (hb : Base P s.curr (s.mem s.curr.recvBufP) a) (h : HdrAt P s.curr a.size prev n f k)
    (hst : a.stage = .hdr prev n) (hr : r.Fits f.toRecv) :
    Refines P (recvRead s t f k (recvReturned P t k) r)
      ((a.note (.read r false)).hdrRead P prev n r) := by
  have hgo := h.going hb
  obtain ⟨rfl, rfl, hpn, hlt, -, -, -⟩ := h
  cases r with
  | again =>
    refine hgo.refines_recvAgain (fun s' hgo' hp hlast => ?_) _
    rw [hst]
    refine .waitHdr ⟨?_, ?_, hpn, hlt, hgo'.opened, hgo'.live, hgo'.dialogue⟩ hlast <;> rw [hp]
  | error => exact Going.refines_recvError (k := .hdr _ _) hgo trivial _
  | eof =>
    have hlog := hgo.log (.read .eof false) (.read .eof false)
    have hloop := hlog.refines_recvLoop_hdr (t := t) rfl rfl hpn hlt.le true
    rwa [if_neg (by simp)] at hloop
  | data bs =>
    obtain ⟨-, hlen⟩ := hr
    simp only at hlen
    have hlog := hgo.recvData (n := n) bs (t.clk 0) false
    have hn : ((n : ℤ) + bs.length).toNat = n + bs.length := by omega
    have hsz : (s.poke s.curr.recvBufP n bs).curr.recvBufSize = a.size := hb.size
    have hbuf : (a.note (.read (.data bs) false)).buf = a.buf := rfl
    have hsize : (a.note (.read (.data bs) false)).size = a.size := rfl
    simp only [recvRead, if_true, bne_self_eq_false, Bool.false_and, recvBufSize_updateActive,
      hb.mem_recvData, hsz, hn, Int.toNat_natCast, Session.hdrRead, Session.hdrData, hbuf, hsize]
    cases isHttpMessageEnd (Memory.store a.buf n bs) a.size n (n + bs.length) with
    | none => exact hlog.refines_die Talk.noConfusion Death.noConfusion
    | some recvTerm =>
      have hp : (((s.poke s.curr.recvBufP n bs).currConnUpdateActive (t.clk 0)).log
          (.read (.data bs) false)).curr.recvBufP = s.curr.recvBufP := recvBufP_updateActive _ _
      refine hlog.refines_recvLoop_hdr (n := n + bs.length) ?_ (by rw [hp]) (by omega) ?_ recvTerm
      · rw [hp]
        exact RecvFrame.ext rfl (by push_cast; exact Int.sub_sub _ _ _) (by push_cast; rfl) rfl rfl rfl
      · change n + bs.length ≤ a.size
        omega

/-- `read` answers while a chunk of a body is received. -/
theorem refines_recvRead_body {req : HttpRequestMsg} {bodyLen gotLen toRecv n : ℕ}
    {f : RecvFrame} {k : RecvCaller} {r : ReadResult}
    (hb : Base P s.curr (s.mem s.curr.recvBufP) a)
    (h : BodyAt P s.curr a.size req bodyLen gotLen toRecv n f k)
    (hst : a.stage = .body req bodyLen gotLen toRecv n) (hr : r.Fits f.toRecv) :
    ∃ timedOut, Refines P (recvRead s t f k (recvReturned P t k) r)
      ((a.note (.read r timedOut)).bodyRead req bodyLen gotLen toRecv n timedOut r) := by
  have hgo := h.going hb
  obtain ⟨rfl, rfl, hlt, hto, hgot, -, -, -⟩ := h
  cases r with
  | again =>
    refine ⟨false, hgo.refines_recvAgain (fun s' hgo' hp hlast => ?_) _⟩
    rw [hst]
    refine .waitBody ⟨?_, ?_, hlt, hto, hgot, hgo'.opened, hgo'.live, hgo'.dialogue⟩ hlast <;> rw [hp]
  | error => exact ⟨false, Going.refines_recvError (k := .body _ _ _ _ _ _) hgo (by simp [RecvCaller.Fails]) _⟩
  | eof =>
    have hlog := hgo.log (.read .eof false) (.read .eof false)
    have hloop := hlog.refines_recvLoop_body (t := t) req rfl rfl hlt.le hto hgot (by omega) true false
    rw [if_neg (by simp)] at hloop
    exact ⟨false, hloop⟩
  | data bs =>
    obtain ⟨-, hlen⟩ := hr
    simp only at hlen
    refine ⟨clientOpTimeout != timeoutInf && ((s.poke s.curr.recvBufP n bs).currConnUpdateActive
      (t.clk 0)).currConnOpTimeout (t.clk 1) clientOpTimeout, ?_⟩
    generalize hto' : (clientOpTimeout != timeoutInf && ((s.poke s.curr.recvBufP n
      bs).currConnUpdateActive (t.clk 0)).currConnOpTimeout (t.clk 1) clientOpTimeout) = timedOut
    have hlog := hgo.recvData (n := n) bs (t.clk 0) timedOut
    simp only [recvRead, hto', Bool.false_eq_true, if_false]
    have hp : (((s.poke s.curr.recvBufP n bs).currConnUpdateActive (t.clk 0)).log
        (.read (.data bs) timedOut)).curr.recvBufP = s.curr.recvBufP := recvBufP_updateActive _ _
    have hloop := hlog.refines_recvLoop_body (t := t)
      (f := ⟨_, toRecv - n - bs.length, n + bs.length, 0, clientOpTimeout, false⟩) req
      (RecvFrame.ext hp.symm (by push_cast; exact Int.sub_sub _ _ _) rfl rfl rfl rfl) (by rw [hp])
      (by omega) hto hgot (fun _ => isActive_updateActive _ _) false timedOut
    simp only [true_and] at hloop
    exact hloop

/-! ### `write` answers -/

/-- What a send operation accepts next is the next part of the response. -/
theorem take_append_take_drop {α : Type*} (l : List α) (i n m : ℕ) :
    l.take (i + n) ++ ((l.drop i).drop n).take m = l.take (i + (n + m)) := by
  rw [List.drop_drop, ← Nat.add_assoc]
  exact (List.take_add (l := l) (i := i + n) (j := m)).symm

/-- A response that is sent in part has bytes left. -/
theorem take_serialize_ne {reply : Reply} {d : Date} {m : ℕ} (h : m < reply.size P) :
    ((reply.response P d).serialize P).take m ≠ (reply.response P d).serialize P := by
  intro he
  have := congrArg List.length he
  rw [List.length_take, length_serialize_eq] at this
  omega

/-- `write` answers while a packet is sent. -/
theorem refines_sendWrite {req : HttpRequestMsg} {reply : Reply} {d : Date}
    {curr toSend n : ℕ} {f : SendFrame} {k : SendCaller} {r : WriteResult}
    (hb : Base P s.curr (s.mem s.curr.recvBufP) a)
    (h : SendAt P s.curr req reply d curr toSend n f k)
    (hst : a.stage = .send req reply curr toSend n) (hr : r.Fits f.toSend) :
    ∃ timedOut, Refines P (sendWrite s t f k (sendHttpMsgSent k) r)
      ((a.note (.write r timedOut)).sendWrote req reply curr toSend n timedOut r) := by
  have hgo := h.going hb
  obtain ⟨rfl, rfl, hlt, hle, hk, -, -, -⟩ := h
  -- the response is not sent completely, so the dialogue is still in it
  have hne := take_serialize_ne (P := P) (d := d) (show curr + n < reply.size P by omega)
  have hnil : ∀ bs, ((reply.response P d).serialize P).take (curr + n) ++ bs
      <+: (reply.response P d).serialize P → ∀ r b, Talk.Next P
        (.replying (reply.response P d) (((reply.response P d).serialize P).take (curr + n)))
        (.write r bs b) (.replying (reply.response P d)
          (((reply.response P d).serialize P).take (curr + n) ++ bs)) :=
    fun bs hpre r b => .write r bs b hpre hne
  have hempty := hnil [] (by rw [List.append_nil]; exact List.take_prefix _ _)
  rw [List.append_nil] at hempty
  cases r with
  | again =>
    have hlog := hgo.log (.write .again [] false rfl) (hempty .again false)
    have hlast : (s.log (.write .again [] false)).curr.hist.getLast?
        = some (.write .again [] false) := List.getLast?_concat
    refine ⟨false, ?_⟩
    simp only [sendWrite, Session.sendWrote]
    -- the socket is full: the connection waits, and may be made inactive for it
    have hstands : ∀ s' : St, Going P s' (a.note (.write .again false)) [.text, .response, .request]
        (.replying (reply.response P d) (((reply.response P d).serialize P).take (curr + n))) →
        s'.curr.hist.getLast? = some (.write .again [] false) →
        Stands P s'.curr a.size (.sendWait _ _) a.stage := fun s' hgo' hl => by
      rw [hst]
      exact .waitSend ⟨rfl, rfl, hlt, hle, hk, hgo'.opened, hgo'.live, hgo'.dialogue⟩ hl
    split
    · refine hlog.setInactive.refines_swapToMainCtx rfl (hstands _ hlog.setInactive ?_)
      rw [hist_setInactive]
      exact hlast
    · exact hlog.refines_swapToMainCtx rfl (hstands _ hlog hlast)
  | error =>
    have hlog := hgo.log (.write .error [] false rfl) (hempty .error false)
    obtain ⟨hb', hc⟩ := hlog.close fun file => .writeFailed file hne
    exact ⟨false, hb'.refines_swapToMainCtx rfl (.sendFailed (by simp) hc)⟩
  | zero =>
    have hlog := hgo.log (.write .zero [] false rfl) (hempty .zero false)
    have hloop := hlog.refines_sendLoop rfl rfl hlt.le (by omega) hle hk (by omega) true false
    rw [if_neg (by simp)] at hloop
    exact ⟨false, hloop⟩
  | sent m =>
    obtain ⟨hm, hlen⟩ := hr
    simp only at hlen
    refine ⟨clientOpTimeout != timeoutInf && (s.currConnUpdateActive (t.clk 0)).currConnOpTimeout
      (t.clk 1) clientOpTimeout, ?_⟩
    simp only [sendWrite]
    generalize (clientOpTimeout != timeoutInf && (s.currConnUpdateActive
      (t.clk 0)).currConnOpTimeout (t.clk 1) clientOpTimeout) = timedOut
    -- what was sent before and the new bytes are a longer part of the response
    have hbs := take_append_take_drop ((reply.response P d).serialize P) curr n m
    have hcount : ((((reply.response P d).serialize P).drop curr).drop n |>.take m).length = m := by
      rw [List.length_take, List.length_drop, List.length_drop, length_serialize_eq]
      omega
    have hlog := (hgo.updateActive (t.clk 0)).log (.write (.sent m) _ timedOut hcount)
      (hnil _ (by rw [hbs]; exact List.take_prefix _ _) (.sent m) timedOut)
    rw [hbs] at hlog
    have hloop := hlog.refines_sendLoop (f := ⟨_, toSend - n - m, n + m, clientOpTimeout⟩) (n := n + m)
      (by push_cast; exact SendFrame.ext rfl (Int.sub_sub _ _ _) rfl rfl) rfl
      (by omega) (by omega) hle hk (fun _ => isActive_updateActive _ _) false timedOut
    simp only [true_and] at hloop
    rw [Int.toNat_natCast]
    exact hloop

/-! ### Silent steps -/

/-- A place where the coroutine may yield is passed: the yield is over, or there was none. -/
theorem refines_passYield {y : Yield} (hb : Base P s.curr (s.mem s.curr.recvBufP) a)
    (h : Stands P s.curr a.size (.check y) a.stage) :
    ∃ a', a.silent P = some a' ∧ Refines P (passYield P s t y) a' := by
  unfold Session.silent
  generalize hst : a.stage = st at h
  cases h with
  | checkChunk h =>
    refine ⟨_, rfl, ?_⟩
    have hgo := h.going hb
    obtain ⟨rfl, hle, -, -, -, -⟩ := h
    exact refines_recvHttpMsgBody hgo hle
  | checkPacket h =>
    rename_i req reply d curr
    have hgo := h.going hb
    obtain ⟨rfl, hle, hk, -, hact, -, -⟩ := h
    simp only [passYield]
    by_cases hlt : curr < reply.size P
    · exact ⟨_, if_pos hlt, refines_sendHttpMsgLoop hgo hlt hk⟩
    · have hlen := length_serialize_eq P reply d
      have htake : ((reply.response P d).serialize P).take curr = (reply.response P d).serialize P :=
        List.take_of_length_le (by omega)
      rw [htake] at hgo
      have hsent := refines_handleOneClientRequestSent hgo hact hk
      unfold sendHttpMsgLoop
      have hlt' : ¬ (curr : ℤ) < ((reply.response P d).serialize P).length := by omega
      rw [if_neg hlt, if_neg hlt']
      by_cases hka : reply.keepAlive = true
      · rw [if_pos hka] at hsent
        exact ⟨_, if_pos hka, hsent⟩
      · rw [if_neg hka] at hsent
        exact ⟨_, if_neg hka, hsent⟩
  | checkAnswered h =>
    refine ⟨_, rfl, ?_⟩
    have hgo := h.going hb
    obtain ⟨rfl, hka, -, -, -, -⟩ := h
    exact refines_recvHttpMsg (hgo.destroy.destroy.log (.returned true) (.more rfl hka)) .call

/-- A coroutine whose connection a hard error closed unwinds when it is resumed. -/
theorem refines_unwound (hb : Base P s.curr (s.mem s.curr.recvBufP) a) (h : ClosedAt P s.curr []) :
    Refines P (handleOneConnectionEnd (s.log (.returned false)))
      ((a.note (.returned false)).goto .ended) := by
  have hclosed : (s.log (.returned false)).curr.isCompleted = true := h.closed
  unfold handleOneConnectionEnd St.currConnClose
  rw [if_pos hclosed]
  refine Base.refines_swapToMainCtx { hb with hist := ?_ } rfl
    (.ended ⟨hclosed, h.live, h.dialogue.concat .unwound⟩)
  exact List.rel_append hb.hist (.cons (.returned false) .nil)

/-- An object of a closed connection is destroyed. -/
theorem ClosedAt.destroy {o : Obj} {objs : List Obj} (h : ClosedAt P s.curr (o :: objs)) :
    ClosedAt P (s.destroy o).curr objs :=
  { h with
    live := by
      change s.curr.live.erase o = objs
      rw [h.live, List.erase_cons_head] }

/-- The main context switches to a coroutine that was resumed before. -/
theorem refines_resume {fcntlOk : Bool} (ho : s.curr.connCtx.owner = s.self)
    (hrun : s.curr.connCtx.point.running = false)
    (hr : Rep P s.curr (s.mem s.curr.recvBufP) s.curr.connCtx.point a) :
    ∃ a', Refines P (resume P s t fcntlOk) a' ∧ (a' = a ∨ a.silent P = some a') := by
  obtain ⟨hb, hst⟩ := hr
  have hback : Base P (s.swappedBack (t.clk 0)).curr
      ((s.swappedBack (t.clk 0)).mem (s.swappedBack (t.clk 0)).curr.recvBufP) a := hb
  unfold resume
  simp only [ho]
  generalize s.curr.connCtx.point = p at hst hrun
  generalize hstage : a.stage = st at hst
  -- one case for each point at which a coroutine can have switched to the main context
  cases hst with
  | start hc ha hl hd =>
    have hgo : Going P s a [] .fresh := { hb with opened := hc, live := hl, dialogue := hd }
    cases fcntlOk with
    -- `set_conn_socket_params` succeeds or fails
    | true => exact ⟨_, refines_recvHttpMsg hgo .firstCall, .inr (by rw [Session.silent, hstage])⟩
    | false =>
      refine ⟨a, ⟨⟨_, hd.concat (.refused _), Talk.noConfusion⟩, ?_⟩, .inl rfl⟩
      exact List.rel_append hb.hist (.cons (.close _) .nil)
  | waitHdr h hl =>
    have hgo := h.going (s := s.swappedBack (t.clk 0)) hback
    -- the wait is over, and the `while` of `recv_buf` is entered again
    have hloop := hgo.refines_recvLoop_hdr (t := t) h.frame h.caller h.prev_le h.lt.le false
    rw [if_pos ⟨h.lt.ne, rfl⟩, ← hstage, Session.goto_stage] at hloop
    exact ⟨a, hloop, .inl rfl⟩
  | waitBody h hl =>
    have hgo := h.going (s := s.swappedBack (t.clk 0)) hback
    have hloop := hgo.refines_recvLoop_body (t := t) _ h.frame h.caller h.lt.le h.toRecv_le h.got_le
      (fun he => absurd he h.lt.ne) false false
    rw [if_pos ⟨h.lt.ne, rfl, rfl⟩, ← hstage, Session.goto_stage] at hloop
    exact ⟨a, hloop, .inl rfl⟩
  | waitSend h hl =>
    have hgo := h.going (s := s.swappedBack (t.clk 0)) hback
    have hpos := h.lt
    have hloop := hgo.refines_sendLoop h.frame h.caller h.lt.le (by omega) h.toSend_le h.keepAlive
      (fun he => absurd he h.lt.ne) false false
    rw [if_pos ⟨h.lt.ne, rfl, rfl⟩, ← hstage, Session.goto_stage] at hloop
    exact ⟨a, hloop, .inl rfl⟩
  | yieldChunk h =>
    rename_i y
    -- between a yield and the check behind it nothing else happens
    have hcheck : Stands P s.curr a.size (.check y) a.stage := by
      rw [hstage]
      exact .checkChunk h
    obtain ⟨a', ha, hr⟩ := refines_passYield (s := s.swappedBack (t.clk 0)) (t := t) hback hcheck
    exact ⟨a', hr, .inr ha⟩
  | yieldPacket h =>
    rename_i y
    have hcheck : Stands P s.curr a.size (.check y) a.stage := by
      rw [hstage]
      exact .checkPacket h
    obtain ⟨a', ha, hr⟩ := refines_passYield (s := s.swappedBack (t.clk 0)) (t := t) hback hcheck
    exact ⟨a', hr, .inr ha⟩
  | yieldAnswered h =>
    rename_i y
    have hcheck : Stands P s.curr a.size (.check y) a.stage := by
      rw [hstage]
      exact .checkAnswered h
    obtain ⟨a', ha, hr⟩ := refines_passYield (s := s.swappedBack (t.clk 0)) (t := t) hback hcheck
    exact ⟨a', hr, .inr ha⟩
  | recvFailed hk h =>
    rename_i f k
    refine ⟨_, ?_, .inr (by rw [Session.silent, hstage])⟩
    cases k with
    | hdr recvBufP nHave => exact refines_unwound hback h
    | body req recvBufP recvBufSize bodyLen gotLen toRecv =>
      -- `recv_buf` returned -1, which is never what was asked for
      have hne : (-1 : ℤ) ≠ toRecv := by
        have : 0 ≤ toRecv := hk
        omega
      simp only [recvReturned, recvHttpMsgChunk]
      rw [if_pos hne]
      exact refines_unwound (s := (s.swappedBack (t.clk 0)).destroy .request) { hback with }
        (ClosedAt.destroy h)
  | sendFailed hk h =>
    rename_i f k
    refine ⟨_, ?_, .inr (by rw [Session.silent, hstage])⟩
    have hne : (-1 : ℤ) ≠ k.toSend := by omega
    simp only [sendHttpMsgSent]
    rw [if_pos hne]
    unfold handleOneClientRequestSent
    rw [if_pos (Int.le_refl 0)]
    exact refines_unwound (s := (((s.swappedBack (t.clk 0)).destroy .text).destroy
      .response).destroy .request) { hback with } (h.destroy (s := s)).destroy.destroy
  | ended h =>
    refine ⟨a, ?_, .inl rfl⟩
    have hstands : Stands P s.curr a.size .ended .ended := .ended { h with }
    have hswap := hback.refines_swapToMainCtx rfl hstands
    rwa [← hstage, Session.goto_stage] at hswap
  -- at the other points the coroutine runs
  | recvHdr | recvBody | send | checkChunk | checkPacket | checkAnswered => cases hrun

/-- The step of the session that a step of the coroutine can be. -/
def Op.Emits : Op → Option Answer → Prop
  | .read r, l => ∃ b, l = some (.read r b)
  | .write r, l => ∃ b, l = some (.write r b)
  | .resume _, l | .check, l => l = none

/-- **One step of a coroutine**: it does nothing to the session, or is a step of it. -/
theorem refines_step {op : Op} (h : Refines P s a) (hs : s.step P t op = some s') :
    ∃ a', Refines P s' a' ∧
      ((a' = a ∧ op.Emits none) ∨ ∃ l, op.Emits l ∧ a.step P l = some a') := by
  cases op with
  | resume fcntlOk =>
    obtain ⟨hc, rfl⟩ := St.step_resume hs
    obtain ⟨ho, hrun, hr⟩ := (refines_main_iff hc).mp h
    obtain ⟨a', hr', ha⟩ := refines_resume (t := t) ho hrun hr
    exact ⟨a', hr', ha.imp (fun ha => ⟨ha, rfl⟩) fun ha => ⟨none, rfl, ha⟩⟩
  | read r =>
    obtain ⟨f, k, hc, hfits, rfl⟩ := St.step_read hs
    obtain ⟨-, hb, hst⟩ := (refines_coro_iff hc).mp h
    generalize hstage : a.stage = st at hst
    cases hst with
    | recvHdr hat =>
      have hto : f.toRecv = a.size - _ := congrArg RecvFrame.toRecv hat.frame
      refine ⟨_, refines_recvRead_hdr hb hat hstage hfits, .inr ⟨some (.read r false), ⟨_, rfl⟩, ?_⟩⟩
      simp only [Session.step, Session.visible, hstage]
      rw [if_pos (hto ▸ hfits)]
    | recvBody hat =>
      have hto : f.toRecv = _ - _ := congrArg RecvFrame.toRecv hat.frame
      obtain ⟨timedOut, hr⟩ := refines_recvRead_body (t := t) hb hat hstage hfits
      refine ⟨_, hr, .inr ⟨some (.read r timedOut), ⟨_, rfl⟩, ?_⟩⟩
      simp only [Session.step, Session.visible, hstage]
      rw [if_pos (hto ▸ hfits)]
  | write r =>
    obtain ⟨f, k, hc, hfits, rfl⟩ := St.step_write hs
    obtain ⟨-, hb, hst⟩ := (refines_coro_iff hc).mp h
    generalize hstage : a.stage = st at hst
    cases hst with
    | send hat =>
      have hto : f.toSend = _ - _ := congrArg SendFrame.toSend hat.frame
      obtain ⟨timedOut, hr⟩ := refines_sendWrite (t := t) hb hat hstage hfits
      refine ⟨_, hr, .inr ⟨some (.write r timedOut), ⟨_, rfl⟩, ?_⟩⟩
      simp only [Session.step, Session.visible, hstage]
      rw [if_pos (hto ▸ hfits)]
  | check =>
    obtain ⟨y, hc, hs'⟩ := St.step_check hs
    obtain ⟨-, hb, hst⟩ := (refines_coro_iff hc).mp h
    rcases hs' with rfl | rfl
    · refine ⟨a, ?_, .inl ⟨rfl, rfl⟩⟩
      have hstands : Stands P s.curr a.size (.yielded y) a.stage := by
        generalize a.stage = st at hst
        cases hst with
        | checkChunk h => exact .yieldChunk h
        | checkPacket h => exact .yieldPacket h
        | checkAnswered h => exact .yieldAnswered h
      have hswap := hb.refines_swapToMainCtx rfl hstands
      rwa [Session.goto_stage] at hswap
    · obtain ⟨a', ha, hr⟩ := refines_passYield (t := t) hb hst
      exact ⟨a', hr, .inr ⟨none, rfl, ha⟩⟩

end SrvAsync
