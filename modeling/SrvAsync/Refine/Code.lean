import Mathlib.Data.Int.Cast.Lemmas
import Mathlib.Tactic.NormNum.Basic
import SrvAsync.Refine.Defs

/-!
# A coroutine refines a session: the code

One lemma for each piece of code of a coroutine: started in a state that is a
session, it ends in a state that is what the session's function of the same name
makes of it.  `Going` is the state in the middle of a step; its lemmas say what
each primitive operation does to it.

## Main results

* `refines_recvHttpMsg` — `recv_http_msg` is `Session.ask`.
* `refines_handleOneClientRequestRecv` — the rest of
  `handle_one_client_request` is `Session.deliver`.
-/

namespace SrvAsync

open Http History

/-- The length of a reply at any date. -/
theorem length_serialize_eq (P : Platform) (a : Reply) (d : Date) :
    ((a.response P d).serialize P).length = a.size P := length_serialize_response P a d .blank

theorem Reply.size_pos (P : Platform) (a : Reply) : 0 < a.size P := length_serialize_pos P _

/-- `curr_conn_update_active` as one update. -/
theorem currConnUpdateActive_eq (s : St) (now : Time) : s.currConnUpdateActive now =
    { s with
      curr := { s.curr with lastActive := now, isActive := true }
      queue := { s.queue with
        activeConnCnt := s.queue.activeConnCnt + if s.curr.isActive then 0 else 1
        inactiveConnCnt := s.queue.inactiveConnCnt - if s.curr.isActive then 0 else 1 } } := by
  unfold St.currConnUpdateActive
  by_cases h : s.curr.isActive = true
  · simp [h]
  · simp [h]

/-- `curr_conn_set_inactive` as one update. -/
theorem currConnSetInactive_eq (s : St) : s.currConnSetInactive =
    { s with
      curr := { s.curr with isActive := false }
      queue := { s.queue with
        activeConnCnt := s.queue.activeConnCnt - if s.curr.isActive then 1 else 0
        inactiveConnCnt := s.queue.inactiveConnCnt + if s.curr.isActive then 1 else 0 } } := by
  unfold St.currConnSetInactive
  rcases s with ⟨g, c⟩
  by_cases h : c.isActive = true
  · simp [h]
  · rw [if_neg h]
    rw [Bool.not_eq_true] at h
    simp only [h, Bool.false_eq_true, if_false, Int.sub_zero, Int.add_zero]
    rw [← h]

variable {P : Platform} {s : St} {a : Session} {t : Tick} {objs : List Obj} {q q' : Talk}

/-! ### In the middle of a step -/

/-- The coroutine executes on an open connection, with these objects alive and the
conversation at `q`. -/
structure Going (P : Platform) (s : St) (a : Session) (objs : List Obj) (q : Talk) : Prop
    extends Base P s.curr (s.mem s.curr.recvBufP) a where
  opened : s.curr.isCompleted = false
  live : s.curr.live = objs
  dialogue : Dialogue P s.curr.hist q

namespace Going

/-- Something happens. -/
theorem log {e : Event} {n : Note} (h : Going P s a objs q) (hs : Shows P e n)
    (hn : q.Next P e q') : Going P (s.log e) (a.note n) objs q' :=
  { h with
    hist := List.rel_append h.hist (.cons hs .nil)
    dialogue := h.dialogue.concat hn }

theorem create (h : Going P s a objs q) (o : Obj) : Going P (s.create o) a (o :: objs) q :=
  { h with live := congrArg (o :: ·) h.live }

theorem destroy {o : Obj} (h : Going P s a (o :: objs) q) : Going P (s.destroy o) a objs q :=
  { h with
    live := by
      change s.curr.live.erase o = objs
      rw [h.live, List.erase_cons_head] }

theorem updateActive (h : Going P s a objs q) (now : Time) :
    Going P (s.currConnUpdateActive now) a objs q := by
  rw [currConnUpdateActive_eq]
  exact { h with }

theorem setInactive (h : Going P s a objs q) : Going P s.currConnSetInactive a objs q := by
  rw [currConnSetInactive_eq]
  exact { h with }

theorem startOp (h : Going P s a objs q) (now : Time) :
    Going P (s.currConnStartOp now) a objs q := { h with }

/-- The cursors are written back. -/
theorem setCursors (h : Going P s a objs q) {n m : ℕ} (hmn : m ≤ n) (hn : n ≤ a.size) :
    Going P (s.setCursors n m) { a with have_ := n, curr := m } objs q :=
  { h with have_ := rfl, curr := rfl, curr_le := hmn, have_le := hn }

/-- Bytes are written to the receive buffer. -/
theorem poke (h : Going P s a objs q) (n : ℕ) (bs : Bytes) :
    Going P (s.poke s.curr.recvBufP n bs) { a with buf := Memory.store a.buf n bs } objs q :=
  { h with
    buf := by
      change Function.update s.mem s.curr.recvBufP _ s.curr.recvBufP = _
      rw [Function.update_self, h.buf, Int.toNat_natCast]
      rfl }

/-- A view of the receive buffer is a window of it. -/
theorem view_eq (h : Going P s a objs q) (off len : ℕ) :
    s.view s.curr.recvBufP off len = Memory.window a.buf off len := by
  unfold St.view
  rw [h.buf, Int.toNat_natCast, Int.toNat_natCast]

end Going

/-! ### The end of a step -/

/-- Saving the context keeps everything else. -/
theorem Stands.save {c : Conn} {size : ℕ} {p : Point} {st : Stage} (x : Coro)
    (h : Stands P c size p st) : Stands P { c with connCtx := x } size p st := by
  cases h with
  | start hc ha hl hd => exact .start hc ha hl hd
  | recvHdr h => exact .recvHdr { h with }
  | waitHdr h hl => exact .waitHdr { h with } hl
  | recvBody h => exact .recvBody { h with }
  | waitBody h hl => exact .waitBody { h with } hl
  | checkChunk h => exact .checkChunk { h with }
  | yieldChunk h => exact .yieldChunk { h with }
  | send h => exact .send { h with }
  | waitSend h hl => exact .waitSend { h with } hl
  | checkPacket h => exact .checkPacket { h with }
  | yieldPacket h => exact .yieldPacket { h with }
  | checkAnswered h => exact .checkAnswered { h with }
  | yieldAnswered h => exact .yieldAnswered { h with }
  | recvFailed hk h => exact .recvFailed hk { h with }
  | sendFailed hk h => exact .sendFailed hk { h with }
  | ended h => exact .ended { h with }

theorem Going.refines_goto {p : Point} {st : Stage} (h : Going P s a objs q)
    (hp : p.running = true) (hst : Stands P s.curr a.size p st) :
    Refines P (s.goto p) (a.goto st) :=
  ⟨hp, { h with stands := hst }⟩

theorem Base.refines_swapToMainCtx {p : Point} {st : Stage}
    (h : Base P s.curr (s.mem s.curr.recvBufP) a) (hp : p.running = false)
    (hst : Stands P s.curr a.size p st) : Refines P (s.swapToMainCtx p) (a.goto st) :=
  ⟨rfl, hp, { h with stands := hst.save _ }⟩

theorem Going.refines_die (h : Going P s a objs q) (hq : q ≠ .idle) {d : Death} (hd : d ≠ .exit) :
    Refines P (s.die d) (a.goto (.dead d)) := by
  refine ⟨⟨q, h.dialogue, hq⟩, ?_⟩
  cases d with
  | exit => exact absurd rfl hd
  | segv => exact ⟨rfl, h.hist⟩
  | terminate => exact ⟨rfl, h.hist⟩

/-! ### The end of a request -/

/-- The connection is closed, by the coroutine or before. -/
theorem Going.close (h : Going P s a objs q) (hn : ∀ file, q.Next P (.close file) .over) :
    Base P s.currConnClose.curr (s.currConnClose.mem s.currConnClose.curr.recvBufP) (a.note .close) ∧
      ClosedAt P s.currConnClose.curr objs := by
  unfold St.currConnClose
  rw [if_neg (by rw [h.opened]; simp)]
  have hlog := h.log (.close (s.fds s.curr.connSock)) (hn _)
  exact ⟨{ hlog with }, ⟨rfl, hlog.live, hlog.dialogue⟩⟩

theorem refines_handleOneConnectionEnd (h : Going P s a [] .over) :
    Refines P (handleOneConnectionEnd s) ((a.note .close).goto .ended) := by
  obtain ⟨hb, hc⟩ := h.close fun file => .closed file
  exact hb.refines_swapToMainCtx rfl (.ended hc)

theorem refines_handleOneClientRequestNull (h : Going P s a [] .reading) :
    Refines P (handleOneClientRequestNull s) a.stop :=
  refines_handleOneConnectionEnd (h.log (.returned false) .nothing)

theorem refines_clientRequestReturned {resp sent}
    (h : Going P s a [.response, .request] (.replying resp sent))
    (hl : sent = resp.serialize P → ¬ resp.KeepsAlive) :
    Refines P (handleOneConnectionEnd (clientRequestReturned s false)) a.stop :=
  refines_handleOneConnectionEnd (h.destroy.destroy.log (.returned false) (.last hl))

/-! ### Sending a response -/

section

variable {req : HttpRequestMsg} {reply : Reply} {d : Date} {curr toSend n : ℕ}

/-- The whole response was sent. -/
theorem refines_handleOneClientRequestSent
    (h : Going P s a [.text, .response, .request]
      (.replying (reply.response P d) ((reply.response P d).serialize P)))
    (hact : s.curr.isActive = true) (hk : req.wantKeepAlive = some reply.keepAlive) :
    Refines P
      (handleOneClientRequestSent (s.destroy .text) req (reply.response P d)
        ((reply.response P d).serialize P).length)
      (if reply.keepAlive then a.goto (.answered req reply) else a.stop) := by
  have hpos := length_serialize_pos P (reply.response P d)
  unfold handleOneClientRequestSent
  rw [if_neg (by omega), hk]
  by_cases hka : reply.keepAlive = true
  · rw [if_pos hka, hka]
    refine h.destroy.refines_goto rfl (.checkAnswered ⟨rfl, ?_, h.opened, hact, h.destroy.live, h.dialogue⟩)
    exact (keepsAlive_response_iff P reply d).mpr hka
  · rw [if_neg hka, Bool.eq_false_iff.mpr hka]
    refine refines_clientRequestReturned h.destroy fun _ hc => hka ?_
    exact (keepsAlive_response_iff P reply d).mp hc

/-- A send operation is over. -/
theorem refines_sendHttpMsgSent
    (h : Going P s a [.text, .response, .request]
      (.replying (reply.response P d) (((reply.response P d).serialize P).take (curr + n))))
    (hn : n ≤ toSend) (hto : 0 < toSend) (hle : curr + toSend ≤ reply.size P)
    (hact : n = toSend → s.curr.isActive = true) (hk : req.wantKeepAlive = some reply.keepAlive) :
    Refines P
      (sendHttpMsgSent ⟨req, reply.response P d, (reply.response P d).serialize P, curr, toSend⟩ s n)
      (a.sent req reply curr toSend n) := by
  unfold sendHttpMsgSent Session.sent
  by_cases he : n = toSend
  · subst he
    rw [if_neg (by simp), if_neg (by simp)]
    refine h.refines_goto rfl (.checkPacket ⟨?_, hle, hk, h.opened, hact rfl, h.live, h.dialogue⟩)
    simp
  · rw [if_pos (show ((n : ℕ) : ℤ) ≠ toSend by exact_mod_cast he), if_pos he]
    refine refines_clientRequestReturned h.destroy fun hs => absurd (congrArg List.length hs) ?_
    rw [List.length_take, length_serialize_eq]
    omega

/-- A send operation starts. -/
theorem refines_sendHttpMsgLoop
    (h : Going P s a [.text, .response, .request]
      (.replying (reply.response P d) (((reply.response P d).serialize P).take curr)))
    (hlt : curr < reply.size P) (hk : req.wantKeepAlive = some reply.keepAlive) :
    Refines P
      (sendHttpMsgLoop s t req (reply.response P d) ((reply.response P d).serialize P) curr)
      (a.goto (.send req reply curr (min 8192 (reply.size P - curr)) 0)) := by
  have hlen := length_serialize_eq P reply d
  have hto : min sendPacketSize (((reply.response P d).serialize P).length - (curr : ℤ))
      = (min 8192 (reply.size P - curr) : ℕ) := by
    unfold sendPacketSize
    omega
  have hne : ((min 8192 (reply.size P - curr) : ℕ) : ℤ) ≠ 0 := by omega
  unfold sendHttpMsgLoop
  rw [if_pos (by omega)]
  simp only [hto]
  unfold sendToCurrConn sendLoop
  rw [if_pos ⟨hne, rfl, rfl⟩]
  have hgo := (h.updateActive (t.clk 2)).startOp (t.clk 3)
  refine hgo.refines_goto rfl (.send ⟨?_, rfl, by omega, by omega, hk, hgo.opened, hgo.live, hgo.dialogue⟩)
  simp

/-- `recv_http_msg` returned a request. -/
theorem refines_handleOneClientRequestRecv (h : Going P s a [.request] .reading) :
    Refines P (handleOneClientRequestRecv P s t req) (a.deliver P req) := by
  have hreq := h.log (.request req) (.request req)
  unfold handleOneClientRequestRecv Session.deliver
  simp only [makeResponse_eq]
  cases hk : req.wantKeepAlive with
  | none => exact hreq.refines_die Talk.noConfusion Death.noConfusion
  | some k =>
    have hresp : Responds P req ((replyTo P req k).response P t.date) :=
      ⟨t.date, by rw [makeResponse_eq, hk]; rfl⟩
    have hgo := ((hreq.create .response).log (.response (replyTo P req k) t.date)
      (.response hresp)).create .text
    rw [← keepAlive_replyTo P req k] at hk
    have hpos : 0 < (replyTo P req k).size P := Reply.size_pos P _
    exact refines_sendHttpMsgLoop hgo hpos hk

end

/-! ### Receiving a request -/

section

variable {req : HttpRequestMsg} {bodyLen gotLen toRecv prev n : ℕ}

/-- A receive operation for a chunk of a body is over. -/
theorem refines_recvHttpMsgChunk (h : Going P s a [.request] .reading)
    (hle : gotLen + toRecv ≤ bodyLen) (hact : n = toRecv → s.curr.isActive = true) :
    Refines P (recvHttpMsgChunk req s.curr.recvBufP a.size bodyLen gotLen toRecv s n)
      (a.bodyReceived req bodyLen gotLen toRecv n) := by
  unfold recvHttpMsgChunk Session.bodyReceived
  by_cases he : n = toRecv
  · subst he
    rw [if_neg (by simp), if_neg (by simp)]
    refine h.refines_goto rfl (.checkChunk ⟨?_, hle, h.opened, hact rfl, h.live, h.dialogue⟩)
    have := h.view_eq 0 n
    simp only [Nat.cast_zero] at this
    rw [this]
    simp
  · rw [if_pos (by exact_mod_cast he), if_pos he]
    exact refines_handleOneClientRequestNull h.destroy

/-- The body loop. -/
theorem refines_recvHttpMsgBody (h : Going P s a [.request] .reading) (hle : gotLen ≤ bodyLen) :
    Refines P (recvHttpMsgBody P s t req s.curr.recvBufP a.size bodyLen gotLen)
      (a.bodyLoop P req bodyLen gotLen) := by
  unfold recvHttpMsgBody Session.bodyLoop
  by_cases hlt : gotLen < bodyLen
  · have hpos := h.size_pos
    have hto : min ((bodyLen : ℤ) - gotLen) a.size = (min (bodyLen - gotLen) a.size : ℕ) := by
      omega
    have hne : ((min (bodyLen - gotLen) a.size : ℕ) : ℤ) ≠ 0 := by omega
    rw [if_pos (by omega), if_pos hlt]
    simp only [hto]
    unfold recvFromCurrConn recvLoop
    rw [if_pos ⟨hne, rfl, rfl⟩]
    have hgo := (h.updateActive (t.clk 2)).startOp (t.clk 3)
    have hp : ((s.currConnUpdateActive (t.clk 2)).currConnStartOp (t.clk 3)).curr.recvBufP
        = s.curr.recvBufP := by rw [currConnUpdateActive_eq]; rfl
    refine hgo.refines_goto rfl (.recvBody ⟨?_, ?_, by omega, by omega, by omega, hgo.opened,
      hgo.live, hgo.dialogue⟩)
    · rw [hp]; simp
    · rw [hp]
  · rw [if_neg (by omega), if_neg hlt]
    exact refines_handleOneClientRequestRecv h

/-- The body starts with what is in the buffer. -/
theorem refines_recvHttpMsgHave (h : Going P s a [.request] .reading) :
    Refines P (recvHttpMsgHave P s t req) (a.bodyHave P req) := by
  unfold recvHttpMsgHave Session.bodyHave
  simp only
  cases (req.getHeaderValue (ascii "Content-Length")).asSizeT with
  -- `AsSizeT` throws on a header that is no number, and nobody catches
  | none => exact h.refines_die Talk.noConfusion Death.noConfusion
  | some bodyLen =>
    have hle := h.curr_le
    have hle' := h.have_le
    have hgot : min (s.curr.recvBufHave - s.curr.recvBufCurr) (bodyLen : ℤ)
        = (min (a.have_ - a.curr) bodyLen : ℕ) := by
      rw [h.have_, h.curr]
      omega
    simp only [hgot]
    rw [h.have_, h.curr, h.view_eq]
    -- the buffer is used up, so the cursors go back to its beginning, or a next request is behind
    by_cases he : a.curr + min (a.have_ - a.curr) bodyLen = a.have_
    · rw [if_pos (by exact_mod_cast he), if_pos he]
      have hgo := h.setCursors (n := 0) (m := 0) le_rfl (Nat.zero_le _)
      have hsz : (s.setCursors (0 : ℕ) (0 : ℕ)).curr.recvBufSize = a.size := h.size
      simp only [Nat.cast_zero] at hgo hsz
      rw [hsz]
      exact refines_recvHttpMsgBody hgo (by omega)
    · rw [if_neg (by exact_mod_cast he), if_neg he]
      have hgo := h.setCursors (n := a.have_) (m := a.curr + min (a.have_ - a.curr) bodyLen)
        (by omega) hle'
      have hsz : (s.setCursors a.have_ (a.curr + min (a.have_ - a.curr) bodyLen : ℕ)).curr.recvBufSize
        = a.size := h.size
      rw [Nat.cast_add] at hgo hsz
      rw [hsz]
      exact refines_recvHttpMsgBody hgo (by omega)

/-- A header section was received. -/
theorem refines_recvHttpMsgHdr {hdr : Bytes} (h : Going P s a [] .reading) (hne : hdr ≠ []) :
    Refines P (recvHttpMsgHdr P s t hdr) (a.hdrGot P hdr) := by
  unfold recvHttpMsgHdr Session.hdrGot
  rw [if_neg (by simpa using hne)]
  have hgo := h.create .request
  simp only
  split
  · exact refines_recvHttpMsgHave hgo
  · exact refines_handleOneClientRequestRecv hgo

/-- No header section was received. -/
theorem refines_recvHttpMsgHdr_nil (h : Going P s a [] .reading) :
    Refines P (recvHttpMsgHdr P s t []) a.stop := refines_handleOneClientRequestNull h

/-- A receive operation for a header section is over. -/
theorem refines_recvHttpHdrRecv (h : Going P s a [] .reading) (hpn : prev ≤ n) (hn : n ≤ a.size) :
    Refines P (recvHttpHdrRecv P t s.curr.recvBufP prev s (n - prev : ℕ))
      (a.hdrReceived P prev n) := by
  unfold recvHttpHdrRecv Session.hdrReceived
  by_cases he : n = prev
  · rw [if_pos (by omega), if_pos he]
    exact refines_recvHttpMsgHdr_nil h
  · rw [if_neg (by omega), if_neg he]
    unfold recvHttpHdrEnd
    have hsum : (prev : ℤ) + (n - prev : ℕ) = n := by omega
    have hview := h.view_eq 0 n
    rw [Nat.cast_zero] at hview
    simp only [hsum, if_true, sub_zero, hview, zero_add]
    have hh := findHttpHeadersEnd_le (Memory.window a.buf 0 n)
    rw [Memory.length_window] at hh
    have hgo := h.setCursors hh hn
    -- the header section is cut off at its end, when there is one
    by_cases h0 : findHttpHeadersEnd (Memory.window a.buf 0 n) = 0
    · rw [if_neg (by simp [h0]), if_pos h0]
      exact refines_recvHttpMsgHdr_nil hgo
    · have hview' := h.view_eq 0 (findHttpHeadersEnd (Memory.window a.buf 0 n))
      rw [Nat.cast_zero] at hview'
      rw [if_pos (by exact_mod_cast h0), if_neg h0, hview']
      refine refines_recvHttpMsgHdr hgo ?_
      simpa [Memory.window_eq_nil_iff] using h0

/-- **`recv_http_msg` asks for a request.** -/
theorem refines_recvHttpMsg (h : Going P s a [] q) (hn : q.Next P .call .reading) :
    Refines P (recvHttpMsg P s t) (a.ask P) := by
  have hcall := h.log .call hn
  unfold recvHttpMsg recvHttpHdr Session.ask
  simp only
  generalize s.log .call = s at hcall
  generalize a.note .call = a at hcall
  have hle := hcall.curr_le
  have hle' := hcall.have_le
  rw [hcall.have_, hcall.curr, hcall.size]
  have hsub : (a.have_ : ℤ) - a.curr = (a.have_ - a.curr : ℕ) := by omega
  -- is there something unread in the buffer?
  by_cases he : a.curr = a.have_
  · rw [if_neg (not_not_intro (by exact_mod_cast he)), if_neg (not_not_intro he)]
    unfold recvFromCurrConn recvLoop
    have hpos := hcall.size_pos
    rw [if_pos ⟨by simp; omega, rfl, rfl⟩]
    have hgo := (hcall.updateActive (t.clk 2)).startOp (t.clk 3)
    have hp : ((s.currConnUpdateActive (t.clk 2)).currConnStartOp (t.clk 3)).curr.recvBufP
        = s.curr.recvBufP := by rw [currConnUpdateActive_eq]; rfl
    refine hgo.refines_goto rfl (.recvHdr ⟨?_, ?_, le_rfl, hpos, hgo.opened, hgo.live,
      hgo.dialogue⟩)
    · rw [hp]; simp
    · rw [hp]; rfl
  · rw [if_pos (by exact_mod_cast he), if_pos he, hsub, hcall.view_eq]
    have hh := findHttpHeadersEnd_le (Memory.window a.buf a.curr (a.have_ - a.curr))
    rw [Memory.length_window] at hh
    by_cases h0 : findHttpHeadersEnd (Memory.window a.buf a.curr (a.have_ - a.curr)) = 0
    · rw [if_pos (by exact_mod_cast h0), if_pos h0]
      -- it is no whole header section: `memmove` to the beginning
      have hpoke := hcall.poke 0 (Memory.window a.buf a.curr (a.have_ - a.curr))
      rw [Nat.cast_zero] at hpoke
      unfold recvFromCurrConn recvLoop
      have hgo := (hpoke.updateActive (t.clk 2)).startOp (t.clk 3)
      have hp : (((s.poke s.curr.recvBufP 0 (Memory.window a.buf a.curr
          (a.have_ - a.curr))).currConnUpdateActive (t.clk 2)).currConnStartOp
            (t.clk 3)).curr.recvBufP = s.curr.recvBufP := by rw [currConnUpdateActive_eq]; rfl
      -- the `while` of `recv_buf` is not entered when the buffer is full
      by_cases hfull : a.have_ - a.curr = a.size
      · rw [if_neg (by simp; omega), if_pos hfull]
        unfold recvHttpHdrRecv
        rw [if_pos (by simp)]
        exact refines_recvHttpMsgHdr_nil hgo
      · rw [if_pos ⟨by simp; omega, rfl, rfl⟩, if_neg hfull]
        refine hgo.refines_goto rfl (.recvHdr ⟨?_, ?_, le_rfl, ?_, hgo.opened, hgo.live,
          hgo.dialogue⟩)
        · rw [hp]
        · rw [hp]
        · change a.have_ - a.curr < a.size
          omega
    · rw [if_neg (by exact_mod_cast h0), if_neg h0]
      unfold recvHttpHdrEnd
      simp only [ne_eq, Nat.cast_eq_zero, h0, not_false_eq_true, if_true, if_false,
        hcall.view_eq]
      have hgo := hcall.setCursors (n := a.have_)
        (m := a.curr + findHttpHeadersEnd (Memory.window a.buf a.curr (a.have_ - a.curr)))
        (by omega) hle'
      rw [Nat.cast_add] at hgo
      refine refines_recvHttpMsgHdr hgo ?_
      simpa [Memory.window_eq_nil_iff] using h0

end

end SrvAsync
