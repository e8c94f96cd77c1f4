import SrvAsync.Base.Runs
import SrvAsync.Conn.History
import SrvAsync.Http.SendRecv

/-!
# One connection on its own

The model of a single connection that the worker is compared with: no pointers,
no clock, no scheduling.  A session is the receive buffer with natural-number
cursors, the stage the conversation has reached, and the notes taken so far.

Its steps are what the socket answers (`Answer`, with the outcome of the
operation timeout as a flag) and silent steps, which pass a place where the
coroutine may yield.  A stage has either silent or visible steps, so the visible
ones determine the run up to silent steps.

The responses in a session carry no date: a `Reply` is everything else.

## Main definitions

* `Session`, `Stage`, `Note`, `Answer`.
* `Session.step` — a silent step, or an answer of the socket.
* `Session.fresh` — a session on a newly allocated context.

## Main results

* `sees_step` — what a step keeps.
* `silent_eq_none` — a stage has either silent or visible steps.
-/

namespace SrvAsync

open Http

/-- How far the conversation on a connection is. -/
inductive Stage
  /-- No request was asked for yet. -/
  | idle
  /-- A header section is received: the `n` bytes at the front of the buffer, of
  which `prev` were left over from before. -/
  | hdr (prev n : ℕ)
  /-- A chunk of `toRecv` bytes of a body is received: `n` of them are there. -/
  | body (req : HttpRequestMsg) (bodyLen gotLen toRecv n : ℕ)
  /-- A chunk was added to the body. -/
  | chunk (req : HttpRequestMsg) (bodyLen gotLen : ℕ)
  /-- A packet of `toSend` bytes of the response is sent: `n` of them are accepted. -/
  | send (req : HttpRequestMsg) (reply : Reply) (curr toSend n : ℕ)
  /-- A packet was sent. -/
  | packet (req : HttpRequestMsg) (reply : Reply) (curr : ℕ)
  /-- The response was sent, and the connection stays. -/
  | answered (req : HttpRequestMsg) (reply : Reply)
  /-- A hard error closed the connection. -/
  | failed
  /-- The connection was closed in good order. -/
  | ended
  /-- The process died. -/
  | dead (d : Death)

/-- An event of a session. -/
inductive Note
  | call
  | read (r : ReadResult) (timedOut : Bool)
  | request (r : HttpRequestMsg)
  | response (a : Reply)
  | write (r : WriteResult) (timedOut : Bool)
  | returned (more : Bool)
  | close

/-- The answer of the socket a note is about. -/
def Note.answer : Note → Option Answer
  | .read r timedOut => some (.read r timedOut)
  | .write r timedOut => some (.write r timedOut)
  | _ => none

/-- A connection on its own. -/
structure Session where
  /-- The size of the receive buffer. -/
  size : ℕ
  /-- The receive buffer, with the bytes of earlier use. -/
  buf : ℕ → Byte
  /-- `recv_buf_have`. -/
  have_ : ℕ
  /-- `recv_buf_curr`. -/
  curr : ℕ
  stage : Stage
  notes : List Note

/-- The length of a serialized reply. -/
def Http.Reply.size (P : Platform) (a : Reply) : ℕ := ((a.response P .blank).serialize P).length

namespace Session

/-- Take a note. -/
def note (a : Session) (e : Note) : Session := { a with notes := a.notes ++ [e] }

/-- Go to a stage. -/
def goto (a : Session) (st : Stage) : Session := { a with stage := st }

/-- The connection is closed in good order. -/
def stop (a : Session) : Session := ((a.note (.returned false)).note .close).goto .ended

/-- The connection is closed after a hard error. -/
def fail (a : Session) : Session := (a.note .close).goto .failed

section

variable (P : Platform)

/-- A request was received: the response is made, and its first packet sent. -/
def deliver (a : Session) (req : HttpRequestMsg) : Session :=
  let a := a.note (.request req)
  match req.wantKeepAlive with
  | none => a.goto (.dead .terminate)
  | some k =>
    let reply := replyTo P req k
    (a.note (.response reply)).goto (.send req reply 0 (min 8192 (reply.size P)) 0)

/-- The body loop at its test. -/
def bodyLoop (a : Session) (req : HttpRequestMsg) (bodyLen gotLen : ℕ) : Session :=
  if gotLen < bodyLen then a.goto (.body req bodyLen gotLen (min (bodyLen - gotLen) a.size) 0)
  else a.deliver P req

/-- The part of the body that is in the buffer. -/
def bodyHave (a : Session) (req : HttpRequestMsg) : Session :=
  match (req.getHeaderValue (ascii "Content-Length")).asSizeT with
  | none => a.goto (.dead .terminate)
  | some bodyLen =>
    let gotLen := min (a.have_ - a.curr) bodyLen
    let req := req.appendBody (Memory.window a.buf a.curr gotLen)
    let a := if a.curr + gotLen = a.have_ then { a with have_ := 0, curr := 0 }
      else { a with curr := a.curr + gotLen }
    a.bodyLoop P req bodyLen gotLen

/-- A header section was received. -/
def hdrGot (a : Session) (hdr : Bytes) : Session :=
  if wantsBody hdr then a.bodyHave P (ofHeader hdr) else a.deliver P (ofHeader hdr)

/-- The end of a receive operation for a header section. -/
def hdrReceived (a : Session) (prev n : ℕ) : Session :=
  if n = prev then a.stop
  else
    let h := findHttpHeadersEnd (Memory.window a.buf 0 n)
    let a := { a with have_ := n, curr := h }
    if h = 0 then a.stop else a.hdrGot P (Memory.window a.buf 0 h)

/-- The next request is asked for. -/
def ask (a : Session) : Session :=
  let a := a.note .call
  if a.curr ≠ a.have_ then
    let rest := Memory.window a.buf a.curr (a.have_ - a.curr)
    let h := findHttpHeadersEnd rest
    if h = 0 then
      let a := { a with buf := Memory.store a.buf 0 rest }
      let n := a.have_ - a.curr
      if n = a.size then a.stop else a.goto (.hdr n n)
    else { a with curr := a.curr + h }.hdrGot P (Memory.window a.buf a.curr h)
  else a.goto (.hdr 0 0)

/-- The end of a receive operation for a chunk of a body. -/
def bodyReceived (a : Session) (req : HttpRequestMsg) (bodyLen gotLen toRecv n : ℕ) : Session :=
  if n ≠ toRecv then a.stop
  else a.goto (.chunk (req.appendBody (Memory.window a.buf 0 n)) bodyLen (gotLen + n))

/-- The end of a send operation. -/
def sent (a : Session) (req : HttpRequestMsg) (reply : Reply) (curr toSend n : ℕ) : Session :=
  if n ≠ toSend then a.stop else a.goto (.packet req reply (curr + toSend))

/-- A silent step: a place where the coroutine may yield is passed. -/
def silent (a : Session) : Option Session :=
  match a.stage with
  | .idle => some (a.ask P)
  | .chunk req bodyLen gotLen => some (a.bodyLoop P req bodyLen gotLen)
  | .packet req reply curr =>
    if curr < reply.size P then
      some (a.goto (.send req reply curr (min 8192 (reply.size P - curr)) 0))
    else if reply.keepAlive then some (a.goto (.answered req reply)) else some a.stop
  | .answered _ _ => some ((a.note (.returned true)).ask P)
  | .failed => some ((a.note (.returned false)).goto .ended)
  | _ => none

/-- Bytes for a header section arrive. -/
def hdrData (a : Session) (prev n : ℕ) (bs : Bytes) : Session :=
  let a := { a with buf := Memory.store a.buf n bs }
  match isHttpMessageEnd a.buf a.size n (n + bs.length) with
  | none => a.goto (.dead .segv)
  | some recvTerm =>
    if n + bs.length ≠ a.size ∧ recvTerm = false then a.goto (.hdr prev (n + bs.length))
    else a.hdrReceived P prev (n + bs.length)

/-- Bytes of a body arrive. -/
def bodyData (a : Session) (req : HttpRequestMsg) (bodyLen gotLen toRecv n : ℕ) (bs : Bytes)
    (timedOut : Bool) : Session :=
  let a := { a with buf := Memory.store a.buf n bs }
  if n + bs.length ≠ toRecv ∧ timedOut = false then
    a.goto (.body req bodyLen gotLen toRecv (n + bs.length))
  else a.bodyReceived req bodyLen gotLen toRecv (n + bs.length)

/-- `read` answers while a header section is received. -/
def hdrRead (a : Session) (prev n : ℕ) : ReadResult → Session
  | .again => a
  | .error => a.fail
  | .eof => a.hdrReceived P prev n
  | .data bs => a.hdrData P prev n bs

/-- `read` answers while a chunk of a body is received. -/
def bodyRead (a : Session) (req : HttpRequestMsg) (bodyLen gotLen toRecv n : ℕ)
    (timedOut : Bool) : ReadResult → Session
  | .again => a
  | .error => a.fail
  | .eof => a.bodyReceived req bodyLen gotLen toRecv n
  | .data bs => a.bodyData req bodyLen gotLen toRecv n bs timedOut

/-- `write` answers while a packet is sent. -/
def sendWrote (a : Session) (req : HttpRequestMsg) (reply : Reply) (curr toSend n : ℕ)
    (timedOut : Bool) : WriteResult → Session
  | .again => a
  | .error => a.fail
  | .zero => a.sent req reply curr toSend n
  | .sent m =>
    if n + m ≠ toSend ∧ timedOut = false then a.goto (.send req reply curr toSend (n + m))
    else a.sent req reply curr toSend (n + m)

/-- The socket answers. -/
def visible (a : Session) : Answer → Option Session
  | .read r timedOut =>
    match a.stage with
    | .hdr prev n =>
      if r.Fits (a.size - n) then some ((a.note (.read r timedOut)).hdrRead P prev n r) else none
    | .body req bodyLen gotLen toRecv n =>
      if r.Fits (toRecv - n) then
        some ((a.note (.read r timedOut)).bodyRead req bodyLen gotLen toRecv n timedOut r)
      else none
    | _ => none
  | .write r timedOut =>
    match a.stage with
    | .send req reply curr toSend n =>
      if r.Fits (toSend - n) then
        some ((a.note (.write r timedOut)).sendWrote req reply curr toSend n timedOut r)
      else none
    | _ => none

/-- One step of a session: silent, or an answer of the socket. -/
def step (a : Session) : Option Answer → Option Session
  | none => a.silent P
  | some l => a.visible P l

end

/-! ### What a step of a session can be -/

section

variable (P : Platform)

/-- **What a silent step does.** -/
inductive Moves (a : Session) : Session → Prop
  | ask (he : a.stage = .idle) : Moves a (a.ask P)
  | chunk {req : HttpRequestMsg} {bodyLen gotLen : ℕ} (he : a.stage = .chunk req bodyLen gotLen) :
    Moves a (a.bodyLoop P req bodyLen gotLen)
  | packet {req : HttpRequestMsg} {reply : Reply} {curr : ℕ} (he : a.stage = .packet req reply curr)
    (hlt : curr < reply.size P) :
    Moves a (a.goto (.send req reply curr (min 8192 (reply.size P - curr)) 0))
  | answered {req : HttpRequestMsg} {reply : Reply} {curr : ℕ}
    (he : a.stage = .packet req reply curr) (hk : reply.keepAlive = true) :
    Moves a (a.goto (.answered req reply))
  | closed {req : HttpRequestMsg} {reply : Reply} {curr : ℕ} (he : a.stage = .packet req reply curr)
    (hk : reply.keepAlive = false) : Moves a a.stop
  | again {req : HttpRequestMsg} {reply : Reply} (he : a.stage = .answered req reply) :
    Moves a ((a.note (.returned true)).ask P)
  | failed (he : a.stage = .failed) : Moves a ((a.note (.returned false)).goto .ended)

/-- **What an answer of the socket does.** -/
inductive Hears (a : Session) : Answer → Session → Prop
  | hdr {prev n : ℕ} {r : ReadResult} {timedOut : Bool} (he : a.stage = .hdr prev n)
    (hfits : r.Fits (a.size - n)) :
    Hears a (.read r timedOut) ((a.note (.read r timedOut)).hdrRead P prev n r)
  | body {req : HttpRequestMsg} {bodyLen gotLen toRecv n : ℕ} {r : ReadResult} {timedOut : Bool}
    (he : a.stage = .body req bodyLen gotLen toRecv n) (hfits : r.Fits (toRecv - n)) :
    Hears a (.read r timedOut)
      ((a.note (.read r timedOut)).bodyRead req bodyLen gotLen toRecv n timedOut r)
  | send {req : HttpRequestMsg} {reply : Reply} {curr toSend n : ℕ} {r : WriteResult}
    {timedOut : Bool} (he : a.stage = .send req reply curr toSend n) (hfits : r.Fits (toSend - n)) :
    Hears a (.write r timedOut)
      ((a.note (.write r timedOut)).sendWrote req reply curr toSend n timedOut r)

variable {P} {a a' : Session}

theorem moves_of_silent (h : a.silent P = some a') : a.Moves P a' := by
  unfold silent at h
  split at h
  · next he => exact Option.some.inj h ▸ .ask he
  · next he => exact Option.some.inj h ▸ .chunk he
  · next he =>
    split at h
    · next hlt => exact Option.some.inj h ▸ .packet he hlt
    · split at h
      · next hk => exact Option.some.inj h ▸ .answered he hk
      · next hk => exact Option.some.inj h ▸ .closed he (Bool.eq_false_iff.mpr hk)
  · next he => exact Option.some.inj h ▸ .again he
  · next he => exact Option.some.inj h ▸ .failed he
  · cases h

theorem hears_of_visible {l : Answer} (h : a.visible P l = some a') : a.Hears P l a' := by
  unfold visible at h
  cases l with
  | read r timedOut =>
    simp only at h
    split at h
    · next he =>
      obtain ⟨hfits, h⟩ := Option.ite_none_right_eq_some.mp h
      exact Option.some.inj h ▸ .hdr he hfits
    · next he =>
      obtain ⟨hfits, h⟩ := Option.ite_none_right_eq_some.mp h
      exact Option.some.inj h ▸ .body he hfits
    · cases h
  | write r timedOut =>
    simp only at h
    split at h
    · next he =>
      obtain ⟨hfits, h⟩ := Option.ite_none_right_eq_some.mp h
      exact Option.some.inj h ▸ .send he hfits
    · cases h

end

/-- A session on a context with this buffer and these cursors. -/
def start (size : ℕ) (buf : ℕ → Byte) (have_ curr : ℕ) : Session :=
  ⟨size, buf, have_, curr, .idle, []⟩

/-- A session on a newly allocated context. -/
def fresh (size : ℕ) : Session := start size (fun _ => 0) 0 0

/-! ### What a step of a session keeps -/

/-- The answers of the socket that a session has seen. -/
def answers (a : Session) : List Answer := a.notes.filterMap Note.answer

theorem answers_note (a : Session) (e : Note) :
    (a.note e).answers = a.answers ++ e.answer.toList := by
  unfold answers note
  rw [List.filterMap_append]
  cases he : e.answer <;> simp [he]

/-- A session that has seen the same answers. -/
structure Same (a a' : Session) : Prop where
  size : a'.size = a.size
  answers : a'.answers = a.answers
  notes : a.notes <+: a'.notes

/-- A session that went on by itself, and not into a failure. -/
structure Onward (a a' : Session) : Prop extends Same a a' where
  stage : a'.stage ≠ .failed

section

variable {P : Platform} {a a' : Session}

namespace Same

theorem refl (a : Session) : Same a a := ⟨rfl, rfl, List.prefix_rfl⟩

theorem note (h : Same a a') {e : Note} (he : e.answer = none) : Same a (a'.note e) where
  size := h.size
  answers := by
    rw [answers_note, he, h.answers]
    exact List.append_nil _
  notes := h.notes.trans (List.prefix_append _ _)

theorem goto (h : Same a a') {st : Stage} (hst : st ≠ .failed) : Onward a (a'.goto st) :=
  ⟨⟨h.size, h.answers, h.notes⟩, hst⟩

theorem buf (h : Same a a') (b : ℕ → Byte) : Same a { a' with buf := b } :=
  ⟨h.size, h.answers, h.notes⟩

theorem cursors (h : Same a a') (n m : ℕ) : Same a { a' with have_ := n, curr := m } :=
  ⟨h.size, h.answers, h.notes⟩

theorem stop (h : Same a a') : Onward a a'.stop :=
  ((h.note rfl).note rfl).goto Stage.noConfusion

theorem deliver (h : Same a a') (req : HttpRequestMsg) : Onward a (a'.deliver P req) := by
  unfold Session.deliver
  have hreq := h.note (e := .request req) rfl
  simp only
  split
  · exact hreq.goto Stage.noConfusion
  · exact (hreq.note rfl).goto Stage.noConfusion

theorem bodyLoop (h : Same a a') (req : HttpRequestMsg) (bodyLen gotLen : ℕ) :
    Onward a (a'.bodyLoop P req bodyLen gotLen) := by
  unfold Session.bodyLoop
  split
  · exact h.goto Stage.noConfusion
  · exact h.deliver req

theorem hdrGot (h : Same a a') (hdr : Bytes) : Onward a (a'.hdrGot P hdr) := by
  unfold Session.hdrGot
  split
  · unfold bodyHave
    split
    · exact h.goto Stage.noConfusion
    · simp only
      split
      · exact (h.cursors 0 0).bodyLoop _ _ _
      · exact (h.cursors a'.have_ _).bodyLoop _ _ _
  · exact h.deliver _

theorem hdrReceived (h : Same a a') (prev n : ℕ) : Onward a (a'.hdrReceived P prev n) := by
  unfold Session.hdrReceived
  split
  · exact h.stop
  · simp only
    split
    · exact (h.cursors _ _).stop
    · exact (h.cursors _ _).hdrGot _

theorem ask (h : Same a a') : Onward a (a'.ask P) := by
  unfold Session.ask
  have hcall := h.note (e := .call) rfl
  simp only
  split
  · split
    · split
      · exact (hcall.buf _).stop
      · exact (hcall.buf _).goto Stage.noConfusion
    · exact (hcall.cursors (a'.note .call).have_ _).hdrGot _
  · exact hcall.goto Stage.noConfusion

theorem bodyReceived (h : Same a a') (req : HttpRequestMsg) (bodyLen gotLen toRecv n : ℕ) :
    Onward a (a'.bodyReceived req bodyLen gotLen toRecv n) := by
  unfold Session.bodyReceived
  split
  · exact h.stop
  · exact h.goto Stage.noConfusion

theorem sent (h : Same a a') (req : HttpRequestMsg) (reply : Reply) (curr toSend n : ℕ) :
    Onward a (a'.sent req reply curr toSend n) := by
  unfold Session.sent
  split
  · exact h.stop
  · exact h.goto Stage.noConfusion

end Same

/-- A silent step sees no answer. -/
theorem onward_silent (h : a.silent P = some a') : Onward a a' := by
  have hs := Same.refl a
  cases moves_of_silent h with
  | ask => exact hs.ask
  | chunk => exact hs.bodyLoop _ _ _
  | packet => exact hs.goto Stage.noConfusion
  | answered => exact hs.goto Stage.noConfusion
  | closed => exact hs.stop
  | again => exact (hs.note rfl).ask
  | failed => exact (hs.note rfl).goto Stage.noConfusion

/-- A session that has seen the same answers, and failed only after a hard error. -/
def Onto (a a' : Session) (l : Answer) : Prop := Same a a' ∧ (¬ l.HardError → a'.stage ≠ .failed)

theorem Onward.onto (h : Onward a a') (l : Answer) : Onto a a' l := ⟨h.toSame, fun _ => h.stage⟩

theorem onto_fail (a : Session) {l : Answer} (hl : l.HardError) : Onto a a.fail l :=
  ⟨⟨rfl, ((Same.refl a).note (e := .close) rfl).answers, List.prefix_append _ _⟩,
    fun he => absurd hl he⟩

/-- What the socket answers while a header section is received. -/
theorem onto_hdrRead (hst : a.stage ≠ .failed) (r : ReadResult) (timedOut : Bool) (prev n : ℕ) :
    Onto a (a.hdrRead P prev n r) (.read r timedOut) := by
  have hs := Same.refl a
  cases r with
  | again => exact ⟨hs, fun _ => hst⟩
  | error => exact onto_fail a rfl
  | eof => exact (hs.hdrReceived prev n).onto _
  | data bs =>
    unfold hdrRead hdrData
    simp only
    split
    · exact ((hs.buf _).goto Stage.noConfusion).onto _
    · split
      · exact ((hs.buf _).goto Stage.noConfusion).onto _
      · exact ((hs.buf _).hdrReceived _ _).onto _

/-- What the socket answers while a chunk of a body is received. -/
theorem onto_bodyRead (hst : a.stage ≠ .failed) (r : ReadResult) (timedOut : Bool)
    (req : HttpRequestMsg) (bodyLen gotLen toRecv n : ℕ) :
    Onto a (a.bodyRead req bodyLen gotLen toRecv n timedOut r) (.read r timedOut) := by
  have hs := Same.refl a
  cases r with
  | again => exact ⟨hs, fun _ => hst⟩
  | error => exact onto_fail a rfl
  | eof => exact (hs.bodyReceived _ _ _ _ _).onto _
  | data bs =>
    unfold bodyRead bodyData
    simp only
    split
    · exact ((hs.buf _).goto Stage.noConfusion).onto _
    · exact ((hs.buf _).bodyReceived _ _ _ _ _).onto _

/-- What the socket answers while a packet is sent. -/
theorem onto_sendWrote (hst : a.stage ≠ .failed) (r : WriteResult) (timedOut : Bool)
    (req : HttpRequestMsg) (reply : Reply) (curr toSend n : ℕ) :
    Onto a (a.sendWrote req reply curr toSend n timedOut r) (.write r timedOut) := by
  have hs := Same.refl a
  cases r with
  | again => exact ⟨hs, fun _ => hst⟩
  | error => exact onto_fail a rfl
  | zero => exact (hs.sent _ _ _ _ _).onto _
  | sent m =>
    unfold sendWrote
    simp only
    split
    · exact (hs.goto Stage.noConfusion).onto _
    · exact (hs.sent _ _ _ _ _).onto _

/-- What a step with the answers `ls` of the socket does. -/
structure Sees (a a' : Session) (ls : List Answer) : Prop where
  size : a'.size = a.size
  answers : a'.answers = a.answers ++ ls
  notes : a.notes <+: a'.notes
  stage : (∀ l ∈ ls, ¬ l.HardError) → a'.stage ≠ .failed

/-- **A visible step sees its answer.** -/
theorem sees_visible {l : Answer} (h : a.visible P l = some a') : Sees a a' [l] := by
  have hnote : ∀ {e : Note} {a' : Session}, e.answer = some l → Onto (a.note e) a' l →
      Sees a a' [l] := by
    intro e a' he ⟨hs, hst⟩
    refine ⟨hs.size, ?_, (List.prefix_append _ _).trans hs.notes,
      fun hl => hst (hl l (List.mem_singleton_self l))⟩
    rw [hs.answers, answers_note, he]
    rfl
  cases hears_of_visible h with
  | hdr he =>
    refine hnote rfl (onto_hdrRead ?_ _ _ _ _)
    exact fun hf => Stage.noConfusion (he.symm.trans hf)
  | body he =>
    refine hnote rfl (onto_bodyRead ?_ _ _ _ _ _ _ _)
    exact fun hf => Stage.noConfusion (he.symm.trans hf)
  | send he =>
    refine hnote rfl (onto_sendWrote ?_ _ _ _ _ _ _ _)
    exact fun hf => Stage.noConfusion (he.symm.trans hf)

/-- **A step sees its label.** -/
theorem sees_step {l : Option Answer} (h : a.step P l = some a') : Sees a a' l.toList := by
  cases l with
  | none =>
    have ho := onward_silent h
    exact ⟨ho.size, ho.answers.trans (List.append_nil _).symm, ho.notes, fun _ => ho.stage⟩
  | some l => exact sees_visible h

/-- A session that waits for its socket does not go on by itself. -/
theorem silent_eq_none {l : Answer} (h : a.visible P l = some a') : a.silent P = none := by
  unfold silent
  cases hears_of_visible h with
  | hdr he | body he | send he => rw [he]

end

end Session
end SrvAsync
