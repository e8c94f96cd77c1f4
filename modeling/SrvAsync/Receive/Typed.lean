import SrvAsync.Http.Received
import SrvAsync.Isolation
import SrvAsync.Receive.Expect

/-!
# No request ends the worker

The accessors of the header map throw `std::bad_variant_access` on a value of the other
type, nobody catches it, and the worker ends.  Every request a connection is at was made
of a header section by `recv_http_msg`, and on those the accessors are only used where
they are defined.

## Main definitions

* `Session.Typed` — every request of a session was received, and no accessor threw.

## Main results

* `lookups_agree` — **the three lookups of the method agree, and no exception ends the
  worker**.
-/

namespace SrvAsync

open Http History Machine Worker

variable {P : Platform}

/-! ### Sessions -/

/-- What a stage holds of a request was received. -/
def Stage.Typed : Stage → Prop
  | .body req _ _ _ _ | .chunk req _ _ => Received req
  | .dead d => d ≠ .terminate
  | _ => True

/-- Every request of a session was received, and no accessor threw. -/
structure Session.Typed (a : Session) : Prop where
  delivered : ∀ r ∈ a.delivered, Received r
  stage : a.stage.Typed

namespace Session

variable {a a' : Session}

theorem typed_start (size : ℕ) (buf : ℕ → Byte) (have_ curr : ℕ) :
    (Session.start size buf have_ curr).Typed :=
  ⟨fun _ hr => absurd hr List.not_mem_nil, trivial⟩

/-- The delivered requests of a session were received. -/
def AllReceived (a : Session) : Prop := ∀ r ∈ a.delivered, Received r

namespace AllReceived

theorem note (h : a.AllReceived) {e : Note} (he : ∀ r ∈ Note.requests [e], Received r) :
    (a.note e).AllReceived := by
  intro r hr
  rw [delivered_note] at hr
  rcases List.mem_append.mp hr with hr | hr
  · exact h r hr
  · exact he r hr

theorem buf (h : a.AllReceived) (b : ℕ → Byte) : AllReceived { a with buf := b } := h

theorem cursors (h : a.AllReceived) (n m : ℕ) : AllReceived { a with have_ := n, curr := m } := h

theorem goto (h : a.AllReceived) {st : Stage} (hst : st.Typed) : (a.goto st).Typed := ⟨h, hst⟩

theorem stop (h : a.AllReceived) : a.stop.Typed :=
  ((h.note (e := .returned false) (by simp [Note.requests])).note (e := .close)
    (by simp [Note.requests])).goto trivial

theorem fail (h : a.AllReceived) : a.fail.Typed :=
  (h.note (e := .close) (by simp [Note.requests])).goto trivial

/-- A request that was received is answered. -/
theorem deliver (h : a.AllReceived) {req : HttpRequestMsg} (hreq : Received req) :
    (a.deliver P req).Typed := by
  have hnote : (a.note (.request req)).AllReceived := by
    apply h.note
    intro r hr
    obtain rfl : r = req := by simpa [Note.requests] using hr
    exact hreq
  obtain ⟨k, hk⟩ := hreq.wantKeepAlive
  unfold Session.deliver
  simp only [hk]
  exact (hnote.note (e := .response _) (by simp [Note.requests])).goto trivial

theorem bodyLoop (h : a.AllReceived) {req : HttpRequestMsg} (hreq : Received req)
    (bodyLen gotLen : ℕ) : (a.bodyLoop P req bodyLen gotLen).Typed := by
  unfold Session.bodyLoop
  split
  · exact h.goto hreq
  · exact h.deliver hreq

/-- A header section was received; where a length is asked for, there is one. -/
theorem hdrGot (h : a.AllReceived) (hdr : Bytes) : (a.hdrGot P hdr).Typed := by
  have hreq := received_ofHeader hdr
  unfold Session.hdrGot
  split
  · next hbody =>
    have hok : (ofHeader hdr).isOk = true := by
      unfold wantsBody at hbody
      simp only [Bool.and_eq_true] at hbody
      exact hbody.1.2
    obtain ⟨n, -, hlen⟩ := (lookupsAgree_of_isOk hok).length hbody
    unfold Session.bodyHave
    rw [hlen]
    simp only [HeaderValue.asSizeT]
    split
    · exact (h.cursors 0 0).bodyLoop (hreq.appendBody _) _ _
    · exact (h.cursors a.have_ _).bodyLoop (hreq.appendBody _) _ _
  · exact h.deliver hreq

theorem hdrReceived (h : a.AllReceived) (prev n : ℕ) : (a.hdrReceived P prev n).Typed := by
  unfold Session.hdrReceived
  split
  · exact h.stop
  · simp only
    split
    · exact (h.cursors n _).stop
    · exact (h.cursors n _).hdrGot _

theorem ask (h : a.AllReceived) : (a.ask P).Typed := by
  have hcall : (a.note .call).AllReceived := h.note (by simp [Note.requests])
  unfold Session.ask
  simp only
  split
  · split
    · split
      · exact (hcall.buf _).stop
      · exact (hcall.buf _).goto trivial
    · exact (hcall.cursors (a.note .call).have_ _).hdrGot _
  · exact hcall.goto trivial

theorem bodyReceived (h : a.AllReceived) {req : HttpRequestMsg} (hreq : Received req)
    (bodyLen gotLen toRecv n : ℕ) : (a.bodyReceived req bodyLen gotLen toRecv n).Typed := by
  unfold Session.bodyReceived
  split
  · exact h.stop
  · exact h.goto (hreq.appendBody _)

theorem sent (h : a.AllReceived) (req : HttpRequestMsg) (reply : Reply) (curr toSend n : ℕ) :
    (a.sent req reply curr toSend n).Typed := by
  unfold Session.sent
  split
  · exact h.stop
  · exact h.goto trivial

/-- What `read` answers while a header section is received. -/
theorem hdrRead (h : a.AllReceived) (hst : a.stage.Typed) (prev n : ℕ) (r : ReadResult) :
    (a.hdrRead P prev n r).Typed := by
  cases r with
  | again => exact ⟨h, hst⟩
  | error => exact h.fail
  | eof => exact h.hdrReceived _ _
  | data bs =>
    unfold Session.hdrRead hdrData
    simp only
    split
    · exact (h.buf _).goto Death.noConfusion
    · split
      · exact (h.buf _).goto trivial
      · exact (h.buf _).hdrReceived _ _

/-- What `read` answers while a chunk of a body is received. -/
theorem bodyRead (h : a.AllReceived) (hst : a.stage.Typed) {req : HttpRequestMsg}
    (hreq : Received req) (bodyLen gotLen toRecv n : ℕ) (timedOut : Bool) (r : ReadResult) :
    (a.bodyRead req bodyLen gotLen toRecv n timedOut r).Typed := by
  cases r with
  | again => exact ⟨h, hst⟩
  | error => exact h.fail
  | eof => exact h.bodyReceived hreq _ _ _ _
  | data bs =>
    unfold Session.bodyRead bodyData
    simp only
    split
    · exact (h.buf _).goto hreq
    · exact (h.buf _).bodyReceived hreq _ _ _ _

/-- What `write` answers while a packet is sent. -/
theorem sendWrote (h : a.AllReceived) (hst : a.stage.Typed) (req : HttpRequestMsg) (reply : Reply)
    (curr toSend n : ℕ) (timedOut : Bool) (r : WriteResult) :
    (a.sendWrote req reply curr toSend n timedOut r).Typed := by
  cases r with
  | again => exact ⟨h, hst⟩
  | error => exact h.fail
  | zero => exact h.sent _ _ _ _ _
  | sent m =>
    unfold Session.sendWrote
    simp only
    split
    · exact h.goto trivial
    · exact h.sent _ _ _ _ _

end AllReceived

/-- A silent step. -/
theorem Typed.silent (h : a.Typed) (hs : a.silent P = some a') : a'.Typed := by
  have ha : a.AllReceived := h.delivered
  have hstage := h.stage
  cases moves_of_silent hs with
  | ask => exact ha.ask
  | chunk he =>
    rw [he] at hstage
    exact ha.bodyLoop hstage _ _
  | packet | answered => exact ha.goto trivial
  | closed => exact ha.stop
  | again =>
    have hnote : (a.note (.returned true)).AllReceived := ha.note (by simp [Note.requests])
    exact hnote.ask
  | failed =>
    have hnote : (a.note (.returned false)).AllReceived := ha.note (by simp [Note.requests])
    exact hnote.goto trivial

/-- An answer of the socket. -/
theorem Typed.visible (h : a.Typed) {l : Answer} (hs : a.visible P l = some a') : a'.Typed := by
  have hnote : ∀ {e : Note}, Note.requests [e] = [] → (a.note e).AllReceived := by
    intro e he
    apply AllReceived.note h.delivered
    simp [he]
  cases hears_of_visible hs with
  | hdr => exact (hnote rfl).hdrRead h.stage _ _ _
  | body he =>
    have hreq := h.stage
    rw [he] at hreq
    exact (hnote rfl).bodyRead h.stage hreq _ _ _ _ _ _
  | send => exact (hnote rfl).sendWrote h.stage _ _ _ _ _ _ _

/-- **One step keeps a session typed.** -/
theorem Typed.step (h : a.Typed) {l : Option Answer} (hs : a.step P l = some a') : a'.Typed := by
  cases l with
  | none => exact h.silent hs
  | some l => exact h.visible hs

/-- Every session a connection can have come to is typed. -/
theorem typed_reached {uses : ℕ} (h : Reached P uses a) : a.Typed := by
  obtain ⟨buf, have_, curr, ls, -, hr⟩ := h
  exact run_invariant (P := Session.Typed) (fun _ _ _ hb hs => hb.step hs) ls
    (typed_start _ buf have_ curr) hr

end Session

/-! ### Workers -/

/-- **No exception ends the worker.** -/
theorem ctl_ne_terminate {w : Worker} (h : Reachable P w) : w.ctl ≠ .dead .terminate := by
  intro hd
  rcases exit_or_resumed h hd with he | ⟨p, todo, hph⟩
  · cases he
  have hcon := (inv_of_carries starts_reached carries_reached h).control
  rw [hph] at hcon
  obtain ⟨-, -, -, -, -, -, a, ha, href⟩ := hcon
  obtain ⟨-, hstage, -⟩ := (refines_dead_iff hd).mp href
  have htyped := (Session.typed_reached ha).stage
  rw [hstage] at htyped
  exact htyped rfl

/-- **The three lookups of the method agree on every header section that is accepted**, and no
header value is ever asked for a type it does not have. -/
theorem lookups_agree (P : Platform) :
    (∀ hdr, (ofHeader hdr).isOk = true → LookupsAgree hdr) ∧
      ∀ w, Reachable P w → w.ctl ≠ .dead .terminate :=
  ⟨fun _ h => lookupsAgree_of_isOk h, fun _ h => ctl_ne_terminate h⟩

theorem lookups_agree_post :
    LookupsAgree (ascii "POST /a HTTP/1.1\r\nContent-Length: 5\r\ncoNNection: close\r\n\r\n") ∧
      ((script .plain oneContext closedScript).get closedScript_isSome).ctl ≠ .dead .terminate :=
  ⟨(lookups_agree .plain).1 _ (by decide +kernel),
    (lookups_agree .plain).2 _ (reachable_get _ closedScript_isSome)⟩

end SrvAsync
