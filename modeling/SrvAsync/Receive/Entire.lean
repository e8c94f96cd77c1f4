import SrvAsync.Http.Reorder
import SrvAsync.Isolation
import SrvAsync.Receive.Expect

/-!
# Every request is complete

Whatever an earlier connection left in a context, wherever the reads split the stream, and
however the connection ends: a request is handed over when its header section and its whole
body are there, and not before.

A property of the requests is carried through a session by a rule: it is built up from a
header section and the chunks of a body.

## Main definitions

* `HeaderSection` — a text that ends with its first empty line.
* `Builds D B` — `D` of the requests that are handed over is built up through `B` of those that
  are received.
* `Entire` — a request with its whole body.

## Main results

* `Builds.run`, `Builds.requests` — **the rule for the requests of a session, and of every
  connection**.
* `requests_bodyBytes` — the body of every request is as long as `bodyBytes` says.
* `request_entire` — **every request of every connection is complete**.
-/

namespace SrvAsync

open Http History Machine Memory Worker

/-- **A header section**: it ends with its first empty line. -/
def HeaderSection (hdr : Bytes) : Prop := hdr ≠ [] ∧ findHttpHeadersEnd hdr = hdr.length

/-- What is cut off at the first empty line is a header section. -/
theorem headerSection_take {W : Bytes} (h0 : findHttpHeadersEnd W ≠ 0) :
    HeaderSection (W.take (findHttpHeadersEnd W)) := by
  have hle := findHttpHeadersEnd_le W
  obtain ⟨pos, hpos⟩ := Option.ne_none_iff_exists'.mp (mt findHttpHeadersEnd_eq_zero_iff.mpr h0)
  have hfind : findHttpHeadersEnd W = pos + headersEnd.length := by
    unfold findHttpHeadersEnd
    rw [hpos]
  generalize findHttpHeadersEnd W = h at *
  have hlen : (W.take h).length = pos + headersEnd.length := by
    rw [List.length_take]
    omega
  refine ⟨List.ne_nil_of_length_pos (by omega), ?_⟩
  rw [← List.take_append_drop h W] at hpos
  unfold findHttpHeadersEnd
  rw [List.firstInfix?_shrink hpos hlen.ge]
  exact hlen.symm

theorem headerSection_window {m : ℕ → Byte} {off len : ℕ}
    (h0 : findHttpHeadersEnd (window m off len) ≠ 0) :
    HeaderSection (window m off (findHttpHeadersEnd (window m off len))) := by
  have hle : findHttpHeadersEnd (window m off len) ≤ len := by
    simpa using findHttpHeadersEnd_le (window m off len)
  rw [← take_window m off hle]
  exact headerSection_take h0

/-! ### A rule for the requests of a session -/

/-- **A property of requests that is built up as they are received**: `D` holds of those that are
handed over, and `B` of those of which a part of the body is there. -/
structure Builds (D : HttpRequestMsg → Prop) (B : HttpRequestMsg → ℕ → ℕ → Prop) : Prop where
  /-- No body is received. -/
  plain : ∀ hdr, HeaderSection hdr → wantsBody hdr = false → D (ofHeader hdr)
  /-- A body of this length is received. -/
  body : ∀ hdr n, HeaderSection hdr → wantsBody hdr = true →
    ((ofHeader hdr).getHeaderValue (ascii "Content-Length")).asSizeT = some n → B (ofHeader hdr) n 0
  /-- A chunk that is not longer than the rest of the body. -/
  append : ∀ req bodyLen gotLen bs, B req bodyLen gotLen → gotLen + bs.length ≤ bodyLen →
    B (req.appendBody bs) bodyLen (gotLen + bs.length)
  /-- The whole body is there. -/
  whole : ∀ req bodyLen, B req bodyLen bodyLen → D req

/-- What a stage holds of a request. -/
def Stage.Building (B : HttpRequestMsg → ℕ → ℕ → Prop) : Stage → Prop
  | .body req bodyLen gotLen toRecv _ => B req bodyLen gotLen ∧ gotLen + toRecv ≤ bodyLen
  | .chunk req bodyLen gotLen => B req bodyLen gotLen ∧ gotLen ≤ bodyLen
  | _ => True

/-- The requests a session delivered, and the one it receives. -/
structure Session.Built (D : HttpRequestMsg → Prop) (B : HttpRequestMsg → ℕ → ℕ → Prop)
    (a : Session) : Prop where
  delivered : ∀ r ∈ a.delivered, D r
  stage : a.stage.Building B

namespace Builds

variable {P : Platform} {D : HttpRequestMsg → Prop} {B : HttpRequestMsg → ℕ → ℕ → Prop}
  {a a' : Session} {req : HttpRequestMsg}

/-- A note that is no request. -/
theorem delivered_note {e : Note} (he : Note.requests [e] = []) (ha : ∀ r ∈ a.delivered, D r) :
    ∀ r ∈ (a.note e).delivered, D r := by
  rw [Session.delivered_note, he, List.append_nil]
  exact ha

/-- The session is closed in good order. -/
theorem stop (ha : ∀ r ∈ a.delivered, D r) : a.stop.Built D B :=
  ⟨delivered_note rfl (delivered_note rfl ha), trivial⟩

theorem fail (ha : ∀ r ∈ a.delivered, D r) : a.fail.Built D B := ⟨delivered_note rfl ha, trivial⟩

theorem deliver (ha : ∀ r ∈ a.delivered, D r) (hreq : D req) : (a.deliver P req).Built D B := by
  have hall : ∀ r ∈ (a.note (.request req)).delivered, D r := by
    intro r hr
    rw [Session.delivered_note] at hr
    rcases List.mem_append.mp hr with hr | hr
    · exact ha r hr
    · obtain rfl : r = req := by simpa [Note.requests] using hr
      exact hreq
  unfold Session.deliver
  simp only
  split
  · exact ⟨hall, trivial⟩
  · exact ⟨delivered_note rfl hall, trivial⟩

variable (hB : Builds D B)

include hB

/-- The loop over the chunks goes on until the body is there. -/
theorem bodyLoop {bodyLen gotLen : ℕ} (ha : ∀ r ∈ a.delivered, D r) (hreq : B req bodyLen gotLen)
    (hle : gotLen ≤ bodyLen) : (a.bodyLoop P req bodyLen gotLen).Built D B := by
  unfold Session.bodyLoop
  split
  · exact ⟨ha, hreq, by omega⟩
  · next hge =>
    obtain rfl : gotLen = bodyLen := by omega
    exact deliver ha (hB.whole req gotLen hreq)

/-- A header section was received. -/
theorem hdrGot {hdr : Bytes} (ha : ∀ r ∈ a.delivered, D r) (hhdr : HeaderSection hdr) :
    (a.hdrGot P hdr).Built D B := by
  unfold Session.hdrGot
  split
  · next hbody =>
    unfold Session.bodyHave
    split
    · exact ⟨ha, trivial⟩
    · next bodyLen hlen =>
      -- the part of the body that is in the buffer
      have hgot := hB.append _ bodyLen 0 (window a.buf a.curr (min (a.have_ - a.curr) bodyLen))
        (hB.body hdr bodyLen hhdr hbody hlen) (by rw [length_window]; omega)
      rw [length_window, Nat.zero_add] at hgot
      simp only
      split
      · exact hB.bodyLoop ha hgot (Nat.min_le_right _ _)
      · exact hB.bodyLoop ha hgot (Nat.min_le_right _ _)
  · next hbody => exact deliver ha (hB.plain hdr hhdr (Bool.eq_false_iff.mpr hbody))

theorem hdrReceived (ha : ∀ r ∈ a.delivered, D r) (prev n : ℕ) :
    (a.hdrReceived P prev n).Built D B := by
  unfold Session.hdrReceived
  split
  · exact stop ha
  · simp only
    split
    · exact stop ha
    · next h0 => exact hB.hdrGot ha (headerSection_window h0)

theorem ask (ha : ∀ r ∈ a.delivered, D r) : (a.ask P).Built D B := by
  have hcall : ∀ r ∈ (a.note .call).delivered, D r := delivered_note rfl ha
  unfold Session.ask
  simp only
  split
  · split
    · split
      · exact stop hcall
      · exact ⟨hcall, trivial⟩
    · next h0 => exact hB.hdrGot hcall (headerSection_window h0)
  · exact ⟨hcall, trivial⟩

/-- A chunk is added when it is there completely. -/
theorem bodyReceived {bodyLen gotLen toRecv : ℕ} (ha : ∀ r ∈ a.delivered, D r)
    (hreq : B req bodyLen gotLen) (hle : gotLen + toRecv ≤ bodyLen) (n : ℕ) :
    (a.bodyReceived req bodyLen gotLen toRecv n).Built D B := by
  unfold Session.bodyReceived
  split
  · exact stop ha
  · next hn =>
    obtain rfl : n = toRecv := not_not.mp hn
    have hgot := hB.append req bodyLen gotLen (window a.buf 0 n) hreq (by rw [length_window]; exact hle)
    rw [length_window] at hgot
    exact ⟨ha, hgot, hle⟩

theorem bodyRead {bodyLen gotLen toRecv n : ℕ} (ha : a.Built D B) (hreq : B req bodyLen gotLen)
    (hle : gotLen + toRecv ≤ bodyLen) (timedOut : Bool) (r : ReadResult) :
    (a.bodyRead req bodyLen gotLen toRecv n timedOut r).Built D B := by
  cases r with
  | again => exact ha
  | error => exact fail ha.delivered
  | eof => exact hB.bodyReceived ha.delivered hreq hle n
  | data bs =>
    unfold Session.bodyRead Session.bodyData
    simp only
    split
    · exact ⟨ha.delivered, hreq, hle⟩
    · exact hB.bodyReceived (a := { a with buf := store a.buf n bs }) ha.delivered hreq hle _

theorem hdrRead (ha : a.Built D B) (prev n : ℕ) (r : ReadResult) :
    (a.hdrRead P prev n r).Built D B := by
  cases r with
  | again => exact ha
  | error => exact fail ha.delivered
  | eof => exact hB.hdrReceived ha.delivered prev n
  | data bs =>
    unfold Session.hdrRead Session.hdrData
    simp only
    split
    · exact ⟨ha.delivered, trivial⟩
    · split
      · exact ⟨ha.delivered, trivial⟩
      · exact hB.hdrReceived (a := { a with buf := store a.buf n bs }) ha.delivered _ _

omit hB in
theorem sendWrote (ha : a.Built D B) (reply : Reply) (curr toSend n : ℕ) (timedOut : Bool)
    (r : WriteResult) : (a.sendWrote req reply curr toSend n timedOut r).Built D B := by
  have hsent : ∀ m, (a.sent req reply curr toSend m).Built D B := by
    intro m
    unfold Session.sent
    split
    · exact stop ha.delivered
    · exact ⟨ha.delivered, trivial⟩
  cases r with
  | again => exact ha
  | error => exact fail ha.delivered
  | zero => exact hsent n
  | sent m =>
    unfold Session.sendWrote
    simp only
    split
    · exact ⟨ha.delivered, trivial⟩
    · exact hsent _

/-- **One step.** -/
theorem step (ha : a.Built D B) {l : Option Answer} (hs : a.step P l = some a') : a'.Built D B := by
  have hstage := ha.stage
  cases l with
  | none =>
    cases Session.moves_of_silent hs with
    | ask => exact hB.ask ha.delivered
    | chunk he =>
      rw [he] at hstage
      exact hB.bodyLoop ha.delivered hstage.1 hstage.2
    | packet | answered => exact ⟨ha.delivered, trivial⟩
    | closed => exact stop ha.delivered
    | again => exact hB.ask (delivered_note rfl ha.delivered)
    | failed => exact ⟨delivered_note rfl ha.delivered, trivial⟩
  | some l =>
    have hnote : ∀ e, Note.requests [e] = [] → (a.note e).Built D B :=
      fun e he => ⟨delivered_note he ha.delivered, ha.stage⟩
    cases Session.hears_of_visible hs with
    | hdr => exact hB.hdrRead (hnote _ rfl) _ _ _
    | body he =>
      rw [he] at hstage
      exact hB.bodyRead (hnote _ rfl) hstage.1 hstage.2 _ _
    | send => exact sendWrote (hnote _ rfl) _ _ _ _ _ _

/-- **A run**: of every request that a session delivers from its start on, whatever is in its
buffer, the property holds. -/
theorem run {size : ℕ} {buf : ℕ → Byte} {have_ curr : ℕ} {ls : List (Option Answer)}
    (hr : Machine.run (Session.step P) (Session.start size buf have_ curr) ls = some a) :
    ∀ r ∈ a.delivered, D r :=
  have hstart : (Session.start size buf have_ curr).Built D B :=
    ⟨fun _ hr => absurd hr List.not_mem_nil, trivial⟩
  (run_invariant (P := Session.Built D B) (fun _ _ _ ha hs => hB.step ha hs) ls hstart hr).delivered

/-- **Every connection**: of every request in its history the property holds. -/
theorem requests {w : Worker} (h : Reachable P w) {c : Conn} (hc : c ∈ w.conns) :
    ∀ r ∈ History.requests c.hist, D r := by
  obtain ⟨a, ⟨buf, have_, curr, ls, -, hls⟩, ht⟩ := exists_session h hc
  rw [ht.requests]
  exact hB.run hls

end Builds

/-! ### Whole requests -/

/-- **A complete request**: one made of a header section, with the body that belongs to it. -/
def Entire (r : HttpRequestMsg) : Prop :=
  ∃ hdr body, HeaderSection hdr ∧ r = (ofHeader hdr).appendBody body ∧
    if wantsBody hdr then
      (ofHeader hdr).getHeaderValue (ascii "Content-Length") = .size body.length ∧
        body.length ≤ maxHttpBodySize
    else body = []

/-- A request of which a part of the body is there. -/
def Partly (r : HttpRequestMsg) (bodyLen gotLen : ℕ) : Prop :=
  ∃ hdr body, HeaderSection hdr ∧ r = (ofHeader hdr).appendBody body ∧ wantsBody hdr = true ∧
    (ofHeader hdr).getHeaderValue (ascii "Content-Length") = .size bodyLen ∧
      bodyLen ≤ maxHttpBodySize ∧ body.length = gotLen

/-- Entire requests are built up from parts. -/
theorem builds_entire : Builds Entire Partly where
  plain hdr hhdr hbody := ⟨hdr, [], hhdr, (appendBody_nil _).symm, by simp [hbody]⟩
  body hdr n hhdr hbody hlen := by
    have hok : (ofHeader hdr).isOk = true := by
      unfold wantsBody at hbody
      simp only [Bool.and_eq_true] at hbody
      exact hbody.1.2
    obtain ⟨n', hle, hval⟩ := (lookupsAgree_of_isOk hok).length hbody
    rw [hval] at hlen
    obtain rfl : n' = n := Option.some.inj hlen
    exact ⟨hdr, [], hhdr, (appendBody_nil _).symm, hbody, hval, hle, rfl⟩
  append := by
    rintro _ bodyLen _ bs ⟨hdr, body, hhdr, rfl, hbody, hval, hmax, rfl⟩ -
    exact ⟨hdr, body ++ bs, hhdr, appendBody_appendBody _ _ _, hbody, hval, hmax, List.length_append⟩
  whole := by
    rintro _ bodyLen ⟨hdr, body, hhdr, rfl, hbody, hval, hmax, rfl⟩
    exact ⟨hdr, body, hhdr, rfl, by rw [if_pos hbody]; exact ⟨hval, hmax⟩⟩

/-- The body is what `recv_http_msg` takes behind the header section. -/
theorem Entire.bodyBytes_eq {r : HttpRequestMsg} (h : Entire r) :
    ∃ hdr, HeaderSection hdr ∧ r = (ofHeader hdr).appendBody r.body ∧
      bodyBytes hdr = some r.body.length := by
  obtain ⟨hdr, body, hhdr, rfl, hbody⟩ := h
  have heq : ((ofHeader hdr).appendBody body).body = body := by
    change (ofHeader hdr).body ++ body = body
    rw [body_ofHeader, List.nil_append]
  refine ⟨hdr, hhdr, by rw [heq], ?_⟩
  rw [heq]
  unfold bodyBytes
  split at hbody
  · next hwants =>
    rw [if_pos hwants, hbody.1]
    rfl
  · next hwants =>
    rw [if_neg hwants, hbody]
    rfl

variable {P : Platform} {w : Worker}

/-- The body of every request of every connection is as long as `bodyBytes` says. -/
theorem requests_bodyBytes (h : Reachable P w) {c : Conn} (hc : c ∈ w.conns) {r : HttpRequestMsg}
    (hr : r ∈ requests c.hist) : ∃ hdr, HeaderSection hdr ∧ r = (ofHeader hdr).appendBody r.body ∧
      bodyBytes hdr = some r.body.length :=
  (builds_entire.requests h hc r hr).bodyBytes_eq

/-- **Every request of every connection is complete**, on new contexts and on recycled ones: it
was made of a header section, its body has the length that the section gives, which is not more
than is allowed, and a request without a length has no body. -/
theorem request_entire (h : Reachable P w) {c : Conn} (hc : c ∈ w.conns) {r : HttpRequestMsg}
    (hr : r ∈ requests c.hist) : Entire r :=
  builds_entire.requests h hc r hr

/-- A body that comes in two reads. -/
def postScript : List (Time × WorkerOp) :=
  [(0, .poll (.ready (some 5) [])), (1, .resume true),
    (2, .co (.read (.data (ascii "POST / HTTP/1.1\r\nContent-Length: 3\r\n\r\nab")))),
    (3, .co (.read (.data (ascii "c")))), (4, .co .check)]

theorem postScript_bodies : (script .plain oneContext postScript).any (fun w =>
    (1 ∈ w.queue.qconnList ∧
      (requests (w.heap 1).hist).map (fun r => r.body) = [ascii "abc"])) = true := by
  decide +kernel

theorem request_entire_post : ∃ w, Reachable .plain w ∧
    ∃ r ∈ requests (w.heap 1).hist, r.body = ascii "abc" ∧ Entire r := by
  obtain ⟨w, hw, hmem, hbodies⟩ := exists_of_script .plain postScript_bodies
  have hr : ascii "abc" ∈ (requests (w.heap 1).hist).map (fun r => r.body) := by simp [hbodies]
  obtain ⟨r, hr, hbody⟩ := List.mem_map.mp hr
  have hc : w.heap 1 ∈ w.conns := List.mem_append_left _ (List.mem_map_of_mem hmem)
  exact ⟨w, hw, r, hr, hbody, request_entire hw hc hr⟩

end SrvAsync
