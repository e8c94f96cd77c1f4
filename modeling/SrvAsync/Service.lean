import SrvAsync.Http.Replies
import SrvAsync.Pairing
import SrvAsync.Receive.Whole

/-!
# What a client gets

The whole way of a connection, from the bytes a client sends to the bytes it reads: the
requests in its stream are those of the reference decoding, and the responses that it
cuts out of what the socket accepted answer the first of them, one by one and in their
order, with the beginning of the next response at the end.  Other connections, the
splitting into reads and writes, yields and timeouts do not matter.

## Main definitions

* `Answers P reqs out` — a client that sent these requests reads answers to the first ones.

## Main results

* `requests_decoded` — the requests of a connection on a fresh context are decoded ones.
* `client_reads_answers` — **what a client reads are the answers to its requests**.
* `waiting_answered` — **a connection that waits for bytes of a request has answered all
  the others**.
-/

namespace SrvAsync

open Http History Machine Worker Codes

variable {P : Platform} {w : Worker}

/-- **A client that sent these requests reads answers to the first of them**: complete
responses, in the order of the requests, and a part of the next one.  Every one but the last
keeps the connection. -/
structure Answers (P : Platform) (reqs : List HttpRequestMsg) (out : Bytes)
    (resps : List HttpResponseMsg) (r : Bytes) : Prop where
  /-- The client finds these responses, and leaves `r`. -/
  read : readAll readResponse (reqs.map HttpRequestMsg.noBody) out = (resps.map (·.read P), r)
  /-- They make up what it got, up to `r`. -/
  eq : out = resps.flatMap (·.serialize P) ++ r
  /-- They answer its first requests. -/
  matched : List.Forall₂ (Responds P) (reqs.take resps.length) resps
  /-- What is left is a part of the response to the next request. -/
  rest : r ≠ [] → ∃ req resp, reqs[resps.length]? = some req ∧ Responds P req resp ∧
    r <+: resp.serialize P ∧ r ≠ resp.serialize P
  /-- A response that closes the connection is the last one, and nothing is behind it. -/
  keep : ∀ resp ∈ resps, ¬ resp.KeepsAlive → resps.getLast? = some resp ∧ r = []

/-- A legal history pairs the responses with requests, and all of them but the last keep the
connection. -/
theorem Told.keeps {h : List Event} {q : Talk} (ht : Told P h q) :
    ∀ resp ∈ (responses h).dropLast, resp.KeepsAlive := by
  have hsettled : Settled P h → ∀ resp ∈ (responses h).dropLast, resp.KeepsAlive :=
    fun hs resp hmem => hs.exchanges.keep resp (List.dropLast_subset _ hmem)
  have hpartial : ∀ reqs resps req resp sent, Partial P h reqs resps req resp sent →
      ∀ resp ∈ (responses h).dropLast, resp.KeepsAlive := by
    intro reqs resps req resp sent hs resp' hmem
    rw [hs.responses_eq, List.dropLast_concat] at hmem
    exact hs.exchanges.keep resp' hmem
  cases q with
  | fresh | idle | reading => exact hsettled ht
  | asked req =>
    obtain ⟨reqs, hp⟩ := ht
    exact fun resp hmem => hp.exchanges.keep resp (List.dropLast_subset _ hmem)
  | replying resp sent =>
    obtain ⟨reqs, resps, req, hp⟩ := ht
    exact hpartial _ _ _ _ _ hp
  | _ =>
    -- the conversation is over, and the last response may not have been sent completely
    rcases ht with hs | ⟨reqs, resps, req, resp, sent, hp⟩
    · exact hsettled hs
    · exact hpartial _ _ _ _ _ hp

/-- An element that is not in front of the last one is the last one. -/
theorem take_of_mem_not_dropLast {α : Type*} {l : List α} {n : ℕ} {a : α} (ha : a ∈ l.take n)
    (hnot : a ∉ l.dropLast) : l.length ≤ n ∧ l.getLast? = some a := by
  have hn : l.length ≤ n := by
    by_contra hlt
    refine hnot ?_
    rw [List.dropLast_eq_take]
    exact (List.take_sublist_take_left (by omega)).subset ha
  refine ⟨hn, ?_⟩
  rw [List.take_of_length_le hn] at ha
  have hne : l ≠ [] := List.ne_nil_of_mem ha
  rw [← List.dropLast_concat_getLast hne] at ha
  rcases List.mem_append.mp ha with ha | ha
  · exact absurd ha hnot
  · rw [List.getLast?_eq_some_getLast hne, List.mem_singleton.mp ha]

/-- Each of the responses is read as a whole or not at all. -/
theorem reads_responses {reqs : List HttpRequestMsg} {resps : List HttpResponseMsg}
    (h : List.Forall₂ (Responds P) reqs resps) (hline : ∀ resp ∈ resps, resp.OneLine) :
    List.Forall₂ (fun req resp =>
      Reads readResponse req.noBody (resp.serialize P) (resp.read P)) reqs resps := by
  have hboth := (List.forall₂_and_left resps reqs).mpr ⟨hline, h.flip⟩
  exact (hboth.imp fun _ _ hr => reads_response hr.2 hr.1).flip

/-- **What a client reads of a legal history**, when the requests in it are the first ones it
sent. -/
theorem Dialogue.answers {h : List Event} {q : Talk} (hd : Dialogue P h q) (hq : q ≠ .idle)
    (hline : ∀ resp ∈ responses h, resp.OneLine) {reqs : List HttpRequestMsg}
    (hreqs : requests h <+: reqs) : ∃ resps r, Answers P reqs (accepted h) resps r := by
  have hp := hd.pairsUp hq
  have hkeeps := (told hd).keeps
  obtain ⟨answered, pending, hreq, -, hmatched⟩ := hp.matched
  have hpre := hp.accepted_prefix
  generalize responses h = resps at hline hkeeps hmatched hpre
  have hreads := reads_responses hmatched hline
  obtain ⟨more, rfl⟩ := hreqs
  obtain ⟨n, r, hn, hout, hr, hread⟩ := readAll_of_prefix readResponse_nil hreads
    ((pending ++ more).map HttpRequestMsg.noBody) hpre
  have hlen : (resps.take n).length = n := by simp [hn]
  have hlen' : answered.length = resps.length := hmatched.length_eq
  refine ⟨resps.take n, r, ?_, hout, ?_, ?_, ?_⟩
  · rw [hreq, List.append_assoc, List.map_append]
    exact hread
  · rw [hlen, hreq, List.append_assoc, List.take_append_of_le_length (by omega)]
    exact List.forall₂_take n hmatched
  · intro hne
    rw [hlen]
    cases hdrop : resps.drop n with
    | nil =>
      rw [hdrop] at hr
      exact absurd hr hne
    | cons resp rest =>
      rw [hdrop] at hr
      -- the next response belongs to the next request
      have hboth := List.forall₂_drop n hmatched
      rw [hdrop] at hboth
      cases hcons : answered.drop n with
      | nil => rw [hcons] at hboth; cases hboth
      | cons req more' =>
        rw [hcons] at hboth
        refine ⟨req, resp, ?_, (List.forall₂_cons.mp hboth).1, hr.1, hr.2⟩
        have hget : answered[n]? = some req := by
          rw [← List.head?_drop, hcons, List.head?_cons]
        rw [hreq, List.append_assoc]
        exact List.getElem?_append_left (List.getElem?_eq_some_iff.mp hget).1 ▸ hget
  · intro resp hmem hnot
    obtain ⟨hle, hlast⟩ := take_of_mem_not_dropLast hmem fun hd => hnot (hkeeps resp hd)
    rw [List.take_of_length_le hle]
    refine ⟨hlast, ?_⟩
    rw [List.drop_of_length_le hle] at hr
    exact hr

/-! ### Connections on fresh contexts -/

/-- **The requests of a connection on a fresh context are decoded ones.** -/
theorem requests_decoded (h : Reachable P w) {c : Conn} (hc : c ∈ w.conns) (hu : c.uses = 1)
    {S : Bytes} (hS : received c.hist <+: S) : requests c.hist <+: decode recvBufSize.toNat S := by
  obtain ⟨a, ⟨buf, n, m, ls, h0, hls⟩, ht⟩ := exists_session h hc
  obtain ⟨-, rfl, rfl⟩ := h0 hu
  have hstart := Session.sound_start_empty recvBufSize.toNat buf (n := 0) (by decide) (Nat.zero_le _)
  have hsize : a.size = recvBufSize.toNat := Session.size_run hls
  rw [received_eq, ht.answers] at hS
  rw [ht.requests, ← hsize]
  exact (hstart.run hls).delivered_initial hS

/-- **What a client reads are the answers to its requests**, in every state of every worker. -/
theorem client_reads_answers (h : Reachable P w) {c : Conn} (hc : c ∈ w.conns) (hu : c.uses = 1)
    (hline : ∀ resp ∈ responses c.hist, resp.OneLine) {S : Bytes} (hS : received c.hist <+: S) :
    ∃ resps r, Answers P (decode recvBufSize.toNat S) (accepted c.hist) resps r := by
  obtain ⟨q, hd, hq⟩ := legal h c hc
  exact hd.answers hq hline (requests_decoded h hc hu hS)

/-- The first 100 bytes of a response were sent, and the context was not used before. -/
theorem pairingScript_sent : (script .plain oneContext pairingScript).any (fun w =>
    (1 ∈ w.queue.qconnList ∧ (w.heap 1).uses = 1 ∧
      (∀ resp ∈ responses (w.heap 1).hist, resp.OneLine) ∧
      received (w.heap 1).hist <+: ascii "GET / HTTP/1.1\r\n\r\nGET")) = true := by
  decide +kernel

theorem client_reads_answers_part : ∃ w, Reachable .plain w ∧ ∃ resps r,
    Answers .plain (decode recvBufSize.toNat (ascii "GET / HTTP/1.1\r\n\r\nGET"))
      (accepted (w.heap 1).hist) resps r := by
  obtain ⟨w, hw, hmem, hu, hline, hS⟩ := exists_of_script .plain pairingScript_sent
  exact ⟨w, hw, client_reads_answers hw (List.mem_append_left _ (List.mem_map_of_mem hmem)) hu
    hline hS⟩

/-! ### Nothing is forgotten -/

/-- The session of a connection is whole, when its context was not used before. -/
def WholeIfFresh (uses : ℕ) (a : Session) : Prop := uses = 1 → a.Whole

theorem starts_wholeIfFresh : Starts WholeIfFresh := by
  intro uses buf have_ curr h0 hu
  obtain ⟨-, rfl, rfl⟩ := h0 hu
  exact Session.whole_start _ buf (by decide) (Nat.zero_le _)

theorem carries_wholeIfFresh (op : Op) : Carries P WholeIfFresh op :=
  fun _ _ _ _ _ h hs hu => (h hu).step hs

/-- All requests of a settled history were answered, and the client reads all the answers. -/
theorem Settled.answers {h : List Event} (hs : Settled P h)
    (hline : ∀ resp ∈ responses h, resp.OneLine) :
    Answers P (requests h) (accepted h) (responses h) [] := by
  have hmatched := hs.exchanges.matched
  have hlen := hmatched.length_eq
  refine ⟨?_, by rw [hs.accepted_eq, List.append_nil], ?_, fun hne => absurd rfl hne, ?_⟩
  · have hread := readAll_flatMap (reads_responses hmatched hline) [] []
    rw [List.append_nil, List.append_nil] at hread
    rw [hs.accepted_eq, hread]
    simp [readAll]
  · rw [← hlen, List.take_length]
    exact hmatched
  · exact fun resp hmem hnot => absurd (hs.exchanges.keep resp hmem) hnot

/-- The coroutine is in the swap after an `EAGAIN` of `read`. -/
def Point.inRead : Point → Bool
  | .recvWait _ _ => true
  | _ => false

/-- **A connection that waits for bytes of a request has answered all the others**: what it
received so far has no request in it that is not answered, and the client reads an answer to
each of them and nothing else. -/
theorem waiting_answered (h : Reachable P w) {p : Ptr} (hp : p ∈ w.queue.qconnList)
    (hb : ¬ w.Busy p) (hu : (w.heap p).uses = 1) (hpt : (w.heap p).connCtx.point.inRead = true)
    (hline : ∀ resp ∈ responses (w.heap p).hist, resp.OneLine) :
    ∃ resps, Answers P (decode recvBufSize.toNat (received (w.heap p).hist))
        (accepted (w.heap p).hist) resps [] ∧
      resps.length = (decode recvBufSize.toNat (received (w.heap p).hist)).length := by
  have hi := inv_of_carries starts_wholeIfFresh carries_wholeIfFresh h
  obtain ⟨-, -, a, hwhole, hrep⟩ := hi.standing p hp hb
  have hst := hrep.stands
  -- the coroutine waits inside a request, and the exchanges before it are complete
  have hboth : a.stage.Waits ∧ Settled P (w.heap p).hist := by
    generalize (w.heap p).connCtx.point = pt at hst hpt
    generalize a.stage = st at hst
    cases hst with
    | waitHdr hat => exact ⟨trivial, told hat.dialogue⟩
    | waitBody hat => exact ⟨trivial, told hat.dialogue⟩
    | _ => cases hpt
  obtain ⟨hwaits, hsettled⟩ := hboth
  have htells := tells_of_shows hrep.hist
  have hsize : a.size = recvBufSize.toNat := by
    have hown := (hi.owned p hp).recvBufSize
    rw [← hown, hrep.size, Int.toNat_natCast]
  have hreqs : requests (w.heap p).hist = decode recvBufSize.toNat (received (w.heap p).hist) := by
    rw [htells.requests, received_eq, htells.answers, ← hsize]
    exact (hwhole hu).requests_of_waiting hwaits
  refine ⟨responses (w.heap p).hist, hreqs ▸ hsettled.answers hline, ?_⟩
  rw [← hreqs]
  exact hsettled.exchanges.matched.length_eq.symm

/-- A connection that was sent a whole response, and has the beginning of another request. -/
def secondScript : List (Time × WorkerOp) :=
  [(0, .poll (.ready (some 5) [])), (1, .resume true),
    (2, .co (.read (.data (ascii "GET / HTTP/1.1\r\n\r\nHEAD")))), (3, .co (.write (.sent 387))),
    (4, .co .check), (5, .co .check), (6, .co (.read .again)), (7, .back), (8, .endPass)]

theorem secondScript_waits : (script .plain oneContext secondScript).any (fun w =>
    (1 ∈ w.queue.qconnList ∧ w.phase = .head ∧ (w.heap 1).uses = 1 ∧
      (w.heap 1).connCtx.point.inRead = true ∧
      ∀ resp ∈ responses (w.heap 1).hist, resp.OneLine)) = true := by
  decide +kernel

theorem waiting_answered_second : ∃ w, Reachable .plain w ∧ ∃ resps,
    Answers .plain (decode recvBufSize.toNat (received (w.heap 1).hist)) (accepted (w.heap 1).hist)
      resps [] ∧
    resps.length = (decode recvBufSize.toNat (received (w.heap 1).hist)).length := by
  obtain ⟨w, hw, hmem, hph, hu, hpt, hline⟩ := exists_of_script .plain secondScript_waits
  exact ⟨w, hw, waiting_answered hw hmem (fun ⟨_, he⟩ => Phase.noConfusion (hph.symm.trans he)) hu
    hpt hline⟩

end SrvAsync
