import SrvAsync.Base.Runs
import SrvAsync.Conn.History

/-!
# The conversation on a connection

What the history of a connection may look like, whatever the code does: requests
are asked for, received and answered one after the other, a response is sent from
its first byte to its last, and after a response that closes the connection
nothing more is read.

A `Talk` is how far the conversation is, `Talk.Next` which event may come next,
and `Dialogue P h q` says that the history `h` is legal and has come to `q`.

## Main definitions

* `Talk`, `Talk.Next`, `Dialogue`.
* `Told P h q` — what a history says about requests, responses and accepted bytes.
* `PairsUp P h` — requests, responses, accepted bytes and reads belong together.

## Main results

* `told` — every legal history says it.
* `Dialogue.pairsUp` — what comes before a `read`, and after a response.
-/

namespace SrvAsync

open Http History Machine

/-- The response carries `connection: keep-alive`. -/
def Http.HttpResponseMsg.KeepsAlive (r : HttpResponseMsg) : Prop :=
  r.getHeaderValue (ascii "Connection") = .string (ascii "keep-alive")

/-- A reply keeps the connection exactly when its flag says so. -/
theorem keepsAlive_response_iff (P : Platform) (a : Reply) (d : Date) :
    (a.response P d).KeepsAlive ↔ a.keepAlive = true := by
  unfold HttpResponseMsg.KeepsAlive
  rw [getHeaderValue_connection]
  cases a.keepAlive with
  | true => simp
  | false =>
    have hne : ascii "close" ≠ ascii "keep-alive" := by decide
    simp [hne]

/-- `MakeResponse` answers the request with this response, at some date. -/
def Responds (P : Platform) (req : HttpRequestMsg) (resp : HttpResponseMsg) : Prop :=
  ∃ d, makeResponse P d req = some resp

/-- How far the conversation is. -/
inductive Talk
  /-- Nothing happened yet. -/
  | fresh
  /-- A request was answered and the connection stays. -/
  | idle
  /-- A request is received. -/
  | reading
  /-- A request was received. -/
  | asked (req : HttpRequestMsg)
  /-- A response is sent; these bytes of it were accepted. -/
  | replying (resp : HttpResponseMsg) (sent : Bytes)
  /-- No more requests are received. -/
  | over

/-- The event that may come next, and how far the conversation is then. -/
inductive Talk.Next (P : Platform) : Talk → Event → Talk → Prop
  | firstCall : Next P .fresh .call .reading
  | refused (file) : Next P .fresh (.close file) .over
  | call : Next P .idle .call .reading
  | read (r b) : Next P .reading (.read r b) .reading
  | request (req) : Next P .reading (.request req) (.asked req)
  | nothing : Next P .reading (.returned false) .over
  | readFailed (file) : Next P .reading (.close file) .over
  | response {req resp} (h : Responds P req resp) :
    Next P (.asked req) (.response resp) (.replying resp [])
  | write {resp sent} (r bs b) (hpre : sent ++ bs <+: resp.serialize P)
    (hne : sent ≠ resp.serialize P) :
    Next P (.replying resp sent) (.write r bs b) (.replying resp (sent ++ bs))
  | more {resp sent} (hs : sent = resp.serialize P) (hk : resp.KeepsAlive) :
    Next P (.replying resp sent) (.returned true) .idle
  | last {resp sent} (h : sent = resp.serialize P → ¬ resp.KeepsAlive) :
    Next P (.replying resp sent) (.returned false) .over
  | writeFailed {resp sent} (file) (hne : sent ≠ resp.serialize P) :
    Next P (.replying resp sent) (.close file) .over
  | closed (file) : Next P .over (.close file) .over
  | unwound : Next P .over (.returned false) .over

/-- **A legal history**, and how far the conversation is after it. -/
def Dialogue (P : Platform) (h : List Event) (q : Talk) : Prop := Path (Talk.Next P) .fresh h q

namespace Dialogue

variable {P : Platform} {h h' : List Event} {e : Event} {q q' : Talk}

theorem nil : Dialogue P [] .fresh := rfl

theorem concat (hd : Dialogue P h q) (hn : q.Next P e q') : Dialogue P (h ++ [e]) q' :=
  Machine.Path.concat hd hn

/-- The state before an event of the history. -/
theorem split (hd : Dialogue P (h ++ e :: h') q) :
    ∃ q₁ q₂, Dialogue P h q₁ ∧ q₁.Next P e q₂ ∧ Path (Talk.Next P) q₂ h' q := by
  obtain ⟨q₁, h₁, h₂⟩ := path_append_iff.mp hd
  obtain ⟨q₂, hn, h₂⟩ := path_cons_iff.mp h₂
  exact ⟨q₁, q₂, h₁, hn, h₂⟩

end Dialogue

/-! ### What a history says -/

/-- Requests with their responses, all of which keep the connection. -/
structure Exchanges (P : Platform) (reqs : List HttpRequestMsg) (resps : List HttpResponseMsg) :
    Prop where
  matched : List.Forall₂ (Responds P) reqs resps
  keep : ∀ resp ∈ resps, resp.KeepsAlive

/-- Every request so far was answered, and every response sent completely. -/
structure Settled (P : Platform) (h : List Event) : Prop where
  exchanges : Exchanges P (requests h) (responses h)
  accepted_eq : accepted h = (responses h).flatMap (·.serialize P)

/-- The last request was received and is not answered yet. -/
structure Pending (P : Platform) (h : List Event) (reqs : List HttpRequestMsg)
    (req : HttpRequestMsg) : Prop where
  exchanges : Exchanges P reqs (responses h)
  requests_eq : requests h = reqs ++ [req]
  accepted_eq : accepted h = (responses h).flatMap (·.serialize P)

/-- The last response was sent up to `sent`, every other one completely. -/
structure Partial (P : Platform) (h : List Event) (reqs : List HttpRequestMsg)
    (resps : List HttpResponseMsg) (req : HttpRequestMsg) (resp : HttpResponseMsg)
    (sent : Bytes) : Prop where
  exchanges : Exchanges P reqs resps
  responds : Responds P req resp
  requests_eq : requests h = reqs ++ [req]
  responses_eq : responses h = resps ++ [resp]
  accepted_eq : accepted h = resps.flatMap (·.serialize P) ++ sent
  sent_prefix : sent <+: resp.serialize P

/-- What a history that has come to `q` says. -/
def Told (P : Platform) (h : List Event) : Talk → Prop
  | .fresh | .idle | .reading => Settled P h
  | .asked req => ∃ reqs, Pending P h reqs req
  | .replying resp sent => ∃ reqs resps req, Partial P h reqs resps req resp sent
  | .over => Settled P h ∨ ∃ reqs resps req resp sent, Partial P h reqs resps req resp sent

section

variable {P : Platform} {h : List Event} {e : Event}

/-- An event that is no request, no response and no write. -/
def Event.Quiet (e : Event) : Prop :=
  requests [e] = [] ∧ responses [e] = [] ∧ accepted [e] = []

theorem Settled.quiet (hs : Settled P h) (he : e.Quiet) : Settled P (h ++ [e]) := by
  obtain ⟨h1, h2, h3⟩ := he
  refine ⟨?_, ?_⟩
  · rw [requests_append, responses_append, h1, h2, List.append_nil, List.append_nil]
    exact hs.exchanges
  · rw [accepted_append, responses_append, h2, h3, List.append_nil, List.append_nil]
    exact hs.accepted_eq

theorem Partial.quiet {reqs resps req resp sent} (hs : Partial P h reqs resps req resp sent)
    (he : e.Quiet) : Partial P (h ++ [e]) reqs resps req resp sent := by
  obtain ⟨h1, h2, h3⟩ := he
  refine ⟨hs.exchanges, hs.responds, ?_, ?_, ?_, hs.sent_prefix⟩
  · rw [requests_append, h1, List.append_nil, hs.requests_eq]
  · rw [responses_append, h2, List.append_nil, hs.responses_eq]
  · rw [accepted_append, h3, List.append_nil, hs.accepted_eq]

/-- One more complete exchange. -/
theorem Exchanges.concat {reqs resps req resp} (hs : Exchanges P reqs resps)
    (hr : Responds P req resp) (hk : resp.KeepsAlive) :
    Exchanges P (reqs ++ [req]) (resps ++ [resp]) := by
  refine ⟨List.rel_append hs.matched (.cons hr .nil), ?_⟩
  intro r hmem
  rcases List.mem_append.mp hmem with hmem | hmem
  · exact hs.keep r hmem
  · rw [List.mem_singleton.mp hmem]
    exact hk

/-- A response that was sent completely and keeps the connection settles the exchange. -/
theorem Partial.settled {reqs resps req resp} (hs : Partial P h reqs resps req resp (resp.serialize P))
    (hk : resp.KeepsAlive) : Settled P h := by
  refine ⟨?_, ?_⟩
  · rw [hs.requests_eq, hs.responses_eq]
    exact hs.exchanges.concat hs.responds hk
  · rw [hs.accepted_eq, hs.responses_eq, List.flatMap_append]
    simp

/-- One event keeps what a history says. -/
theorem told_step {q q' : Talk} (ht : Told P h q) (hn : q.Next P e q') : Told P (h ++ [e]) q' := by
  cases hn with
  | firstCall | call | read | refused | nothing | readFailed =>
    first
    | exact Settled.quiet ht ⟨rfl, rfl, rfl⟩
    | exact .inl (Settled.quiet ht ⟨rfl, rfl, rfl⟩)
  -- the request is the only one without a response from here on
  | request req =>
    refine ⟨requests h, ?_, ?_, ?_⟩
    · rw [responses_append]
      simpa [responses] using ht.exchanges
    · rw [requests_append]
      rfl
    · rw [accepted_append, responses_append]
      simpa [responses, accepted] using ht.accepted_eq
  | response hr =>
    obtain ⟨reqs, hp⟩ := ht
    refine ⟨reqs, responses h, _, hp.exchanges, hr, ?_, responses_append h _, ?_, List.nil_prefix⟩
    · rw [requests_append, hp.requests_eq]
      simp [requests]
    · rw [accepted_append, hp.accepted_eq]
      simp [accepted]
  | write r bs b hpre hne =>
    obtain ⟨reqs, resps, req, hp⟩ := ht
    refine ⟨reqs, resps, req, hp.exchanges, hp.responds, ?_, ?_, ?_, hpre⟩
    · rw [requests_append, hp.requests_eq]
      simp [requests]
    · rw [responses_append, hp.responses_eq]
      simp [responses]
    · rw [accepted_append, hp.accepted_eq]
      simp [accepted]
  -- the whole response was sent, so the exchange is complete
  | more hs hk =>
    obtain ⟨reqs, resps, req, hp⟩ := ht
    subst hs
    exact (hp.settled hk).quiet ⟨rfl, rfl, rfl⟩
  | last _ | writeFailed =>
    obtain ⟨reqs, resps, req, hp⟩ := ht
    exact .inr ⟨reqs, resps, req, _, _, hp.quiet ⟨rfl, rfl, rfl⟩⟩
  | closed | unwound =>
    rcases ht with hs | ⟨reqs, resps, req, resp, sent, hp⟩
    · exact .inl (hs.quiet ⟨rfl, rfl, rfl⟩)
    · exact .inr ⟨reqs, resps, req, resp, sent, hp.quiet ⟨rfl, rfl, rfl⟩⟩

/-- **What a legal history says.** -/
theorem told {q : Talk} (hd : Dialogue P h q) : Told P h q := by
  refine path_invariant (I := Told P) ?_ (fun h q e q' ht hn => told_step ht hn) h hd
  exact ⟨⟨.nil, fun _ hmem => absurd hmem List.not_mem_nil⟩, rfl⟩

end

/-! ### Requests, responses and reads -/

/-- A `write` returned. -/
def Event.IsWrite : Event → Prop
  | .write .. => True
  | _ => False

/-- `recv_http_msg` is called, or a `read` returned. -/
def Event.Reads : Event → Prop
  | .call | .read .. => True
  | _ => False

/-- Requests, responses, accepted bytes and reads belong together. -/
structure PairsUp (P : Platform) (h : List Event) : Prop where
  /-- The accepted bytes are complete responses and at most one prefix of the last. -/
  accepted_eq : ∃ complete last sent, responses h = complete ++ last ∧ last.length ≤ 1 ∧
    accepted h = complete.flatMap (·.serialize P) ++ sent ∧ sent <+: last.flatMap (·.serialize P)
  /-- The responses answer the requests in order, all of them but at most the last. -/
  matched : ∃ answered pending, requests h = answered ++ pending ∧ pending.length ≤ 1 ∧
    List.Forall₂ (Responds P) answered (responses h)
  /-- Before anything is read, every response was accepted completely and keeps the connection. -/
  reads : ∀ h₁ e h₂, h = h₁ ++ e :: h₂ → e.Reads → Settled P h₁
  /-- After a response that was accepted completely and keeps the connection the next request
  is received; -/
  goesOn : ∀ h₁ resp ws e h₂, h = h₁ ++ .response resp :: (ws ++ e :: h₂) → (∀ e ∈ ws, e.IsWrite) →
    ¬ e.IsWrite → accepted ws = resp.serialize P → resp.KeepsAlive →
    e = .returned true ∧ ∃ h₃, h₂ = .call :: h₃
  /-- after any other response nothing is read. -/
  stops : ∀ h₁ resp ws e h₂, h = h₁ ++ .response resp :: (ws ++ e :: h₂) → (∀ e ∈ ws, e.IsWrite) →
    ¬ e.IsWrite → ¬ (accepted ws = resp.serialize P ∧ resp.KeepsAlive) → ∀ e' ∈ e :: h₂, ¬ e'.Reads

section

variable {P : Platform} {h h' : List Event} {e : Event} {q : Talk}

/-- The accepted bytes are the beginning of the responses. -/
theorem PairsUp.accepted_prefix (hp : PairsUp P h) :
    accepted h <+: (responses h).flatMap (·.serialize P) := by
  obtain ⟨complete, last, sent, hresps, -, hacc, hsent⟩ := hp.accepted_eq
  rw [hacc, hresps, List.flatMap_append]
  exact (List.prefix_append_right_inj _).mpr hsent

/-- While a response is sent, the accepted bytes are counted. -/
theorem path_writes {resp : HttpResponseMsg} : ∀ {ws : List Event} {sent : Bytes},
    Path (Talk.Next P) (.replying resp sent) ws q → (∀ e ∈ ws, e.IsWrite) →
    q = .replying resp (sent ++ accepted ws)
  | [], sent, hp, _ => by
    rw [← path_nil_iff.mp hp]
    simp [accepted]
  | e :: ws, sent, hp, hw => by
    obtain ⟨u, hn, hp⟩ := path_cons_iff.mp hp
    have he := hw e List.mem_cons_self
    cases hn with
    | write r bs b hpre hne =>
      have hacc : accepted (.write r bs b :: ws) = bs ++ accepted ws := by simp [accepted]
      rw [path_writes hp fun e he => hw e (List.mem_cons_of_mem _ he), hacc, List.append_assoc]
    | more | last | writeFailed => exact absurd he id

/-- When the conversation is over nothing is read. -/
theorem path_over : ∀ {h : List Event}, Path (Talk.Next P) .over h q → ∀ e ∈ h, ¬ e.Reads
  | [], _, _, he => absurd he List.not_mem_nil
  | e :: h, hp, e', he => by
    obtain ⟨u, hn, hp⟩ := path_cons_iff.mp hp
    rcases List.mem_cons.mp he with rfl | hmem
    · cases hn <;> exact id
    · cases hn <;> exact path_over hp e' hmem

namespace Dialogue

/-- Before anything is read, every response was accepted completely and keeps the connection. -/
theorem settled_of_reads (hd : Dialogue P (h ++ e :: h') q) (he : e.Reads) : Settled P h := by
  obtain ⟨q₁, q₂, h₁, hn, -⟩ := hd.split
  cases hn with
  | firstCall | call | read => exact told h₁
  | refused | request | nothing | readFailed | response | write | more | last | writeFailed
    | closed | unwound => exact absurd he id

/-- The state behind a response and the writes after it. -/
theorem split_response {resp : HttpResponseMsg} {ws : List Event}
    (hd : Dialogue P (h ++ .response resp :: (ws ++ e :: h')) q) (hw : ∀ e ∈ ws, e.IsWrite) :
    ∃ q', Talk.Next P (.replying resp (accepted ws)) e q' ∧ Path (Talk.Next P) q' h' q := by
  obtain ⟨q₁, q₂, -, hn, hp⟩ := hd.split
  cases hn with
  | response hr =>
    obtain ⟨q₃, hws, hp⟩ := path_append_iff.mp hp
    obtain ⟨q₄, hn, hp⟩ := path_cons_iff.mp hp
    rw [path_writes hws hw, List.nil_append] at hn
    exact ⟨q₄, hn, hp⟩

/-- **In a legal history requests, responses and reads belong together.** -/
theorem pairsUp (hd : Dialogue P h q) (hq : q ≠ .idle) : PairsUp P h := by
  refine ⟨?_, ?_, fun h₁ e h₂ he hr => (he ▸ hd).settled_of_reads hr, ?_, ?_⟩
  · -- what was sent
    have ht := told hd
    have hsettled : Settled P h → ∃ complete last sent, responses h = complete ++ last ∧
        last.length ≤ 1 ∧ accepted h = complete.flatMap (·.serialize P) ++ sent ∧
        sent <+: last.flatMap (·.serialize P) := fun hs =>
      ⟨responses h, [], [], (List.append_nil _).symm, by simp, by rw [hs.accepted_eq, List.append_nil],
        List.nil_prefix⟩
    have hpartial : ∀ reqs resps req resp sent, Partial P h reqs resps req resp sent →
        ∃ complete last sent, responses h = complete ++ last ∧ last.length ≤ 1 ∧
        accepted h = complete.flatMap (·.serialize P) ++ sent ∧ sent <+: last.flatMap (·.serialize P) :=
      fun reqs resps req resp sent hs => ⟨resps, [resp], sent, hs.responses_eq, le_rfl,
        hs.accepted_eq, by simpa using hs.sent_prefix⟩
    cases q with
    | fresh | idle | reading => exact hsettled ht
    | asked req =>
      obtain ⟨reqs, hp⟩ := ht
      exact ⟨responses h, [], [], (List.append_nil _).symm, by simp,
        by rw [hp.accepted_eq, List.append_nil], List.nil_prefix⟩
    | replying resp sent =>
      obtain ⟨reqs, resps, req, hp⟩ := ht
      exact hpartial _ _ _ _ _ hp
    | «over» =>
      rcases ht with hs | ⟨reqs, resps, req, resp, sent, hp⟩
      · exact hsettled hs
      · exact hpartial _ _ _ _ _ hp
  · -- which requests were answered
    have ht := told hd
    have hsettled : Settled P h → ∃ answered pending, requests h = answered ++ pending ∧
        pending.length ≤ 1 ∧ List.Forall₂ (Responds P) answered (responses h) := fun hs =>
      ⟨requests h, [], (List.append_nil _).symm, by simp, hs.exchanges.matched⟩
    have hpartial : ∀ reqs resps req resp sent, Partial P h reqs resps req resp sent →
        ∃ answered pending, requests h = answered ++ pending ∧ pending.length ≤ 1 ∧
          List.Forall₂ (Responds P) answered (responses h) := fun reqs resps req resp sent hs =>
      ⟨requests h, [], (List.append_nil _).symm, by simp, by
        rw [hs.requests_eq, hs.responses_eq]
        exact List.rel_append hs.exchanges.matched (.cons hs.responds .nil)⟩
    cases q with
    | fresh | idle | reading => exact hsettled ht
    | asked req =>
      obtain ⟨reqs, hp⟩ := ht
      exact ⟨reqs, [req], hp.requests_eq, le_rfl, hp.exchanges.matched⟩
    | replying resp sent =>
      obtain ⟨reqs, resps, req, hp⟩ := ht
      exact hpartial _ _ _ _ _ hp
    | «over» =>
      rcases ht with hs | ⟨reqs, resps, req, resp, sent, hp⟩
      · exact hsettled hs
      · exact hpartial _ _ _ _ _ hp
  · -- after a complete response on a connection that is kept, the coroutine goes on
    intro h₁ resp ws e h₂ he hw hne hacc hk
    obtain ⟨q', hn, hp⟩ := (he ▸ hd).split_response hw
    cases hn with
    | more hs hk' =>
      refine ⟨rfl, ?_⟩
      cases h₂ with
      -- the history cannot end there: the dialogue would be idle
      | nil => exact absurd (path_nil_iff.mp hp).symm hq
      | cons e h₃ =>
        obtain ⟨q₂, hn, -⟩ := path_cons_iff.mp hp
        cases hn
        exact ⟨h₃, rfl⟩
    | last hl => exact absurd hk (hl hacc)
    | writeFailed file hne' => exact absurd hacc hne'
    | write => exact absurd trivial hne
  · -- after any other response nothing is read
    intro h₁ resp ws e h₂ he hw hne hcut e' he'
    obtain ⟨q', hn, hp⟩ := (he ▸ hd).split_response hw
    have hover : ¬ e.Reads ∧ q' = .over := by
      cases hn with
      | more hs hk => exact absurd ⟨hs, hk⟩ hcut
      | last => exact ⟨id, rfl⟩
      | writeFailed => exact ⟨id, rfl⟩
      | write => exact absurd trivial hne
    rcases List.mem_cons.mp he' with rfl | he'
    · exact hover.1
    · rw [hover.2] at hp
      exact path_over hp e' he'

end Dialogue

end

end SrvAsync
