import SrvAsync.Lifecycle

/-!
# Requests and responses of a connection

Every connection of a worker has a legal history, so its requests, its responses,
the bytes its socket accepted and its reads belong together, whatever the reads,
writes, clocks and yields were.

## Main results

* `legal` — the history of every connection is a legal one.
* `pairing` — requests and responses are paired on every connection.
-/

namespace SrvAsync

open Http History Machine Worker

variable {P : Platform} {R : ℕ → Session → Prop} {w : Worker}

/-- Where a coroutine stands, its history is legal and a response that keeps the connection
was followed by the next request. -/
theorem Stands.dialogue {c : Conn} {size : ℕ} {pt : Point} {st : Stage}
    (h : Stands P c size pt st) : ∃ q, Dialogue P c.hist q ∧ q ≠ .idle := by
  cases h with
  | start hc ha hl hd => exact ⟨_, hd, Talk.noConfusion⟩
  | recvHdr h => exact ⟨_, h.dialogue, Talk.noConfusion⟩
  | waitHdr h => exact ⟨_, h.dialogue, Talk.noConfusion⟩
  | recvBody h => exact ⟨_, h.dialogue, Talk.noConfusion⟩
  | waitBody h => exact ⟨_, h.dialogue, Talk.noConfusion⟩
  | checkChunk h => exact ⟨_, h.dialogue, Talk.noConfusion⟩
  | yieldChunk h => exact ⟨_, h.dialogue, Talk.noConfusion⟩
  | send h => exact ⟨_, h.dialogue, Talk.noConfusion⟩
  | waitSend h => exact ⟨_, h.dialogue, Talk.noConfusion⟩
  | checkPacket h => exact ⟨_, h.dialogue, Talk.noConfusion⟩
  | yieldPacket h => exact ⟨_, h.dialogue, Talk.noConfusion⟩
  | checkAnswered h => exact ⟨_, h.dialogue, Talk.noConfusion⟩
  | yieldAnswered h => exact ⟨_, h.dialogue, Talk.noConfusion⟩
  | recvFailed _ h => exact ⟨_, h.dialogue, Talk.noConfusion⟩
  | sendFailed _ h => exact ⟨_, h.dialogue, Talk.noConfusion⟩
  | ended h => exact ⟨_, h.dialogue, Talk.noConfusion⟩

/-- The same while a coroutine executes. -/
theorem Refines.dialogue {s : St} {a : Session} (h : Refines P s a) :
    ∃ q, Dialogue P s.curr.hist q ∧ q ≠ .idle := by
  cases hc : s.ctl with
  | coro p => exact ((refines_coro_iff hc).mp h).2.stands.dialogue
  | main => exact ((refines_main_iff hc).mp h).2.2.stands.dialogue
  | dead d => exact ((refines_dead_iff hc).mp h).1

/-- **The history of every connection is legal.** -/
theorem legal (h : Reachable P w) : ∀ c ∈ w.conns, ∃ q, Dialogue P c.hist q ∧ q ≠ .idle := by
  have hi := inv_reachable h
  intro c hc
  rcases List.mem_append.mp hc with hc | hc
  · obtain ⟨p, hp, rfl⟩ := List.mem_map.mp hc
    by_cases hb : w.Busy p
    · obtain ⟨todo, hph⟩ := hb
      have hcon := hi.control
      rw [hph] at hcon
      obtain ⟨-, -, -, -, -, -, a, -, href⟩ := hcon
      exact href.dialogue
    · obtain ⟨-, -, a, -, hrep⟩ := hi.standing p hp hb
      exact hrep.stands.dialogue
  · obtain ⟨a, b, -, hrep⟩ := (hi.gone c hc).rep
    exact hrep.stands.dialogue

/-- Requests and responses are paired on it. -/
theorem pairsUp_of_mem (h : Reachable P w) {c : Conn} (hc : c ∈ w.conns) : PairsUp P c.hist := by
  obtain ⟨q, hd, hq⟩ := legal h c hc
  exact hd.pairsUp hq

/-- The history ends with a response that was accepted completely and keeps the connection. -/
def EndsComplete (P : Platform) (h : List Event) : Prop :=
  ∃ h₁ resp ws, h = h₁ ++ .response resp :: ws ∧ (∀ e ∈ ws, e.IsWrite) ∧
    accepted ws = resp.serialize P ∧ resp.KeepsAlive

/-- A response that was accepted completely leaves the conversation at its end. -/
theorem Dialogue.eq_of_endsComplete {h : List Event} {q : Talk} (hd : Dialogue P h q)
    (he : EndsComplete P h) : ∃ resp, q = .replying resp (resp.serialize P) ∧ resp.KeepsAlive := by
  obtain ⟨h₁, resp, ws, rfl, hw, hacc, hk⟩ := he
  obtain ⟨q₁, q₂, -, hn, hp⟩ := hd.split
  cases hn with
  | response hr => exact ⟨resp, by rw [path_writes hp hw, List.nil_append, hacc], hk⟩

/-- Only a voluntary yield comes between a complete response and the next request. -/
theorem Standing.yields {p : Ptr} {c : Conn} {b : ℕ → Byte} (h : Standing P R p c b)
    (he : EndsComplete P c.hist) : ∃ y, c.connCtx.point = .yielded y := by
  obtain ⟨-, hrun, a, -, hrep⟩ := h
  have hst := hrep.stands
  generalize c.connCtx.point = pt at hst hrun
  generalize a.stage = st at hst
  cases hst with
  | yieldChunk | yieldPacket | yieldAnswered => exact ⟨_, rfl⟩
  | start hc ha hl hd =>
    obtain ⟨resp, hq, -⟩ := hd.eq_of_endsComplete he
    cases hq
  | waitHdr h =>
    obtain ⟨resp, hq, -⟩ := h.dialogue.eq_of_endsComplete he
    cases hq
  | waitBody h =>
    obtain ⟨resp, hq, -⟩ := h.dialogue.eq_of_endsComplete he
    cases hq
  | waitSend h =>
    obtain ⟨resp, hq, -⟩ := h.dialogue.eq_of_endsComplete he
    obtain ⟨rfl, hq⟩ := Talk.replying.inj hq
    have hlt := h.lt
    have hle := h.toSend_le
    exact absurd hq (take_serialize_ne (by omega))
  | recvFailed _ h =>
    obtain ⟨resp, hq, -⟩ := h.dialogue.eq_of_endsComplete he
    cases hq
  | sendFailed _ h =>
    obtain ⟨resp, hq, -⟩ := h.dialogue.eq_of_endsComplete he
    cases hq
  | ended h =>
    obtain ⟨resp, hq, -⟩ := h.dialogue.eq_of_endsComplete he
    cases hq
  | recvHdr | recvBody | send | checkChunk | checkPacket | checkAnswered => cases hrun

/-- **Requests and responses are paired on every connection**, and between a complete
response that keeps the connection and the next request there is only a voluntary yield. -/
theorem pairing (h : Reachable P w) : (∀ c ∈ w.conns, PairsUp P c.hist) ∧
    ∀ p ∈ w.queue.qconnList, ¬ w.Busy p → EndsComplete P (w.heap p).hist →
      ∃ y, (w.heap p).connCtx.point = .yielded y := by
  refine ⟨fun c hc => pairsUp_of_mem h hc, fun p hp hb he => ?_⟩
  exact ((inv_reachable h).standing p hp hb).yields he

/-- A worker whose connection was sent a part of its first response. -/
def pairingScript : List (Time × WorkerOp) :=
  [(0, .poll (.ready (some 5) [])), (1, .resume true),
    (2, .co (.read (.data (ascii "GET / HTTP/1.1\r\n\r\n")))),
    (3, .co (.write (.sent 100))), (4, .co (.write .again)), (5, .back), (6, .endPass)]

theorem pairingScript_isSome : (script .plain oneContext pairingScript).isSome = true := by
  decide +kernel

theorem pairing_script :
    (∀ c ∈ ((script .plain oneContext pairingScript).get pairingScript_isSome).conns,
      PairsUp .plain c.hist) ∧
    ∀ p ∈ ((script .plain oneContext pairingScript).get pairingScript_isSome).queue.qconnList,
      ¬ ((script .plain oneContext pairingScript).get pairingScript_isSome).Busy p →
      EndsComplete .plain
        (((script .plain oneContext pairingScript).get pairingScript_isSome).heap p).hist →
      ∃ y, (((script .plain oneContext pairingScript).get pairingScript_isSome).heap p).connCtx.point
        = .yielded y :=
  pairing (reachable_get _ pairingScript_isSome)

end SrvAsync
