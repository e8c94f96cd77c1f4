import SrvAsync.Lifecycle

/-!
# Handlers that are abandoned

At the end of a stream, and after a short transfer, `recv_from_curr_conn` and
`send_to_curr_conn` return to their callers, and the handler destroys what it made.
After a hard error they close the connection and switch to the main context, which
removes the connection and never comes back: what the frames of the handler own is
lost.

## Main results

* `abandoned` — a reset while a response is sent loses the request, the response
  and its text.
* `unwound` — without a hard error every coroutine has returned from its handler,
  and destroyed what it made, when its connection leaves the queue.
-/

namespace SrvAsync

open Http History Machine Worker

variable {P : Platform} {w w₀ : Worker}

/-- No `read` and no `write` returns a hard error. -/
def NoHardError (_ : Worker) (i : Tick × WorkerOp) : Prop :=
  i.2 ≠ .co (.read .error) ∧ i.2 ≠ .co (.write .error)

/-- A session that did not fail. -/
def NotFailed (_ : ℕ) (a : Session) : Prop := a.stage ≠ .failed

theorem starts_notFailed : Starts NotFailed := fun _ _ _ _ _ => Stage.noConfusion

/-- Without a hard error no session fails. -/
theorem workerCarries_notFailed {w : Worker} {i : Tick × WorkerOp} (h : NoHardError w i) :
    WorkerCarries P NotFailed i.2 := by
  obtain ⟨t, op⟩ := i
  obtain ⟨hr, hw⟩ := h
  have hsilent : ∀ {op : Op}, (∀ l, op.Emits l → ∀ l' ∈ l, ¬ l'.HardError) →
      Carries P NotFailed op := fun hop _ _ l _ hl _ ha => (Session.sees_step ha).stage
        fun l' hl' => hop l hl l' (Option.mem_toList.mp hl')
  cases op with
  | block | poll | back | endPass => trivial
  | resume fcntlOk =>
    refine hsilent fun l hl l' hl' => ?_
    rw [show l = none from hl] at hl'
    cases hl'
  | co op =>
    refine hsilent fun l hl l' hl' => ?_
    cases op with
    | resume | check =>
      rw [show l = none from hl] at hl'
      cases hl'
    | read r =>
      obtain ⟨b, rfl⟩ := hl
      obtain rfl := Option.some.inj hl'
      exact fun he => hr (congrArg (WorkerOp.co ∘ Op.read) he)
    | write r =>
      obtain ⟨b, rfl⟩ := hl
      obtain rfl := Option.some.inj hl'
      exact fun he => hw (congrArg (WorkerOp.co ∘ Op.write) he)

/-- A coroutine of a closed connection that did not fail has returned from everything. -/
theorem Stands.ended_of_completed {c : Conn} {size : ℕ} {pt : Point} {st : Stage}
    (h : Stands P c size pt st) (hc : c.isCompleted = true) (hst : st ≠ .failed) :
    pt = .ended ∧ c.live = [] := by
  have hcom : c.isCompleted ≠ false := by rw [hc]; exact Bool.noConfusion
  cases h with
  | ended h => exact ⟨rfl, h.live⟩
  | recvFailed | sendFailed => exact absurd rfl hst
  | start hc' => exact absurd hc' hcom
  | recvHdr h => exact absurd h.opened hcom
  | waitHdr h => exact absurd h.opened hcom
  | recvBody h => exact absurd h.opened hcom
  | waitBody h => exact absurd h.opened hcom
  | checkChunk h => exact absurd h.opened hcom
  | yieldChunk h => exact absurd h.opened hcom
  | send h => exact absurd h.opened hcom
  | waitSend h => exact absurd h.opened hcom
  | checkPacket h => exact absurd h.opened hcom
  | yieldPacket h => exact absurd h.opened hcom
  | checkAnswered h => exact absurd h.opened hcom
  | yieldAnswered h => exact absurd h.opened hcom

/-- **Without a hard error no handler is abandoned**: in every state of the run, every
connection that left the queue had returned from its handler and owns no objects. -/
theorem unwound {heap : Ptr → Conn} {mem : Ptr → ℕ → Byte} {outs : List (Option Ptr)}
    {is : List (Tick × WorkerOp)} (h₀ : init heap mem outs = some w₀)
    (hno : Along NoHardError (step P) w₀ is) (hr : run (step P) w₀ is = some w) :
    ∀ c ∈ w.retired, c.connCtx.point = .ended ∧ c.live = [] := by
  have hi := inv_along starts_notFailed h₀ (hno.imp fun _ _ h => workerCarries_notFailed h) hr
  intro c hc
  have hg := hi.gone c hc
  obtain ⟨a, b, hst, hrep⟩ := hg.rep
  exact hrep.stands.ended_of_completed hg.completed hst

/-- The client of this script was served, and made no hard error. -/
theorem answeredScript_served :
    (script .plain oneContext answeredScript).any (fun w => (∃ c ∈ w.retired,
      (requests c.hist).length = 1 ∧ (responses c.hist).length = 1)) = true ∧
    ∀ op ∈ answeredScript, op.2 ≠ .co (.read .error) ∧ op.2 ≠ .co (.write .error) := by
  decide +kernel

theorem unwound_answered : ∃ w, Reachable .plain w ∧ ∃ c ∈ w.retired,
    (requests c.hist).length = 1 ∧ (responses c.hist).length = 1 ∧
      c.connCtx.point = .ended ∧ c.live = [] := by
  obtain ⟨hserved, hno⟩ := answeredScript_served
  obtain ⟨w, hw, hserved⟩ := (Option.any_eq_true _ _).mp hserved
  obtain ⟨c, hc, hreq, hresp⟩ := of_decide_eq_true hserved
  obtain ⟨w₀, h₀, hr⟩ := Option.bind_eq_some_iff.mp hw
  have halong : Along NoHardError (step .plain) w₀
      (answeredScript.map fun op => (Tick.atTime op.1, op.2)) := by
    refine along_of_forall fun i hi _ => ?_
    obtain ⟨op, hop, rfl⟩ := List.mem_map.mp hi
    exact hno op hop
  exact ⟨w, reachable_of_script _ hw, c, hc, hreq, hresp, unwound h₀ halong hr c hc⟩

/-- A client that resets its connection while the response is on its way. -/
def resetScript : List (Time × WorkerOp) :=
  [(0, .poll (.ready (some 5) [])), (1, .resume true),
    (2, .co (.read (.data (ascii "GET / HTTP/1.1\r\n\r\n")))),
    (3, .co (.write .error)), (4, .back), (5, .endPass)]

theorem resetScript_isSome : (script .plain oneContext resetScript).isSome = true := by
  decide +kernel

/-- **A reset abandons the handler**: its connection has left the queue, and the request,
the response and its text are still there. -/
theorem abandoned : ∃ w, Reachable .plain w ∧ w.queue.qconnList = [] ∧
    ∃ c ∈ w.retired, c.live = [.text, .response, .request] := by
  have hat : ((script .plain oneContext resetScript).get resetScript_isSome).queue.qconnList = [] ∧
      ((script .plain oneContext resetScript).get resetScript_isSome).retired.map Conn.live =
        [[.text, .response, .request]] := by
    decide +kernel
  obtain ⟨hnil, hlive⟩ := hat
  refine ⟨_, reachable_get _ resetScript_isSome, hnil, ?_⟩
  have hmem : [Obj.text, .response, .request] ∈ ((script .plain oneContext resetScript).get
      resetScript_isSome).retired.map Conn.live := by
    rw [hlive]
    exact List.mem_singleton_self _
  exact List.mem_map.mp hmem

end SrvAsync
