import SrvAsync.Isolation

/-!
# The timeout of an operation

`recv_from_curr_conn` and `send_to_curr_conn` look at the timeout of the operation when
bytes were transferred, and only then.  After `EAGAIN` they wait for their socket and make
the call again, however late it is.

## Main definitions

* `St.place`, `Worker.place` — where the coroutine of a connection stands.
* `Point.InCall` — in the loop of a receive or send operation.
* `Worker.Late` — the clock at which an outcome is processed is past the timeout.

## Main results

* `timeout_enforced` — **a late outcome ends the call exactly when it is not `EAGAIN`**.
* `held_for_ever` — a read that is made again after the timeout.
-/

namespace SrvAsync

open Http History Machine Worker

variable {P : Platform} {w w' : Worker} {s : St} {t : Tick}

/-! ### Where a coroutine stands -/

/-- Where the coroutine of the current connection stands. -/
def St.place (s : St) : Point :=
  match s.ctl with
  | .coro pt => pt
  | _ => s.curr.connCtx.point

/-- Where the coroutine of a connection stands. -/
def Worker.place (w : Worker) (p : Ptr) : Point := (w.load p).place

/-- The coroutine is in the loop of `recv_from_curr_conn` or `send_to_curr_conn`: at the system
call, or in the swap after `EAGAIN`, behind which it makes the call again. -/
def Point.InCall : Point → Prop
  | .recv .. | .recvWait .. | .send .. | .sendWait .. => True
  | _ => False

instance : DecidablePred Point.InCall
  | .recv .. | .recvWait .. | .send .. | .sendWait .. => isTrue trivial
  | .start | .recvFailed .. | .sendFailed .. | .check .. | .yielded .. | .ended => isFalse id

@[simp] theorem place_swapToMainCtx (s : St) (pt : Point) : (s.swapToMainCtx pt).place = pt := rfl

@[simp] theorem place_store (w : Worker) (p : Ptr) (s : St) : (w.store p s).place p = s.place := by
  unfold Worker.place
  rw [load_store]

/-! ### What follows a call -/

/-- The body loop is left, or comes to its yield. -/
theorem not_inCall_recvHttpMsgChunk (req : HttpRequestMsg) (recvBufP : Ptr)
    (size bodyLen gotLen toRecv : ℤ) (s : St) (count : ℤ) :
    ¬ (recvHttpMsgChunk req recvBufP size bodyLen gotLen toRecv s count).place.InCall := by
  unfold recvHttpMsgChunk
  split
  · exact id
  · exact id

/-- The packet loop is left, or comes to its yield. -/
theorem not_inCall_sendHttpMsgSent (k : SendCaller) (s : St) (count : ℤ) :
    ¬ (sendHttpMsgSent k s count).place.InCall := by
  unfold sendHttpMsgSent
  split
  · exact id
  · exact id

/-! ### Late outcomes -/

theorem startOp_updateActive (s : St) (now : Time) :
    (s.currConnUpdateActive now).curr.startOp = s.curr.startOp := by
  rw [currConnUpdateActive_eq]

/-- The test of the timeout of an operation that is late. -/
theorem opTimeout_of_lt {now timeout : Time} (hfin : timeout ≠ timeoutInf)
    (hlate : s.curr.startOp + timeout < now) :
    (timeout != timeoutInf && s.currConnOpTimeout now timeout) = true := by
  have hlt : timeout < now - s.curr.startOp := Int.lt_sub_left_of_add_lt hlate
  rw [bne_iff_ne.mpr hfin, Bool.true_and]
  exact decide_eq_true hlt

/-- A late outcome of a `read` for a body leaves the call, unless it is `EAGAIN`. -/
theorem inCall_recvRead_iff {f : RecvFrame} {k : RecvCaller} {ret : St → ℤ → St} {r : ReadResult}
    (hfin : f.timeout ≠ timeoutInf) (hterm : f.terminator = false)
    (hlate : s.curr.startOp + f.timeout < t.clk 1)
    (hret : ∀ s count, ¬ (ret s count).place.InCall) :
    (recvRead s t f k ret r).place.InCall ↔ r = .again := by
  cases r with
  | again =>
    refine ⟨fun _ => rfl, fun _ => ?_⟩
    simp only [recvRead, place_swapToMainCtx]
    trivial
  | error => exact ⟨fun h => h.elim, fun h => by cases h⟩
  | eof =>
    refine ⟨fun h => ?_, fun h => by cases h⟩
    simp only [recvRead, recvLoop] at h
    rw [if_neg (by simp)] at h
    exact absurd h (hret _ _)
  | data bs =>
    refine ⟨fun h => ?_, fun h => by cases h⟩
    have htimeout : (f.timeout != timeoutInf &&
        ((s.poke f.buf f.nRecv bs).currConnUpdateActive (t.clk 0)).currConnOpTimeout (t.clk 1)
          f.timeout) = true := by
      refine opTimeout_of_lt hfin ?_
      rw [startOp_updateActive]
      exact hlate
    simp only [recvRead, hterm, Bool.false_eq_true, if_false, htimeout, recvLoop] at h
    rw [if_neg (by simp)] at h
    exact absurd h (hret _ _)

/-- A late outcome of a `write` leaves the call, unless it is `EAGAIN`. -/
theorem inCall_sendWrite_iff {f : SendFrame} {k : SendCaller} {r : WriteResult}
    (hfin : f.timeout ≠ timeoutInf) (hlate : s.curr.startOp + f.timeout < t.clk 1) :
    (sendWrite s t f k (sendHttpMsgSent k) r).place.InCall ↔ r = .again := by
  cases r with
  | again =>
    refine ⟨fun _ => rfl, fun _ => ?_⟩
    simp only [sendWrite, place_swapToMainCtx]
    trivial
  | error => exact ⟨fun h => h.elim, fun h => by cases h⟩
  | zero =>
    refine ⟨fun h => ?_, fun h => by cases h⟩
    simp only [sendWrite, sendLoop] at h
    rw [if_neg (by simp)] at h
    exact absurd h (not_inCall_sendHttpMsgSent k _ _)
  | sent n =>
    refine ⟨fun h => ?_, fun h => by cases h⟩
    have htimeout : (f.timeout != timeoutInf &&
        (s.currConnUpdateActive (t.clk 0)).currConnOpTimeout (t.clk 1) f.timeout) = true := by
      refine opTimeout_of_lt hfin ?_
      rw [startOp_updateActive]
      exact hlate
    simp only [sendWrite, htimeout, sendLoop] at h
    rw [if_neg (by simp)] at h
    exact absurd h (not_inCall_sendHttpMsgSent k _ _)

/-! ### The calls of a worker -/

/-- The outcome of a call of the running coroutine is processed past the timeout of the operation:
the clock is read twice, and the readings do not decrease. -/
structure Worker.Late (w : Worker) (p : Ptr) (timeout : Time) (t : Tick) : Prop where
  currConn : w.queue.currConn = some p
  finite : timeout ≠ timeoutInf
  late : (w.heap p).startOp + timeout < t.clk 0
  monotone : t.clk 0 ≤ t.clk 1

/-- A receive operation with a timeout is one for a body. -/
theorem body_of_finite (hw : Reachable P w) {f : RecvFrame} {k : RecvCaller}
    (hctl : w.ctl = .coro (.recv f k)) (hfin : f.timeout ≠ timeoutInf) :
    f.terminator = false ∧ f.toRecv ≠ 0 ∧
      ∀ t s count, ¬ (recvReturned P t k s count).place.InCall := by
  obtain ⟨-, -, -, -, a, -, hrep⟩ := rep_of_coro hw hctl
  have hst := hrep.stands
  generalize a.stage = st at hst
  cases hst with
  | recvHdr hat =>
    rw [hat.frame] at hfin
    exact absurd rfl hfin
  | recvBody hat =>
    have hlt := hat.lt
    rw [hat.frame, hat.caller]
    refine ⟨rfl, ?_, fun t s count => not_inCall_recvHttpMsgChunk _ _ _ _ _ _ s count⟩
    simp only
    omega

/-- A send operation has something to send. -/
theorem toSend_ne_zero (hw : Reachable P w) {f : SendFrame} {k : SendCaller}
    (hctl : w.ctl = .coro (.send f k)) : f.toSend ≠ 0 := by
  obtain ⟨-, -, -, -, a, -, hrep⟩ := rep_of_coro hw hctl
  have hst := hrep.stands
  generalize a.stage = st at hst
  cases hst with
  | send hat =>
    have hlt := hat.lt
    rw [hat.frame]
    simp only
    omega

/-- A coroutine that waits for its socket makes its call again when it is resumed. -/
theorem ctl_resume_recvWait {f : RecvFrame} {k : RecvCaller}
    (h : s.curr.connCtx.point = .recvWait f k) (hto : f.toRecv ≠ 0) (b : Bool) :
    (resume P s t b).ctl = .coro (.recv f k) := by
  unfold resume
  simp only [h, recvLoop]
  rw [if_pos ⟨hto, trivial, trivial⟩]
  rfl

theorem ctl_resume_sendWait {f : SendFrame} {k : SendCaller}
    (h : s.curr.connCtx.point = .sendWait f k) (hto : f.toSend ≠ 0) (b : Bool) :
    (resume P s t b).ctl = .coro (.send f k) := by
  unfold resume
  simp only [h, sendLoop]
  rw [if_pos ⟨hto, trivial, trivial⟩]
  rfl

/-- **A late outcome of a call ends it exactly when it is not `EAGAIN`**: then the coroutine makes
no further read or write in it.  After `EAGAIN` the coroutine makes the call again when it is
resumed. -/
theorem timeout_enforced (hw : Reachable P w) {p : Ptr} :
    (∀ f k r w', w.ctl = .coro (.recv f k) → w.Late p f.timeout t →
      w.step P (t, .co (.read r)) = some w' → (¬ (w'.place p).InCall ↔ r ≠ .again) ∧
        (r = .again → ∀ t' b, (resume P (w'.load p) t' b).ctl = .coro (.recv f k))) ∧
    (∀ f k r w', w.ctl = .coro (.send f k) → w.Late p f.timeout t →
      w.step P (t, .co (.write r)) = some w' → (¬ (w'.place p).InCall ↔ r ≠ .again) ∧
        (r = .again → ∀ t' b, (resume P (w'.load p) t' b).ctl = .coro (.send f k))) := by
  constructor
  · intro f k r w' hctl hlate hs
    obtain ⟨hterm, hto, hret⟩ := body_of_finite hw hctl hlate.finite
    have hlt : (w.load p).curr.startOp + f.timeout < t.clk 1 :=
      Int.lt_of_lt_of_le hlate.late hlate.monotone
    rw [step_read hctl hlate.currConn] at hs
    obtain ⟨-, hs⟩ := Option.ite_none_right_eq_some.mp hs
    obtain rfl := Option.some.inj hs
    rw [place_store, load_store]
    refine ⟨not_congr (inCall_recvRead_iff hlate.finite hterm hlt (hret t)), ?_⟩
    rintro rfl t' b
    exact ctl_resume_recvWait rfl hto b
  · intro f k r w' hctl hlate hs
    have hto := toSend_ne_zero hw hctl
    have hlt : (w.load p).curr.startOp + f.timeout < t.clk 1 :=
      Int.lt_of_lt_of_le hlate.late hlate.monotone
    rw [step_write hctl hlate.currConn] at hs
    obtain ⟨-, hs⟩ := Option.ite_none_right_eq_some.mp hs
    obtain rfl := Option.some.inj hs
    rw [place_store, load_store]
    refine ⟨not_congr (inCall_sendWrite_iff hlate.finite hlt), ?_⟩
    rintro rfl t' b
    exact ctl_resume_sendWait rfl hto b

/-- A body of five bytes is announced, and four of them arrive. -/
def bodyScript : List (Time × WorkerOp) :=
  [(0, .poll (.ready (some 5) [])), (1, .resume true),
    (2, .co (.read (.data (ascii "POST / HTTP/1.1\r\nContent-Length: 5\r\n\r\n")))),
    (3, .co (.read (.data (ascii "abcd"))))]

theorem bodyScript_isSome : (script .plain oneContext bodyScript).isSome = true := by decide +kernel

/-- The worker of this script. -/
def bodyWorker : Worker := (script .plain oneContext bodyScript).get bodyScript_isSome

/-- The frame of the read for the fifth byte. -/
def fifthByte : RecvFrame := ⟨1, 1, 4, 0, clientOpTimeout, false⟩

/-- Ten seconds later. -/
def tenSeconds : Time := 10000000000

/-- The read for the fifth byte. -/
theorem ctl_bodyWorker : ∃ k, bodyWorker.ctl = .coro (.recv fifthByte k) := ⟨_, rfl⟩

theorem late_bodyWorker : bodyWorker.Late 1 fifthByte.timeout (Tick.atTime tenSeconds) :=
  ⟨by decide +kernel, by decide, by decide +kernel, Int.le_refl _⟩

/-- The fifth byte comes late: the operation is over. -/
theorem timeout_enforced_byte : ∃ w',
    bodyWorker.step .plain (Tick.atTime tenSeconds, .co (.read (.data (ascii "e")))) = some w' ∧
      ¬ (w'.place 1).InCall := by
  obtain ⟨k, hctl⟩ := ctl_bodyWorker
  have hsome : (bodyWorker.step .plain
      (Tick.atTime tenSeconds, .co (.read (.data (ascii "e"))))).isSome = true := by decide +kernel
  have hstep := (Option.some_get hsome).symm
  obtain ⟨hread, -⟩ := timeout_enforced (reachable_get .plain bodyScript_isSome)
  obtain ⟨hiff, -⟩ := hread _ k _ _ hctl late_bodyWorker hstep
  exact ⟨_, hstep, hiff.mpr ReadResult.noConfusion⟩

/-- What follows an `EAGAIN`, until the coroutine is resumed. -/
def backAndAgain : List (Tick × WorkerOp) :=
  [(Tick.atTime tenSeconds, .back), (Tick.atTime tenSeconds, .endPass),
    (Tick.atTime (2 * tenSeconds), .poll .eintr), (Tick.atTime (2 * tenSeconds), .resume true)]

theorem held_isSome :
    (bodyWorker.step .plain (Tick.atTime tenSeconds, .co (.read .again))).isSome = true := by
  decide +kernel

/-- The worker whose connection waits for the fifth byte. -/
def heldWorker : Worker :=
  (bodyWorker.step .plain (Tick.atTime tenSeconds, .co (.read .again))).get held_isSome

theorem again_isSome : (run (step .plain) heldWorker backAndAgain).isSome = true := by decide +kernel

/-- **The fifth byte does not come**: ten seconds later the operation waits, and after ten more
the coroutine reads again in it. -/
theorem held_for_ever : ∃ w f k p t w', Reachable .plain w ∧ w.ctl = .coro (.recv f k) ∧
    w.Late p f.timeout t ∧ w.step .plain (t, .co (.read .again)) = some w' ∧ (w'.place p).InCall ∧
    ∃ w'', run (step .plain) w' backAndAgain = some w'' ∧ w''.ctl = .coro (.recv f k) := by
  obtain ⟨k, hctl⟩ := ctl_bodyWorker
  refine ⟨bodyWorker, fifthByte, k, 1, Tick.atTime tenSeconds, heldWorker,
    reachable_get .plain bodyScript_isSome, hctl, late_bodyWorker, (Option.some_get held_isSome).symm,
    by decide +kernel, _, (Option.some_get again_isSome).symm, ?_⟩
  exact (rfl : _ = bodyWorker.ctl).trans hctl

end SrvAsync
