import SrvAsync.Isolation

/-!
# How long a coroutine can run

A coroutine gives up the processor when its socket has nothing for it, and at the clock
tests of `cond_swap_to_main_ctx`.  Between two clock tests it reads a header section and
then a chunk of a body, or sends a packet; every `read` and `write` in between brings it
closer to the next test.  So once its time is over, a coroutine makes a bounded number of
system calls, whatever its client does.

## Main definitions

* `Stage.rank` — how many reads and writes there can be before the next clock test.
* `Stage.Capped` — the chunks and packets are not longer than the buffer and a packet.

## Main results

* `rank_visible` — an answer of the socket that brings anything lowers the rank.
* `slice_bounded` — **a coroutine whose time is over soon gives up the processor**.
-/

namespace SrvAsync

open Http Machine Worker

variable {P : Platform} {a a' : Session} {size : ℕ}

/-! ### The rank of a stage -/

/-- How many reads and writes there can be before the next clock test. -/
def Stage.rank (size : ℕ) : Stage → ℕ
  | .hdr _ n => size - n + max size 8192
  | .body _ _ _ toRecv n => toRecv - n
  | .send _ _ _ toSend n => toSend - n
  | _ => 0

/-- The chunks and packets are not longer than the buffer and a packet. -/
def Stage.Capped (size : ℕ) : Stage → Prop
  | .body _ _ _ toRecv _ => toRecv ≤ size
  | .send _ _ _ toSend _ => toSend ≤ 8192
  | _ => True

/-- There is something to read or write in an operation that has not ended. -/
def Stage.Roomy (size : ℕ) : Stage → Prop
  | .hdr _ n => n < size
  | .body _ _ _ toRecv n => n < toRecv
  | .send _ _ _ toSend n => n < toSend
  | _ => True

/-- No operation is under way. -/
def Stage.Halts : Stage → Prop
  | .hdr .. | .body .. | .send .. => False
  | _ => True

/-- A stage behind the header section of a request. -/
def Stage.Behind (size : ℕ) : Stage → Prop
  | .hdr _ _ => False
  | st => st.Capped size

theorem Stage.Behind.capped {st : Stage} (h : st.Behind size) : st.Capped size := by
  cases st with
  | hdr => exact h.elim
  | _ => exact h

theorem Stage.Behind.rank_le {st : Stage} (h : st.Behind size) : st.rank size ≤ max size 8192 := by
  cases st with
  | hdr => exact h.elim
  | body req bodyLen gotLen toRecv n =>
    have hle : toRecv ≤ size := h
    change toRecv - n ≤ max size 8192
    omega
  | send req reply curr toSend n =>
    have hle : toSend ≤ 8192 := h
    change toSend - n ≤ max size 8192
    omega
  | _ => exact Nat.zero_le _

theorem Stage.Capped.rank_le {st : Stage} (h : st.Capped size) :
    st.rank size ≤ size + max size 8192 := by
  by_cases hhdr : ∃ prev n, st = .hdr prev n
  · obtain ⟨prev, n, rfl⟩ := hhdr
    change size - n + max size 8192 ≤ size + max size 8192
    omega
  · have hbehind : st.Behind size := by
      cases st with
      | hdr prev n => exact absurd ⟨prev, n, rfl⟩ hhdr
      | _ => exact h
    exact hbehind.rank_le.trans (Nat.le_add_left _ _)

/-- How an operation goes on: more of it is done, or it ends; behind a header section the next
one begins. -/
inductive Stage.Advances (size : ℕ) : Stage → Stage → Prop
  | hdr {prev n m : ℕ} (h : n < m) : Advances size (.hdr prev n) (.hdr prev m)
  | behind {prev n : ℕ} {st : Stage} (h : st.Behind size) : Advances size (.hdr prev n) st
  | body {req : HttpRequestMsg} {bodyLen gotLen toRecv n m : ℕ} (h : n < m) :
    Advances size (.body req bodyLen gotLen toRecv n) (.body req bodyLen gotLen toRecv m)
  | bodyHalts {req : HttpRequestMsg} {bodyLen gotLen toRecv n : ℕ} {st : Stage} (h : st.Halts) :
    Advances size (.body req bodyLen gotLen toRecv n) st
  | send {req : HttpRequestMsg} {reply : Reply} {curr toSend n m : ℕ} (h : n < m) :
    Advances size (.send req reply curr toSend n) (.send req reply curr toSend m)
  | sendHalts {req : HttpRequestMsg} {reply : Reply} {curr toSend n : ℕ} {st : Stage}
    (h : st.Halts) : Advances size (.send req reply curr toSend n) st

theorem Stage.Halts.behind {st : Stage} (h : st.Halts) : st.Behind size := by
  cases st with
  | hdr | body | send => exact h.elim
  | _ => trivial

theorem Stage.Halts.rank_eq {st : Stage} (h : st.Halts) : st.rank size = 0 := by
  cases st with
  | hdr | body | send => exact h.elim
  | _ => rfl

theorem Stage.Advances.capped {st st' : Stage} (h : st.Advances size st') (hc : st.Capped size) :
    st'.Capped size := by
  cases h with
  | hdr => trivial
  | behind h => exact h.capped
  | body => exact hc
  | send => exact hc
  | bodyHalts h | sendHalts h => exact h.behind.capped

/-- An operation that goes on has less to do. -/
theorem Stage.Advances.rank_lt {st st' : Stage} (h : st.Advances size st') (hroom : st.Roomy size) :
    st'.rank size < st.rank size := by
  cases h with
  | @hdr prev n m h =>
    have hn : n < size := hroom
    change size - m + max size 8192 < size - n + max size 8192
    omega
  | @behind prev n st h =>
    have hn : n < size := hroom
    have hle := h.rank_le
    change st'.rank size < size - n + max size 8192
    omega
  | @body req bodyLen gotLen toRecv n m h =>
    have hn : n < toRecv := hroom
    change toRecv - m < toRecv - n
    omega
  | @bodyHalts req bodyLen gotLen toRecv n st h =>
    have hn : n < toRecv := hroom
    rw [h.rank_eq]
    exact Nat.sub_pos_of_lt hn
  | @send req reply curr toSend n m h =>
    have hn : n < toSend := hroom
    change toSend - m < toSend - n
    omega
  | @sendHalts req reply curr toSend n st h =>
    have hn : n < toSend := hroom
    rw [h.rank_eq]
    exact Nat.sub_pos_of_lt hn

/-- An answer that is not `EAGAIN`. -/
def Answer.Brings : Answer → Prop
  | .read r _ => r ≠ .again
  | .write r _ => r ≠ .again

namespace Session

open Stage (Advances)

/-! ### What a session does behind a header section -/

theorem behind_deliver (req : HttpRequestMsg) : (a.deliver P req).stage.Behind size := by
  unfold deliver
  simp only
  split
  · trivial
  · exact Nat.min_le_left _ _

theorem behind_bodyLoop (hsize : a.size = size) (req : HttpRequestMsg) (bodyLen gotLen : ℕ) :
    (a.bodyLoop P req bodyLen gotLen).stage.Behind size := by
  unfold bodyLoop
  split
  · exact hsize ▸ Nat.min_le_right _ _
  · exact behind_deliver req

theorem behind_hdrGot (hsize : a.size = size) (hdr : Bytes) :
    (a.hdrGot P hdr).stage.Behind size := by
  unfold hdrGot
  split
  · unfold bodyHave
    split
    · trivial
    · refine behind_bodyLoop ?_ _ _ _
      split <;> exact hsize
  · exact behind_deliver _

theorem behind_hdrReceived (hsize : a.size = size) (prev n : ℕ) :
    (a.hdrReceived P prev n).stage.Behind size := by
  unfold hdrReceived
  split
  · trivial
  · simp only
    split
    · trivial
    · refine behind_hdrGot ?_ _
      exact hsize

theorem capped_ask (hsize : a.size = size) : (a.ask P).stage.Capped size := by
  unfold ask
  simp only
  split
  · split
    · split <;> trivial
    · refine (behind_hdrGot ?_ _).capped
      exact hsize
  · trivial

/-! ### Steps of a session -/

theorem halts_bodyReceived (req : HttpRequestMsg) (bodyLen gotLen toRecv n : ℕ) :
    (a.bodyReceived req bodyLen gotLen toRecv n).stage.Halts := by
  unfold bodyReceived
  split <;> trivial

theorem halts_sent (req : HttpRequestMsg) (reply : Reply) (curr toSend n : ℕ) :
    (a.sent req reply curr toSend n).stage.Halts := by
  unfold sent
  split <;> trivial

/-- **What an answer of the socket does to the stage**: nothing when it is `EAGAIN`, else it
brings the operation on, or ends it. -/
theorem advances_of_visible {l : Answer} (hs : a.visible P l = some a') :
    (¬ l.Brings ∧ a'.stage = a.stage) ∨ Advances a.size a.stage a'.stage := by
  cases hears_of_visible hs with
  | @hdr prev n r timedOut he hfits =>
    rw [he]
    cases r with
    | again => exact .inl ⟨fun h => h rfl, he⟩
    | error => exact .inr (.behind trivial)
    | eof =>
      refine .inr (.behind (behind_hdrReceived ?_ _ _))
      rfl
    | data bs =>
      have hpos := List.length_pos_iff.mpr hfits.1
      unfold hdrRead hdrData
      simp only
      split
      · exact .inr (.behind trivial)
      · split
        · exact .inr (.hdr (by omega))
        · refine .inr (.behind (behind_hdrReceived ?_ _ _))
          rfl
  | @body req bodyLen gotLen toRecv n r timedOut he hfits =>
    rw [he]
    cases r with
    | again => exact .inl ⟨fun h => h rfl, he⟩
    | error => exact .inr (.bodyHalts trivial)
    | eof => exact .inr (.bodyHalts (halts_bodyReceived _ _ _ _ _))
    | data bs =>
      have hpos := List.length_pos_iff.mpr hfits.1
      unfold bodyRead bodyData
      simp only
      split
      · exact .inr (.body (by omega))
      · exact .inr (.bodyHalts (halts_bodyReceived _ _ _ _ _))
  | @send req reply curr toSend n r timedOut he hfits =>
    rw [he]
    cases r with
    | again => exact .inl ⟨fun h => h rfl, he⟩
    | error => exact .inr (.sendHalts trivial)
    | zero => exact .inr (.sendHalts (halts_sent _ _ _ _ _))
    | sent m =>
      have hpos : 0 < m := hfits.1
      unfold sendWrote
      simp only
      split
      · exact .inr (.send (by omega))
      · exact .inr (.sendHalts (halts_sent _ _ _ _ _))

theorem capped_visible {l : Answer} (hc : a.stage.Capped a.size) (hs : a.visible P l = some a') :
    a'.stage.Capped a.size := by
  rcases advances_of_visible hs with ⟨-, he⟩ | h
  · rw [he]
    exact hc
  · exact h.capped hc

/-- **An answer of the socket that brings anything lowers the rank.** -/
theorem rank_visible {l : Answer} (hroom : a.stage.Roomy a.size) (hl : l.Brings)
    (hs : a.visible P l = some a') : a'.stage.rank a.size < a.stage.rank a.size := by
  rcases advances_of_visible hs with ⟨hnot, -⟩ | h
  · exact absurd hl hnot
  · exact h.rank_lt hroom

theorem capped_silent (hs : a.silent P = some a') : a'.stage.Capped a.size := by
  cases moves_of_silent hs with
  | ask => exact capped_ask rfl
  | chunk => exact (behind_bodyLoop rfl _ _ _).capped
  | packet => exact Nat.min_le_left _ _
  | answered => trivial
  | closed => trivial
  | again =>
    refine capped_ask ?_
    rfl
  | failed => trivial

end Session

/-! ### The sessions of a worker -/

/-- The size of the buffer of a connection, and a stage that keeps to it. -/
def CappedSession (_ : ℕ) (a : Session) : Prop :=
  a.size = recvBufSize.toNat ∧ a.stage.Capped a.size

theorem starts_capped : Starts CappedSession := fun _ _ _ _ _ => ⟨rfl, trivial⟩

theorem carries_capped (op : Op) : Carries P CappedSession op := by
  rintro uses a l a' - ⟨hsize, hc⟩ hs
  have hsize' := (Session.sees_step hs).size
  refine ⟨hsize'.trans hsize, ?_⟩
  rw [hsize']
  cases l with
  | none => exact Session.capped_silent hs
  | some l => exact Session.capped_visible hc hs

/-- A coroutine in a `read` or `write` has something to read or write. -/
theorem Stands.roomy {c : Conn} {pt : Point} {st : Stage} (h : Stands P c size pt st) :
    st.Roomy size := by
  cases h with
  | recvHdr h | waitHdr h => exact h.lt
  | recvBody h | waitBody h => exact h.lt
  | send h | waitSend h => exact h.lt
  | _ => trivial

/-! ### A coroutine whose time is over -/

/-- The running coroutine goes on, and its time is over when it makes a clock test. -/
def Overdue (w : Worker) (i : Tick × WorkerOp) : Prop :=
  ∃ op, i.2 = .co op ∧ (op = .check → ctxSwapTimeout < i.1.clk 0 - w.queue.lastCtxSwap)

instance Overdue.decidable (w : Worker) : (i : Tick × WorkerOp) → Decidable (Overdue w i)
  | (t, .co op) =>
    decidable_of_iff (op = .check → ctxSwapTimeout < t.clk 0 - w.queue.lastCtxSwap)
      ⟨fun h => ⟨op, rfl, h⟩, fun ⟨_, he, h⟩ => WorkerOp.co.inj he ▸ h⟩
  | (_, .block) | (_, .poll _) | (_, .resume _) | (_, .back) | (_, .endPass) =>
    isFalse fun ⟨_, he, _⟩ => WorkerOp.noConfusion he

variable {w w' : Worker} {is : List (Tick × WorkerOp)}

/-- When the main context runs, no coroutine goes on. -/
theorem eq_nil_of_main (hctl : w.ctl = .main) (hover : Along Overdue (step P) w is)
    (hrun : run (step P) w is = some w') : is = [] := by
  cases is with
  | nil => rfl
  | cons i is =>
    obtain ⟨t, op⟩ := i
    obtain ⟨op, rfl, -⟩ := hover.1
    obtain ⟨w₁, h₁, -⟩ := run_cons_eq_some_iff.mp hrun
    obtain ⟨pt, p, s', hcoro, -⟩ := step_co h₁
    exact Control.noConfusion (hctl.symm.trans hcoro)

/-- The steps of a coroutine, counted with the rank of its session. -/
theorem length_le_rank {p : Ptr} (hcur : w.queue.currConn = some p) (href : Refines P (w.load p) a)
    (hover : Along Overdue (step P) w is) (hrun : run (step P) w is = some w') :
    is.length ≤ a.stage.rank a.size + 1 := by
  induction is generalizing w a with
  | nil => exact Nat.zero_le _
  | cons i is ih =>
    obtain ⟨t, op⟩ := i
    obtain ⟨⟨op, rfl, hlate⟩, hover⟩ := hover
    obtain ⟨w₁, h₁, hrun⟩ := run_cons_eq_some_iff.mp hrun
    replace hover := hover w₁ h₁
    obtain ⟨pt, p', s', hctl, hcur', hst, rfl⟩ := step_co h₁
    obtain rfl := Option.some.inj (hcur.symm.trans hcur')
    obtain ⟨a', href', ha⟩ := refines_step href hst
    have hcur₁ : (w.store p s').queue.currConn = some p := (shares_step href hst).currConn.trans hcur
    -- a coroutine that has switched away makes no further step
    have hlast : s'.ctl = .main → (is.length + 1) ≤ a.stage.rank a.size + 1 := by
      intro hmain
      rw [eq_nil_of_main hmain hover hrun]
      exact Nat.succ_le_succ (Nat.zero_le _)
    -- an answer that brings something lowers the rank
    have hnext : ∀ l, l.Brings → a.stage.Roomy a.size → a.step P (some l) = some a' →
        (is.length + 1) ≤ a.stage.rank a.size + 1 := by
      intro l hl hroom hv
      have hlt := Session.rank_visible hroom hl hv
      have hrest := ih hcur₁ ((load_store w p s').symm ▸ href') hover hrun
      rw [(Session.sees_step hv).size] at hrest
      change is.length + 1 ≤ _
      omega
    cases op with
    | resume fcntlOk => exact Control.noConfusion (hctl.symm.trans (St.step_resume hst).1)
    | check =>
      obtain ⟨y, hcheck, -⟩ := St.step_check hst
      have hneed : (w.load p).needCtxSwap (t.clk 0) = true := decide_eq_true (hlate rfl)
      rw [St.step_of_check hcheck, if_pos hneed] at hst
      exact hlast (Option.some.inj hst ▸ rfl)
    | read r =>
      obtain ⟨f, k, hrecv, -, hs'⟩ := St.step_read hst
      have hroom := ((refines_coro_iff hrecv).mp href).2.stands.roomy
      rcases ha with ⟨-, hnone⟩ | ⟨l, ⟨b, rfl⟩, hv⟩
      · obtain ⟨b, hb⟩ := hnone
        cases hb
      · cases r with
        | again => exact hlast (by rw [hs']; rfl)
        | _ => exact hnext _ (by simp [Answer.Brings]) hroom hv
    | write r =>
      obtain ⟨f, k, hsend, -, hs'⟩ := St.step_write hst
      have hroom := ((refines_coro_iff hsend).mp href).2.stands.roomy
      rcases ha with ⟨-, hnone⟩ | ⟨l, ⟨b, rfl⟩, hv⟩
      · obtain ⟨b, hb⟩ := hnone
        cases hb
      · cases r with
        | again => exact hlast (by rw [hs']; rfl)
        | _ => exact hnext _ (by simp [Answer.Brings]) hroom hv

/-- **A coroutine whose time is over soon gives up the processor**: in every state of every worker,
whatever the socket answers, it makes at most 16384 reads and writes and one clock test. -/
theorem slice_bounded (h : Reachable P w) (hover : Along Overdue (step P) w is)
    (hrun : run (step P) w is = some w') : is.length ≤ 16385 := by
  cases is with
  | nil => exact Nat.zero_le _
  | cons i is =>
    obtain ⟨t, op⟩ := i
    obtain ⟨op, rfl, -⟩ := hover.1
    obtain ⟨w₁, h₁, -⟩ := run_cons_eq_some_iff.mp hrun
    obtain ⟨pt, p, s', hctl, hcur, -⟩ := step_co h₁
    have hi := inv_of_carries starts_capped carries_capped h
    obtain ⟨p', todo, hph, hcur', -⟩ := hi.running hctl
    obtain rfl := Option.some.inj (hcur.symm.trans hcur')
    have hcon := hi.control
    rw [hph] at hcon
    obtain ⟨-, -, -, -, -, -, a, ⟨hsize, hcap⟩, href⟩ := hcon
    have hlen := length_le_rank hcur href hover hrun
    have hrank := hcap.rank_le
    have h8192 : recvBufSize.toNat = 8192 := rfl
    omega

/-- The coroutine of a client starts. -/
def startScript : List (Time × WorkerOp) := [(0, .poll (.ready (some 5) [])), (1, .resume true)]

theorem startScript_isSome : (script .plain oneContext startScript).isSome = true := by
  decide +kernel

/-- The worker of this script. -/
def startWorker : Worker := (script .plain oneContext startScript).get startScript_isSome

/-- Ten seconds later a request comes in four pieces, and then the coroutine looks at the
clock. -/
def latePieces : List (Tick × WorkerOp) :=
  [Op.read (.data (ascii "POST / HTTP/1.1\r\n")),
    .read (.data (ascii "Content-Length: 4\r\n\r\n")), .read (.data (ascii "ab")),
    .read (.data (ascii "cd")), .check].map fun op => (Tick.atTime 10000000000, .co op)

theorem latePieces_isSome : (run (step .plain) startWorker latePieces).isSome = true := by
  decide +kernel

theorem slice_bounded_pieces : latePieces.length ≤ 16385 :=
  slice_bounded (reachable_get .plain startScript_isSome) (by decide +kernel)
    (Option.some_get latePieces_isSome).symm

end SrvAsync
