import SrvAsync.Isolation
import SrvAsync.Receive.Expect

/-!
# The receive path is sound

However the reads split a byte stream, and whatever else they return, the requests
`recv_http_msg` delivers on a connection that starts with an empty buffer are an
initial segment of the reference decoding of the stream.

## Main definitions

* `Session.Sound` — what was delivered and what is to come is in the decoding.
* `Conn.Drained` — a context whose receive buffer is empty.

## Main results

* `recv_sound` — **soundness of the receive path**, for one connection whatever its
  steps are, and for the connections on fresh contexts of every worker.
-/

namespace SrvAsync

open Http History Machine Memory Worker

variable {P : Platform}

/-! ### Sessions -/

/-- What a session has delivered, and what is to come whatever follows, is in the reference
decoding of the bytes `L`, which were in its buffer before, and its stream. -/
structure Session.Sound (L : Bytes) (a : Session) : Prop where
  pos : 0 < a.size
  tidy : a.Tidy
  decoded : ∀ T, a.delivered ++ a.expect T <+: decode a.size (L ++ (a.received ++ T))

/-- A session that starts with an empty buffer expects the decoding of what follows. -/
theorem decode_start (size : ℕ) (buf : ℕ → Byte) (n : ℕ) (T : Bytes) :
    (Session.start size buf n n).expect T = decode size T := by
  change decode size (window buf n (n - n) ++ T) = decode size T
  rw [Nat.sub_self]
  rfl

/-- A session that starts with some bytes in its buffer. -/
theorem Session.sound_start (size : ℕ) (buf : ℕ → Byte) {have_ curr : ℕ} (hpos : 0 < size)
    (hle : curr ≤ have_) (hle' : have_ ≤ size) :
    (Session.start size buf have_ curr).Sound (window buf curr (have_ - curr)) where
  pos := hpos
  tidy := ⟨⟨hle, hle'⟩, trivial⟩
  decoded := fun _ => List.prefix_rfl

/-- A session that starts with an empty buffer. -/
theorem Session.sound_start_empty (size : ℕ) (buf : ℕ → Byte) {n : ℕ} (hpos : 0 < size)
    (hle : n ≤ size) : (Session.start size buf n n).Sound [] := by
  have hsound := Session.sound_start size buf hpos le_rfl hle
  rw [Nat.sub_self] at hsound
  exact hsound

/-- **One step keeps a session sound.** -/
theorem Session.Sound.step {L : Bytes} {a a' : Session} (h : a.Sound L) {l : Option Answer}
    (hs : a.step P l = some a') : a'.Sound L := by
  have hdec : ∀ T, a.delivered ++ a.expect (l.toList.flatMap Answer.bytes ++ T) <+:
      decode a.size (L ++ (a'.received ++ T)) := by
    intro T
    rw [Session.received_step hs, List.append_assoc]
    exact h.decoded _
  rcases Session.goes_or_stops h.tidy h.pos hs with hgo | ⟨hst, -⟩
  · refine ⟨hgo.size ▸ h.pos, hgo.tidy, fun T => ?_⟩
    rw [hgo.expect, hgo.size]
    exact hdec T
  · refine ⟨hst.size ▸ h.pos, hst.tidy, fun T => ?_⟩
    rw [hst.delivered, hst.expect, hst.size, List.append_nil]
    exact (List.prefix_append _ _).trans (hdec T)

/-- What a sound session delivered. -/
theorem Session.Sound.delivered_initial {L : Bytes} {a : Session} (h : a.Sound L) {S : Bytes}
    (hS : a.received <+: S) : a.delivered <+: decode a.size (L ++ S) := by
  obtain ⟨T, rfl⟩ := hS
  exact (List.prefix_append _ _).trans (h.decoded T)

/-- A run keeps a session sound. -/
theorem Session.Sound.run {L : Bytes} {a a' : Session} (h : a.Sound L) {ls : List (Option Answer)}
    (hr : run (Session.step P) a ls = some a') : a'.Sound L :=
  run_invariant (P := Session.Sound L) (fun _ _ _ hb hs => hb.step hs) ls h hr

/-- A run keeps the size of the buffer. -/
theorem Session.size_run {ls : List (Option Answer)} {a a' : Session}
    (h : run (Session.step P) a ls = some a') : a'.size = a.size :=
  run_invariant (P := fun b => b.size = a.size)
    (fun _ _ _ hb hs => (Session.sees_step hs).size.trans hb) ls rfl h

/-! ### Connections -/

/-- A context whose receive buffer is empty. -/
structure Conn.Drained (c : Conn) : Prop where
  size_pos : 0 < c.recvBufSize
  have_nonneg : 0 ≤ c.recvBufHave
  have_le : c.recvBufHave ≤ c.recvBufSize
  curr_eq : c.recvBufCurr = c.recvBufHave

/-- A new connection on an empty context. -/
theorem Conn.Drained.refines {c : Conn} (h : c.Drained) (g : Globals) (p : Ptr) (connSock : Fd)
    (inst : ℕ) : Refines P (St.accepted g c p connSock inst)
      (Session.start c.recvBufSize.toNat (g.mem c.recvBufP) c.recvBufHave.toNat
        c.recvBufHave.toNat) := by
  obtain ⟨h1, h2, h3, h4⟩ := h
  exact refines_accepted g p connSock inst (by omega) (by omega) (by omega) (by omega) le_rfl
    (by omega)

/-- **The requests delivered on a connection are an initial segment of the reference decoding
of its stream**: whatever the steps of one connection on an empty context are, and for every
connection on a fresh context of every worker. -/
theorem recv_sound (P : Platform) :
    (∀ (g : Globals) (c : Conn) (p : Ptr) (connSock : Fd) (inst : ℕ) (is : List (Tick × Op)) (s : St),
      c.Drained → run (St.next P) (St.accepted g c p connSock inst) is = some s →
      ∀ S, received s.curr.hist <+: S → requests s.curr.hist <+: decode c.recvBufSize.toNat S) ∧
    ∀ w, Reachable P w → ∀ c ∈ w.conns, c.uses = 1 →
      ∀ S, received c.hist <+: S → requests c.hist <+: decode recvBufSize.toNat S := by
  refine ⟨?_, ?_⟩
  · intro g c p connSock inst is s hc hr S hS
    obtain ⟨ls, a, hls, -, href⟩ := refines_run (W := fun _ _ => True)
      (fun _ _ _ _ _ _ _ _ _ => trivial) (hc.refines g p connSock inst) (along_true is _) hr
    obtain ⟨h1, h2, h3, h4⟩ := hc
    have hstart := Session.sound_start_empty c.recvBufSize.toNat (g.mem c.recvBufP)
      (n := c.recvBufHave.toNat) (by omega) (by omega)
    have hsize : a.size = c.recvBufSize.toNat := Session.size_run hls
    rw [href.tells.requests, ← hsize]
    exact (hstart.run hls).delivered_initial (href.received ▸ hS)
  · intro w hw c hc hu S hS
    obtain ⟨a, ⟨buf, n, m, ls, h0, hls⟩, ht⟩ := exists_session hw hc
    obtain ⟨-, rfl, rfl⟩ := h0 hu
    have hstart := Session.sound_start_empty recvBufSize.toNat buf (n := 0) (by decide)
      (Nat.zero_le _)
    have hsize : a.size = recvBufSize.toNat := Session.size_run hls
    rw [received_eq, ht.answers] at hS
    rw [ht.requests, ← hsize]
    exact (hstart.run hls).delivered_initial hS

/-- A new connection on a newly allocated context, on a worker that has nothing else. -/
def St.fresh : St :=
  let w := (Worker.empty (fun _ => .zero) fun _ _ => 0).allocConnCtxMem 1
  St.accepted w.toGlobals (w.heap 1) 1 5 0

/-- The moments and the steps of a script. -/
def St.script (s : St) (ops : List (Time × Op)) : Option St :=
  run (St.next .plain) s (ops.map fun op => (Tick.atTime op.1, op.2))

/-- A request that arrives in two reads, with an `EAGAIN` between them and the start of
another one behind it. -/
def splitScript : List (Time × Op) :=
  [(0, .resume true), (1, .read (.data (ascii "GET / HT"))), (2, .read .again),
    (3, .resume true), (4, .read (.data (ascii "TP/1.1\r\n\r\nGET /x")))]

theorem splitScript_isSome : (St.fresh.script splitScript).isSome = true := by decide +kernel

theorem recv_sound_split :
    requests ((St.fresh.script splitScript).get splitScript_isSome).curr.hist <+:
      decode 8192 (ascii "GET / HTTP/1.1\r\n\r\nGET /x") :=
  (recv_sound .plain).1 _ _ 1 5 0 _ _ ⟨by decide, by decide, by decide, rfl⟩
    (Option.some_get splitScript_isSome).symm _ (by decide +kernel)

end SrvAsync
