import SrvAsync.Receive.Sound

/-!
# When the splitting of a stream into reads does not matter

A complete run of a connection is given the whole stream, without errors and
timeouts, and ends.  It delivers the reference decoding of the stream, and so the same
as any other complete run, as long as no read completes the end of a header section
with bytes that earlier requests left in the buffer (`StaleEnd`): such a read makes
`recv_http_hdr` give up although nothing is wrong with the request.

## Main definitions

* `Feeds S as` — the answers give the stream, and its end when it is given completely.
* `Complete` — a complete run.
* `St.StaleRead` — a step whose read meets bytes of earlier use.

## Main results

* `Session.Exact.run` — a session that is fed the stream loses nothing of it.
* `split_independent` — **two complete runs without such steps deliver the same requests**.
* `split_matters` — two complete runs of one stream that do not.
-/

namespace SrvAsync

open Http History Machine Memory Worker

variable {P : Platform}

/-! ### What the socket answers -/

/-- The answers give the stream `T`, and its end only when all of it was given. -/
def Feeds : Bytes → List Answer → Prop
  | _, [] => True
  | T, .read (.data bs) _ :: as => bs <+: T ∧ Feeds (T.drop bs.length) as
  | T, .read .eof _ :: as => T = [] ∧ Feeds T as
  | T, .read .again _ :: as => Feeds T as
  | T, .read .error _ :: as => Feeds T as
  | T, .write _ _ :: as => Feeds T as

instance Feeds.decidable : (T : Bytes) → (as : List Answer) → Decidable (Feeds T as)
  | _, [] => isTrue trivial
  | T, .read (.data bs) _ :: as =>
    have := Feeds.decidable (T.drop bs.length) as
    inferInstanceAs (Decidable (bs <+: T ∧ Feeds (T.drop bs.length) as))
  | T, .read .eof _ :: as =>
    have := Feeds.decidable T as
    inferInstanceAs (Decidable (T = [] ∧ Feeds T as))
  | T, .read .again _ :: as => Feeds.decidable T as
  | T, .read .error _ :: as => Feeds.decidable T as
  | T, .write _ _ :: as => Feeds.decidable T as

instance : DecidablePred Answer.Interrupts
  | .read r timedOut => inferInstanceAs (Decidable (r = .error ∨ timedOut = true))
  | .write r timedOut => inferInstanceAs (Decidable (r = .error ∨ r = .zero ∨ timedOut = true))

/-- One answer gives a part of the stream. -/
theorem Feeds.cons {T : Bytes} {l : Answer} {as : List Answer} (h : Feeds T (l :: as)) :
    ∃ T', T = l.bytes ++ T' ∧ Feeds T' as ∧ ∀ b, l = .read .eof b → T = [] := by
  cases l with
  | write r b => exact ⟨T, rfl, h, fun _ => Answer.noConfusion⟩
  | read r b =>
    cases r with
    | again => exact ⟨T, rfl, h, fun _ he => by cases he⟩
    | error => exact ⟨T, rfl, h, fun _ he => by cases he⟩
    | eof => exact ⟨T, rfl, h.2, fun _ _ => h.1⟩
    | data bs =>
      obtain ⟨⟨u, rfl⟩, h⟩ := h
      rw [List.drop_left] at h
      exact ⟨u, rfl, h, fun _ he => by cases he⟩

/-! ### Sessions -/

/-- A session lost nothing of the stream. -/
structure Session.Exact (S : Bytes) (a : Session) : Prop where
  pos : 0 < a.size
  tidy : a.Tidy
  decoded : ∀ T, S = a.received ++ T → a.delivered ++ a.expect T = decode a.size S

/-- What a read does to the end of a header section in a session. -/
def Session.StaleRead (a : Session) : Option Answer → Prop
  | some (.read (.data bs) _) => ∃ prev n, a.stage = .hdr prev n ∧ StaleEnd a.buf a.size n bs
  | _ => False

/-- **One step loses nothing of the stream.** -/
theorem Session.Exact.step {S T : Bytes} {a a' : Session} {l : Option Answer} (h : a.Exact S)
    (hS : S = a.received ++ T) (hl : ∀ l' ∈ l, ¬ l'.Interrupts)
    (heof : ∀ b, l = some (.read .eof b) → T = []) (hst : ¬ a.StaleRead l)
    (hs : a.step P l = some a') : a'.Exact S := by
  rcases Session.goes_or_stops h.tidy h.pos hs with hgo | ⟨hstop, hbr⟩
  · refine ⟨hgo.size ▸ h.pos, hgo.tidy, fun T' hT' => ?_⟩
    rw [hgo.expect, hgo.size]
    rw [Session.received_step hs, List.append_assoc] at hT'
    exact h.decoded _ hT'
  · cases hbr with
    | interrupted hi => exact absurd hi (hl _ rfl)
    | stale hst' hse => exact absurd ⟨_, _, hst', hse⟩ hst
    | ended he =>
      rw [heof _ rfl] at hS
      refine ⟨hstop.size ▸ h.pos, hstop.tidy, fun T' _ => ?_⟩
      rw [hstop.delivered, hstop.expect, hstop.size, ← h.decoded [] hS, he]

/-- **A session that is fed the stream loses nothing of it.** -/
theorem Session.Exact.run {S : Bytes} : ∀ {ls : List (Option Answer)} {T : Bytes} {a a' : Session},
    a.Exact S → S = a.received ++ T → Feeds T ls.reduceOption →
    (∀ l ∈ ls.reduceOption, ¬ l.Interrupts) →
    Along (fun a l => ¬ a.StaleRead l) (Session.step P) a ls →
    run (Session.step P) a ls = some a' → a'.Exact S ∧ ∃ T', S = a'.received ++ T' := by
  intro ls
  induction ls with
  | nil =>
    intro T a a' h hS _ _ _ hr
    obtain rfl := Option.some.inj hr
    exact ⟨h, T, hS⟩
  | cons l ls ih =>
    intro T a a' h hS hf hi hal hr
    obtain ⟨u, hu, hrun⟩ := run_cons_eq_some_iff.mp hr
    have hrec := Session.received_step hu
    cases l with
    | none =>
      rw [List.reduceOption_cons_of_none] at hf hi
      have hexact : u.Exact S := h.step hS (by simp) (by simp) hal.1 hu
      refine ih hexact ?_ hf hi (hal.2 u hu) hrun
      rw [hrec, hS]
      exact congrArg (· ++ T) (List.append_nil _).symm
    | some l =>
      rw [List.reduceOption_cons_of_some] at hf hi
      -- the answer takes its bytes from the front of what is left of the stream
      obtain ⟨T', hT', hf', heof⟩ := hf.cons
      have hexact : u.Exact S := by
        refine h.step hS ?_ ?_ hal.1 hu
        · intro l' hl'
          obtain rfl := Option.mem_some.mp hl'
          exact hi l List.mem_cons_self
        · intro b hb
          exact heof b (Option.some.inj hb)
      refine ih hexact ?_ hf' (fun l' hl' => hi l' (List.mem_cons_of_mem _ hl')) (hal.2 u hu) hrun
      rw [hrec, hS, hT', Option.toList_some, List.flatMap_singleton, List.append_assoc]

/-! ### Connections -/

/-- Is the coroutine in its last `swap_to_main_ctx`? -/
def Point.isEnded : Point → Bool
  | .ended => true
  | _ => false

/-- The coroutine of the connection has come to its end, or the process died in it. -/
def St.Over (s : St) : Prop :=
  match s.ctl with
  | .main => s.curr.connCtx.point.isEnded = true
  | .coro _ => False
  | .dead d => d ≠ .exit

instance (s : St) : Decidable s.Over := by
  unfold St.Over
  split <;> infer_instance

/-- A complete run of a connection: the socket gives the stream `S`, and nothing goes wrong. -/
structure Complete (P : Platform) (s₀ : St) (S : Bytes) (is : List (Tick × Op)) (s : St) : Prop where
  run : run (St.next P) s₀ is = some s
  feeds : Feeds S (answers s.curr.hist)
  calm : ∀ l ∈ answers s.curr.hist, ¬ l.Interrupts
  ended : s.Over

/-- The step is a read for a header section, and bytes of earlier use complete the end of it. -/
def St.StaleRead (s : St) (op : Op) : Prop :=
  match s.ctl, op with
  | .coro (.recv f _), .read (.data bs) =>
    f.terminator = true ∧ StaleEnd (s.mem f.buf) s.curr.recvBufSize.toNat f.nRecv.toNat bs
  | _, _ => False

instance (s : St) (op : Op) : Decidable (s.StaleRead op) := by
  unfold St.StaleRead
  split <;> infer_instance

/-- A step of the code that meets no bytes of earlier use is such a step of the session. -/
theorem staleRead_of_refines {s s' : St} {a : Session} {i : Tick × Op} {l : Option Answer}
    (h : Refines P s a) (hq : ¬ s.StaleRead i.2) (hs : s.next P i = some s') (hl : i.2.Emits l) :
    ¬ a.StaleRead l := by
  intro hstale
  obtain ⟨t, op⟩ := i
  cases op with
  -- only bytes that arrive can meet others
  | resume fcntlOk => rw [hl] at hstale; exact hstale
  | check => rw [hl] at hstale; exact hstale
  | write r =>
    obtain ⟨b, rfl⟩ := hl
    exact hstale
  | read r =>
    obtain ⟨b, rfl⟩ := hl
    cases r with
    | again | eof | error => exact hstale
    | data bs =>
      obtain ⟨prev, n, hstage, hse⟩ := hstale
      obtain ⟨f, k, hc, -, -⟩ := St.step_read hs
      obtain ⟨hrun, hb, hst⟩ := (refines_coro_iff hc).mp h
      rw [hstage] at hst
      cases hst with
      | recvHdr hat =>
        apply hq
        have hsize : s.curr.recvBufSize.toNat = a.size := by rw [hb.size]; rfl
        unfold St.StaleRead
        rw [hc, hat.frame, hsize]
        exact ⟨rfl, hb.buf ▸ hse⟩

/-- A session whose coroutine is over expects nothing any more. -/
theorem expect_of_over {s : St} {a : Session} (h : Refines P s a) (ho : s.Over) (T : Bytes) :
    a.expect T = [] := by
  unfold St.Over at ho
  unfold Session.expect
  cases hc : s.ctl with
  | coro p =>
    rw [hc] at ho
    exact ho.elim
  | main =>
    rw [hc] at ho
    obtain ⟨-, -, -, hst⟩ := (refines_main_iff hc).mp h
    -- the coroutine switched away for good
    generalize s.curr.connCtx.point = p at hst ho
    generalize a.stage = st at hst
    cases hst with
    | ended => rfl
    | _ => cases ho
  | dead d =>
    rw [hc] at ho
    obtain ⟨-, he⟩ := (refines_dead_iff hc).mp h
    cases d with
    | exit => exact absurd rfl ho
    | segv | terminate => rw [he.1]

/-- **A complete run that meets no bytes of earlier use delivers the reference decoding.** -/
theorem Complete.requests_eq {g : Globals} {c : Conn} {p : Ptr} {connSock : Fd} {inst : ℕ}
    (hc : c.Drained) {S : Bytes} {is : List (Tick × Op)} {s : St}
    (h : Complete P (St.accepted g c p connSock inst) S is s)
    (hq : Along (fun s i => ¬ s.StaleRead i.2) (St.next P) (St.accepted g c p connSock inst) is) :
    requests s.curr.hist = decode c.recvBufSize.toNat S := by
  obtain ⟨ls, a, hls, hal, href⟩ := refines_run (W := fun a l => ¬ a.StaleRead l)
    (fun _ _ _ _ _ h hq hs hl => staleRead_of_refines h hq hs hl) (hc.refines g p connSock inst) hq
    h.run
  have hans : answers s.curr.hist = ls.reduceOption := by
    rw [href.tells.answers]
    exact answers_run hls
  have hstart : (Session.start c.recvBufSize.toNat (g.mem c.recvBufP) c.recvBufHave.toNat
      c.recvBufHave.toNat).Exact S := by
    obtain ⟨h1, h2, h3, h4⟩ := hc
    refine ⟨?_, ⟨⟨le_rfl, ?_⟩, trivial⟩, ?_⟩
    · change 0 < c.recvBufSize.toNat
      omega
    · change c.recvBufHave.toNat ≤ c.recvBufSize.toNat
      omega
    · intro T hT
      have hST : S = T := hT
      rw [hST]
      exact decode_start _ _ _ T
  obtain ⟨hexact, T, hT⟩ := hstart.run (T := S) rfl (hans ▸ h.feeds) (hans ▸ h.calm) hal hls
  have hdec := hexact.decoded T hT
  have hsize : a.size = c.recvBufSize.toNat := Session.size_run hls
  rw [expect_of_over href h.ended, List.append_nil, hsize] at hdec
  rw [href.tells.requests]
  exact hdec

/-- **Two complete runs of one stream deliver the same requests**, however the stream is split
into reads, when no read meets bytes of earlier use. -/
theorem split_independent {g : Globals} {c : Conn} {p : Ptr} {connSock : Fd} {inst : ℕ}
    (hc : c.Drained) {S : Bytes} {is₁ is₂ : List (Tick × Op)} {s₁ s₂ : St}
    (h₁ : Complete P (St.accepted g c p connSock inst) S is₁ s₁)
    (h₂ : Complete P (St.accepted g c p connSock inst) S is₂ s₂)
    (hq₁ : Along (fun s i => ¬ s.StaleRead i.2) (St.next P) (St.accepted g c p connSock inst) is₁)
    (hq₂ : Along (fun s i => ¬ s.StaleRead i.2) (St.next P) (St.accepted g c p connSock inst) is₂) :
    requests s₁.curr.hist = requests s₂.curr.hist :=
  (h₁.requests_eq hc hq₁).trans (h₂.requests_eq hc hq₂).symm

/-! ### Runs on fixed streams -/

/-- The steps of a script. -/
def stepsOf (ops : List (Time × Op)) : List (Tick × Op) := ops.map fun op => (Tick.atTime op.1, op.2)

/-- What comes behind a request for the main page: its response is sent, and the coroutine goes
on to the next request. -/
def answered (now : Time) : List (Time × Op) :=
  [(now, .write (.sent 387)), (now + 1, .check), (now + 2, .check)]

/-- One request in one read. -/
def wholeScript : List (Time × Op) :=
  [(0, .resume true), (1, .read (.data (ascii "GET / HTTP/1.1\r\n\r\n")))] ++ answered 2 ++
    [(5, .read .eof)]

/-- The same request in two reads. -/
def halvesScript : List (Time × Op) :=
  [(0, .resume true), (1, .read (.data (ascii "GET / HT"))), (1, .read .again), (1, .resume true),
    (1, .read (.data (ascii "TP/1.1\r\n\r\n")))] ++ answered 2 ++ [(5, .read .eof)]

/-- The script is a complete run that delivers `n` requests. -/
def CompletesWith (S : Bytes) (ops : List (Time × Op)) (n : ℕ) : Prop :=
  ∃ s ∈ run (St.next .plain) St.fresh (stepsOf ops),
    (Feeds S (answers s.curr.hist) ∧ (∀ l ∈ answers s.curr.hist, ¬ l.Interrupts) ∧ s.Over) ∧
      (requests s.curr.hist).length = n

instance (S : Bytes) (ops : List (Time × Op)) (n : ℕ) : Decidable (CompletesWith S ops n) :=
  inferInstanceAs (Decidable (∃ s ∈ run (St.next .plain) St.fresh (stepsOf ops), _))

theorem CompletesWith.complete {S : Bytes} {ops : List (Time × Op)} {n : ℕ}
    (h : CompletesWith S ops n) :
    ∃ s, Complete .plain St.fresh S (stepsOf ops) s ∧ (requests s.curr.hist).length = n := by
  obtain ⟨s, hr, ⟨hf, hc, ho⟩, hn⟩ := h
  exact ⟨s, ⟨hr, hf, hc, ho⟩, hn⟩

theorem whole_completes : CompletesWith (ascii "GET / HTTP/1.1\r\n\r\n") wholeScript 1 := by
  decide +kernel

theorem halves_completes : CompletesWith (ascii "GET / HTTP/1.1\r\n\r\n") halvesScript 1 := by
  decide +kernel

theorem split_independent_halves : ∃ s₁ s₂,
    Complete .plain St.fresh (ascii "GET / HTTP/1.1\r\n\r\n") (stepsOf wholeScript) s₁ ∧
    Complete .plain St.fresh (ascii "GET / HTTP/1.1\r\n\r\n") (stepsOf halvesScript) s₂ ∧
    requests s₁.curr.hist = requests s₂.curr.hist := by
  obtain ⟨s₁, h₁, -⟩ := whole_completes.complete
  obtain ⟨s₂, h₂, -⟩ := halves_completes.complete
  exact ⟨s₁, s₂, h₁, h₂, split_independent ⟨by decide, by decide, by decide, rfl⟩ h₁ h₂
    (by decide +kernel) (by decide +kernel)⟩

/-- Two requests; the second is the first without two of its characters. -/
def twoRequests : Bytes := ascii "GET / HTTP/1.1\r\n\r\nGET / HTTP/1\r\n\r\n"

/-- Both requests in one read. -/
def togetherScript : List (Time × Op) :=
  [(0, .resume true), (1, .read (.data twoRequests))] ++ answered 2 ++ answered 5 ++
    [(8, .read .eof)]

/-- The second request arrives over the bytes of the first, and is cut after its first CRLF: the
next byte and the LF that the first request left behind it look like the end of a header
section. -/
def apartScript : List (Time × Op) :=
  [(0, .resume true), (1, .read (.data (ascii "GET / HTTP/1.1\r\n\r\n")))] ++ answered 2 ++
    [(5, .read (.data (ascii "GET / HTTP/1\r\n"))), (6, .read (.data (ascii "\r")))]

theorem together_completes : CompletesWith twoRequests togetherScript 2 := by decide +kernel

theorem apart_completes : CompletesWith twoRequests apartScript 1 := by decide +kernel

/-- **Two complete runs of one stream that do not deliver the same requests.** -/
theorem split_matters : ¬ ∀ S is₁ is₂ s₁ s₂, Complete .plain St.fresh S is₁ s₁ →
    Complete .plain St.fresh S is₂ s₂ → requests s₁.curr.hist = requests s₂.curr.hist := by
  intro h
  obtain ⟨s₁, h₁, hn₁⟩ := together_completes.complete
  obtain ⟨s₂, h₂, hn₂⟩ := apart_completes.complete
  have he := congrArg List.length (h _ _ _ s₁ s₂ h₁ h₂)
  rw [hn₁, hn₂] at he
  exact absurd he (by decide)

end SrvAsync
