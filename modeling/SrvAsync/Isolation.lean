import SrvAsync.Pairing
import SrvAsync.Refine.Tells

/-!
# Connections do not see each other

Every connection of a worker is a session of its own.  A session is determined, up
to silent steps, by what its socket answered, so two connections that started on
fresh contexts and saw the same answers had the same conversation, whatever other
connections and schedules there were.

## Main definitions

* `Reached` — the sessions a connection can have come to.
* `Alike` — two histories with the same requests, and the same responses and accepted
  bytes up to the dates.

## Main results

* `rep_of_coro`, `runs_own` — a running coroutine works on its own connection.
* `isolation` — connections with the same answers have the same conversation.
-/

namespace SrvAsync

open Http History Machine Worker

variable {P : Platform} {w w₁ w₂ : Worker}

/-! ### The session of a connection -/

/-- A session a connection can have come to: on a context that was never used before it
starts with an empty buffer. -/
def Reached (P : Platform) (uses : ℕ) (a : Session) : Prop :=
  ∃ buf have_ curr ls, (uses = 1 → buf = (fun _ => 0) ∧ have_ = 0 ∧ curr = 0) ∧
    run (Session.step P) (Session.start recvBufSize.toNat buf have_ curr) ls = some a

theorem starts_reached : Starts (Reached P) := fun _ buf have_ curr h0 => ⟨buf, have_, curr, [], h0, rfl⟩

theorem carries_reached (op : Op) : Carries P (Reached P) op := by
  rintro uses a l a' - ⟨buf, have_, curr, ls, h0, hr⟩ ha
  refine ⟨buf, have_, curr, ls ++ [l], h0, ?_⟩
  rw [run_append_of_eq _ hr]
  exact run_cons_eq_some_iff.mpr ⟨a', ha, rfl⟩

/-- Every connection is at a session it can have come to. -/
theorem exists_session (h : Reachable P w) {c : Conn} (hc : c ∈ w.conns) :
    ∃ a, Reached P c.uses a ∧ Tells P c.hist a.notes := by
  have hi := inv_of_carries starts_reached carries_reached h
  rcases List.mem_append.mp hc with hc | hc
  · obtain ⟨p, hp, rfl⟩ := List.mem_map.mp hc
    by_cases hb : w.Busy p
    · obtain ⟨todo, hph⟩ := hb
      have hcon := hi.control
      rw [hph] at hcon
      obtain ⟨-, -, -, -, -, -, a, hr, href⟩ := hcon
      exact ⟨a, hr, href.tells⟩
    · obtain ⟨-, -, a, hr, hrep⟩ := hi.standing p hp hb
      exact ⟨a, hr, tells_of_shows hrep.hist⟩
  · obtain ⟨a, b, hr, hrep⟩ := (hi.gone c hc).rep
    exact ⟨a, hr, tells_of_shows hrep.hist⟩

/-! ### Sessions with the same answers -/

/-- **Two sessions on fresh contexts with the same answers differ by silent steps.** -/
theorem silent_of_answers_eq {a₁ a₂ : Session} (h₁ : Reached P 1 a₁) (h₂ : Reached P 1 a₂)
    (he : a₁.answers = a₂.answers) :
    Silent (Session.step P) a₁ a₂ ∨ Silent (Session.step P) a₂ a₁ := by
  obtain ⟨buf₁, n₁, m₁, ls₁, h0₁, hr₁⟩ := h₁
  obtain ⟨buf₂, n₂, m₂, ls₂, h0₂, hr₂⟩ := h₂
  obtain ⟨rfl, rfl, rfl⟩ := h0₁ rfl
  obtain ⟨rfl, rfl, rfl⟩ := h0₂ rfl
  refine silent_or_silent (fun s l s' hs => Session.silent_eq_none hs) ?_ hr₁ hr₂
  rw [answers_run hr₁, answers_run hr₂] at he
  exact List.append_cancel_left he

theorem notes_prefix_of_silent {a a' : Session} (h : Silent (Session.step P) a a') :
    a.notes <+: a'.notes :=
  h.invariant (I := fun b => a.notes <+: b.notes)
    (fun _ _ hp hs => hp.trans (Session.sees_step hs).notes) List.prefix_rfl

/-- The session waits for its socket, or is closed. -/
def Stage.Settled : Stage → Prop
  | .hdr .. | .body .. | .send .. | .failed | .ended => True
  | _ => False

/-- By itself a settled session does nothing that counts. -/
theorem settled_of_silent {a a' : Session} (h : Silent (Session.step P) a a')
    (hst : a.stage.Settled) : Note.requests a'.notes = Note.requests a.notes ∧
      Note.replies a'.notes = Note.replies a.notes := by
  have hinv := h.invariant (I := fun b => b.stage.Settled ∧ Note.requests b.notes = Note.requests a.notes ∧
    Note.replies b.notes = Note.replies a.notes) ?_ ⟨hst, rfl, rfl⟩
  · exact hinv.2
  · rintro b b' ⟨hb, hreq, hrep⟩ hs
    change b.silent P = some b' at hs
    cases Session.moves_of_silent hs with
    | ask he | chunk he | packet he | answered he | closed he | again he =>
      rw [he] at hb
      exact hb.elim
    | failed =>
      refine ⟨trivial, ?_, ?_⟩
      · rw [← hreq]
        simp [Note.requests, Session.goto, Session.note]
      · rw [← hrep]
        simp [Note.replies, Session.goto, Session.note]

/-! ### Connections with the same answers -/

/-- The same response, perhaps at another date. -/
def SameButDate (P : Platform) (r₁ r₂ : HttpResponseMsg) : Prop :=
  ∃ (a : Reply) (d₁ d₂ : Date), r₁ = a.response P d₁ ∧ r₂ = a.response P d₂

/-- The bytes are the beginnings, equally long, of the texts of these responses. -/
structure Begin (P : Platform) (bs₁ bs₂ : Bytes) (rs₁ rs₂ : List HttpResponseMsg) : Prop where
  length : bs₁.length = bs₂.length
  first : bs₁ <+: rs₁.flatMap (·.serialize P)
  second : bs₂ <+: rs₂.flatMap (·.serialize P)

/-- The first history has the requests and responses of the second, up to some point and up
to dates, and the socket accepted the same bytes of them, up to dates. -/
structure Upto (P : Platform) (h₁ h₂ : List Event) : Prop where
  requests : requests h₁ <+: requests h₂
  responses : ∃ rs, rs <+: responses h₂ ∧ List.Forall₂ (SameButDate P) (responses h₁) rs ∧
    Begin P (accepted h₁) (accepted h₂) (responses h₁) rs
  accepted : (accepted h₁).length = (accepted h₂).length

/-- **Two histories with the same conversation**: the same requests, and up to dates the same
responses and the same accepted bytes of them. -/
structure Alike (P : Platform) (h₁ h₂ : List Event) : Prop where
  requests : History.requests h₁ = History.requests h₂
  responses : List.Forall₂ (SameButDate P) (History.responses h₁) (History.responses h₂)
  accepted : (accepted h₁).length = (accepted h₂).length
  bytes : Begin P (History.accepted h₁) (History.accepted h₂) (History.responses h₁)
    (History.responses h₂)

theorem sameButDate_of_replies : ∀ {l₁ l₂ : List HttpResponseMsg} {rs : List Reply},
    List.Forall₂ (fun resp reply => ∃ d, resp = Reply.response P reply d) l₁ rs →
    List.Forall₂ (fun resp reply => ∃ d, resp = Reply.response P reply d) l₂ rs →
    List.Forall₂ (SameButDate P) l₁ l₂
  | _, _, _, .nil, .nil => .nil
  | _, _, _, .cons ⟨d₁, h₁⟩ t₁, .cons ⟨d₂, h₂⟩ t₂ =>
    .cons ⟨_, d₁, d₂, h₁, h₂⟩ (sameButDate_of_replies t₁ t₂)

/-- Responses that differ in their dates are serialized to texts of one length. -/
theorem length_of_sameButDate {rs₁ rs₂ : List HttpResponseMsg}
    (h : List.Forall₂ (SameButDate P) rs₁ rs₂) :
    (rs₁.flatMap (·.serialize P)).length = (rs₂.flatMap (·.serialize P)).length := by
  induction h with
  | nil => rfl
  | cons hr _ ih =>
    obtain ⟨a, d₁, d₂, rfl, rfl⟩ := hr
    rw [List.flatMap_cons, List.flatMap_cons, List.length_append, List.length_append, ih,
      length_serialize_response P a d₁ d₂]

/-- What the sockets of two histories accepted, when they took as much. -/
theorem begin_of_pairsUp {h₁ h₂ : List Event} {rs : List HttpResponseMsg} (hp₁ : PairsUp P h₁)
    (hp₂ : PairsUp P h₂) (hlen : (accepted h₁).length = (accepted h₂).length)
    (hsame : List.Forall₂ (SameButDate P) (responses h₁) rs) (hrs : rs <+: responses h₂) :
    Begin P (accepted h₁) (accepted h₂) (responses h₁) rs := by
  have hfirst := hp₁.accepted_prefix
  refine ⟨hlen, hfirst, ?_⟩
  obtain ⟨more, hmore⟩ := hrs
  have hall : rs.flatMap (·.serialize P) <+: (responses h₂).flatMap (·.serialize P) := by
    rw [← hmore, List.flatMap_append]
    exact List.prefix_append _ _
  refine List.prefix_of_prefix_length_le hp₂.accepted_prefix hall ?_
  rw [← hlen, ← length_of_sameButDate hsame]
  exact hfirst.length_le

section Tells

variable {h₁ h₂ : List Event} {ns₁ ns₂ : List Note} (t₁ : Tells P h₁ ns₁) (t₂ : Tells P h₂ ns₂)
  (hp₁ : PairsUp P h₁) (hp₂ : PairsUp P h₂) (ha : History.answers h₁ = History.answers h₂)

include t₁ t₂ ha

theorem Tells.length_accepted : (History.accepted h₁).length = (History.accepted h₂).length := by
  rw [t₁.accepted, t₂.accepted, ← t₁.answers, ← t₂.answers, ha]

include hp₁ hp₂

theorem Tells.upto (hp : ns₁ <+: ns₂) : Upto P h₁ h₂ := by
  have hlen := t₁.length_accepted t₂ ha
  refine ⟨?_, ?_, hlen⟩
  · rw [t₁.requests, t₂.requests]
    exact hp.filterMap _
  · obtain ⟨rest, hrest⟩ : Note.replies ns₁ <+: Note.replies ns₂ := hp.filterMap _
    have h2 := t₂.responses
    rw [← hrest] at h2
    have hpre : (History.responses h₂).take (Note.replies ns₁).length <+: History.responses h₂ :=
      List.take_prefix _ _
    have hsame : List.Forall₂ (SameButDate P) (History.responses h₁)
        ((History.responses h₂).take (Note.replies ns₁).length) := by
      refine sameButDate_of_replies t₁.responses ?_
      have htake := List.forall₂_take (Note.replies ns₁).length h2
      rwa [List.take_left] at htake
    exact ⟨_, hpre, hsame, begin_of_pairsUp hp₁ hp₂ hlen hsame hpre⟩

theorem Tells.alike (hreq : Note.requests ns₁ = Note.requests ns₂)
    (hrep : Note.replies ns₁ = Note.replies ns₂) : Alike P h₁ h₂ := by
  have hlen := t₁.length_accepted t₂ ha
  have hsame : List.Forall₂ (SameButDate P) (History.responses h₁) (History.responses h₂) :=
    sameButDate_of_replies t₁.responses (hrep ▸ t₂.responses)
  exact ⟨by rw [t₁.requests, t₂.requests, hreq], hsame, hlen,
    begin_of_pairsUp hp₁ hp₂ hlen hsame List.prefix_rfl⟩

end Tells

/-- The coroutine waits for its socket, or is not resumed any more. -/
def Point.Rests : Point → Prop
  | .recvWait .. | .sendWait .. | .recvFailed .. | .sendFailed .. | .ended => True
  | _ => False

instance : DecidablePred Point.Rests
  | .recvWait .. | .sendWait .. | .recvFailed .. | .sendFailed .. | .ended => isTrue trivial
  | .start | .recv .. | .send .. | .check .. | .yielded .. => isFalse id

/-- A connection whose coroutine is suspended, and not by a yield of its own. -/
def Worker.Resting (w : Worker) (c : Conn) : Prop :=
  (∃ p ∈ w.queue.qconnList, ¬ w.Busy p ∧ c = w.heap p ∧ c.connCtx.point.Rests) ∨ c ∈ w.retired

theorem Stands.settled {c : Conn} {size : ℕ} {pt : Point} {st : Stage} (h : Stands P c size pt st)
    (hp : pt.Rests) : st.Settled := by
  cases h with
  | waitHdr | waitBody | waitSend | recvFailed | sendFailed | ended => trivial
  | start | recvHdr | recvBody | checkChunk | yieldChunk | send | checkPacket | yieldPacket
    | checkAnswered | yieldAnswered => exact hp.elim

/-- A resting connection is at a settled session. -/
theorem exists_session_resting (h : Reachable P w) {c : Conn} (hc : w.Resting c) :
    ∃ a, Reached P c.uses a ∧ Tells P c.hist a.notes ∧ a.stage.Settled := by
  have hi := inv_of_carries starts_reached carries_reached h
  rcases hc with ⟨p, hp, hb, rfl, hrest⟩ | hc
  · obtain ⟨-, -, a, hr, hrep⟩ := hi.standing p hp hb
    exact ⟨a, hr, tells_of_shows hrep.hist, hrep.stands.settled hrest⟩
  · have hg := hi.gone c hc
    obtain ⟨a, b, hr, hrep⟩ := hg.rep
    have hcom : c.isCompleted ≠ false := by rw [hg.completed]; exact Bool.noConfusion
    refine ⟨a, hr, tells_of_shows hrep.hist, ?_⟩
    have hst := hrep.stands
    generalize c.connCtx.point = pt at hst
    generalize a.stage = st at hst
    cases hst with
    | recvFailed | sendFailed | ended => trivial
    | waitHdr | waitBody | waitSend => trivial
    | recvHdr | recvBody | send => trivial
    | start hc' => exact absurd hc' hcom
    | checkChunk h => exact absurd h.opened hcom
    | yieldChunk h => exact absurd h.opened hcom
    | checkPacket h => exact absurd h.opened hcom
    | yieldPacket h => exact absurd h.opened hcom
    | checkAnswered h => exact absurd h.opened hcom
    | yieldAnswered h => exact absurd h.opened hcom

/-- The buffer pointers in the locals of a running coroutine. -/
def Point.buffers : Point → List Ptr
  | .recv f (.hdr p _) => [f.buf, p]
  | .recv f (.body _ p _ _ _ _) => [f.buf, p]
  | .check (.body _ p _ _ _) => [p]
  | _ => []

/-- A running coroutine works on its own connection, also through its locals. -/
structure RunsOwn (w : Worker) (pt : Point) : Prop where
  currConn : w.queue.currConn = some w.self
  mem_queue : w.self ∈ w.queue.qconnList
  recvBufP : (w.heap w.self).recvBufP = w.self
  buffers : ∀ b ∈ pt.buffers, b = w.self

/-- While a coroutine runs, the pass is in the `swap_to_conn_ctx` of its connection, and the
process is at a session the connection can have come to. -/
theorem refines_of_coro (h : Reachable P w) {pt : Point} (hctl : w.ctl = .coro pt) :
    ∃ todo, w.phase = .resumed w.self todo ∧ w.queue.currConn = some w.self ∧
      w.self ∈ w.queue.qconnList ∧
      ∃ a, Reached P (w.heap w.self).uses a ∧ Refines P (w.load w.self) a := by
  have hi := inv_of_carries starts_reached carries_reached h
  obtain ⟨p, todo, hph, hcur, hp, rfl⟩ := hi.running hctl
  have hcon := hi.control
  rw [hph] at hcon
  obtain ⟨-, -, -, -, -, -, a, hr, href⟩ := hcon
  exact ⟨todo, hph, hcur, hp, a, hr, href⟩

/-- A running coroutine works on the connection it was made for, and stands at the stage of its
session. -/
theorem rep_of_coro (h : Reachable P w) {pt : Point} (hctl : w.ctl = .coro pt) :
    w.queue.currConn = some w.self ∧ w.self ∈ w.queue.qconnList ∧
      (w.heap w.self).recvBufP = w.self ∧ (w.heap w.self).recvBufSize = recvBufSize ∧
      ∃ a, Reached P (w.heap w.self).uses a ∧ Rep P (w.heap w.self) (w.mem w.self) pt a := by
  obtain ⟨todo, -, hcur, hp, a, hr, href⟩ := refines_of_coro h hctl
  have howned := (inv_reachable h).owned _ hp
  have hrep : Rep P (w.heap w.self) (w.mem (w.heap w.self).recvBufP) pt a :=
    ((refines_coro_iff hctl).mp href).2
  rw [howned.recvBufP] at hrep
  exact ⟨hcur, hp, howned.recvBufP, howned.recvBufSize, a, hr, hrep⟩

theorem runs_own (h : Reachable P w) {pt : Point} (hctl : w.ctl = .coro pt) : RunsOwn w pt := by
  obtain ⟨hcur, hp, hself, -, a, -, hrep⟩ := rep_of_coro h hctl
  refine ⟨hcur, hp, hself, ?_⟩
  have hst := hrep.stands
  generalize a.stage = st at hst
  cases hst with
  | recvHdr h => simp [h.frame, h.caller, Point.buffers, hself]
  | recvBody h => simp [h.frame, h.caller, Point.buffers, hself]
  | checkChunk h => simp [h.yield, Point.buffers, hself]
  | checkPacket h => simp [h.yield, Point.buffers]
  | checkAnswered h => simp [h.yield, Point.buffers]
  | send | start | waitHdr | waitBody | yieldChunk | waitSend | yieldPacket | yieldAnswered
    | recvFailed | sendFailed | ended => simp [Point.buffers]

/-- **Connections on fresh contexts that saw the same answers had the same conversation**,
in any two workers; while one of them is about to go on by itself, it may be behind.  A
running coroutine works on its own connection. -/
theorem isolation (h₁ : Reachable P w₁) (h₂ : Reachable P w₂) :
    (∀ pt, w₁.ctl = .coro pt → RunsOwn w₁ pt) ∧
    ∀ c₁ ∈ w₁.conns, ∀ c₂ ∈ w₂.conns, c₁.uses = 1 → c₂.uses = 1 →
      answers c₁.hist = answers c₂.hist →
      (Upto P c₁.hist c₂.hist ∨ Upto P c₂.hist c₁.hist) ∧
      (w₁.Resting c₁ → w₂.Resting c₂ → Alike P c₁.hist c₂.hist) := by
  refine ⟨fun pt hctl => runs_own h₁ hctl, fun c₁ hc₁ c₂ hc₂ hf₁ hf₂ ha => ?_⟩
  have hp₁ := pairsUp_of_mem h₁ hc₁
  have hp₂ := pairsUp_of_mem h₂ hc₂
  refine ⟨?_, fun hw₁ hw₂ => ?_⟩
  · obtain ⟨a₁, hr₁, ht₁⟩ := exists_session h₁ hc₁
    obtain ⟨a₂, hr₂, ht₂⟩ := exists_session h₂ hc₂
    have he : a₁.answers = a₂.answers := ht₁.answers.symm.trans (ha.trans ht₂.answers)
    rcases silent_of_answers_eq (hf₁ ▸ hr₁) (hf₂ ▸ hr₂) he with hs | hs
    · exact .inl (ht₁.upto ht₂ hp₁ hp₂ ha (notes_prefix_of_silent hs))
    · exact .inr (ht₂.upto ht₁ hp₂ hp₁ ha.symm (notes_prefix_of_silent hs))
  · obtain ⟨a₁, hr₁, ht₁, hst₁⟩ := exists_session_resting h₁ hw₁
    obtain ⟨a₂, hr₂, ht₂, hst₂⟩ := exists_session_resting h₂ hw₂
    have he : a₁.answers = a₂.answers := ht₁.answers.symm.trans (ha.trans ht₂.answers)
    rcases silent_of_answers_eq (hf₁ ▸ hr₁) (hf₂ ▸ hr₂) he with hs | hs
    · obtain ⟨hreq, hrep⟩ := settled_of_silent hs hst₁
      exact ht₁.alike ht₂ hp₁ hp₂ ha hreq.symm hrep.symm
    · obtain ⟨hreq, hrep⟩ := settled_of_silent hs hst₂
      exact ht₁.alike ht₂ hp₁ hp₂ ha hreq hrep

/-- The allocations at the start of a worker: the first two succeed. -/
def twoContexts : List (Option Ptr) := some 1 :: some 2 :: List.replicate 48 none

/-- A connection that is alone on its worker. -/
def aloneScript : List (Time × WorkerOp) :=
  [(0, .poll (.ready (some 5) [])), (1, .resume true), (2, .co (.read .again)), (3, .back),
    (4, .endPass), (5, .poll .timeout), (6, .resume true),
    (7, .co (.read (.data (ascii "GET / HTTP/1.1\r\n\r\n")))), (8, .co (.write .again)), (9, .back),
    (10, .endPass)]

/-- The same connection, with another one that is served in between. -/
def sharedScript : List (Time × WorkerOp) :=
  [(0, .poll (.ready (some 5) [])), (1, .resume true), (2, .co (.read .again)), (3, .back),
    (4, .endPass), (5, .poll (.ready (some 6) [])), (6, .resume true),
    (7, .co (.read (.data (ascii "HEAD /x")))), (8, .co (.read .again)), (9, .back),
    (10, .resume true), (11, .co (.read (.data (ascii "GET / HTTP/1.1\r\n\r\n")))),
    (12, .co (.write .again)), (13, .back), (14, .endPass)]

theorem aloneScript_isSome : (script .plain twoContexts aloneScript).isSome = true := by
  decide +kernel

theorem sharedScript_isSome : (script .plain twoContexts sharedScript).isSome = true := by
  decide +kernel

/-- At the head of the main loop, a connection on a fresh context rests. -/
theorem resting_of_head {p : Ptr} (hw : p ∈ w.queue.qconnList ∧ w.phase = .head ∧
    (w.heap p).connCtx.point.Rests) : w.heap p ∈ w.conns ∧ w.Resting (w.heap p) := by
  obtain ⟨hp, hph, hr⟩ := hw
  exact ⟨List.mem_append_left _ (List.mem_map_of_mem hp),
    .inl ⟨p, hp, fun ⟨_, he⟩ => Phase.noConfusion (hph.symm.trans he), rfl, hr⟩⟩

/-- Both scripts lead to the head of the main loop, and both connections saw the same answers. -/
theorem scripts_rest :
    let w₁ := (script .plain twoContexts aloneScript).get aloneScript_isSome
    let w₂ := (script .plain twoContexts sharedScript).get sharedScript_isSome
    (2 ∈ w₁.queue.qconnList ∧ w₁.phase = .head ∧ (w₁.heap 2).connCtx.point.Rests) ∧
    (2 ∈ w₂.queue.qconnList ∧ w₂.phase = .head ∧ (w₂.heap 2).connCtx.point.Rests) ∧
    (w₁.heap 2).uses = 1 ∧ (w₂.heap 2).uses = 1 ∧
    answers (w₁.heap 2).hist = answers (w₂.heap 2).hist := by
  decide +kernel

theorem isolation_shared :
    Alike .plain (((script .plain twoContexts aloneScript).get aloneScript_isSome).heap 2).hist
      (((script .plain twoContexts sharedScript).get sharedScript_isSome).heap 2).hist := by
  have hiso := isolation (reachable_get .plain aloneScript_isSome)
    (reachable_get .plain sharedScript_isSome)
  obtain ⟨hat₁, hat₂, huses₁, huses₂, hanswers⟩ := scripts_rest
  obtain ⟨hc₁, hr₁⟩ := resting_of_head hat₁
  obtain ⟨hc₂, hr₂⟩ := resting_of_head hat₂
  exact (hiso.2 _ hc₁ _ hc₂ huses₁ huses₂ hanswers).2 hr₁ hr₂

end SrvAsync
