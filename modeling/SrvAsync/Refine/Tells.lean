import SrvAsync.Refine.Step
import SrvAsync.Routines

/-!
# What a history tells about a session

The requests, replies and answers of a session can be read off the history of the
coroutine that refines it, and the answers are the visible labels of its run.  The
steps of one connection, from the moment `create_new_conn` made it, refine a run of a
session.

## Main definitions

* `Tells` — the history of a connection tells what the notes of a session say.
* `Session.received` — the bytes a session was given.
* `St.accepted`, `St.next` — one connection from its start.

## Main results

* `Refines.tells`, `Refines.received`.
* `refines_accepted`, `refines_run` — a connection refines a session from its start on.
-/

namespace SrvAsync

open Http History Machine

variable {P : Platform}

/-- The requests of a session. -/
def Note.requests (ns : List Note) : List HttpRequestMsg :=
  ns.filterMap fun | .request r => some r | _ => none

/-- The replies of a session. -/
def Note.replies (ns : List Note) : List Reply :=
  ns.filterMap fun | .response r => some r | _ => none

/-- How many bytes the socket accepted with an answer. -/
def Answer.count : Answer → ℕ
  | .read _ _ => 0
  | .write r _ => r.count

/-- A history tells what the notes of a session say. -/
structure Tells (P : Platform) (h : List Event) (ns : List Note) : Prop where
  answers : History.answers h = ns.filterMap Note.answer
  requests : History.requests h = Note.requests ns
  responses : List.Forall₂ (fun resp reply => ∃ d, resp = Reply.response P reply d) (responses h)
    (Note.replies ns)
  accepted : (accepted h).length = ((ns.filterMap Note.answer).map Answer.count).sum

theorem tells_of_shows {h : List Event} {ns : List Note} (hs : List.Forall₂ (Shows P) h ns) :
    Tells P h ns := by
  induction hs with
  | nil => exact ⟨rfl, rfl, .nil, rfl⟩
  | cons he _ ih =>
    obtain ⟨h1, h2, h3, h4⟩ := ih
    cases he with
    | call | returned | close => exact ⟨h1, h2, h3, h4⟩
    | read r b => exact ⟨congrArg (_ :: ·) h1, h2, h3, by simpa [History.accepted, Note.answer, Answer.count] using h4⟩
    | request r => exact ⟨h1, congrArg (_ :: ·) h2, h3, h4⟩
    | response a d => exact ⟨h1, h2, .cons ⟨d, rfl⟩ h3, h4⟩
    | write r bs b hlen =>
      refine ⟨congrArg (_ :: ·) h1, h2, h3, ?_⟩
      simp only [History.accepted, List.flatMap_cons, List.length_append, hlen]
      simp only [History.accepted] at h4
      rw [h4]
      simp [Note.answer, Answer.count]

/-- The `close` before an `exit` tells nothing. -/
theorem Tells.of_close {h : List Event} {ns : List Note} (ht : Tells P h (ns ++ [.close])) :
    Tells P h ns := by
  have ha : (ns ++ [Note.close]).filterMap Note.answer = ns.filterMap Note.answer := by
    simp [List.filterMap_append, Note.answer]
  have hr : Note.requests (ns ++ [.close]) = Note.requests ns := by simp [Note.requests]
  have hp : Note.replies (ns ++ [.close]) = Note.replies ns := by simp [Note.replies]
  exact ⟨ha ▸ ht.answers, hr ▸ ht.requests, hp ▸ ht.responses, ha ▸ ht.accepted⟩

theorem Refines.tells {s : St} {a : Session} (h : Refines P s a) : Tells P s.curr.hist a.notes := by
  cases hc : s.ctl with
  | coro p => exact tells_of_shows ((refines_coro_iff hc).mp h).2.hist
  | main => exact tells_of_shows ((refines_main_iff hc).mp h).2.2.hist
  | dead d =>
    obtain ⟨-, he⟩ := (refines_dead_iff hc).mp h
    cases d with
    | exit => exact (tells_of_shows he).of_close
    | segv => exact tells_of_shows he.2
    | terminate => exact tells_of_shows he.2

/-- The answers are the visible labels of the run. -/
theorem answers_run : ∀ {ls : List (Option Answer)} {a a' : Session},
    run (Session.step P) a ls = some a' → a'.answers = a.answers ++ ls.reduceOption
  | [], _, _, h => by
    obtain rfl := Option.some.inj h
    exact (List.append_nil _).symm
  | l :: ls, a, a', h => by
    obtain ⟨u, hu, hr⟩ := run_cons_eq_some_iff.mp h
    rw [answers_run hr, (Session.sees_step hu).answers, List.append_assoc]
    cases l <;> rfl

/-- The bytes that came with an answer. -/
def Answer.bytes : Answer → Bytes
  | .read r _ => r.bytes
  | .write _ _ => []

/-- The bytes a session was given. -/
def Session.received (a : Session) : Bytes := a.answers.flatMap Answer.bytes

theorem received_eq (h : List Event) : History.received h = (History.answers h).flatMap Answer.bytes := by
  induction h with
  | nil => rfl
  | cons e h ih =>
    cases e with
    | call | request | response | returned | close => exact ih
    | read r b => exact congrArg (r.bytes ++ ·) ih
    | write r bs b => exact ih

theorem Refines.received {s : St} {a : Session} (h : Refines P s a) :
    History.received s.curr.hist = a.received := by
  rw [received_eq, h.tells.answers]
  rfl

theorem Session.received_step {l : Option Answer} {a a' : Session} (h : a.step P l = some a') :
    a'.received = a.received ++ l.toList.flatMap Answer.bytes := by
  unfold Session.received
  rw [(Session.sees_step h).answers, List.flatMap_append]

/-! ### One connection from its start -/

/-- The main loop is about to switch to a connection that `create_new_conn` has just made on
this context. -/
def St.accepted (g : Globals) (c : Conn) (p : Ptr) (connSock : Fd) (inst : ℕ) : St where
  toGlobals := { g with self := p, ctl := .main }
  curr := Worker.initNewConnCtx c p connSock inst

/-- One step of the connection. -/
def St.next (P : Platform) (s : St) (i : Tick × Op) : Option St := s.step P i.1 i.2

/-- A new connection is a session on its context. -/
theorem refines_accepted (g : Globals) {c : Conn} (p : Ptr) (connSock : Fd) (inst : ℕ)
    {size have_ curr : ℕ} (hsize : c.recvBufSize = size) (hhave : c.recvBufHave = have_)
    (hcurr : c.recvBufCurr = curr) (hpos : 0 < size) (hle : curr ≤ have_) (hle' : have_ ≤ size) :
    Refines P (St.accepted g c p connSock inst)
      (Session.start size (g.mem c.recvBufP) have_ curr) :=
  ⟨rfl, rfl,
    { size := hsize
      buf := rfl
      have_ := hhave
      curr := hcurr
      curr_le := hle
      have_le := hle'
      size_pos := hpos
      hist := .nil
      stands := .start rfl rfl rfl .nil }⟩

/-- **The steps of a connection refine a run of its session**, and a condition on them becomes
one on the steps of the session. -/
theorem refines_run {Q : St → Tick × Op → Prop} {W : Session → Option Answer → Prop}
    (hQ : ∀ s a i s' l, Refines P s a → Q s i → s.next P i = some s' → i.2.Emits l → W a l) :
    ∀ {is : List (Tick × Op)} {s s' : St} {a : Session}, Refines P s a →
      Along Q (St.next P) s is → run (St.next P) s is = some s' →
      ∃ ls a', run (Session.step P) a ls = some a' ∧ Along W (Session.step P) a ls ∧
        Refines P s' a' := by
  intro is
  induction is with
  | nil =>
    intro s s' a h _ hr
    obtain rfl := Option.some.inj hr
    exact ⟨[], a, rfl, trivial, h⟩
  | cons i is ih =>
    intro s s' a h hq hr
    obtain ⟨s₁, hs, hr⟩ := run_cons_eq_some_iff.mp hr
    obtain ⟨a₁, h₁, ha⟩ := refines_step h hs
    obtain ⟨ls, a', hls, hal, h'⟩ := ih h₁ (hq.2 s₁ hs) hr
    rcases ha with ⟨rfl, -⟩ | ⟨l, hl, ha⟩
    · exact ⟨ls, a', hls, hal, h'⟩
    · refine ⟨l :: ls, a', run_cons_eq_some_iff.mpr ⟨a₁, ha, hls⟩, ⟨hQ s a i s₁ l h hq.1 hs hl, ?_⟩, h'⟩
      intro a₂ ha₂
      obtain rfl := Option.some.inj (ha.symm.trans ha₂)
      exact hal

end SrvAsync
