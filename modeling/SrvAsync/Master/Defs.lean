import SrvAsync.Base.Runs

/-!
# The main process

`main` of `srv_async.c` from the installation of its SIGINT handler on: it forks the
workers, waits for them, reports each of them to the log, and closes the log.  The handler
does the same with the workers there are, at whatever point of `main` the signal comes; while
it runs a further SIGINT stays pending.

A worker is a child process, which can end in any way at any time.  Before it has set its own
action for SIGINT, the one it inherited does not end it: it has no children to wait for, and
closes its own copy of the log file.

The model records the calls of `fprintf`, `fclose` and `fork`.  What reaches the file is left
to stdio: it may write late, and `fork` copies what it has not written.

## Main definitions

* `Master.Child`, `Master.WaitPoint`, `Master` — the main process and its children.
* `Master.step` — one step: of the code, of a child, or a signal.
* `Master.reports` — the calls of `fprintf`, on a stream that is open.
* `Master.Sound`, `Master.Exposed` — nothing uses a closed stream, and where a signal makes
  that happen.
* `Master.Uncopied`, `Master.Forking` — no worker has a copy of what stdio is to write.
-/

namespace SrvAsync

namespace Master

/-- Where the log goes: `log_file_desc`. -/
inductive Stream
  | stdout
  /-- The log file. -/
  | file
  deriving DecidableEq, Repr

/-- What `wait` says about the end of a child. -/
inductive Status
  /-- `WIFEXITED`, with `WEXITSTATUS`. -/
  | exited (code : ℕ)
  /-- Else, with `WTERMSIG`. -/
  | signaled (sig : ℕ)
  deriving DecidableEq, Repr

/-- How far a child is. -/
inductive Life
  /-- The action for SIGINT is still the inherited one. -/
  | starting
  /-- The action for SIGINT is that of a worker. -/
  | serving
  /-- It has ended, and was not waited for. -/
  | ended (s : Status)
  /-- It was waited for. -/
  | reaped (s : Status)
  deriving DecidableEq, Repr

/-- What `wait` said about a child. -/
def Life.status : Life → Option Status
  | .reaped s => some s
  | _ => none

/-- A child process. -/
structure Child where
  pid : ℕ
  life : Life
  deriving DecidableEq, Repr

/-- Where `wait_for_workers` and the `close_srv_log` behind it stand. -/
inductive WaitPoint
  /-- In `wait`, with the stream loaded at the start. -/
  | wait (fout : Stream)
  /-- `wait` returned, and `fprintf` did not. -/
  | report (fout : Stream) (pid : ℕ) (s : Status)
  /-- At the test of `close_srv_log`. -/
  | close
  /-- The test has seen the log file, and the argument of `fclose` is not loaded. -/
  | tested
  /-- Loaded, and `fclose` has not returned. -/
  | closing (fp : Stream)
  /-- Behind it. -/
  | closed
  deriving DecidableEq, Repr

/-- Where `main` stands. -/
inductive MainPoint
  /-- At the test of the loop that forks. -/
  | fork (i : ℕ)
  /-- In the calls behind the loop. -/
  | tail (p : WaitPoint)
  /-- `main` returned. -/
  | returned
  deriving DecidableEq, Repr

/-- What is called. -/
inductive LogEvent
  /-- `fprintf`, about a child. -/
  | print (fout : Stream) (pid : ℕ) (s : Status)
  | fclose (fp : Stream)
  /-- `fork`: the child has the buffers of the streams. -/
  | fork
  deriving DecidableEq, Repr

/-- A step of the process, of a child, or a signal. -/
inductive Act
  /-- `fork` returns, with a pid or with an error. -/
  | fork (r : Option ℕ)
  /-- `wait` returns, for this child or with an error. -/
  | wait (r : Option ℕ)
  /-- The code goes on. -/
  | go
  /-- It goes on with what was loaded for the test: the variable is not `volatile`. -/
  | keep
  /-- SIGINT comes. -/
  | sigint
  /-- A child sets its action for SIGINT. -/
  | ready (k : ℕ)
  /-- A child gets SIGINT. -/
  | childSigint (k : ℕ)
  /-- A child ends. -/
  | ends (k : ℕ) (s : Status)
  deriving DecidableEq, Repr

/-- The action of a worker for SIGINT: `exit(128 + sig)`. -/
def sigintStatus : Status := .exited (128 + 2)

end Master

open Master

/-- The main process and its children.  `handler` is the handler of SIGINT when it runs. -/
structure Master where
  numWorkers : ℕ
  logFileDesc : Stream
  children : List Child
  main : MainPoint
  handler : Option WaitPoint
  pending : Bool
  events : List LogEvent
  deriving DecidableEq, Repr

namespace Master

/-- The process when it has set its handler and made the listening socket. -/
def start (numWorkers : ℕ) (logFileDesc : Stream) : Master :=
  ⟨numWorkers, logFileDesc, [], .fork 0, none, false, []⟩

/-- A child goes on to another state. -/
def setLife (m : Master) (k : ℕ) (c : Child) (l : Life) : Master :=
  { m with children := m.children.set k { c with life := l } }

/-- No child is left to wait for. -/
def AllReaped (m : Master) : Prop := ∀ c ∈ m.children, c.life.status.isSome = true

instance (m : Master) : Decidable m.AllReaped :=
  inferInstanceAs (Decidable (∀ c ∈ m.children, c.life.status.isSome = true))

/-- `wait` returns. -/
def waited (m : Master) (fout : Stream) : Option ℕ → Option (Option WaitPoint × Master)
  | some k => do
    let c ← m.children[k]?
    match c.life with
    | .ended s => some (some (.report fout c.pid s), m.setLife k c (.reaped s))
    | _ => none
  -- `ECHILD`
  | none => if m.AllReaped then some (some .close, m) else none

/-- A step of `wait_for_workers` and `close_srv_log`; no point is left behind them. -/
def advance (m : Master) : WaitPoint → Act → Option (Option WaitPoint × Master)
  | .wait fout, .wait r => m.waited fout r
  | .report fout pid s, .go =>
    some (some (.wait fout), { m with events := m.events ++ [.print fout pid s] })
  | .close, .go => some (if m.logFileDesc = .stdout then none else some .tested, m)
  | .tested, .go => some (some (.closing m.logFileDesc), m)
  | .tested, .keep => some (some (.closing .file), m)
  | .closing fp, .go => some (some .closed, { m with events := m.events ++ [.fclose fp] })
  | .closed, .go => some (none, { m with logFileDesc := .stdout })
  | _, _ => none

/-- `handle_sigint` starts. -/
def interrupt (m : Master) : Master := { m with handler := some (.wait m.logFileDesc) }

/-- `handle_sigint` goes on; when it returns, a SIGINT that came meanwhile starts it again. -/
def handlerStep (m : Master) (p : WaitPoint) (a : Act) : Option Master :=
  (m.advance p a).map fun
    | (some p', m) => { m with handler := some p' }
    | (none, m) =>
      if m.pending then { m with pending := false }.interrupt else { m with handler := none }

/-- `main` goes on. -/
def mainStep (m : Master) : MainPoint → Act → Option Master
  | .fork i, .fork (some pid) =>
    -- the kernel gives a pid that is not in use
    if i < m.numWorkers ∧ ∀ c ∈ m.children, c.pid = pid → c.life.status.isSome = true then
      some { m with
        children := m.children ++ [⟨pid, .starting⟩]
        main := .fork (i + 1)
        events := m.events ++ [.fork] }
    else none
  | .fork i, .fork none =>
    if i < m.numWorkers then some { m with main := .fork (i + 1) } else none
  | .fork i, .go => if i < m.numWorkers then none else some { m with main := .tail (.wait m.logFileDesc) }
  | .tail p, a =>
    (m.advance p a).map fun
      | (some p', m) => { m with main := .tail p' }
      | (none, m) => { m with main := .returned }
  | _, _ => none

/-- A step of a child, in the states it can make it in. -/
def childStep (m : Master) (k : ℕ) (next : Life → Option Life) : Option Master := do
  let c ← m.children[k]?
  let l ← next c.life
  return m.setLife k c l

/-- One step. -/
def step (m : Master) : Act → Option Master
  | .sigint =>
    if m.main = .returned then none
    else if m.handler.isSome then some { m with pending := true }
    else some m.interrupt
  | .ready k => m.childStep k fun
      | .starting => some .serving
      | _ => none
  | .childSigint k => m.childStep k fun
      | .starting => some .starting
      | .serving => some (.ended sigintStatus)
      | _ => none
  | .ends k s => m.childStep k fun
      | .starting | .serving => some (.ended s)
      | _ => none
  | a =>
    match m.handler with
    | some p => m.handlerStep p a
    | none => m.mainStep m.main a

/-! ### The log -/

/-- The text of `fprintf` in `wait_for_workers`. -/
def line (pid : ℕ) (s : Status) : String :=
  let (how, n) := match s with
    | .exited code => ("exited with code", code)
    | .signaled sig => ("terminated by signal", sig)
  "wait_for_workers(): " ++ toString pid ++ " worker " ++ how ++ " " ++ toString n ++ "\n"

/-- The child that a call is about. -/
def LogEvent.about : LogEvent → Option (ℕ × Status)
  | .print _ pid s => some (pid, s)
  | .fclose _ | .fork => none

/-- The stream that a call uses. -/
def LogEvent.uses : LogEvent → Option Stream
  | .print fp _ _ | .fclose fp => some fp
  | .fork => none

/-- The children that `fprintf` was called about, with a stream that was not closed.  These were
closed before. -/
def reported (closed : List Stream) : List LogEvent → List (ℕ × Status)
  | [] => []
  | .print fout pid s :: es =>
    if fout ∈ closed then reported closed es else (pid, s) :: reported closed es
  | .fclose fp :: es => reported (fp :: closed) es
  | .fork :: es => reported closed es

/-- The texts of these calls. -/
def reports (m : Master) : List String := (reported [] m.events).map fun r => line r.1 r.2

/-- What there is to say about a child that was waited for. -/
def Child.about (c : Child) : Option (ℕ × Status) := c.life.status.map fun s => (c.pid, s)

/-- The first call leaves open what the second one uses. -/
def LogEvent.Spares : LogEvent → LogEvent → Prop
  | .fclose fp, f => f.uses ≠ some fp
  | .print _ _ _, _ | .fork, _ => True

instance : DecidableRel LogEvent.Spares
  | .fclose fp, f => inferInstanceAs (Decidable (f.uses ≠ some fp))
  | .print _ _ _, _ | .fork, _ => isTrue trivial

/-- Nothing uses the log file when it is closed, and `stdout` is not closed. -/
def Sound (es : List LogEvent) : Prop := es.Pairwise LogEvent.Spares ∧ .fclose .stdout ∉ es

instance (es : List LogEvent) : Decidable (Sound es) :=
  inferInstanceAs (Decidable (es.Pairwise LogEvent.Spares ∧ .fclose .stdout ∉ es))

/-- `main` has waited for a child and not reported it to the log file, or its test has seen the
log file and it has not forgotten it. -/
def MainPoint.exposed : MainPoint → Bool
  | .tail (.report .file _ _) | .tail .tested | .tail (.closing _) | .tail .closed => true
  | _ => false

/-- A SIGINT that comes now makes the handler close a file that `main` is about to use or to
close, or close it again. -/
def Exposed (m : Master) : Prop := m.handler = none ∧ m.main.exposed = true

instance (m : Master) : Decidable m.Exposed :=
  inferInstanceAs (Decidable (m.handler = none ∧ m.main.exposed = true))

/-- No child was forked behind a call of `fprintf`, so that it has a copy of the text. -/
def Uncopied (es : List LogEvent) : Prop := es.Pairwise fun e f => e.about.isSome → f ≠ .fork

/-- `main` is to fork. -/
def Forking (m : Master) : Prop := ∃ i < m.numWorkers, m.main = .fork i

instance (m : Master) : Decidable m.Forking :=
  inferInstanceAs (Decidable (∃ i < m.numWorkers, m.main = .fork i))

end Master
end SrvAsync
