import SrvAsync.Conn.Ctxt

/-!
# What the history of a connection shows

Projections of the `hist` of a connection: the requests `recv_http_msg`
delivered, the responses made for them, the bytes the socket gave and accepted,
and the answers of the socket, which are all a connection learns from outside
apart from the date.
-/

namespace SrvAsync

open Http

/-- What the socket answers, with the outcome of the operation timeout. -/
inductive Answer
  | read (r : ReadResult) (timedOut : Bool)
  | write (r : WriteResult) (timedOut : Bool)
  deriving DecidableEq, Repr

/-- A hard error of the socket. -/
def Answer.HardError : Answer → Prop
  | .read r _ => r = .error
  | .write r _ => r = .error

namespace ReadResult

/-- The bytes a `read` gave. -/
def bytes : ReadResult → Bytes
  | data bs => bs
  | _ => []

end ReadResult

namespace WriteResult

/-- How many bytes a `write` took. -/
def count : WriteResult → ℕ
  | sent n => n
  | _ => 0

end WriteResult

namespace History

/-- The requests `recv_http_msg` returned. -/
def requests (h : List Event) : List HttpRequestMsg :=
  h.filterMap fun | .request r => some r | _ => none

/-- The responses `MakeResponse` returned. -/
def responses (h : List Event) : List HttpResponseMsg :=
  h.filterMap fun | .response r => some r | _ => none

/-- The bytes the socket gave, in order. -/
def received (h : List Event) : Bytes :=
  h.flatMap fun | .read r _ => r.bytes | _ => []

/-- The bytes the socket accepted, in order. -/
def accepted (h : List Event) : Bytes :=
  h.flatMap fun | .write _ bs _ => bs | _ => []

/-- The answers of the socket. -/
def answers (h : List Event) : List Answer :=
  h.filterMap fun | .read r b => some (.read r b) | .write r _ b => some (.write r b) | _ => none

/-- The sockets that were closed, by the `accept` they came from. -/
def closes (h : List Event) : List (Option ℕ) :=
  h.filterMap fun | .close file => some file | _ => none

section

variable (h h' : List Event) (e : Event)

@[simp] theorem requests_append : requests (h ++ h') = requests h ++ requests h' := by
  simp [requests]

@[simp] theorem responses_append : responses (h ++ h') = responses h ++ responses h' := by
  simp [responses]

@[simp] theorem received_append : received (h ++ h') = received h ++ received h' := by
  simp [received]

@[simp] theorem accepted_append : accepted (h ++ h') = accepted h ++ accepted h' := by
  simp [accepted]

@[simp] theorem answers_append : answers (h ++ h') = answers h ++ answers h' := by simp [answers]

@[simp] theorem closes_append : closes (h ++ h') = closes h ++ closes h' := by simp [closes]

end

end History
end SrvAsync
