import SrvAsync.Receive.Decode
import SrvAsync.Receive.Scan
import SrvAsync.Refine.Tells

/-!
# What a session still expects

At every stage of a session the bytes it holds and the bytes that follow determine
which requests are still to come: `Session.expect`.  A step of the session keeps the
requests it has delivered and those it expects together, whatever the bytes are and
however a read splits them, or it stops the session for one of the reasons of
`Session.Breaks`.

## Main definitions

* `Session.Tidy` — the cursors, and what a stage says about them.
* `Session.expect` — the requests still to come.
* `Session.Breaks` — why a session may stop before it delivered everything.

## Main results

* `goes_or_stops` — one step of a session.
-/

namespace SrvAsync

open Http History Machine Memory

/-- An answer after which a session may stop: a hard error, an operation that timed out,
or a write of nothing. -/
def Answer.Interrupts : Answer → Prop
  | .read r timedOut => r = .error ∨ timedOut = true
  | .write r timedOut => r = .error ∨ r = .zero ∨ timedOut = true

namespace Session

/-! ### The bytes a session holds -/

/-- The bytes in the buffer that no request was made of. -/
def unread (a : Session) : Bytes := window a.buf a.curr (a.have_ - a.curr)

/-- The cursors lie in the buffer. -/
structure InBounds (a : Session) : Prop where
  curr_le : a.curr ≤ a.have_
  have_le : a.have_ ≤ a.size

/-- What a stage says about the buffer. -/
def StageTidy (a : Session) : Stage → Prop
  | .hdr prev n => prev ≤ n ∧ n < a.size ∧ findHttpHeadersEnd (window a.buf 0 n) = 0
  | .body _ bodyLen gotLen toRecv n => a.have_ = 0 ∧ a.curr = 0 ∧ n < toRecv ∧ toRecv ≤ a.size ∧
      gotLen + toRecv ≤ bodyLen
  | .chunk _ bodyLen gotLen => a.have_ = 0 ∧ a.curr = 0 ∧ gotLen ≤ bodyLen
  | _ => True

/-- The cursors lie in the buffer, and fit the stage. -/
structure Tidy (a : Session) : Prop extends InBounds a where
  stage : a.StageTidy a.stage

/-- **The requests that are still to come** when these bytes follow. -/
def expect (a : Session) (T : Bytes) : List HttpRequestMsg :=
  match a.stage with
  | .idle | .answered _ _ => decode a.size (a.unread ++ T)
  | .hdr _ n => decode a.size (window a.buf 0 n ++ T)
  | .body req bodyLen gotLen _ n =>
    decodeBody a.size req (bodyLen - gotLen) (window a.buf 0 n ++ T)
  | .chunk req bodyLen gotLen => decodeBody a.size req (bodyLen - gotLen) (a.unread ++ T)
  | .send _ reply _ _ _ | .packet _ reply _ =>
    if reply.keepAlive then decode a.size (a.unread ++ T) else []
  | .failed | .ended | .dead _ => []

/-- The requests a session delivered. -/
def delivered (a : Session) : List HttpRequestMsg := Note.requests a.notes

/-- A session that went on: the requests delivered and to come are those before, and what
was to come before is `f`. -/
structure Goes (a a' : Session) (f : Bytes → List HttpRequestMsg) : Prop where
  size : a'.size = a.size
  tidy : a'.Tidy
  expect : ∀ T, a'.delivered ++ a'.expect T = a.delivered ++ f T

/-- A session that stopped: nothing is to come any more. -/
structure Stops (a a' : Session) : Prop where
  size : a'.size = a.size
  tidy : a'.Tidy
  delivered : a'.delivered = a.delivered
  expect : ∀ T, a'.expect T = []

section

variable {P : Platform} {a a' : Session}

@[simp] theorem delivered_note (a : Session) (e : Note) :
    (a.note e).delivered = a.delivered ++ Note.requests [e] := by
  simp [delivered, note, Note.requests]

@[simp] theorem delivered_goto (a : Session) (st : Stage) : (a.goto st).delivered = a.delivered :=
  rfl

/-- A session that stopped went on, when nothing was to come. -/
theorem Stops.goes (h : Stops a a') {f : Bytes → List HttpRequestMsg} (hf : ∀ T, f T = []) :
    Goes a a' f :=
  ⟨h.size, h.tidy, fun T => by rw [h.delivered, h.expect, hf]⟩

/-- The session is closed in good order. -/
theorem InBounds.stops (h : a.InBounds) : Stops a a.stop where
  size := rfl
  tidy := ⟨⟨h.curr_le, h.have_le⟩, trivial⟩
  delivered := by
    unfold stop
    rw [delivered_goto, delivered_note, delivered_note]
    simp [Note.requests]
  expect := fun _ => rfl

/-- A request was received. -/
theorem InBounds.deliver (h : a.InBounds) (req : HttpRequestMsg) :
    Goes a (a.deliver P req) fun T => decodeAfter a.size req (a.unread ++ T) := by
  unfold Session.deliver decodeAfter
  simp only [goesOn_iff]
  have hreq : (a.note (.request req)).delivered = a.delivered ++ [req] := delivered_note _ _
  split
  · next hk =>
    refine ⟨rfl, ⟨⟨h.curr_le, h.have_le⟩, trivial⟩, ?_⟩
    intro T
    rw [delivered_goto, hreq, if_neg (by simp [hk])]
    exact List.append_nil _
  · next k hk =>
    refine ⟨rfl, ⟨⟨h.curr_le, h.have_le⟩, trivial⟩, ?_⟩
    intro T
    rw [delivered_goto, delivered_note, hreq, List.append_assoc, List.append_assoc]
    congr 1
    have hkeep : (replyTo P req k).keepAlive = k := keepAlive_replyTo P req k
    unfold Session.expect
    simp only [goto, hkeep, hk, Option.some.injEq]
    rfl

/-- Silent changes before a session goes on. -/
theorem Goes.of_eq {b : Session} {f : Bytes → List HttpRequestMsg} (h : Goes a a' f)
    (hs : a.size = b.size) (hd : a.delivered = b.delivered) : Goes b a' f :=
  ⟨h.size.trans hs, h.tidy, fun T => by rw [h.expect, hd]⟩

theorem Goes.congr {f g : Bytes → List HttpRequestMsg} (h : Goes a a' f) (hfg : ∀ T, f T = g T) :
    Goes a a' g :=
  ⟨h.size, h.tidy, fun T => by rw [h.expect, hfg]⟩

/-- The body loop: nothing is left in the buffer when a part of the body is missing. -/
theorem InBounds.bodyLoop (h : a.InBounds) (req : HttpRequestMsg) (bodyLen gotLen : ℕ)
    (hle : gotLen ≤ bodyLen) (hempty : gotLen < bodyLen → a.have_ = 0 ∧ a.curr = 0)
    (hpos : 0 < a.size) :
    Goes a (a.bodyLoop P req bodyLen gotLen)
      fun T => decodeBody a.size req (bodyLen - gotLen) (a.unread ++ T) := by
  unfold Session.bodyLoop
  split
  · next hlt =>
    obtain ⟨hh, hc⟩ := hempty hlt
    refine ⟨rfl, ⟨⟨h.curr_le, h.have_le⟩, hh, hc, ?_, ?_, ?_⟩, ?_⟩
    · omega
    · change min _ a.size ≤ a.size
      exact Nat.min_le_right _ _
    · omega
    · intro T
      have hun : a.unread = [] := by
        unfold unread
        rw [hh]
        exact window_eq_nil_iff.mpr (Nat.zero_sub _)
      rw [hun]
      rfl
  · next hge =>
    have hzero : bodyLen - gotLen = 0 := by omega
    refine (h.deliver req).congr fun T => ?_
    rw [hzero, decodeBody_of_le req (Nat.zero_le _)]
    simp only [List.take_zero, List.drop_zero, appendBody_nil]

/-- The body of a request, of which a part may be in the buffer. -/
theorem InBounds.bodyHave (h : a.InBounds) (req : HttpRequestMsg) (hpos : 0 < a.size) :
    Goes a (a.bodyHave P req) fun T =>
      match (req.getHeaderValue (ascii "Content-Length")).asSizeT with
      | none => []
      | some bodyLen => decodeBody a.size req bodyLen (a.unread ++ T) := by
  unfold Session.bodyHave
  cases (req.getHeaderValue (ascii "Content-Length")).asSizeT with
  | none => exact ⟨rfl, ⟨⟨h.curr_le, h.have_le⟩, trivial⟩, fun T => rfl⟩
  | some bodyLen =>
    have hcle := h.curr_le
    simp only
    by_cases hall : bodyLen ≤ a.have_ - a.curr
    · -- the whole body is in the buffer
      rw [Nat.min_eq_right hall]
      have hbody : ∀ (b : Session), b.size = a.size → b.delivered = a.delivered → b.InBounds →
          b.unread = window a.buf (a.curr + bodyLen) (a.have_ - a.curr - bodyLen) →
          Goes a (b.bodyLoop P (req.appendBody (window a.buf a.curr bodyLen)) bodyLen bodyLen)
            fun T => decodeBody a.size req bodyLen (a.unread ++ T) := by
        intro b hsize hdel hb hun
        have hgo := hb.bodyLoop (P := P) (req.appendBody (window a.buf a.curr bodyLen)) bodyLen
          bodyLen le_rfl (fun hlt => absurd hlt (Nat.lt_irrefl _)) (hsize ▸ hpos)
        refine (hgo.of_eq hsize hdel).congr fun T => ?_
        have hlen : bodyLen ≤ a.unread.length := by
          rw [unread, length_window]
          exact hall
        rw [decodeBody_of_le req hlen, Nat.sub_self, decodeBody_of_le _ (Nat.zero_le _), hsize, hun]
        simp only [List.take_zero, List.drop_zero, appendBody_nil]
        rw [unread, take_window _ _ hall, drop_window _ _ hall]
      split
      · next heq =>
        -- the body is the rest of the buffer, and the cursors go back to 0
        refine hbody _ rfl rfl ⟨Nat.le_refl 0, Nat.zero_le _⟩ ?_
        have h0 : a.have_ - a.curr - bodyLen = 0 := by omega
        rw [h0]
        rfl
      · next hne =>
        refine hbody _ rfl rfl ⟨by change a.curr + bodyLen ≤ a.have_; omega, h.have_le⟩ ?_
        change window a.buf (a.curr + bodyLen) (a.have_ - (a.curr + bodyLen)) = _
        rw [Nat.sub_add_eq]
    · -- what is in the buffer belongs to the body
      rw [Nat.min_eq_left (by omega), if_pos (by omega)]
      have hgo := InBounds.bodyLoop (P := P) (a := { a with have_ := 0, curr := 0 })
        ⟨Nat.le_refl 0, Nat.zero_le _⟩ (req.appendBody a.unread) bodyLen
        (a.have_ - a.curr) (by omega) (fun _ => ⟨rfl, rfl⟩) hpos
      refine (hgo.of_eq (b := a) rfl rfl).congr fun T => ?_
      have hlen : a.unread.length = a.have_ - a.curr := length_window _ _ _
      rw [decodeBody_append a.size bodyLen req (by omega), hlen]
      rfl

/-- A header section was received. -/
theorem InBounds.hdrGot (h : a.InBounds) (hdr : Bytes) (hpos : 0 < a.size) :
    Goes a (a.hdrGot P hdr) fun T => decodeHeader a.size hdr (a.unread ++ T) := by
  unfold Session.hdrGot decodeHeader
  split
  · exact h.bodyHave _ hpos
  · exact h.deliver _

/-- A receive operation for a header section found its end. -/
theorem hdrReceived_goes (prev : ℕ) {n : ℕ} (hne : n ≠ prev) (hle : n ≤ a.size)
    (h0 : findHttpHeadersEnd (window a.buf 0 n) ≠ 0) :
    Goes a (a.hdrReceived P prev n) fun T => decode a.size (window a.buf 0 n ++ T) := by
  have hend := findHttpHeadersEnd_le (window a.buf 0 n)
  rw [length_window] at hend
  unfold Session.hdrReceived
  rw [if_neg hne]
  simp only
  rw [if_neg h0]
  have hgo := InBounds.hdrGot (P := P)
    (a := { a with have_ := n, curr := findHttpHeadersEnd (window a.buf 0 n) })
    ⟨hend, hle⟩ (window a.buf 0 (findHttpHeadersEnd (window a.buf 0 n))) (by change 0 < a.size; omega)
  refine (hgo.of_eq (b := a) rfl rfl).congr fun T => ?_
  rw [decode_eq, cutHeader_append h0 (hend.trans hle), take_window _ _ hend, drop_window _ _ hend,
    Nat.zero_add]
  rfl

/-- A receive operation for a header section found no end. -/
theorem InBounds.hdrReceived (h : a.InBounds) (prev : ℕ) {n : ℕ} (hle : n ≤ a.size)
    (h0 : findHttpHeadersEnd (window a.buf 0 n) = 0) : Stops a (a.hdrReceived P prev n) := by
  unfold Session.hdrReceived
  split
  · exact h.stops
  · simp only
    rw [if_pos h0, h0]
    have hst := InBounds.stops (a := { a with have_ := n, curr := 0 }) ⟨Nat.zero_le _, hle⟩
    exact ⟨hst.size, hst.tidy, hst.delivered, hst.expect⟩

/-- The next request is asked for. -/
theorem InBounds.ask (h : a.InBounds) (hpos : 0 < a.size) :
    Goes a (a.ask P) fun T => decode a.size (a.unread ++ T) := by
  have hcle := h.curr_le
  have hhle := h.have_le
  have hdel : (a.note .call).delivered = a.delivered := by
    rw [delivered_note]
    exact List.append_nil _
  unfold Session.ask
  simp only
  split
  · -- bytes behind the last request are left, and are searched first
    next hne =>
    change a.curr ≠ a.have_ at hne
    have hun : window (a.note .call).buf (a.note .call).curr
        ((a.note .call).have_ - (a.note .call).curr) = a.unread := rfl
    have hlen : a.unread.length = a.have_ - a.curr := length_window _ _ _
    rw [hun]
    split
    · next h0 =>
      split
      · next hfull =>
        change a.have_ - a.curr = a.size at hfull
        -- a whole buffer without an end cannot become a request any more
        have hst := InBounds.stops (a := { a.note .call with
          buf := store (a.note .call).buf 0 a.unread }) ⟨h.curr_le, h.have_le⟩
        have hstop : Stops a { a.note .call with buf := store (a.note .call).buf 0 a.unread }.stop :=
          ⟨hst.size, hst.tidy, Eq.trans hst.delivered hdel, hst.expect⟩
        refine hstop.goes fun T => ?_
        rw [decode_eq, cutHeader_of_find_eq_zero h0 (by omega)]
      · next hfull =>
        change a.have_ - a.curr ≠ a.size at hfull
        -- `memmove` to the beginning of the buffer, and `recv_buf` behind it
        have hwin : window (store a.buf 0 a.unread) 0 (a.have_ - a.curr) = a.unread :=
          window_store_zero a.buf a.curr (a.have_ - a.curr)
        refine ⟨rfl, ⟨⟨h.curr_le, h.have_le⟩, Nat.le_refl _, ?_, ?_⟩, ?_⟩
        · change a.have_ - a.curr < a.size
          omega
        · change findHttpHeadersEnd (window (store a.buf 0 a.unread) 0 (a.have_ - a.curr)) = 0
          rw [hwin]
          exact h0
        · intro T
          change (a.note .call).delivered ++
            decode a.size (window (store a.buf 0 a.unread) 0 (a.have_ - a.curr) ++ T) = _
          rw [hdel, hwin]
    · next h0 =>
      -- the next header section is in the buffer as a whole
      have hend := findHttpHeadersEnd_le a.unread
      rw [hlen] at hend
      have hgo := InBounds.hdrGot (P := P)
        (a := { a.note .call with curr := a.curr + findHttpHeadersEnd a.unread })
        ⟨by change a.curr + _ ≤ a.have_; omega, h.have_le⟩
        (window a.buf a.curr (findHttpHeadersEnd a.unread)) hpos
      have htake : a.unread.take (findHttpHeadersEnd a.unread) =
          window a.buf a.curr (findHttpHeadersEnd a.unread) := take_window _ _ hend
      have hdrop : a.unread.drop (findHttpHeadersEnd a.unread) =
          window a.buf (a.curr + findHttpHeadersEnd a.unread)
            (a.have_ - (a.curr + findHttpHeadersEnd a.unread)) := by
        rw [Nat.sub_add_eq]
        exact drop_window _ _ hend
      refine (hgo.of_eq (b := a) rfl hdel).congr fun T => ?_
      rw [decode_eq, cutHeader_append h0 (by omega), htake, hdrop]
      rfl
  · next heq =>
    -- nothing is left, and the buffer is filled from its beginning
    have heq' : a.curr = a.have_ := by
      by_contra hne
      exact heq hne
    refine ⟨rfl, ⟨⟨h.curr_le, h.have_le⟩, Nat.le_refl _, hpos, rfl⟩, ?_⟩
    intro T
    have hun : a.unread = [] := by
      unfold unread
      rw [heq', Nat.sub_self]
      rfl
    rw [hun]
    change (a.note .call).delivered ++ _ = _
    rw [hdel]
    rfl

/-! ### One step -/

/-- A silent step. -/
theorem Tidy.silent (h : a.Tidy) (hpos : 0 < a.size) (hs : a.silent P = some a') :
    Goes a a' a.expect := by
  have hb := h.toInBounds
  have hstage := h.stage
  unfold Session.expect
  cases moves_of_silent hs with
  | ask he =>
    rw [he]
    exact hb.ask hpos
  | chunk he =>
    rw [he] at hstage ⊢
    obtain ⟨hh, hc, hle⟩ := hstage
    exact hb.bodyLoop _ _ _ hle (fun _ => ⟨hh, hc⟩) hpos
  | packet he =>
    rw [he]
    exact ⟨rfl, ⟨⟨h.curr_le, h.have_le⟩, trivial⟩, fun T => rfl⟩
  | answered he hk =>
    rw [he]
    refine ⟨rfl, ⟨⟨h.curr_le, h.have_le⟩, trivial⟩, fun T => ?_⟩
    simp only [hk, if_true]
    rfl
  | closed he hk =>
    rw [he]
    refine hb.stops.goes fun T => ?_
    simp only [hk, Bool.false_eq_true, if_false]
  | again he =>
    rw [he]
    have hgo := InBounds.ask (P := P) (a := a.note (.returned true)) ⟨h.curr_le, h.have_le⟩ hpos
    refine hgo.of_eq rfl ?_
    rw [delivered_note]
    exact List.append_nil _
  | failed he =>
    rw [he]
    refine ⟨rfl, ⟨⟨h.curr_le, h.have_le⟩, trivial⟩, fun T => ?_⟩
    rw [delivered_goto, delivered_note]
    exact congrArg (· ++ []) (List.append_nil _)

/-- The answer breaks the session off, or no request was to come any more, or bytes of earlier
use completed the end of a header section. -/
inductive Breaks (a : Session) : Option Answer → Prop
  | interrupted {l : Answer} (h : l.Interrupts) : Breaks a (some l)
  | ended {timedOut : Bool} (h : a.expect [] = []) : Breaks a (some (.read .eof timedOut))
  | stale {prev n : ℕ} {bs : Bytes} {timedOut : Bool} (hst : a.stage = .hdr prev n)
    (h : StaleEnd a.buf a.size n bs) : Breaks a (some (.read (.data bs) timedOut))

/-- What an answer makes of a session. -/
def GoesOrStops (a a' : Session) (l : Option Answer) : Prop :=
  Goes a a' (fun T => a.expect (l.toList.flatMap Answer.bytes ++ T)) ∨ Stops a a' ∧ a.Breaks l

/-- Taking a note that is no request changes nothing. -/
theorem GoesOrStops.of_note {e : Note} (he : Note.requests [e] = []) {l : Option Answer}
    (h : GoesOrStops (a.note e) a' l) : GoesOrStops a a' l := by
  have hdel : (a.note e).delivered = a.delivered := by
    rw [delivered_note, he]
    exact List.append_nil _
  rcases h with hgo | ⟨hst, hbr⟩
  · exact .inl (hgo.of_eq rfl hdel)
  · refine .inr ⟨⟨hst.size, hst.tidy, hst.delivered.trans hdel, hst.expect⟩, ?_⟩
    cases hbr with
    | interrupted h => exact .interrupted h
    | ended h => exact .ended h
    | stale hst h => exact .stale hst h

/-- A session that goes on as it is. -/
theorem Tidy.goesOrStops (h : a.Tidy) {l : Answer} (hl : l.bytes = []) :
    GoesOrStops a a (some l) := by
  refine .inl ⟨rfl, h, fun T => ?_⟩
  simp only [Option.toList_some, List.flatMap_cons, List.flatMap_nil, hl, List.nil_append]

/-- A hard error closes the connection. -/
theorem InBounds.fail (h : a.InBounds) {l : Answer} (hl : l.Interrupts) :
    GoesOrStops a a.fail (some l) := by
  refine .inr ⟨⟨rfl, ⟨⟨h.curr_le, h.have_le⟩, trivial⟩, ?_, fun T => rfl⟩, .interrupted hl⟩
  unfold Session.fail
  rw [delivered_goto, delivered_note]
  exact List.append_nil _

/-- Bytes for a header section arrive. -/
theorem Tidy.hdrData {prev n : ℕ} (h : a.Tidy) (hst : a.stage = .hdr prev n) {bs : Bytes}
    (hne : bs ≠ []) (hle : n + bs.length ≤ a.size) (timedOut : Bool) :
    GoesOrStops a (a.hdrData P prev n bs) (some (.read (.data bs) timedOut)) := by
  have hstage := h.stage
  rw [hst] at hstage
  obtain ⟨hprev, hn, h0⟩ := hstage
  have hpos : 0 < bs.length := List.length_pos_iff.mpr hne
  have hold : findHttpHeadersEnd (window (store a.buf n bs) 0 n) = 0 := by
    rw [window_store_before bs (by omega)]
    exact h0
  have hb : InBounds { a with buf := store a.buf n bs } := ⟨h.curr_le, h.have_le⟩
  -- what was to come before is what the buffer now begins with
  have hexp : ∀ T, a.expect ((some (Answer.read (.data bs) timedOut)).toList.flatMap Answer.bytes ++ T)
      = decode a.size (window (store a.buf n bs) 0 (n + bs.length) ++ T) := by
    intro T
    unfold Session.expect
    rw [hst, window_store_chunk, List.append_assoc]
    simp [Answer.bytes, ReadResult.bytes]
  unfold Session.hdrData
  simp only
  split
  · next hnone =>
    -- the guard page was touched, and then no header section that fits is left
    refine .inl ⟨rfl, ⟨⟨h.curr_le, h.have_le⟩, trivial⟩, fun T => ?_⟩
    rw [hexp, decode_of_lt fun pos hpos => lt_of_isHttpMessageEnd_none hold (by omega) hle hnone hpos]
    rfl
  · next recvTerm hterm =>
    split
    · next hgo =>
      obtain ⟨hfull, rfl⟩ := hgo
      refine .inl ⟨rfl, ⟨⟨h.curr_le, h.have_le⟩, ?_, ?_, ?_⟩, fun T => ?_⟩
      · omega
      · change n + bs.length < a.size
        omega
      · exact find_of_isHttpMessageEnd_false hold hterm
      · rw [hexp]
        rfl
    · next hgo =>
      by_cases hfind : findHttpHeadersEnd (window (store a.buf n bs) 0 (n + bs.length)) = 0
      · have hstop := hb.hdrReceived (P := P) prev hle hfind
        have hstop : Stops a _ := ⟨hstop.size, hstop.tidy, hstop.delivered, hstop.expect⟩
        by_cases hfull : n + bs.length = a.size
        · -- the buffer is full, and no end of a header section is in it
          refine .inl (hstop.goes fun T => ?_)
          rw [hexp, decode_eq, cutHeader_of_find_eq_zero hfind (by rw [length_window]; omega)]
        · -- `is_http_message_end` saw an end that is not there
          have hterm' : recvTerm = true := by
            cases recvTerm with
            | true => rfl
            | false => exact absurd ⟨hfull, rfl⟩ hgo
          rw [hterm'] at hterm
          exact .inr ⟨hstop, .stale hst (staleEnd_of_isHttpMessageEnd_true hfind hterm)⟩
      · have hgot := hdrReceived_goes (P := P) (a := { a with buf := store a.buf n bs })
          prev (by omega) hle hfind
        exact .inl ((hgot.of_eq (b := a) rfl rfl).congr fun T => (hexp T).symm)

/-- What `read` answers while a header section is received. -/
theorem Tidy.hdrRead {prev n : ℕ} (h : a.Tidy) (hst : a.stage = .hdr prev n) {r : ReadResult}
    (hr : r.Fits (a.size - n)) (timedOut : Bool) :
    GoesOrStops a (a.hdrRead P prev n r) (some (.read r timedOut)) := by
  have hstage := h.stage
  rw [hst] at hstage
  obtain ⟨hprev, hn, h0⟩ := hstage
  cases r with
  | again => exact h.goesOrStops rfl
  | error => exact h.fail (.inl rfl)
  | eof =>
    refine .inr ⟨h.hdrReceived prev hn.le h0, .ended ?_⟩
    unfold Session.expect
    rw [hst]
    simp only [List.append_nil]
    exact decode_of_find_eq_zero h0
  | data bs =>
    obtain ⟨hne, hle⟩ := hr
    exact h.hdrData hst hne (by omega) timedOut

/-- What `read` answers while a chunk of a body is received. -/
theorem Tidy.bodyRead {req : HttpRequestMsg} {bodyLen gotLen toRecv n : ℕ} (h : a.Tidy)
    (hst : a.stage = .body req bodyLen gotLen toRecv n) {r : ReadResult}
    (hr : r.Fits (toRecv - n)) (timedOut : Bool) :
    GoesOrStops a (a.bodyRead req bodyLen gotLen toRecv n timedOut r) (some (.read r timedOut)) := by
  have hstage := h.stage
  rw [hst] at hstage
  obtain ⟨hh, hc, hn, hto, hle⟩ := hstage
  have hexp : ∀ T, a.expect T = decodeBody a.size req (bodyLen - gotLen) (window a.buf 0 n ++ T) := by
    intro T
    unfold Session.expect
    rw [hst]
  cases r with
  | again => exact h.goesOrStops rfl
  | error => exact h.fail (.inl rfl)
  | eof =>
    unfold Session.bodyRead bodyReceived
    simp only
    rw [if_pos hn.ne]
    refine .inr ⟨h.stops, .ended ?_⟩
    rw [hexp, List.append_nil, decodeBody_of_lt req (by rw [length_window]; omega)]
  | data bs =>
    have hfit : n + bs.length ≤ toRecv := by
      have := hr.2
      omega
    have hexp' : ∀ T, a.expect ((some (Answer.read (.data bs) timedOut)).toList.flatMap
        Answer.bytes ++ T) =
          decodeBody a.size req (bodyLen - gotLen) (window (store a.buf n bs) 0 (n + bs.length) ++ T) := by
      intro T
      rw [hexp, window_store_chunk, List.append_assoc]
      simp [Answer.bytes, ReadResult.bytes]
    unfold Session.bodyRead bodyData bodyReceived
    simp only
    split
    · next hmore =>
      refine .inl ⟨rfl, ⟨⟨h.curr_le, h.have_le⟩, hh, hc, ?_, hto, hle⟩, fun T => ?_⟩
      · have := hmore.1
        omega
      · rw [hexp']
        rfl
    · next hlast =>
      split
      · next hshort =>
        -- the loop was left before the chunk was complete, so the time was over
        have htimed : timedOut = true := by
          cases timedOut with
          | true => rfl
          | false => exact absurd ⟨hshort, rfl⟩ hlast
        have hstop := InBounds.stops (a := { a with buf := store a.buf n bs })
          ⟨h.curr_le, h.have_le⟩
        exact .inr ⟨⟨hstop.size, hstop.tidy, hstop.delivered, hstop.expect⟩,
          .interrupted (.inr htimed)⟩
      · refine .inl ⟨rfl, ⟨⟨h.curr_le, h.have_le⟩, hh, hc, by omega⟩, fun T => ?_⟩
        -- the buffer held the chunk only, so the rest of the body is to come
        have hun : window (store a.buf n bs) a.curr (a.have_ - a.curr) = [] := by
          rw [hh, Nat.zero_sub]
          rfl
        have hpiece := decodeBody_append a.size (bodyLen - gotLen) req
          (W := window (store a.buf n bs) 0 (n + bs.length)) (by rw [length_window]; omega) T
        rw [length_window, ← Nat.sub_add_eq] at hpiece
        rw [hexp', hpiece]
        change a.delivered ++ decodeBody a.size _ _
          (window (store a.buf n bs) a.curr (a.have_ - a.curr) ++ T) = _
        rw [hun, List.nil_append]

/-- What `write` answers. -/
theorem Tidy.sendWrote {req : HttpRequestMsg} {reply : Reply} {curr toSend n : ℕ} (h : a.Tidy)
    (hst : a.stage = .send req reply curr toSend n) {r : WriteResult}
    (hr : r.Fits (toSend - n)) (timedOut : Bool) :
    GoesOrStops a (a.sendWrote req reply curr toSend n timedOut r) (some (.write r timedOut)) := by
  have hin : ∀ st, StageTidy a st → (a.goto st).Tidy := fun st hs => ⟨⟨h.curr_le, h.have_le⟩, hs⟩
  have hexp : ∀ (st : Stage) (T : Bytes), (a.goto st).expect T = a.expect T →
      (a.goto st).delivered ++ (a.goto st).expect T = a.delivered ++
        a.expect ((some (Answer.write r timedOut)).toList.flatMap Answer.bytes ++ T) :=
    fun st T he => congrArg (a.delivered ++ ·) he
  unfold Session.sendWrote
  cases r with
  | again => exact h.goesOrStops rfl
  | error => exact h.fail (.inl rfl)
  | zero =>
    unfold Session.sent
    simp only
    split
    · exact .inr ⟨h.stops, .interrupted (.inr (.inl rfl))⟩
    · refine .inl ⟨rfl, hin _ trivial, fun T => hexp _ T ?_⟩
      unfold Session.expect
      rw [hst]
      rfl
  | sent m =>
    unfold Session.sent
    simp only
    split
    · refine .inl ⟨rfl, hin _ trivial, fun T => hexp _ T ?_⟩
      unfold Session.expect
      rw [hst]
      rfl
    · next hlast =>
      split
      · next hshort =>
        -- as for a read, only the time ends the loop early
        have htimed : timedOut = true := by
          cases timedOut with
          | true => rfl
          | false => exact absurd ⟨hshort, rfl⟩ hlast
        exact .inr ⟨h.stops, .interrupted (.inr (.inr htimed))⟩
      · refine .inl ⟨rfl, hin _ trivial, fun T => hexp _ T ?_⟩
        unfold Session.expect
        rw [hst]
        rfl

/-- **One step of a session**: what was delivered and what is to come stay together, or the
session stops for a reason. -/
theorem goes_or_stops (h : a.Tidy) (hpos : 0 < a.size) {l : Option Answer}
    (hs : a.step P l = some a') : GoesOrStops a a' l := by
  cases l with
  | none => exact .inl (h.silent hpos hs)
  | some l =>
    have hnote : ∀ e, (a.note e).Tidy := fun e => ⟨⟨h.curr_le, h.have_le⟩, h.stage⟩
    cases hears_of_visible hs with
    | hdr he hfits => exact ((hnote _).hdrRead he hfits _).of_note rfl
    | body he hfits => exact ((hnote _).bodyRead he hfits _).of_note rfl
    | send he hfits => exact ((hnote _).sendWrote he hfits _).of_note rfl

end

end Session
end SrvAsync
