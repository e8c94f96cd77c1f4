import SrvAsync.Receive.Sound

/-!
# A session that goes on has lost nothing

A session stops for many reasons, and then bytes it was given may be lost.  As long as it
has not stopped, nothing is: the requests it delivered and those it expects are the
reference decoding of the bytes it was given and those that follow.

## Main definitions

* `Stage.Open` — the conversation goes on.
* `Session.Whole` — nothing is lost as long as the conversation goes on.

## Main results

* `goes_of_open` — a step to a stage at which the conversation goes on loses nothing.
* `Session.Whole.step` — nothing is lost in a step.
* `Session.Whole.requests_of_waiting` — what a session delivered when it waits for bytes of a
  request.
-/

namespace SrvAsync

open Http History Machine Memory

/-- The conversation goes on. -/
def Stage.Open : Stage → Prop
  | .failed | .ended | .dead _ => False
  | _ => True

/-- The session waits for bytes of a request. -/
def Stage.Waits : Stage → Prop
  | .hdr .. | .body .. => True
  | _ => False

namespace Session

variable {P : Platform} {a a' : Session}

/-- Nothing happens: the session expects what it expected. -/
theorem Tidy.goes (h : a.Tidy) : Goes a a (a.expect ·) := ⟨rfl, h, fun _ => rfl⟩

/-- A session that is closed in good order does not go on. -/
theorem not_open_stop : ¬ a.stop.stage.Open := fun h => h

/-- A receive operation for a header section that found no end closes the session. -/
theorem not_open_hdrReceived {prev n : ℕ} (h0 : findHttpHeadersEnd (window a.buf 0 n) = 0) :
    ¬ (a.hdrReceived P prev n).stage.Open := by
  unfold hdrReceived
  split
  · exact not_open_stop
  · simp only
    rw [if_pos h0]
    exact not_open_stop

/-- Bytes for a header section. -/
theorem Tidy.goes_hdrData {prev n : ℕ} (h : a.Tidy) (hst : a.stage = .hdr prev n) {bs : Bytes}
    (hne : bs ≠ []) (hle : n + bs.length ≤ a.size) (ho : (a.hdrData P prev n bs).stage.Open) :
    Goes a (a.hdrData P prev n bs) fun T => a.expect (bs ++ T) := by
  have hstage := h.stage
  rw [hst] at hstage
  obtain ⟨hprev, hn, h0⟩ := hstage
  have hpos : 0 < bs.length := List.length_pos_iff.mpr hne
  have hold : findHttpHeadersEnd (window (store a.buf n bs) 0 n) = 0 := by
    rw [window_store_before bs (by omega)]
    exact h0
  have hexp : ∀ T, a.expect (bs ++ T) =
      decode a.size (window (store a.buf n bs) 0 (n + bs.length) ++ T) := by
    intro T
    unfold Session.expect
    rw [hst, window_store_chunk, List.append_assoc]
  unfold Session.hdrData at ho ⊢
  simp only at ho ⊢
  split at ho
  · exact ho.elim
  · split at ho
    · next hterm hgo =>
      -- more is read behind what is there
      obtain ⟨hfull, rfl⟩ := hgo
      rw [if_pos ⟨hfull, rfl⟩]
      refine ⟨rfl, ⟨⟨h.curr_le, h.have_le⟩, ?_, ?_, find_of_isHttpMessageEnd_false hold hterm⟩, ?_⟩
      · omega
      · change n + bs.length < a.size
        omega
      · intro T
        rw [hexp]
        rfl
    · next hgo =>
      rw [if_neg hgo]
      have hfind : findHttpHeadersEnd (window (store a.buf n bs) 0 (n + bs.length)) ≠ 0 :=
        fun hfind => not_open_hdrReceived hfind ho
      have hgot := hdrReceived_goes (P := P) (a := { a with buf := store a.buf n bs })
        prev (by omega) hle hfind
      exact (hgot.of_eq (b := a) rfl rfl).congr fun T => (hexp T).symm

/-- Bytes of a body; when the time is over only a complete chunk goes on. -/
theorem Tidy.goes_bodyData {req : HttpRequestMsg} {bodyLen gotLen toRecv n : ℕ} (h : a.Tidy)
    (hst : a.stage = .body req bodyLen gotLen toRecv n) {bs : Bytes}
    (hr : (ReadResult.data bs).Fits (toRecv - n)) {timedOut : Bool}
    (ho : (a.bodyData req bodyLen gotLen toRecv n bs timedOut).stage.Open) :
    Goes a (a.bodyData req bodyLen gotLen toRecv n bs timedOut) fun T => a.expect (bs ++ T) := by
  have hsame : a.bodyData req bodyLen gotLen toRecv n bs timedOut =
      a.bodyData req bodyLen gotLen toRecv n bs false := by
    by_cases hlast : n + bs.length = toRecv
    · simp [bodyData, hlast]
    · cases timedOut with
      | false => rfl
      | true =>
        unfold bodyData bodyReceived at ho
        simp only at ho
        rw [if_neg (by simp), if_pos hlast] at ho
        exact absurd ho not_open_stop
  rw [hsame]
  rcases h.bodyRead hst hr false with hgo | ⟨-, hbr⟩
  · exact hgo.congr fun T => by simp [Answer.bytes, ReadResult.bytes]
  · -- neither an error nor the end of the stream, and not inside a header section
    cases hbr with
    | interrupted hi => rcases hi with hi | hi <;> cases hi
    | stale hst' => cases hst.symm.trans hst'

/-- A packet that was sent completely. -/
theorem Tidy.goes_sent {req : HttpRequestMsg} {reply : Reply} {curr toSend n : ℕ} (h : a.Tidy)
    (hst : a.stage = .send req reply curr toSend n) {m : ℕ}
    (ho : (a.sent req reply curr toSend m).stage.Open) :
    Goes a (a.sent req reply curr toSend m) (a.expect ·) := by
  unfold sent at ho ⊢
  split at ho
  · exact absurd ho not_open_stop
  · next hall =>
    rw [if_neg hall]
    refine ⟨rfl, ⟨⟨h.curr_le, h.have_le⟩, trivial⟩, fun T => ?_⟩
    unfold Session.expect
    rw [hst]
    rfl

/-- A part of a packet. -/
theorem Tidy.goes_sendWrote {req : HttpRequestMsg} {reply : Reply} {curr toSend n : ℕ} (h : a.Tidy)
    (hst : a.stage = .send req reply curr toSend n) {r : WriteResult} {timedOut : Bool}
    (ho : (a.sendWrote req reply curr toSend n timedOut r).stage.Open) :
    Goes a (a.sendWrote req reply curr toSend n timedOut r) (a.expect ·) := by
  cases r with
  | again => exact h.goes
  | error => exact ho.elim
  | zero => exact h.goes_sent hst ho
  | sent m =>
    unfold Session.sendWrote at ho ⊢
    simp only at ho
    split at ho
    · next hmore =>
      simp only
      rw [if_pos hmore]
      refine ⟨rfl, ⟨⟨h.curr_le, h.have_le⟩, trivial⟩, fun T => ?_⟩
      unfold Session.expect
      rw [hst]
      rfl
    · next hmore =>
      simp only
      rw [if_neg hmore]
      exact h.goes_sent hst ho

/-- **A step to a stage at which the conversation goes on loses nothing.** -/
theorem goes_of_open (h : a.Tidy) (hpos : 0 < a.size) {l : Option Answer}
    (hs : a.step P l = some a') (ho : a'.stage.Open) :
    Goes a a' fun T => a.expect (l.toList.flatMap Answer.bytes ++ T) := by
  cases l with
  | none => exact h.silent hpos hs
  | some l =>
    have hnote : ∀ e, (a.note e).Tidy := fun e => ⟨⟨h.curr_le, h.have_le⟩, h.stage⟩
    have hof : ∀ (e : Note) {f : Bytes → List HttpRequestMsg}, Note.requests [e] = [] →
        Goes (a.note e) a' f → Goes a a' f := fun e _ he hgo =>
      hgo.of_eq rfl (by rw [delivered_note, he, List.append_nil])
    cases hears_of_visible hs with
    | @hdr prev n r timedOut he hfits =>
      refine hof (.read r timedOut) rfl ?_
      have hstage := h.stage
      rw [he] at hstage
      obtain ⟨-, hn, h0⟩ := hstage
      cases r with
      | again => exact (hnote _).goes
      | error => exact ho.elim
      | eof => exact absurd ho (not_open_hdrReceived h0)
      | data bs =>
        have hgo := (hnote (.read (.data bs) timedOut)).goes_hdrData (P := P) he hfits.1
          (by have := hfits.2; change n + bs.length ≤ a.size; omega) ho
        exact hgo.congr fun T => by simp [Answer.bytes, ReadResult.bytes]; rfl
    | @body req bodyLen gotLen toRecv n r timedOut he hfits =>
      refine hof (.read r timedOut) rfl ?_
      have hstage := h.stage
      rw [he] at hstage
      obtain ⟨-, -, hn, -, -⟩ := hstage
      cases r with
      | again => exact (hnote _).goes
      | error => exact ho.elim
      | eof =>
        change ((a.note _).bodyReceived req bodyLen gotLen toRecv n).stage.Open at ho
        unfold bodyReceived at ho
        rw [if_pos hn.ne] at ho
        exact ho.elim
      | data bs =>
        have hgo := (hnote (.read (.data bs) timedOut)).goes_bodyData he hfits ho
        exact hgo.congr fun T => by simp [Answer.bytes, ReadResult.bytes]; rfl
    | send he hfits => exact hof _ rfl ((hnote _).goes_sendWrote he ho)

/-- A session that has stopped does not go on. -/
theorem not_open_step {l : Option Answer} (hs : a.step P l = some a') (ho : ¬ a.stage.Open) :
    ¬ a'.stage.Open := by
  cases l with
  | none =>
    cases moves_of_silent hs with
    | ask he | chunk he | packet he | answered he | closed he | again he =>
      rw [he] at ho
      exact absurd trivial ho
    | failed => exact fun h => h
  | some l =>
    cases hears_of_visible hs with
    | hdr he | body he | send he =>
      rw [he] at ho
      exact absurd trivial ho

/-- **Nothing is lost as long as the conversation goes on.** -/
structure Whole (a : Session) : Prop where
  pos : 0 < a.size
  kept : a.stage.Open → a.Tidy ∧
    ∀ T, a.delivered ++ a.expect T = decode a.size (a.received ++ T)

/-- **A step keeps a session whole.** -/
theorem Whole.step (h : a.Whole) {l : Option Answer} (hs : a.step P l = some a') : a'.Whole := by
  have hsize := (sees_step hs).size
  refine ⟨hsize ▸ h.pos, fun ho => ?_⟩
  have hopen : a.stage.Open := by
    by_contra hnot
    exact not_open_step hs hnot ho
  obtain ⟨htidy, hkept⟩ := h.kept hopen
  have hgo := goes_of_open htidy h.pos hs ho
  refine ⟨hgo.tidy, fun T => ?_⟩
  rw [hgo.expect, hkept, hsize, received_step hs, List.append_assoc]

/-- A session that starts with an empty buffer is whole. -/
theorem whole_start (size : ℕ) (buf : ℕ → Byte) {n : ℕ} (hpos : 0 < size) (hle : n ≤ size) :
    (start size buf n n).Whole := by
  refine ⟨hpos, fun _ => ⟨⟨⟨le_rfl, hle⟩, trivial⟩, fun T => ?_⟩⟩
  change (start size buf n n).expect T = decode size T
  exact decode_start size buf n T

/-- **A session that waits for bytes of a request has delivered all the others.** -/
theorem Whole.requests_of_waiting (h : a.Whole) (hw : a.stage.Waits) :
    a.delivered = decode a.size a.received := by
  have hexp : a.stage.Open → a.Tidy → a.expect [] = [] := by
    intro _ htidy
    have hstage := htidy.stage
    unfold Session.expect
    revert hw hstage
    cases a.stage with
    | hdr prev n =>
      rintro - ⟨-, -, h0⟩
      simp only [List.append_nil]
      exact decode_of_find_eq_zero h0
    | body req bodyLen gotLen toRecv n =>
      rintro - ⟨-, -, hn, -, hle⟩
      simp only [List.append_nil]
      exact decodeBody_of_lt req (by rw [length_window]; omega)
    | _ => exact fun hw => hw.elim
  have hopen : a.stage.Open := by
    revert hw
    cases a.stage with
    | hdr | body => exact fun _ => trivial
    | _ => exact fun hw => hw.elim
  obtain ⟨htidy, hkept⟩ := h.kept hopen
  have hnil := hkept []
  rw [hexp hopen htidy, List.append_nil, List.append_nil] at hnil
  exact hnil

end Session
end SrvAsync
