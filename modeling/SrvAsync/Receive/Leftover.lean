import SrvAsync.Receive.Recycle

/-!
# What a connection leaves to the next one

`create_new_conn` takes a context from the cache as the last connection on it left it.  When
nothing is left unread in the buffer, the new connection gets the requests it would get on a newly
allocated context, as long as no read completes the end of a header section with bytes of earlier
use.  It gets them for every byte stream and all outcomes of its reads exactly when no LF stands
behind the first four cells, too.

## Main definitions

* `Worker.Takes` — the main loop accepts a socket and takes a context for it.
* `Worker.served` — the requests that are delivered on the new connection.
* `Worker.NoStale` — no read of it meets bytes of earlier use.
* `Worker.Clean` — a context that can be used again.

## Main results

* `Takes.step`, `takes_of_step` — this is what the main loop does.
* `recycled_served_iff` — **when a context can be used again**.
-/

namespace SrvAsync

open Http History Machine Memory

variable {P : Platform}

/-! ### The context of a new connection -/

namespace Worker

variable {w w' w'' : Worker} {fd : Fd} {outs : List (Option Ptr)} {p : Ptr}

/-- A socket was accepted. -/
def withSocket (w : Worker) (fd : Fd) : Worker :=
  { w with fds := Function.update w.fds fd (some w.accepted), accepted := w.accepted + 1 }

/-- `accept` gives this socket, and `create_new_conn` takes the context `p` for it; `w'` is the
worker that starts the connection. -/
structure Takes (w : Worker) (fd : Fd) (outs : List (Option Ptr)) (p : Ptr) (w' : Worker) :
    Prop where
  ctl : w.ctl = .main
  waiting : w.phase = .head ∨ w.phase = .blocked
  nonneg : 0 ≤ fd
  free : w.fds fd = none
  taken : ((w.withSocket fd).refillConnCtxCache outs).map takeConnCtx = some (some p, w')

/-- **The main loop starts the connection.** -/
theorem Takes.step (h : w.Takes fd outs p w') (t : Tick) :
    w.step P (t, .poll (.ready (some fd) outs)) =
      some (w'.startConn p fd w.accepted).startPass := by
  obtain ⟨w₁, hrefill, htake⟩ := Option.map_eq_some_iff.mp h.taken
  have hpoll : w.polled (.ready (some fd) outs) =
      some (w'.startConn p fd w.accepted).startPass := by
    unfold polled
    simp only
    rw [if_pos ⟨h.nonneg, h.free⟩]
    unfold createNewConn
    have hrefill' : ({ w with
        fds := Function.update w.fds fd (some w.accepted), accepted := w.accepted + 1 } :
          Worker).refillConnCtxCache outs = some w₁ := hrefill
    rw [hrefill']
    simp only [Option.map_some, htake]
  unfold Worker.step
  rw [h.ctl]
  rcases h.waiting with hph | hph <;>
  · rw [hph]
    simpa [mainStep] using hpoll

/-- A socket that the main loop accepts is taken a context for, or the process exits. -/
theorem takes_of_step {t : Tick} (hs : w.step P (t, .poll (.ready (some fd) outs)) = some w'') :
    (∃ p w', w.Takes fd outs p w' ∧ w'' = (w'.startConn p fd w.accepted).startPass) ∨
      w''.ctl = .dead .exit := by
  obtain ⟨hctl, hph, hpoll⟩ := step_poll hs
  unfold polled at hpoll
  simp only at hpoll
  split at hpoll
  · next hfd =>
    obtain ⟨w₁, hnew, rfl⟩ := Option.map_eq_some_iff.mp hpoll
    unfold createNewConn at hnew
    obtain ⟨w₂, hrefill, rfl⟩ := Option.map_eq_some_iff.mp hnew
    split
    · next p w₃ htake =>
      refine .inl ⟨p, w₃, ⟨hctl, hph, hfd.1, hfd.2, ?_⟩, rfl⟩
      exact Option.map_eq_some_iff.mpr ⟨w₂, hrefill, htake⟩
    · exact .inr rfl
  · cases hpoll

/-- The context comes out of the cache. -/
theorem Takes.spare (h : w.Takes fd outs p w') (hw : Reachable P w) :
    Spare (w'.heap p) p (w'.mem p) := by
  have hb : w.Between := by
    rintro q todo he
    rcases h.waiting with hph | hph <;> exact Phase.noConfusion (hph.symm.trans he)
  obtain ⟨w₁, hrefill, htake⟩ := Option.map_eq_some_iff.mp h.taken
  have hacc : Inv P (fun _ _ => True) w.accepted (w.withSocket fd) :=
    (inv_reachable hw).accept hb h.free w.accepted
  obtain ⟨hi, -⟩ := hacc.refillConnCtxCache hb hrefill
  unfold takeConnCtx at htake
  split at htake
  · cases htake
  · split at htake
    · cases htake
    · next q ps hl =>
      obtain ⟨hq, rfl⟩ := Prod.mk.inj htake
      obtain rfl := Option.some.inj hq
      exact (hi.popCache hl).2.2.2

/-! ### The requests of a new connection -/

/-- The requests that `recv_http_msg` delivers on the connection that is started on the context
`p`, when these are its steps, as far as they are possible. -/
def served (P : Platform) (w : Worker) (p : Ptr) (connSock : Fd) (inst : ℕ)
    (is : List (Tick × Op)) : List HttpRequestMsg :=
  requests (runFar (St.next P)
    (St.accepted (w.startConn p connSock inst).toGlobals (w.heap p) p connSock inst) is).curr.hist

/-- No read of this connection completes the end of a header section with bytes that were not
received with it. -/
def NoStale (P : Platform) (w : Worker) (p : Ptr) (connSock : Fd) (inst : ℕ)
    (is : List (Tick × Op)) : Prop :=
  Along (fun s i => ¬ s.StaleRead i.2) (St.next P)
    (St.accepted (w.startConn p connSock inst).toGlobals (w.heap p) p connSock inst) is

instance (P : Platform) (w : Worker) (p : Ptr) (connSock : Fd) (inst : ℕ) (is : List (Tick × Op)) :
    Decidable (NoStale P w p connSock inst is) := inferInstanceAs (Decidable (Along _ _ _ is))

/-- The context can be used again: every byte in its buffer was used, and there is no LF behind
the first four cells. -/
structure Clean (w : Worker) (p : Ptr) : Prop where
  drained : (w.heap p).recvBufCurr = (w.heap p).recvBufHave
  noLF : ∀ i : ℕ, 4 ≤ i → (i : ℤ) < recvBufSize → w.mem p i ≠ LF

/-- The globals of a worker that has started a connection. -/
theorem toGlobals_startConn (w : Worker) (p : Ptr) (connSock : Fd) (inst : ℕ) :
    (w.startConn p connSock inst).toGlobals =
      { w.toGlobals with
        queue := { w.queue with
          qconnList := p :: w.queue.qconnList, activeConnCnt := w.queue.activeConnCnt + 1 } } := by
  simp [startConn, addConnToQueue, initNewConnCtx]

/-- What a newly allocated context has for a residue. -/
def freshResidue : Residue := ⟨fun _ => 0, 0, 0, 1⟩

/-- A newly allocated context differs in its residue. -/
theorem accepted_allocConnCtxMem (hs : Spare (w.heap p) p (w.mem p)) (connSock : Fd) (inst : ℕ) :
    St.accepted ((w.allocConnCtxMem p).startConn p connSock inst).toGlobals
        ((w.allocConnCtxMem p).heap p) p connSock inst =
      (St.accepted (w.startConn p connSock inst).toGlobals (w.heap p) p connSock inst).withResidue
        freshResidue := by
  have hbuf := hs.recvBufP
  have hsize := hs.recvBufSize
  rw [toGlobals_startConn, toGlobals_startConn]
  unfold allocConnCtxMem St.accepted St.withResidue initNewConnCtx freshResidue
  simp only [Function.update_self, hbuf, hsize]

/-- A context with nothing left unread. -/
theorem drained_of_spare {c : Conn} {b : ℕ → Byte} (hs : Spare c p b)
    (hd : c.recvBufCurr = c.recvBufHave) : c.Drained := by
  have hsize := hs.recvBufSize
  have hval : SrvAsync.recvBufSize = 8192 := rfl
  obtain ⟨have_, curr, hhave, hcurr, hle, hle'⟩ := hs.cursors
  exact ⟨by omega, by omega, by omega, hd⟩

/-- A connection on a context with nothing left unread is at a sound session. -/
theorem sound_accepted {c : Conn} (hd : c.Drained) (g : Globals) (connSock : Fd) (inst : ℕ) :
    ∃ a, Refines P (St.accepted g c p connSock inst) a ∧ a.Sound [] := by
  refine ⟨_, hd.refines g p connSock inst, ?_⟩
  have hpos := hd.size_pos
  have hle := hd.have_le
  exact Session.sound_start_empty _ _ (by omega) (by omega)

theorem spare_allocConnCtxMem (w : Worker) (p : Ptr) :
    Spare ((w.allocConnCtxMem p).heap p) p ((w.allocConnCtxMem p).mem p) := by
  unfold allocConnCtxMem
  simp only [Function.update_self]
  exact ⟨rfl, rfl, ⟨0, 0, rfl, rfl, le_rfl, by decide⟩, fun _ => ⟨rfl, rfl, rfl⟩⟩

/-- **A connection on a context with nothing left unread goes like on a newly allocated one**, as
long as no read completes the end of a header section with bytes of earlier use, or the context
is clean. -/
theorem asFresh {clean : Prop} (hs : Spare (w.heap p) p (w.mem p))
    (hd : (w.heap p).recvBufCurr = (w.heap p).recvBufHave) (hc : clean → w.Clean p)
    (connSock : Fd) (inst : ℕ) :
    AsFresh clean P (St.accepted (w.startConn p connSock inst).toGlobals (w.heap p) p connSock inst)
      (St.accepted ((w.allocConnCtxMem p).startConn p connSock inst).toGlobals
        ((w.allocConnCtxMem p).heap p) p connSock inst) := by
  have hfresh : ((w.allocConnCtxMem p).heap p).recvBufCurr =
      ((w.allocConnCtxMem p).heap p).recvBufHave := by
    simp [allocConnCtxMem]
  refine ⟨⟨0, freshResidue, ⟨?_, .inl ⟨hd, rfl⟩⟩, accepted_allocConnCtxMem hs connSock inst,
    le_rfl⟩, sound_accepted (drained_of_spare hs hd) _ _ _,
    sound_accepted (drained_of_spare (spare_allocConnCtxMem w p) hfresh) _ _ _⟩
  refine ⟨Nat.zero_le _, fun i hi => absurd hi (Nat.not_lt_zero i), fun _ _ => rfl, ?_⟩
  intro hclean i _ h4 hlt
  have hsize : (w.heap p).recvBufSize = recvBufSize := hs.recvBufSize
  have hlt' : i < (w.heap p).recvBufSize.toNat := hlt
  show (w.startConn p connSock inst).toGlobals.mem (w.heap p).recvBufP i ≠ LF
  rw [toGlobals_startConn, hs.recvBufP]
  exact (hc hclean).noLF i h4 (by omega)

end Worker

/-! ### A header section of one letter -/

/-- A header section that is no request: some letters, and its end. -/
def oddHdr (k : ℕ) : Bytes := List.replicate k 97 ++ headersEnd

@[simp] theorem length_oddHdr (k : ℕ) : (oddHdr k).length = k + 4 := by simp [oddHdr, headersEnd]

/-- Its end is the first one. -/
theorem find_oddHdr (k : ℕ) : findHttpHeadersEnd (oddHdr k) = k + 4 := by
  have hfirst : List.firstInfix? headersEnd (oddHdr k) = some k := by
    refine List.firstInfix?_eq_some_iff.mpr ⟨?_, fun i hi hp => ?_⟩
    · unfold oddHdr
      rw [List.drop_left' (List.length_replicate ..)]
    · -- a letter is no CR
      have hcr := getElem?_of_prefix_drop (i := 0) hp (by decide)
      unfold oddHdr at hcr
      rw [Nat.add_zero, List.getElem?_append_left (by simpa using hi), List.getElem?_replicate, if_pos hi] at hcr
      exact absurd hcr (by decide)
  unfold findHttpHeadersEnd
  rw [hfirst]
  rfl

/-- There is no end in a part of it. -/
theorem find_of_append_oddHdr {k : ℕ} {W T : Bytes} (h : W ++ T = oddHdr k) (hne : T ≠ []) :
    findHttpHeadersEnd W = 0 := by
  by_contra h0
  have hfind := find_of_prefix ⟨T, h⟩ h0
  have hle := findHttpHeadersEnd_le W
  have hlen : W.length + T.length = k + 4 := by rw [← List.length_append, h, length_oddHdr]
  have hpos := List.length_pos_iff.mpr hne
  rw [find_oddHdr] at hfind
  omega

/-- It has no method, so there is no body. -/
theorem wantsBody_oddHdr (k : ℕ) : wantsBody (oddHdr k) = false := by
  have hsp : SP ∉ oddHdr k := by
    unfold oddHdr
    rw [List.mem_append, List.mem_replicate]
    rintro (⟨-, h⟩ | h)
    · exact absurd h (by decide)
    · exact absurd h (by decide)
  have htoken : getMethodToken (oddHdr k) = [] := by
    unfold getMethodToken
    rw [findByte_eq_none_iff.mpr hsp]
  unfold wantsBody
  rw [htoken]
  exact Bool.and_false _

/-! ### The sessions -/

namespace Session

variable {a a' : Session} {prev n k : ℕ} {bs T : Bytes}

/-- A header section without a body is delivered. -/
theorem delivered_hdrGot {hdr : Bytes} (h : wantsBody hdr = false) :
    (a.hdrGot P hdr).delivered = a.delivered ++ [ofHeader hdr] := by
  unfold hdrGot
  rw [h, if_neg Bool.false_ne_true]
  unfold deliver
  simp only
  split <;> simp [Note.requests]

/-- The end of a receive operation without the end of a header section. -/
theorem stage_hdrReceived_of_find_eq_zero {prev n : ℕ} (h0 : findHttpHeadersEnd (window a.buf 0 n) = 0) :
    (a.hdrReceived P prev n).stage = .ended := by
  unfold Session.hdrReceived
  split
  · rfl
  · simp only [h0, if_true]
    rfl

/-- Bytes for a header section, when the terminator check has an answer. -/
theorem hdrData_of_some {prev n : ℕ} {bs : Bytes} {recvTerm : Bool}
    (h : isHttpMessageEnd (store a.buf n bs) a.size n (n + bs.length) = some recvTerm) :
    a.hdrData P prev n bs =
      if n + bs.length ≠ a.size ∧ recvTerm = false then
        { a with buf := store a.buf n bs }.goto (.hdr prev (n + bs.length))
      else { a with buf := store a.buf n bs }.hdrReceived P prev (n + bs.length) := by
  unfold Session.hdrData
  simp only [h]

/-- **The odd header section is delivered**, when its end has arrived. -/
theorem delivered_hdrData (h0 : findHttpHeadersEnd (window a.buf 0 n) = 0)
    (hle : n + bs.length ≤ a.size) (hne : n + bs.length ≠ prev)
    (hwin : window a.buf 0 n ++ bs = oddHdr k ++ T) :
    (a.hdrData P prev n bs).delivered = a.delivered ++ [ofHeader (oddHdr k)] := by
  have hwin' : window (store a.buf n bs) 0 (n + bs.length) = oddHdr k ++ T := by
    rw [window_store_chunk, hwin]
  have hfind : findHttpHeadersEnd (window (store a.buf n bs) 0 (n + bs.length)) = k + 4 := by
    have hodd := find_oddHdr k
    rw [hwin', find_of_prefix (List.prefix_append _ _) (by omega), hodd]
  have hold : findHttpHeadersEnd (window (store a.buf n bs) 0 n) = 0 := by
    rw [window_store_before bs (by omega)]
    exact h0
  have hlen : (window (store a.buf n bs) 0 (n + bs.length)).length = n + bs.length :=
    length_window _ _ _
  have hend := findHttpHeadersEnd_le (window (store a.buf n bs) 0 (n + bs.length))
  -- the end has arrived, so `is_http_message_end` finds it or another one
  obtain ⟨p, hp, hw⟩ := findHttpHeadersEnd_ne_zero_iff.mp
    (show findHttpHeadersEnd (window (store a.buf n bs) 0 (n + bs.length)) ≠ 0 by omega)
  rw [hdrData_of_some (isHttpMessageEnd_of_window hold hw hp hle), if_neg (by simp)]
  unfold hdrReceived
  rw [if_neg hne]
  simp only
  rw [hfind, if_neg (by omega)]
  have hhdr : window (store a.buf n bs) 0 (k + 4) = oddHdr k := by
    rw [← take_window _ 0 (show k + 4 ≤ n + bs.length by omega), hwin',
      List.take_left' (length_oddHdr k)]
  rw [hhdr, delivered_hdrGot (wantsBody_oddHdr k)]
  rfl

/-- A context with nothing unread waits for the first bytes. -/
theorem ask_drained (h : a.curr = a.have_) : a.ask P = (a.note .call).goto (.hdr 0 0) := by
  unfold ask
  exact if_neg (not_not.mpr h)

/-- What is made of a header section is not the receipt of another one. -/
theorem stage_hdrGot_ne (hdr : Bytes) : (a.hdrGot P hdr).stage ≠ .hdr prev n := by
  have hdeliver : ∀ (b : Session) (req : HttpRequestMsg), (b.deliver P req).stage ≠ .hdr prev n := by
    intro b req
    unfold deliver
    simp only
    split <;> exact Stage.noConfusion
  have hloop : ∀ (b : Session) (req : HttpRequestMsg) (bodyLen gotLen : ℕ),
      (b.bodyLoop P req bodyLen gotLen).stage ≠ .hdr prev n := by
    intro b req bodyLen gotLen
    unfold bodyLoop
    split
    · exact Stage.noConfusion
    · exact hdeliver b req
  unfold hdrGot
  split
  · unfold bodyHave
    split
    · exact Stage.noConfusion
    · exact hloop _ _ _ _
  · exact hdeliver a _

/-- The bytes left unread are in front of what is received. -/
theorem pos_of_stage_ask (h : a.curr < a.have_) (hst : (a.ask P).stage = .hdr prev n) : 0 < n := by
  unfold ask at hst
  simp only at hst
  rw [if_pos (show (a.note .call).curr ≠ (a.note .call).have_ from h.ne)] at hst
  split at hst
  · split at hst
    · cases hst
    · obtain ⟨-, rfl⟩ := Stage.hdr.inj hst
      exact Nat.sub_pos_of_lt h
  · exact absurd hst (stage_hdrGot_ne _)

/-- No request is delivered while a body is received. -/
theorem delivered_bodyRead {req : HttpRequestMsg} {bodyLen gotLen toRecv : ℕ} {timedOut : Bool}
    (r : ReadResult) :
    (a.bodyRead req bodyLen gotLen toRecv n timedOut r).delivered = a.delivered := by
  have hreceived : ∀ (b : Session) (n : ℕ), b.delivered = a.delivered →
      (b.bodyReceived req bodyLen gotLen toRecv n).delivered = a.delivered := by
    intro b n hb
    unfold bodyReceived stop
    split <;> simp [hb, Note.requests]
  cases r with
  | again => rfl
  | error =>
    unfold bodyRead fail
    simp [Note.requests]
  | eof => exact hreceived a n rfl
  | data bs =>
    unfold bodyRead bodyData
    simp only
    split
    · rfl
    · exact hreceived _ _ rfl

/-- **Bytes that fill a whole buffer** deliver nothing when something was left unread. -/
theorem delivered_of_full (h : a.curr < a.have_) (hfull : bs.length = a.size) {timedOut : Bool}
    (hv : (a.ask P).visible P (.read (.data bs) timedOut) = some a') :
    a'.delivered = (a.ask P).delivered := by
  have hsize : (a.ask P).size = a.size := (Same.refl a).ask.size
  cases hears_of_visible hv with
  | hdr he hfits =>
    -- there is no room for a whole buffer behind the bytes left unread
    have hpos := pos_of_stage_ask h he
    obtain ⟨hne, hle⟩ := hfits
    have hlen := List.length_pos_iff.mpr hne
    omega
  | body he hfits =>
    rw [delivered_bodyRead, delivered_note]
    exact List.append_nil _

/-- Bytes without an end, behind which the terminator check finds one or dies: the session is
over. -/
theorem stopped_hdrData (prev : ℕ)
    (h0 : findHttpHeadersEnd (window (store a.buf n bs) 0 (n + bs.length)) = 0)
    (hscan : isHttpMessageEnd (store a.buf n bs) a.size n (n + bs.length) ≠ some false) :
    (a.hdrData P prev n bs).delivered = a.delivered ∧
      ((a.hdrData P prev n bs).stage = .ended ∨ (a.hdrData P prev n bs).stage = .dead .segv) := by
  cases hend : isHttpMessageEnd (store a.buf n bs) a.size n (n + bs.length) with
  | none =>
    have hdead : a.hdrData P prev n bs = { a with buf := store a.buf n bs }.goto (.dead .segv) := by
      unfold hdrData
      simp only [hend]
    rw [hdead]
    exact ⟨rfl, .inr rfl⟩
  | some found =>
    have hfound : found = true := by
      cases found with
      | true => rfl
      | false => exact absurd hend hscan
    rw [hdrData_of_some hend, if_neg (by simp [hfound])]
    refine ⟨?_, .inl (stage_hdrReceived_of_find_eq_zero h0)⟩
    unfold hdrReceived stop
    split
    · simp [Note.requests]
      rfl
    · simp [h0, Note.requests]
      rfl

/-- A session that is over hears nothing. -/
theorem visible_eq_none (h : a.stage = .ended ∨ a.stage = .dead .segv) (l : Answer) :
    a.visible P l = none := by
  unfold visible
  rcases h with h | h <;>
  · rw [h]
    cases l <;> rfl

end Session

/-! ### The steps of a new connection -/

section

variable {s s' : St} {a a' : Session} {g : Globals} {c : Conn} {p : Ptr} {connSock : Fd} {inst : ℕ}
  {t : Tick}

/-- The first switch to a new connection. -/
theorem refines_first (g : Globals) (p : Ptr) (connSock : Fd) (inst : ℕ) {size have_ curr : ℕ}
    (hsize : c.recvBufSize = size) (hhave : c.recvBufHave = have_) (hcurr : c.recvBufCurr = curr)
    (hpos : 0 < size) (hle : curr ≤ have_) (hle' : have_ ≤ size) (t : Tick) :
    Refines P (resume P (St.accepted g c p connSock inst) t true)
      ((Session.start size (g.mem c.recvBufP) have_ curr).ask P) := by
  obtain ⟨-, -, hrep⟩ :=
    refines_accepted (P := P) g p connSock inst hsize hhave hcurr hpos hle hle'
  have hgo : Going P (St.accepted g c p connSock inst)
      (Session.start size (g.mem c.recvBufP) have_ curr) [] .fresh :=
    { hrep.toBase with opened := rfl, live := rfl, dialogue := .nil }
  exact refines_recvHttpMsg hgo .firstCall

/-- With nothing left unread it reads. -/
theorem ctl_first (hd : c.recvBufCurr = c.recvBufHave) (hpos : 0 < c.recvBufSize) :
    ∃ f k, (resume P (St.accepted g c p connSock inst) t true).ctl = .coro (.recv f k) := by
  have hdrained : ((St.accepted g c p connSock inst).log .call).curr.recvBufCurr =
      ((St.accepted g c p connSock inst).log .call).curr.recvBufHave := hd
  show ∃ f k, (recvHttpMsg P (St.accepted g c p connSock inst) t).ctl = .coro (.recv f k)
  unfold recvHttpMsg recvHttpHdr
  simp only
  rw [if_neg (not_not.mpr hdrained)]
  unfold recvFromCurrConn recvLoop
  rw [if_pos ⟨hpos.ne', rfl, rfl⟩]
  exact ⟨_, _, rfl⟩

/-- A `read` that gives bytes is not possible, or is a step of the session. -/
theorem runFar_read (h : Refines P s a) (t : Tick) (bs : Bytes) (is : List (Tick × Op)) :
    runFar (St.next P) s ((t, .read (.data bs)) :: is) = s ∨
      ∃ s' a' timedOut, runFar (St.next P) s ((t, .read (.data bs)) :: is) =
        runFar (St.next P) s' is ∧ Refines P s' a' ∧
        a.visible P (.read (.data bs) timedOut) = some a' := by
  cases hs : s.next P (t, .read (.data bs)) with
  | none => exact .inl (runFar_cons_of_none is hs)
  | some s' =>
    obtain ⟨a', href, ⟨-, b, hb⟩ | ⟨l, ⟨b, rfl⟩, ha⟩⟩ := refines_step h hs
    · cases hb
    · exact .inr ⟨s', a', b, runFar_cons_of_some is hs, href, ha⟩

/-- A coroutine that waits in `read` for a header section is given bytes; while there is no end of a
header section in sight it goes on to the next `read`. -/
theorem next_read {f : RecvFrame} {k : RecvCaller} {prev n : ℕ} {bs : Bytes} (h : Refines P s a)
    (hc : s.ctl = .coro (.recv f k)) (hst : a.stage = .hdr prev n) (hne : bs ≠ [])
    (hle : n + bs.length ≤ a.size) (t : Tick) :
    ∃ s', s.next P (t, .read (.data bs)) = some s' ∧
      Refines P s' ((a.note (.read (.data bs) false)).hdrData P prev n bs) ∧
      (isHttpMessageEnd (store a.buf n bs) a.size n (n + bs.length) = some false →
        n + bs.length ≠ a.size → ∃ f k, s'.ctl = .coro (.recv f k)) := by
  obtain ⟨-, hb, hstands⟩ := (refines_coro_iff hc).mp h
  rw [hst] at hstands
  cases hstands with
  | recvHdr hat =>
    have hto : f.toRecv = a.size - n := congrArg RecvFrame.toRecv hat.frame
    have hfits : (ReadResult.data bs).Fits f.toRecv := ⟨hne, by omega⟩
    refine ⟨_, St.step_of_recv hc hfits t, refines_recvRead_hdr hb hat hst hfits, ?_⟩
    intro hscan hfull
    obtain ⟨rfl, rfl, -, -, -, -, -⟩ := hat
    have hn : ((n : ℤ) + bs.length).toNat = n + bs.length := by omega
    have hsz : (s.poke s.curr.recvBufP n bs).curr.recvBufSize = a.size := hb.size
    simp only [recvRead, if_true, bne_self_eq_false, Bool.false_and, recvBufSize_updateActive,
      hb.mem_recvData, hsz, hn, Int.toNat_natCast, hscan]
    -- the buffer is not full and no end was seen: the loop goes on
    have hmore : (a.size : ℤ) - n - bs.length ≠ 0 := by omega
    unfold recvLoop
    rw [if_pos ⟨hmore, rfl, rfl⟩]
    exact ⟨_, _, rfl⟩

/-- A new connection waits in `read` for its first header section, of which these bytes arrived in
a buffer that was `b` before. -/
def Awaits (P : Platform) (s : St) (size : ℕ) (b : ℕ → Byte) (W : Bytes) : Prop :=
  ∃ a, Refines P s a ∧ (∃ f k, s.ctl = .coro (.recv f k)) ∧ a.stage = .hdr 0 W.length ∧
    a.buf = store b 0 W ∧ a.size = size ∧ a.delivered = []

namespace Awaits

variable {size : ℕ} {b : ℕ → Byte} {W bs : Bytes}

/-- It waits as soon as it was switched to, when nothing was left unread. -/
theorem first (hd : c.Drained) (g : Globals) (p : Ptr) (connSock : Fd) (inst : ℕ) (t : Tick) :
    Awaits P (resume P (St.accepted g c p connSock inst) t true) c.recvBufSize.toNat
      (g.mem c.recvBufP) [] := by
  obtain ⟨h1, h2, h3, h4⟩ := hd
  have hsize : c.recvBufSize = (c.recvBufSize.toNat : ℤ) := by omega
  have hhave : c.recvBufHave = (c.recvBufHave.toNat : ℤ) := by omega
  have href := refines_first (P := P) g p connSock inst hsize hhave (h4.trans hhave) (by omega)
    le_rfl (by omega) t
  rw [Session.ask_drained rfl] at href
  refine ⟨_, href, ctl_first h4 h1, rfl, (store_nil _ _).symm, rfl, ?_⟩
  rw [Session.delivered_goto, Session.delivered_note]
  rfl

theorem requests (h : Awaits P s size b W) : History.requests s.curr.hist = [] := by
  obtain ⟨a, href, -, -, -, -, hdel⟩ := h
  rw [href.tells.requests]
  exact hdel

/-- **One `read`**: what the session makes of the bytes. -/
theorem read (h : Awaits P s size b W) (hne : bs ≠ []) (hle : W.length + bs.length ≤ size)
    (t : Tick) : ∃ (a : Session) (s' : St), a.stage = .hdr 0 W.length ∧ a.buf = store b 0 W ∧ a.size = size ∧
      a.delivered = [] ∧ s.next P (t, .read (.data bs)) = some s' ∧
      Refines P s' (a.hdrData P 0 W.length bs) ∧
      (isHttpMessageEnd (store b 0 (W ++ bs)) size W.length (W ++ bs).length = some false →
        W.length + bs.length ≠ size → Awaits P s' size b (W ++ bs)) := by
  obtain ⟨a, href, ⟨f, k, hc⟩, hst, hbuf, hsize, hdel⟩ := h
  obtain ⟨s', hs, href', hctl⟩ := next_read href hc hst hne (hsize ▸ hle) t
  have hnote : (a.note (.read (.data bs) false)).delivered = [] := by
    rw [Session.delivered_note, hdel]
    rfl
  refine ⟨a.note (.read (.data bs) false), s', hst, hbuf, hsize, hnote, hs, href', ?_⟩
  intro hscan hfull
  have hstore : store a.buf W.length bs = store b 0 (W ++ bs) := by
    rw [hbuf, store_store_zero]
  rw [List.length_append, ← hstore, ← hsize] at hscan
  refine ⟨_, href', hctl hscan (hsize ▸ hfull), ?_⟩
  have hdata : (a.note (.read (.data bs) false)).hdrData P 0 W.length bs = _ :=
    Session.hdrData_of_some hscan
  rw [if_pos ⟨hsize ▸ hfull, rfl⟩] at hdata
  rw [hdata]
  refine ⟨?_, hstore, hsize, hnote⟩
  rw [List.length_append]
  rfl

/-- **The odd header section arrives.** -/
theorem deliver {k : ℕ} {T : Bytes} (h : Awaits P s size b W) (hne : bs ≠ [])
    (hle : W.length + bs.length ≤ size) (h0 : findHttpHeadersEnd W = 0)
    (hcat : W ++ bs = oddHdr k ++ T) (t : Tick) :
    ∃ s', s.next P (t, .read (.data bs)) = some s' ∧
      History.requests s'.curr.hist = [ofHeader (oddHdr k)] := by
  obtain ⟨a, s', -, hbuf, hsize, hdel, hs, href, -⟩ := h.read hne hle t
  have hwin : window a.buf 0 W.length = W := by rw [hbuf, window_store_self]
  have hpos := List.length_pos_iff.mpr hne
  have hgot : (a.hdrData P 0 W.length bs).delivered = a.delivered ++ [ofHeader (oddHdr k)] :=
    Session.delivered_hdrData (by rw [hwin, h0]) (hsize ▸ hle) (by omega) (by rw [hwin, hcat])
  rw [hdel] at hgot
  refine ⟨s', hs, ?_⟩
  rw [href.tells.requests]
  exact hgot

/-- **Bytes of earlier use end it too early**, or the process dies. -/
theorem stale (h : Awaits P s size b W) (hne : bs ≠ []) (hle : W.length + bs.length ≤ size)
    (h0 : findHttpHeadersEnd (W ++ bs) = 0)
    (hscan : isHttpMessageEnd (store b 0 (W ++ bs)) size W.length (W ++ bs).length ≠ some false)
    (t : Tick) : ∃ s', s.next P (t, .read (.data bs)) = some s' ∧
      History.requests s'.curr.hist = [] ∧ ∀ t bs, s'.next P (t, .read (.data bs)) = none := by
  obtain ⟨a, s', -, hbuf, hsize, hdel, hs, href, -⟩ := h.read hne hle t
  have hstore : store a.buf W.length bs = store b 0 (W ++ bs) := by
    rw [hbuf, store_store_zero]
  have hnot : findHttpHeadersEnd (window (store a.buf W.length bs) 0 (W.length + bs.length)) = 0 := by
    rw [window_store_chunk, hbuf, window_store_self, h0]
  rw [← hstore, ← hsize, List.length_append] at hscan
  obtain ⟨hsame, hover⟩ := Session.stopped_hdrData (P := P) 0 hnot hscan
  refine ⟨s', hs, ?_, fun t cs => ?_⟩
  · rw [href.tells.requests]
    exact hsame.trans hdel
  · -- a session that is over hears no read, and the code refines it
    by_contra hsome
    obtain ⟨s'', hs'⟩ := Option.ne_none_iff_exists'.mp hsome
    obtain ⟨a'', -, ⟨-, b, hb⟩ | ⟨l, ⟨b, rfl⟩, ha⟩⟩ := refines_step href hs'
    · cases hb
    · have hnone : (a.hdrData P 0 W.length bs).step P (some (.read (.data cs) b)) = none :=
        Session.visible_eq_none hover (.read (.data cs) b)
      exact Option.some_ne_none _ (ha.symm.trans hnone)

end Awaits

/-! ### Bytes that tell two contexts apart -/

/-- A new connection is switched to, and is then given these bytes. -/
def firstReads (l : List Bytes) : List (Tick × Op) :=
  (.atTime 0, .resume true) :: l.map fun bs => (.atTime 0, .read (.data bs))

theorem runFar_firstReads (l : List Bytes) :
    runFar (St.next P) (St.accepted g c p connSock inst) (firstReads l) =
      runFar (St.next P) (resume P (St.accepted g c p connSock inst) (.atTime 0) true)
        (l.map fun bs => (.atTime 0, .read (.data bs))) :=
  runFar_cons_of_some _ (St.step_of_main rfl _ _)

/-- The bytes that fill a whole buffer, with the odd header section in front. -/
def fullBuf : Bytes := oddHdr 0 ++ List.replicate 8188 0

theorem length_fullBuf : fullBuf.length = 8192 := by
  unfold fullBuf
  rw [List.length_append, length_oddHdr, List.length_replicate]

/-- On a context with nothing unread they are a request. -/
theorem served_fullBuf (hd : c.Drained) (hsize : c.recvBufSize = recvBufSize) (g : Globals)
    (p : Ptr) (connSock : Fd) (inst : ℕ) :
    requests (runFar (St.next P) (St.accepted g c p connSock inst) (firstReads [fullBuf])).curr.hist =
      [ofHeader (oddHdr 0)] := by
  have hfirst := Awaits.first (P := P) hd g p connSock inst (.atTime 0)
  have hlen := length_fullBuf
  have hval : recvBufSize = 8192 := rfl
  have hne : fullBuf ≠ [] := List.ne_nil_of_length_pos (by omega)
  obtain ⟨s', hs, hreq⟩ := hfirst.deliver hne (by simp only [List.length_nil]; omega) rfl
    (List.nil_append _) (.atTime 0)
  rw [runFar_firstReads, List.map_cons, runFar_cons_of_some _ hs]
  exact hreq

/-- Behind bytes that are left unread they are none, if the bytes left unread are none. -/
theorem leftover_fullBuf {b : ℕ → Byte} (hs : Spare c p b) (hc : c.recvBufCurr ≠ c.recvBufHave)
    (h0 : requests (runFar (St.next P) (St.accepted g c p connSock inst) (firstReads [])).curr.hist =
      []) :
    requests (runFar (St.next P) (St.accepted g c p connSock inst) (firstReads [fullBuf])).curr.hist =
      [] := by
  obtain ⟨have_, curr, hhave, hcurr, hle, hle'⟩ := hs.cursors
  have hval : recvBufSize = 8192 := rfl
  have hsize : c.recvBufSize = (recvBufSize.toNat : ℤ) := hs.recvBufSize
  have hlt : curr < have_ := by omega
  have href := refines_first (P := P) g p connSock inst hsize hhave hcurr (by omega) hle (by omega)
    (.atTime 0)
  rw [runFar_firstReads] at h0 ⊢
  have hnil := href.tells.requests.symm.trans h0
  -- the coroutine is not at a `read`, or it gets the bytes there
  rcases runFar_read href (.atTime 0) fullBuf [] with hfar | ⟨s', a', timedOut, hfar, href', hv⟩
  · rw [List.map_cons, List.map_nil, hfar]
    exact h0
  · rw [List.map_cons, List.map_nil, hfar]
    show requests s'.curr.hist = []
    rw [href'.tells.requests]
    exact (Session.delivered_of_full hlt length_fullBuf hv).trans hnil

/-- The odd header section in three pieces: its end comes byte by byte from the second CR on. -/
def inPieces (k : ℕ) : List Bytes := [List.replicate k 97 ++ [CR, LF], [CR], [LF]]

/-- The first piece. -/
theorem Awaits.piece {size k : ℕ} {b : ℕ → Byte} (h : Awaits P s size b []) (hlt : k + 3 < size)
    (t : Tick) : ∃ s', s.next P (t, .read (.data (List.replicate k 97 ++ [CR, LF]))) = some s' ∧
      Awaits P s' size b (List.replicate k 97 ++ [CR, LF]) := by
  have hlen : (List.replicate k (97 : Byte) ++ [CR, LF]).length = k + 2 := by simp
  have hne : List.replicate k (97 : Byte) ++ [CR, LF] ≠ [] := List.ne_nil_of_length_pos (by omega)
  have hcat : (List.replicate k 97 ++ [CR, LF]) ++ [CR, LF] = oddHdr k := by
    unfold oddHdr
    rw [List.append_assoc]
    rfl
  obtain ⟨a, s', -, -, -, -, hs, -, hon⟩ := h.read hne (by simp only [List.length_nil]; omega) t
  refine ⟨s', hs, hon ?_ (by simp only [List.length_nil]; omega)⟩
  rw [List.nil_append, hlen]
  refine isHttpMessageEnd_of_decided (Nat.succ_pos _) (by omega) ?_ ?_
  · rw [← hlen, window_store_self]
    exact find_of_append_oddHdr hcat (List.cons_ne_nil _ _)
  · rintro ⟨-, i, hi, -⟩
    exact absurd hi (Nat.not_lt_zero i)

theorem length_piece (k : ℕ) : (List.replicate k (97 : Byte) ++ [CR, LF]).length = k + 2 := by simp

theorem pieces_eq (k : ℕ) : (List.replicate k 97 ++ [CR, LF] ++ [CR]) ++ [LF] = oddHdr k := by
  unfold oddHdr
  simp [headersEnd]

/-- The terminator check with two bytes of the end, and an LF of earlier use in place of the
fourth. -/
theorem stale_pieces {size k : ℕ} {b : ℕ → Byte} (hk : 1 ≤ k) (hlf : b (k + 3) = LF) :
    isHttpMessageEnd (store b 0 (List.replicate k 97 ++ [CR, LF] ++ [CR])) size
      (List.replicate k (97 : Byte) ++ [CR, LF]).length
      (List.replicate k (97 : Byte) ++ [CR, LF] ++ [CR]).length ≠ some false := by
  have hlen : (List.replicate k (97 : Byte) ++ [CR, LF] ++ [CR]).length = k + 3 := by simp
  have hself := window_store_self b 0 (List.replicate k 97 ++ [CR, LF] ++ [CR])
  have hlast : store b 0 (List.replicate k 97 ++ [CR, LF] ++ [CR]) (k + 3) = b (k + 3) :=
    store_of_ge (by omega)
  rw [hlen] at hself ⊢
  rw [length_piece]
  generalize store b 0 (List.replicate k 97 ++ [CR, LF] ++ [CR]) = m at hself hlast ⊢
  have hthree : window m k 3 = [CR, LF, CR] := by
    have hdrop := drop_window m 0 (show k ≤ k + 3 by omega)
    rw [hself, List.append_assoc, List.drop_left' (List.length_replicate ..), Nat.zero_add,
      Nat.add_sub_cancel_left] at hdrop
    exact hdrop.symm
  -- the comparison at `k` runs over the LF that nobody received
  have hwin : window m k 4 = headersEnd := by
    rw [window_add m k 3 1, hthree, window_succ, hlast, hlf]
    rfl
  exact isHttpMessageEnd_of_starts_before (by omega) (by omega) (by omega) hwin

/-- The same in a buffer that was blank. -/
theorem fresh_pieces {size k : ℕ} (hlt : k + 3 < size) :
    isHttpMessageEnd (store (fun _ => 0) 0 (List.replicate k 97 ++ [CR, LF] ++ [CR])) size
      (List.replicate k (97 : Byte) ++ [CR, LF]).length
      (List.replicate k (97 : Byte) ++ [CR, LF] ++ [CR]).length = some false := by
  have hpieces := pieces_eq k
  have hlen := length_piece k
  generalize hW : List.replicate k (97 : Byte) ++ [CR, LF] = W at hpieces hlen ⊢
  have hcr : (W ++ [CR]).length = W.length + [CR].length := List.length_append ..
  have hone : ([CR] : Bytes).length = 1 := rfl
  have hstore : store (fun _ => (0 : Byte)) 0 (W ++ [CR]) =
      store (store (fun _ => 0) 0 W) W.length [CR] := (store_store_zero _ _ _).symm
  have hwin : window (store (fun _ => (0 : Byte)) 0 (W ++ [CR])) 0 (W ++ [CR]).length = W ++ [CR] :=
    window_store_self _ _ _
  have hnot : findHttpHeadersEnd (W ++ [CR]) = 0 :=
    find_of_append_oddHdr hpieces (List.cons_ne_nil _ _)
  cases hend : isHttpMessageEnd (store (fun _ => 0) 0 (W ++ [CR])) size W.length
      (W ++ [CR]).length with
  | none =>
    have hold : findHttpHeadersEnd (window (store (fun _ => (0 : Byte)) 0 (W ++ [CR])) 0
        W.length) = 0 := by
      rw [hstore, window_store_before _ (by omega), window_store_self]
      exact find_of_append_oddHdr ((List.append_assoc W [CR] [LF]).symm.trans hpieces)
        (List.cons_ne_nil _ _)
    -- the LF that is to come ends a header section that fits the buffer
    have hcomes : headersEnd <+: (window (store (fun _ => (0 : Byte)) 0 (W ++ [CR])) 0
        (W ++ [CR]).length ++ [LF]).drop k := by
      rw [hwin, hpieces]
      unfold oddHdr
      rw [List.drop_left' (List.length_replicate ..)]
    have hbig := lt_of_isHttpMessageEnd_none hold (by omega) (by omega) hend hcomes
    omega
  | some found =>
    cases found with
    | false => rfl
    | true =>
      rw [hstore, hcr] at hend
      rw [hstore, hcr] at hwin
      exact absurd (staleEnd_of_isHttpMessageEnd_true (by rw [hwin, hnot]) hend)
        not_staleEnd_fresh

/-- **On a blank buffer the pieces are a request.** -/
theorem served_inPieces {k : ℕ} (hd : c.Drained) (hb : g.mem c.recvBufP = fun _ => 0)
    (hlt : k + 3 < c.recvBufSize.toNat) (p : Ptr) (connSock : Fd) (inst : ℕ) :
    requests (runFar (St.next P) (St.accepted g c p connSock inst) (firstReads (inPieces k))).curr.hist =
      [ofHeader (oddHdr k)] := by
  have hfirst := Awaits.first (P := P) hd g p connSock inst (.atTime 0)
  rw [hb] at hfirst
  have hlen := length_piece k
  have hlen' : (List.replicate k (97 : Byte) ++ [CR, LF] ++ [CR]).length = k + 3 := by simp
  have hone : ([CR] : Bytes).length = 1 := rfl
  have hone' : ([LF] : Bytes).length = 1 := rfl
  -- the first two pieces are waited over, the third completes the end
  obtain ⟨s₁, hs₁, hw₁⟩ := hfirst.piece hlt (.atTime 0)
  obtain ⟨a, s₂, -, -, -, -, hs₂, -, hon⟩ :=
    hw₁.read (List.cons_ne_nil CR []) (by omega) (.atTime 0)
  have hw₂ := hon (fresh_pieces hlt) (by omega)
  obtain ⟨s₃, hs₃, hreq⟩ := hw₂.deliver (T := []) (List.cons_ne_nil LF []) (by omega)
    (find_of_append_oddHdr (pieces_eq k) (List.cons_ne_nil _ _))
    ((pieces_eq k).trans (List.append_nil _).symm) (.atTime 0)
  rw [runFar_firstReads]
  unfold inPieces
  rw [List.map_cons, List.map_cons, List.map_cons, runFar_cons_of_some _ hs₁,
    runFar_cons_of_some _ hs₂, runFar_cons_of_some _ hs₃]
  exact hreq

/-- **In front of an LF of earlier use they are none.** -/
theorem stale_inPieces {k : ℕ} (hd : c.Drained) (hk : 1 ≤ k) (hlf : g.mem c.recvBufP (k + 3) = LF)
    (hlt : k + 3 < c.recvBufSize.toNat) (p : Ptr) (connSock : Fd) (inst : ℕ) :
    requests (runFar (St.next P) (St.accepted g c p connSock inst) (firstReads (inPieces k))).curr.hist =
      [] := by
  have hfirst := Awaits.first (P := P) hd g p connSock inst (.atTime 0)
  have hlen := length_piece k
  have hone : ([CR] : Bytes).length = 1 := rfl
  obtain ⟨s₁, hs₁, hw₁⟩ := hfirst.piece hlt (.atTime 0)
  obtain ⟨s₂, hs₂, hreq, hnone⟩ := hw₁.stale (List.cons_ne_nil CR []) (by omega)
    (find_of_append_oddHdr (pieces_eq k) (List.cons_ne_nil _ _)) (stale_pieces hk hlf) (.atTime 0)
  rw [runFar_firstReads]
  unfold inPieces
  rw [List.map_cons, List.map_cons, List.map_cons, runFar_cons_of_some _ hs₁,
    runFar_cons_of_some _ hs₂, runFar_cons_of_none _ (hnone _ _)]
  exact hreq

end

/-! ### When a context can be used again -/

variable {w w' : Worker} {fd : Fd} {outs : List (Option Ptr)} {p : Ptr}

/-- **When a context can be used again**, whatever a worker has served before.  If nothing is left
unread in it, the connection that `create_new_conn` starts on it gets the requests that it would
get on a newly allocated one, for all steps in which no read is completed by bytes of earlier use;
and it gets them for all steps whatever, exactly when the context is clean. -/
theorem recycled_served_iff (hw : Worker.Reachable P w) (h : w.Takes fd outs p w') :
    ((w'.heap p).recvBufCurr = (w'.heap p).recvBufHave →
      ∀ is, w'.NoStale P p fd w.accepted is → w'.served P p fd w.accepted is =
        (w'.allocConnCtxMem p).served P p fd w.accepted is) ∧
    ((∀ is, w'.served P p fd w.accepted is =
      (w'.allocConnCtxMem p).served P p fd w.accepted is) ↔ w'.Clean p) := by
  have hs : Spare (w'.heap p) p (w'.mem p) := h.spare hw
  have hs₀ : Spare ((w'.allocConnCtxMem p).heap p) p ((w'.allocConnCtxMem p).mem p) :=
    Worker.spare_allocConnCtxMem w' p
  have hd₀ : ((w'.allocConnCtxMem p).heap p).Drained :=
    Worker.drained_of_spare hs₀ (by simp [Worker.allocConnCtxMem])
  refine ⟨fun hd is hq => ?_, fun hall => ?_, fun hc is => ?_⟩
  · exact (Worker.asFresh hs hd (False.elim : False → _) fd w.accepted).requests (.inr hq)
  · -- every connection is served alike
    have hfresh : (w'.allocConnCtxMem p).served P p fd w.accepted (firstReads [fullBuf]) =
        [ofHeader (oddHdr 0)] := served_fullBuf hd₀ hs₀.recvBufSize _ _ _ _
    -- something left unread takes the room of a full buffer
    have hdrained : (w'.heap p).recvBufCurr = (w'.heap p).recvBufHave := by
      by_contra hne
      have hnil : w'.served P p fd w.accepted (firstReads []) = [] := by
        rw [hall]
        exact (Awaits.first (P := P) hd₀ _ p fd w.accepted (.atTime 0)).requests
      have hlost : w'.served P p fd w.accepted (firstReads [fullBuf]) = [] :=
        leftover_fullBuf hs hne hnil
      rw [hall, hfresh] at hlost
      cases hlost
    refine ⟨hdrained, fun i h4 hi hlf => ?_⟩
    -- an LF is met by a section whose end comes in two pieces in front of it
    obtain ⟨k, rfl⟩ : ∃ k, i = k + 3 := ⟨i - 3, by omega⟩
    have hmem : (w'.startConn p fd w.accepted).toGlobals.mem (w'.heap p).recvBufP (k + 3) = LF := by
      rw [Worker.toGlobals_startConn, hs.recvBufP]
      exact hlf
    have hmem₀ : ((w'.allocConnCtxMem p).startConn p fd w.accepted).toGlobals.mem
        ((w'.allocConnCtxMem p).heap p).recvBufP = fun _ => 0 := by
      rw [Worker.toGlobals_startConn, hs₀.recvBufP]
      simp [Worker.allocConnCtxMem]
    have hsize := hs.recvBufSize
    have hsize₀ := hs₀.recvBufSize
    have hlost : w'.served P p fd w.accepted (firstReads (inPieces k)) = [] :=
      stale_inPieces (Worker.drained_of_spare hs hdrained) (by omega) hmem (by omega) _ _ _
    have hgot : (w'.allocConnCtxMem p).served P p fd w.accepted (firstReads (inPieces k)) =
        [ofHeader (oddHdr k)] := served_inPieces hd₀ hmem₀ (by omega) _ _ _
    rw [hall, hgot] at hlost
    cases hlost
  · have hfresh := Worker.asFresh (P := P) hs hc.drained (fun _ : True => hc) fd w.accepted
    exact hfresh.requests (.inl trivial)

/-! ### Contexts after a connection -/

namespace Worker

/-- The worker that starts the connection on descriptor 6, on the only context of the cache. -/
def reusing (w : Worker) : Worker := { w.withSocket 6 with cache := ⟨[], w.cache.cnt - 1⟩ }

/-- The only context of the cache is taken. -/
theorem takes_reusing {t : Tick} (hpoll : (w.step P (t, .poll .eintr)).isSome = true)
    (hfree : w.fds 6 = none) (hcnt : w.cache.cnt ≠ 0) (hl : w.cache.qconnList = [p]) :
    w.Takes 6 [] p w.reusing := by
  obtain ⟨w', hs⟩ := Option.isSome_iff_exists.mp hpoll
  obtain ⟨hctl, hph, -⟩ := step_poll hs
  refine ⟨hctl, hph, by decide, hfree, ?_⟩
  have hcnt' : (w.withSocket 6).cache.cnt ≠ 0 := hcnt
  have hl' : (w.withSocket 6).cache.qconnList = [p] := hl
  unfold refillConnCtxCache
  rw [if_neg hcnt', if_pos rfl, Option.map_some]
  unfold takeConnCtx
  rw [if_neg hcnt', hl']
  rfl

/-- The context 1 was given back, and descriptor 6 can be accepted next. -/
def Reusable (w : Worker) : Prop :=
  (w.step .plain (.atTime 9, .poll .eintr)).isSome = true ∧ w.fds 6 = none ∧ w.cache.cnt ≠ 0 ∧
    w.cache.qconnList = [1] ∧ w.accepted = 1

instance (w : Worker) : Decidable (Reusable w) := inferInstanceAs (Decidable (_ ∧ _))

theorem Reusable.takes (h : Reusable w) : w.Takes 6 [] 1 w.reusing :=
  takes_reusing h.1 h.2.1 h.2.2.1 h.2.2.2.1

/-- A client that sends an empty header section, and gets its answer. -/
def emptyScript : List (Time × WorkerOp) :=
  [(0, .poll (.ready (some 5) [])), (1, .resume true), (2, .co (.read (.data headersEnd))),
    (3, .co (.write (.sent 393))), (4, .co .check), (5, .back), (6, .endPass)]

theorem emptyScript_isSome : (script .plain oneContext emptyScript).isSome = true := by
  decide +kernel

/-- The worker behind it. -/
def emptied : Worker := (script .plain oneContext emptyScript).get emptyScript_isSome

theorem reusable_emptied : Reusable emptied ∧
    (emptied.reusing.heap 1).recvBufCurr = (emptied.reusing.heap 1).recvBufHave := by
  decide +kernel

set_option maxRecDepth 8000 in
/-- The four bytes of the client are in the first four cells, and were used. -/
theorem clean_emptied : emptied.reusing.Clean 1 := by
  have hmem : emptied.reusing.mem 1 = Memory.store (fun _ => 0) 0 headersEnd := rfl
  refine ⟨reusable_emptied.2, fun i h4 _ => ?_⟩
  rw [hmem, store_of_ge (show 0 + headersEnd.length ≤ i from h4)]
  exact show (0 : Byte) ≠ LF by decide

/-- The steps of the next client, which sends the same request in one read. -/
def sameRequest : List (Tick × Op) := firstReads [ascii "GET / HTTP/1.1\r\n\r\n"]

theorem answeredScript_used : (script .plain oneContext answeredScript).any (fun w =>
    (Reusable w ∧ (w.reusing.heap 1).recvBufCurr = (w.reusing.heap 1).recvBufHave ∧
      w.reusing.NoStale .plain 1 6 w.accepted sameRequest ∧
      w.reusing.served .plain 1 6 w.accepted sameRequest ≠ [])) = true := by
  decide +kernel

end Worker

open Worker

/-- Two contexts on which requests were received and answered.  The first serves every connection
like a new one; the second serves a request that comes in one read. -/
theorem recycled_served_used :
    emptied.reusing.served .plain 1 6 emptied.accepted
        (firstReads [ascii "GET / HTTP/1.1\r\n", ascii "\r", ascii "\n"]) =
      (emptied.reusing.allocConnCtxMem 1).served .plain 1 6 emptied.accepted
        (firstReads [ascii "GET / HTTP/1.1\r\n", ascii "\r", ascii "\n"]) ∧
    ∃ w, Reachable .plain w ∧ w.reusing.served .plain 1 6 w.accepted sameRequest =
        (w.reusing.allocConnCtxMem 1).served .plain 1 6 w.accepted sameRequest ∧
      w.reusing.served .plain 1 6 w.accepted sameRequest ≠ [] := by
  have hempty := reachable_get .plain emptyScript_isSome
  obtain ⟨w, hw, hr, hd, hq, hne⟩ := exists_of_script .plain answeredScript_used
  exact ⟨(recycled_served_iff hempty reusable_emptied.1.takes).2.mpr clean_emptied _,
    w, hw, (recycled_served_iff hw hr.takes).1 hd _ hq, hne⟩

/-- The targets of the requests on the context 1, for these reads. -/
def targets (w : Worker) (l : List Bytes) : List Bytes :=
  (w.served .plain 1 6 1 (firstReads l)).map HttpRequestMsg.target

/-- A client that wants the connection closed, and has sent one request more. -/
def pipelinedScript : List (Time × WorkerOp) :=
  [(0, .poll (.ready (some 5) [])), (1, .resume true),
    (2, .co (.read (.data
      (ascii "GET / HTTP/1.1\r\nConnection: close\r\n\r\nGET /x HTTP/1.1\r\n\r\n")))),
    (3, .co (.write (.sent 382))), (4, .co .check), (5, .back), (6, .endPass)]

/-- The next connection on the context gets the request that was left. -/
theorem pipelinedScript_left : (script .plain oneContext pipelinedScript).any (fun w =>
    (Reusable w ∧ targets w.reusing [] = [ascii "/x"] ∧
      targets (w.reusing.allocConnCtxMem 1) [] = [])) = true := by
  decide +kernel

/-- The next connection on the context gets nothing when the same request comes byte by byte. -/
theorem answeredScript_left : (script .plain oneContext answeredScript).any (fun w =>
    (Reusable w ∧
      targets w.reusing [ascii "GET / HTTP/1.1\r\n", ascii "\r", ascii "\n"] = [] ∧
      targets (w.reusing.allocConnCtxMem 1)
        [ascii "GET / HTTP/1.1\r\n", ascii "\r", ascii "\n"] = [ascii "/"])) = true := by
  decide +kernel

/-- **The next client gets a request it has not sent**, and a client whose request ends byte by byte
gets none, although a newly allocated context would serve both right. -/
theorem leftover_served :
    (∃ w, Reachable .plain w ∧ w.Takes 6 [] 1 w.reusing ∧ targets w.reusing [] = [ascii "/x"] ∧
      targets (w.reusing.allocConnCtxMem 1) [] = []) ∧
    (∃ w, Reachable .plain w ∧ w.Takes 6 [] 1 w.reusing ∧
      targets w.reusing [ascii "GET / HTTP/1.1\r\n", ascii "\r", ascii "\n"] = [] ∧
      targets (w.reusing.allocConnCtxMem 1)
        [ascii "GET / HTTP/1.1\r\n", ascii "\r", ascii "\n"] = [ascii "/"]) ∧
    ¬ ∀ (P : Platform) (w w' : Worker) (fd : Fd) (outs : List (Option Ptr)) (p : Ptr),
      Reachable P w → w.Takes fd outs p w' → ∀ is, w'.served P p fd w.accepted is =
        (w'.allocConnCtxMem p).served P p fd w.accepted is := by
  obtain ⟨w₁, hw₁, hr₁, hgot₁, hnew₁⟩ := exists_of_script .plain pipelinedScript_left
  obtain ⟨w₂, hw₂, hr₂, hgot₂, hnew₂⟩ := exists_of_script .plain answeredScript_left
  refine ⟨⟨w₁, hw₁, hr₁.takes, hgot₁, hnew₁⟩, ⟨w₂, hw₂, hr₂.takes, hgot₂, hnew₂⟩,
    fun hall => ?_⟩
  have hserved := hall .plain w₁ w₁.reusing 6 [] 1 hw₁ hr₁.takes (firstReads [])
  rw [hr₁.2.2.2.2] at hserved
  have htargets : targets w₁.reusing [] = targets (w₁.reusing.allocConnCtxMem 1) [] :=
    congrArg (List.map HttpRequestMsg.target) hserved
  rw [hgot₁, hnew₁] at htargets
  cases htargets

end SrvAsync
