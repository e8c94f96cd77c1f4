import SrvAsync.Http.Status
import SrvAsync.Receive.Leftover

/-!
# Header sections that are too long

`recv_http_msg` answers a header section of more than `MAX_HTTP_HDR_SZIE` bytes with 431,
once it has found the end of it.  `recv_from_curr_conn` gives up when the buffer is full, so
the end of a section that is longer than the buffer is never found: the connection is closed
without a response.  So it is when bytes of earlier use look like the end of the section, and
bytes that an earlier connection left unread count as the front of it.

## Main definitions

* `Worker.unread` — the bytes that were left unread in a context.
* `St.Settles` — it is settled what becomes of the first header section.
* `Session.Early` — a session before and after its first request.

## Main results

* `oversize_answered_iff` — **when a header section that is too long is answered**.
* `oversize_dropped` — one that is not answered.
-/

namespace SrvAsync

open Http HttpRequestMsg History Machine Memory Worker

variable {P : Platform}

/-! ### What is decoded -/

/-- What is decoded of a stream whose first header section is too long, and fits the buffer. -/
theorem decode_of_too_long {size : ℕ} {S : Bytes} (hbig : maxHttpHdrSize < findHttpHeadersEnd S)
    (hfits : findHttpHeadersEnd S ≤ size) :
    decode size S = [ofError .headerFieldsTooLarge] := by
  have hcut := cutHeader_append (by omega) hfits []
  have hlen : (S.take (findHttpHeadersEnd S)).length = findHttpHeadersEnd S :=
    List.length_take_of_le (findHttpHeadersEnd_le S)
  have hof : ofHeader (S.take (findHttpHeadersEnd S)) = ofError .headerFieldsTooLarge :=
    ofHeader_of_lt (by omega)
  have hwants : wantsBody (S.take (findHttpHeadersEnd S)) = false := by
    unfold wantsBody
    rw [hlen, decide_eq_false (by omega), Bool.false_and, Bool.false_and]
  rw [List.append_nil] at hcut
  rw [decode_eq, hcut]
  simp only [decodeHeader, hwants, hof]
  rfl

/-- The error of a request is that of its header section. -/
theorem errorCode_of_decodeHeader {size : ℕ} {hdr rest : Bytes} {r : HttpRequestMsg}
    {rs : List HttpRequestMsg} (h : decodeHeader size hdr rest = r :: rs) :
    r.errorCode = (ofHeader hdr).errorCode := by
  unfold decodeHeader at h
  split at h
  · split at h
    · cases h
    · unfold decodeBody cutBody at h
      split at h
      · cases h
      · next hcut =>
        split at hcut
        · cases hcut
        · obtain ⟨rfl, -⟩ := Prod.mk.inj (Option.some.inj hcut)
          exact (List.cons.inj h).1 ▸ rfl
  · exact (List.cons.inj h).1 ▸ rfl

/-- Nothing is decoded of a stream whose first header section is longer than the buffer. -/
theorem decode_of_size_lt {size : ℕ} {S : Bytes} (h : size < findHttpHeadersEnd S) :
    decode size S = [] := by
  refine decode_of_lt fun pos hpos => ?_
  have hmin := find_le_of_prefix_drop hpos
  omega

/-- **A stream whose first request is answered with 431.** -/
theorem too_long_of_decode {size : ℕ} {S : Bytes} {r : HttpRequestMsg} {rs : List HttpRequestMsg}
    (h : decode size S = r :: rs) (he : r.errorCode = .headerFieldsTooLarge) :
    maxHttpHdrSize < findHttpHeadersEnd S ∧ findHttpHeadersEnd S ≤ size := by
  have h0 : findHttpHeadersEnd S ≠ 0 := by
    intro h0
    rw [decode_of_find_eq_zero h0] at h
    cases h
  have hfits : findHttpHeadersEnd S ≤ size := by
    by_contra hlt
    rw [decode_of_size_lt (by omega)] at h
    cases h
  have hcut := cutHeader_append h0 hfits []
  rw [List.append_nil] at hcut
  rw [decode_eq, hcut] at h
  have hlong := (errorCode_ofHeader_iff _).mp ((errorCode_of_decodeHeader h).symm.trans he)
  rw [List.length_take_of_le (findHttpHeadersEnd_le S)] at hlong
  exact ⟨hlong, hfits⟩

/-! ### Sessions as far as their first request -/

namespace Session

/-- **A session as far as its first request.**  Its buffer was `b`, with the bytes `L` unread in
it; `h` is the length of the first header section of these and its stream. -/
inductive Early (b : ℕ → Byte) (L : Bytes) (h : ℕ) (a : Session) : Prop
  /-- Nothing happened yet. -/
  | idle (hst : a.stage = .idle) (hbuf : a.buf = b) (hun : a.unread = L) (hrec : a.received = [])
  /-- The header section is received, behind the bytes left unread. -/
  | reading (prev : ℕ) (hst : a.stage = .hdr prev (L ++ a.received).length)
    (hbuf : a.buf = store b 0 (L ++ a.received))
  /-- A `read` failed, or saw the end of the stream, before the header section was complete. -/
  | lost (hst : a.stage = .failed ∨ a.stage = .ended) (hshort : (L ++ a.received).length < h)
    (hread : ∃ timedOut, .read .error timedOut ∈ a.answers ∨ .read .eof timedOut ∈ a.answers)
  /-- A request was delivered. -/
  | got (hdel : a.delivered ≠ [])

variable {a a' : Session} {b : ℕ → Byte} {L S : Bytes}

/-- A request that was delivered stays delivered. -/
theorem Early.of_notes {h : ℕ} (hdel : a.delivered ≠ []) (hnotes : a.notes <+: a'.notes) :
    a'.Early b L h := by
  refine .got fun hnil => hdel ?_
  have hprefix : a.delivered <+: a'.delivered := hnotes.filterMap _
  rw [hnil] at hprefix
  exact List.prefix_nil.mp hprefix

/-- A header section that is too long is a request without a body. -/
theorem delivered_hdrGot_ne_nil {hdr : Bytes} (hlen : maxHttpHdrSize < hdr.length) :
    (a.hdrGot P hdr).delivered ≠ [] := by
  have hwants : wantsBody hdr = false := by
    unfold wantsBody
    rw [decide_eq_false (by omega), Bool.false_and, Bool.false_and]
  rw [delivered_hdrGot hwants]
  exact List.append_ne_nil_of_right_ne_nil _ (List.cons_ne_nil _ _)

/-- The end of a receive operation with the end of a header section that is too long. -/
theorem delivered_hdrReceived_ne_nil {prev n : ℕ} (hne : n ≠ prev)
    (hbig : maxHttpHdrSize < findHttpHeadersEnd (window a.buf 0 n)) :
    (a.hdrReceived P prev n).delivered ≠ [] := by
  unfold Session.hdrReceived
  rw [if_neg hne]
  simp only
  rw [if_neg (by omega)]
  refine delivered_hdrGot_ne_nil ?_
  rw [length_window]
  exact hbig

/-- The first call of `recv_http_msg`. -/
theorem Early.ask (hbuf : a.buf = b) (hun : a.unread = L)
    (hrec : (a.ask P).received = []) (hbig : maxHttpHdrSize < findHttpHeadersEnd (L ++ S))
    (hfits : findHttpHeadersEnd (L ++ S) ≤ a.size) :
    (a.ask P).Early b L (findHttpHeadersEnd (L ++ S)) := by
  have hlen : L.length = a.have_ - a.curr := hun ▸ length_window _ _ _
  by_cases hempty : a.curr = a.have_
  · -- nothing is in the buffer, so the section is read from its beginning
    have hnil : L = [] := List.eq_nil_of_length_eq_zero (by omega)
    rw [ask_drained hempty] at hrec ⊢
    refine .reading 0 ?_ ?_
    · rw [hrec, hnil]
      rfl
    · rw [hrec, hnil]
      exact hbuf.trans (store_nil _ _).symm
  · have hcall : (a.note .call).curr ≠ (a.note .call).have_ := hempty
    have hrest : window (a.note .call).buf (a.note .call).curr
        ((a.note .call).have_ - (a.note .call).curr) = L := hun
    unfold Session.ask at hrec ⊢
    simp only [if_pos hcall, hrest] at hrec ⊢
    by_cases h0 : findHttpHeadersEnd L = 0
    · have hlt := length_lt_of_find_eq_zero (List.prefix_append L S) h0 (by omega)
      have hroom : ¬ (a.note .call).have_ - (a.note .call).curr = (a.note .call).size :=
        show ¬ a.have_ - a.curr = a.size by omega
      simp only [if_pos h0, if_neg hroom] at hrec ⊢
      -- the bytes left unread are moved to the front
      refine .reading (a.have_ - a.curr) ?_ ?_
      · rw [hrec, List.append_nil, hlen]
        rfl
      · rw [hrec, List.append_nil, ← hbuf]
        rfl
    · -- the whole section was left unread
      have hfind := find_of_prefix (List.prefix_append L S) h0
      simp only [if_neg h0]
      refine .got (delivered_hdrGot_ne_nil ?_)
      rw [length_window]
      omega

/-- A silent step. -/
theorem Early.silent (he : a.Early b L (findHttpHeadersEnd (L ++ S)))
    (hbig : maxHttpHdrSize < findHttpHeadersEnd (L ++ S))
    (hfits : findHttpHeadersEnd (L ++ S) ≤ a.size) (hs : a.silent P = some a') :
    a'.Early b L (findHttpHeadersEnd (L ++ S)) := by
  have hrec : a'.received = a.received := by
    rw [received_step (P := P) (l := none) hs]
    exact List.append_nil _
  have hsame := (onward_silent hs).toSame
  cases he with
  | idle hst hbuf hun hnone =>
    cases moves_of_silent hs with
    | ask => exact .ask hbuf hun (hrec.trans hnone) hbig hfits
    | chunk he | packet he | answered he | closed he | again he | failed he =>
      exact absurd (hst.symm.trans he) Stage.noConfusion
  | reading _ hst _ =>
    cases moves_of_silent hs with
    -- a receive operation does nothing silently
    | ask he | chunk he | packet he | answered he | closed he | again he | failed he =>
      exact absurd (hst.symm.trans he) Stage.noConfusion
  | lost hst hshort hread =>
    have hfailed : a' = (a.note (.returned false)).goto .ended := by
      cases moves_of_silent hs with
      | failed => rfl
      | ask he | chunk he | packet he | answered he | closed he | again he =>
        rw [he] at hst
        rcases hst with hst | hst <;> cases hst
    exact .lost (.inr (hfailed ▸ rfl)) (by rw [hrec]; exact hshort) (by rw [hsame.answers]; exact hread)
  | got hdel => exact .of_notes hdel hsame.notes

/-- The bytes of a read for the first header section, behind the bytes `W` of it. -/
theorem Early.hdrData {prev : ℕ} {bs W : Bytes} (hbuf : a.buf = store b 0 W)
    (hfind : findHttpHeadersEnd W = 0) (hprev : prev ≤ W.length)
    (hbig : maxHttpHdrSize < findHttpHeadersEnd (L ++ S))
    (hfits : findHttpHeadersEnd (L ++ S) ≤ a.size) (hbs : bs ≠ []) (hle : W.length + bs.length ≤ a.size)
    (hq : ¬ StaleEnd a.buf a.size W.length bs) (ha : a' = a.hdrData P prev W.length bs)
    (hcat : L ++ a'.received = W ++ bs) (hpre : W ++ bs <+: L ++ S) :
    a'.Early b L (findHttpHeadersEnd (L ++ S)) := by
  have hne : findHttpHeadersEnd (L ++ S) ≠ 0 := by omega
  have hbslen : 0 < bs.length := List.length_pos_iff.mpr hbs
  have hlen : (W ++ bs).length = W.length + bs.length := List.length_append
  -- the buffer still holds what was received, from its beginning
  have hbuf' : store a.buf W.length bs = store b 0 (W ++ bs) := by rw [hbuf, store_store_zero]
  have hwin : window (store a.buf W.length bs) 0 (W.length + bs.length) = W ++ bs := by
    rw [hbuf', ← hlen, window_store_self]
  have hold : findHttpHeadersEnd (window (store a.buf W.length bs) 0 W.length) = 0 := by
    rw [window_store_before bs (by omega), hbuf, window_store_self, hfind]
  -- the scan of `is_http_message_end` over the new bytes
  cases hscan : isHttpMessageEnd (store a.buf W.length bs) a.size W.length
      (W.length + bs.length) with
  | none =>
    -- the guard page is touched behind the end of the section only
    obtain ⟨T, hT⟩ := hpre
    obtain ⟨pos, hpos⟩ := Option.ne_none_iff_exists'.mp (mt findHttpHeadersEnd_eq_zero_iff.mpr hne)
    have hend : findHttpHeadersEnd (L ++ S) = pos + 4 := by
      unfold findHttpHeadersEnd
      rw [hpos]
      rfl
    have hat : headersEnd <+: (window (store a.buf W.length bs) 0
        (W.length + bs.length) ++ T).drop pos := by
      rw [hwin, hT]
      exact (List.firstInfix?_eq_some_iff.mp hpos).1
    have hlt := lt_of_isHttpMessageEnd_none hold (by omega) (by omega) hscan hat
    omega
  | some recvTerm =>
    rw [hdrData_of_some hscan] at ha
    cases recvTerm with
    | false =>
      have h0 := find_of_isHttpMessageEnd_false hold hscan
      rw [hwin] at h0
      -- no end yet, so there is room: the loop reads on
      have hroom := length_lt_of_find_eq_zero hpre h0 hne
      rw [if_pos ⟨show W.length + bs.length ≠ a.size by omega, rfl⟩] at ha
      refine .reading prev ?_ ?_
      · rw [hcat, hlen, ha]
        rfl
      · rw [hcat, ← hbuf', ha]
        rfl
    | true =>
      rw [if_neg fun hand => Bool.noConfusion hand.2] at ha
      -- no bytes of earlier use complete an end, so the one that was found is received
      have h0 : findHttpHeadersEnd (W ++ bs) ≠ 0 := by
        intro h0
        rw [← hwin] at h0
        exact hq (staleEnd_of_isHttpMessageEnd_true h0 hscan)
      have hend := find_of_prefix hpre h0
      refine .got ?_
      rw [ha]
      refine delivered_hdrReceived_ne_nil (by omega) ?_
      show maxHttpHdrSize < findHttpHeadersEnd (window (store a.buf W.length bs) 0
        (W.length + bs.length))
      rw [hwin]
      omega

/-- A read for the first header section, when it is too long and fits the buffer. -/
theorem Early.hdrRead {prev : ℕ} {r : ReadResult} {timedOut : Bool} (ht : a.Tidy)
    (hst : a.stage = .hdr prev (L ++ a.received).length) (hbuf : a.buf = store b 0 (L ++ a.received))
    (hbig : maxHttpHdrSize < findHttpHeadersEnd (L ++ S))
    (hfits : findHttpHeadersEnd (L ++ S) ≤ a.size) (hr : r.Fits (a.size - (L ++ a.received).length))
    (hq : ∀ bs, r = .data bs → ¬ StaleEnd a.buf a.size (L ++ a.received).length bs)
    (ha : a' = (a.note (.read r timedOut)).hdrRead P prev (L ++ a.received).length r)
    (hrec : a'.received = a.received ++ r.bytes) (hans : .read r timedOut ∈ a'.answers)
    (hS : a'.received <+: S) : a'.Early b L (findHttpHeadersEnd (L ++ S)) := by
  -- what was received of the section, and what is received now
  generalize hW : L ++ a.received = W at hst hbuf hr hq ha
  have hcat : L ++ a'.received = W ++ r.bytes := by rw [hrec, ← hW, List.append_assoc]
  have hpre : W ++ r.bytes <+: L ++ S := hcat ▸ (List.prefix_append_right_inj L).mpr hS
  have hwin : window a.buf 0 W.length = W := by rw [hbuf, window_store_self]
  have htidy := ht.stage
  rw [hst] at htidy
  obtain ⟨hprev, hlt, hfind⟩ := htidy
  rw [hwin] at hfind
  have hshort : W.length < findHttpHeadersEnd (L ++ S) :=
    length_lt_of_find_eq_zero ((List.prefix_append W r.bytes).trans hpre) hfind (by omega)
  cases r with
  | again =>
    have hcat' : L ++ a'.received = W := hcat.trans (List.append_nil W)
    refine .reading prev ?_ ?_
    · rw [hcat', ha]
      exact hst
    · rw [hcat', ha]
      exact hbuf
  | error =>
    have hcat' : L ++ a'.received = W := hcat.trans (List.append_nil W)
    exact .lost (.inl (ha ▸ rfl)) (hcat' ▸ hshort) ⟨timedOut, .inl hans⟩
  | eof =>
    have hcat' : L ++ a'.received = W := hcat.trans (List.append_nil W)
    refine .lost (.inr ?_) (hcat' ▸ hshort) ⟨timedOut, .inr hans⟩
    rw [ha]
    refine stage_hdrReceived_of_find_eq_zero ?_
    show findHttpHeadersEnd (window a.buf 0 W.length) = 0
    rw [hwin, hfind]
  | data bs =>
    obtain ⟨hbs, hle⟩ := hr
    exact .hdrData (a := a.note _) hbuf hfind hprev hbig hfits hbs
      (show W.length + bs.length ≤ a.size by omega) (hq bs rfl) ha hcat hpre

/-- An answer of the socket, when the first header section is too long and fits the buffer. -/
theorem Early.visible {l : Answer} (he : a.Early b L (findHttpHeadersEnd (L ++ S))) (ht : a.Tidy)
    (hbig : maxHttpHdrSize < findHttpHeadersEnd (L ++ S))
    (hfits : findHttpHeadersEnd (L ++ S) ≤ a.size)
    (hq : b = (fun _ => 0) ∨ ¬ a.StaleRead (some l)) (hs : a.visible P l = some a')
    (hS : a'.received <+: S) : a'.Early b L (findHttpHeadersEnd (L ++ S)) := by
  have hrec : a'.received = a.received ++ l.bytes := by
    rw [received_step (P := P) (l := some l) hs]
    simp
  have hsees := sees_visible hs
  cases he with
  | idle hst =>
    cases hears_of_visible hs with
    | hdr he | body he | send he => exact absurd (hst.symm.trans he) Stage.noConfusion
  | lost hst =>
    cases hears_of_visible hs with
    | hdr he | body he | send he =>
      rw [he] at hst
      rcases hst with hst | hst <;> cases hst
  | got hdel => exact .of_notes hdel hsees.notes
  | reading _ hst hbuf =>
    cases hears_of_visible hs with
    | hdr he hr =>
      obtain ⟨rfl, rfl⟩ := Stage.hdr.inj (hst.symm.trans he)
      refine .hdrRead ht hst hbuf hbig hfits hr ?_ rfl hrec ?_ hS
      · rintro bs rfl hstale
        rcases hq with rfl | hq
        · rw [hbuf] at hstale
          exact not_staleEnd_fresh hstale
        · exact hq ⟨_, _, hst, hstale⟩
      · rw [hsees.answers]
        exact List.mem_append_right _ (List.mem_singleton_self _)
    | body he | send he => exact absurd (hst.symm.trans he) Stage.noConfusion

/-- **A session stays early until its first request**, when its first header section is too long
and fits the buffer, and no read meets bytes of earlier use. -/
theorem Early.run {ls : List (Option Answer)} (he : a.Early b L (findHttpHeadersEnd (L ++ S)))
    (hsound : a.Sound L) (hbig : maxHttpHdrSize < findHttpHeadersEnd (L ++ S))
    (hfits : findHttpHeadersEnd (L ++ S) ≤ a.size)
    (hq : Along (fun a l => b = (fun _ => 0) ∨ ¬ a.StaleRead l) (Session.step P) a ls)
    (hr : run (Session.step P) a ls = some a') (hS : a'.received <+: S) :
    a'.Early b L (findHttpHeadersEnd (L ++ S)) := by
  have hinv : a'.size = a.size ∧ a'.Sound L ∧
      (a'.received <+: S → a'.Early b L (findHttpHeadersEnd (L ++ S))) := by
    refine run_invariant_along (P := fun u => u.size = a.size ∧ u.Sound L ∧
      (u.received <+: S → u.Early b L (findHttpHeadersEnd (L ++ S)))) ?_ ls
        ⟨rfl, hsound, fun _ => he⟩ hq hr
    rintro u l u' ⟨hsize, hu, hearly⟩ hql hs
    refine ⟨(sees_step hs).size.trans hsize, hu.step hs, fun hS' => ?_⟩
    have hprefix : u.received <+: S := by
      rw [received_step hs] at hS'
      exact (List.prefix_append _ _).trans hS'
    cases l with
    | none => exact (hearly hprefix).silent hbig (hsize ▸ hfits) hs
    | some l => exact (hearly hprefix).visible hu.tidy hbig (hsize ▸ hfits) hql hs hS'
  exact hinv.2.2 hS

end Session

/-! ### When it is settled -/

/-- The bytes that were left unread in the context. -/
def Worker.unread (w : Worker) (p : Ptr) : Bytes :=
  window (w.mem p) (w.heap p).recvBufCurr.toNat
    ((w.heap p).recvBufHave.toNat - (w.heap p).recvBufCurr.toNat)

/-- It is settled what becomes of the first header section of the stream: it has arrived, or as
much of it as the buffer holds, or the connection is over although no `read` failed or saw the
end of the stream. -/
structure St.Settles (S : Bytes) (s : St) : Prop where
  initial : received s.curr.hist <+: S
  settled : min (findHttpHeadersEnd S) recvBufSize.toNat ≤ (received s.curr.hist).length ∨
    s.Over ∧ ∀ timedOut, .read .error timedOut ∉ answers s.curr.hist ∧
      .read .eof timedOut ∉ answers s.curr.hist

/-- `recv_http_msg` has delivered one request, with the error 431. -/
def St.AnswersTooLarge (s : St) : Prop :=
  ∃ r, requests s.curr.hist = [r] ∧ r.errorCode = .headerFieldsTooLarge

section

variable {s s' : St} {a : Session} {b : ℕ → Byte} {L S : Bytes}

/-- An early session has delivered a request when it is settled. -/
theorem St.Settles.delivered_ne_nil (hS : s.Settles S) (href : Refines P s a) (hsound : a.Sound L)
    (he : a.Early b L (findHttpHeadersEnd (L ++ S))) (hsize : a.size = recvBufSize.toNat)
    (hlong : maxHttpHdrSize < findHttpHeadersEnd S)
    (hbig : maxHttpHdrSize < findHttpHeadersEnd (L ++ S))
    (hfits : findHttpHeadersEnd (L ++ S) ≤ a.size) : a.delivered ≠ [] := by
  obtain ⟨hinit, hdone⟩ := hS
  rw [href.received] at hinit hdone
  rw [href.tells.answers] at hdone
  obtain ⟨T, hT⟩ := hinit
  have hval : recvBufSize.toNat = 8192 := rfl
  have hle := find_append_le (L := L) (S := S) (by omega)
  have hlen : (L ++ a.received).length = L.length + a.received.length := List.length_append
  have hdec : decode a.size (L ++ S) ≠ [] := by
    rw [decode_of_too_long hbig hfits]
    exact List.cons_ne_nil _ _
  -- a coroutine that is over expects no more requests
  have hexp : s.Over → a.expect T = [] := fun ho => expect_of_over href ho T
  cases he with
  | idle hst _ hun hrec =>
    rcases hdone with hmuch | ⟨ho, -⟩
    · rw [hrec, List.length_nil] at hmuch
      omega
    · have hover := hexp ho
      unfold Session.expect at hover
      rw [hst] at hover
      rw [hrec, List.nil_append] at hT
      exact absurd (hun ▸ hT ▸ hover) hdec
  | reading _ hst hbuf =>
    have hwin : window a.buf 0 (L ++ a.received).length = L ++ a.received := by
      rw [hbuf, window_store_self]
    rcases hdone with hmuch | ⟨ho, -⟩
    · have htidy := hsound.tidy.stage
      rw [hst] at htidy
      have h0 := htidy.2.2
      rw [hwin] at h0
      have hpre : L ++ a.received <+: L ++ S := ⟨T, by rw [List.append_assoc, hT]⟩
      have hlt := length_lt_of_find_eq_zero hpre h0 (by omega)
      omega
    · have hover := hexp ho
      unfold Session.expect at hover
      rw [hst] at hover
      simp only at hover
      rw [hwin, List.append_assoc, hT] at hover
      exact absurd hover hdec
  | lost _ hshort hread =>
    rcases hdone with hmuch | ⟨-, hnot⟩
    · omega
    · obtain ⟨timedOut, hmem | hmem⟩ := hread
      · exact absurd hmem (hnot timedOut).1
      · exact absurd hmem (hnot timedOut).2
  | got hdel => exact hdel

/-- The response to a request in error closes the connection. -/
theorem not_keepsAlive_of_isError {r : HttpRequestMsg} {resp : HttpResponseMsg}
    (he : r.isError = true) (h : Responds P r resp) : ¬ resp.KeepsAlive := by
  obtain ⟨d, hd⟩ := h
  rw [makeResponse_eq, wantKeepAlive_of_isError he] at hd
  obtain rfl := Option.some.inj hd
  rw [keepsAlive_response_iff, keepAlive_replyTo]
  exact Bool.false_ne_true

/-- No header section is received behind a request in error. -/
theorem requests_ne_of_hdr {p : Point} {prev n : ℕ} {r : HttpRequestMsg} (href : Refines P s a)
    (hc : s.ctl = .coro p) (hst : a.stage = .hdr prev n) (he : r.isError = true) :
    requests s.curr.hist ≠ [r] := by
  intro hone
  obtain ⟨hrun, hrep⟩ := (refines_coro_iff hc).mp href
  have hstands := hrep.stands
  rw [hst] at hstands
  have hd : Dialogue P s.curr.hist .reading := by
    cases hstands with
    | recvHdr hat => exact hat.dialogue
    | waitHdr => cases hrun
  obtain ⟨hmatched, hkeep⟩ := (told hd).exchanges
  rw [hone] at hmatched
  obtain ⟨resp, resps, hresp, -, hresps⟩ := List.forall₂_cons_left_iff.mp hmatched
  exact not_keepsAlive_of_isError he hresp (hkeep resp (hresps ▸ List.mem_cons_self))

/-- **A read that meets bytes of earlier use is the last thing that happens.** -/
theorem requests_of_staleRead {i : Tick × Op} {is : List (Tick × Op)} (href : Refines P s a)
    (hsound : a.Sound L) (hst : s.StaleRead i.2) (hs : run (St.next P) s (i :: is) = some s') :
    (∃ p prev n, s.ctl = .coro p ∧ a.stage = .hdr prev n) ∧
      requests s'.curr.hist = requests s.curr.hist := by
  obtain ⟨t, op⟩ := i
  unfold St.StaleRead at hst
  split at hst
  · next f k bs hc hop =>
    obtain rfl : op = .read (.data bs) := hop
    obtain ⟨hterm, hstale⟩ := hst
    obtain ⟨u, hu, hrun⟩ := run_cons_eq_some_iff.mp hs
    obtain ⟨prev, n, hstage, hn, -, hbuf, hb⟩ := hdr_of_terminator href hc hterm
    have hsize : s.curr.recvBufSize.toNat = a.size := by rw [hb.size]; rfl
    rw [hbuf, hb.buf, hsize, hn, Int.toNat_natCast] at hstale
    obtain ⟨a', href', ⟨-, b, hb'⟩ | ⟨l, ⟨timedOut, rfl⟩, ha⟩⟩ := refines_step href hu
    · cases hb'
    have hsound' := hsound.step ha
    obtain ⟨hsame, hover⟩ : a'.delivered = a.delivered ∧
        (a'.stage = .ended ∨ a'.stage = .dead .segv) := by
      have hv : a.visible P (.read (.data bs) timedOut) = some a' := ha
      cases Session.hears_of_visible hv with
      | hdr he =>
        obtain ⟨rfl, rfl⟩ := Stage.hdr.inj (hstage.symm.trans he)
        have hstop := Session.stopped_hdrData (P := P) (a := a.note (.read (.data bs) timedOut))
          prev hstale.1 (isHttpMessageEnd_of_staleEnd hstale)
        refine ⟨hstop.1.trans ?_, hstop.2⟩
        rw [Session.delivered_note]
        exact List.append_nil _
      | body he => exact absurd (hstage.symm.trans he) Stage.noConfusion
    have ho : a'.Over a.delivered := by
      refine ⟨hsound'.pos, hsound'.tidy, hsame, fun T => ?_⟩
      unfold Session.expect
      rcases hover with h | h <;> rw [h]
    refine ⟨⟨_, prev, n, hc, hstage⟩, ?_⟩
    rw [← runFar_of_run hrun, href'.requests_of_over ho is, href.tells.requests]
    rfl
  · exact hst.elim

/-- **A connection that is answered with 431 meets no bytes of earlier use.** -/
theorem along_of_answersTooLarge (h : s'.AnswersTooLarge) : ∀ {is : List (Tick × Op)} {s : St}
    {a : Session}, Refines P s a → a.Sound L → run (St.next P) s is = some s' →
      Along (fun s i => ¬ s.StaleRead i.2) (St.next P) s is := by
  obtain ⟨r, hone, he⟩ := h
  have herr : r.isError = true := by
    unfold HttpRequestMsg.isError
    rw [he]
    rfl
  intro is
  induction is with
  | nil => exact fun _ _ _ => trivial
  | cons i is ih =>
    intro s a href hsound hr
    refine ⟨fun hst => ?_, fun u hu => ?_⟩
    · obtain ⟨⟨p, prev, n, hc, hstage⟩, hreq⟩ := requests_of_staleRead href hsound hst hr
      exact requests_ne_of_hdr href hc hstage herr (hreq.symm.trans hone)
    · obtain ⟨v, hv, hr⟩ := run_cons_eq_some_iff.mp hr
      obtain rfl := Option.some.inj (hu.symm.trans hv)
      obtain ⟨a', href', ⟨rfl, -⟩ | ⟨l, -, ha⟩⟩ := refines_step href hu
      · exact ih href' hsound hr
      · exact ih href' (hsound.step ha) hr

end

/-! ### Connections -/

section

variable {w w' : Worker} {fd : Fd} {outs : List (Option Ptr)} {p : Ptr} {is : List (Tick × Op)}
  {s : St} {S : Bytes}

/-- The session of a new connection. -/
theorem exists_start (hs : Spare (w.heap p) p (w.mem p)) (connSock : Fd) (inst : ℕ) :
    ∃ a, Refines P (St.accepted (w.startConn p connSock inst).toGlobals (w.heap p) p connSock inst) a ∧
      a.Sound (w.unread p) ∧ a.size = recvBufSize.toNat ∧
      ∀ h, a.Early (w.mem p) (w.unread p) h := by
  obtain ⟨have_, curr, hhave, hcurr, hle, hle'⟩ := hs.cursors
  have hval : recvBufSize = 8192 := rfl
  have hsize : (w.heap p).recvBufSize = (recvBufSize.toNat : ℤ) := hs.recvBufSize
  have hmem : (w.startConn p connSock inst).toGlobals.mem (w.heap p).recvBufP = w.mem p := by
    rw [toGlobals_startConn, hs.recvBufP]
  have hunread : w.unread p = window (w.mem p) curr (have_ - curr) := by
    unfold Worker.unread
    rw [hhave, hcurr, Int.toNat_natCast, Int.toNat_natCast]
  have href := refines_accepted (P := P) (w.startConn p connSock inst).toGlobals p connSock inst
    hsize hhave hcurr (by omega) hle (by omega)
  rw [hmem] at href
  refine ⟨_, href, ?_, rfl, fun h => .idle rfl rfl hunread.symm rfl⟩
  rw [hunread]
  exact Session.sound_start _ _ (by omega) hle (by omega)

/-- The requests of a new connection are in the decoding of what was left unread and its stream. -/
theorem requests_initial (hs : Spare (w.heap p) p (w.mem p)) {connSock : Fd} {inst : ℕ}
    (hr : run (St.next P) (St.accepted (w.startConn p connSock inst).toGlobals (w.heap p) p connSock
      inst) is = some s) (hS : received s.curr.hist <+: S) :
    requests s.curr.hist <+: decode recvBufSize.toNat (w.unread p ++ S) := by
  obtain ⟨a₀, href₀, hsound₀, hsize₀, -⟩ := exists_start (P := P) hs connSock inst
  obtain ⟨ls, a, hls, -, href⟩ := refines_run (W := fun _ _ => True)
    (fun _ _ _ _ _ _ _ _ _ => trivial) href₀ (along_true is _) hr
  rw [href.received] at hS
  rw [href.tells.requests, ← hsize₀, ← Session.size_run hls]
  exact (hsound₀.run hls).delivered_initial hS

/-- What is answered with 431 is too long, and fits the buffer. -/
theorem fits_of_answersTooLarge (hs : Spare (w.heap p) p (w.mem p)) {connSock : Fd} {inst : ℕ}
    (hr : run (St.next P) (St.accepted (w.startConn p connSock inst).toGlobals (w.heap p) p connSock
      inst) is = some s) (hS : received s.curr.hist <+: S) (h : s.AnswersTooLarge) :
    maxHttpHdrSize < findHttpHeadersEnd (w.unread p ++ S) ∧
      findHttpHeadersEnd (w.unread p ++ S) ≤ recvBufSize.toNat := by
  obtain ⟨r, hone, he⟩ := h
  obtain ⟨rest, hrest⟩ := requests_initial hs hr hS
  rw [hone] at hrest
  exact too_long_of_decode hrest.symm he

/-- What is too long, and fits the buffer, is answered with 431, if no read meets bytes of earlier
use. -/
theorem answersTooLarge_of_fits (hs : Spare (w.heap p) p (w.mem p)) {connSock : Fd} {inst : ℕ}
    (hr : run (St.next P) (St.accepted (w.startConn p connSock inst).toGlobals (w.heap p) p connSock
      inst) is = some s) (hS : s.Settles S) (hlong : maxHttpHdrSize < findHttpHeadersEnd S)
    (hbig : maxHttpHdrSize < findHttpHeadersEnd (w.unread p ++ S))
    (hfits : findHttpHeadersEnd (w.unread p ++ S) ≤ recvBufSize.toNat)
    (hq : w.mem p = (fun _ => 0) ∨ w.NoStale P p connSock inst is) : s.AnswersTooLarge := by
  obtain ⟨a₀, href₀, hsound₀, hsize₀, hearly⟩ := exists_start (P := P) hs connSock inst
  have hal : Along (fun s i => w.mem p = (fun _ => 0) ∨ ¬ s.StaleRead i.2) (St.next P)
      (St.accepted (w.startConn p connSock inst).toGlobals (w.heap p) p connSock inst) is := by
    rcases hq with hblank | hq
    · exact along_of_forall fun _ _ _ => .inl hblank
    · exact hq.imp fun _ _ => .inr
  obtain ⟨ls, a, hls, hal', href⟩ := refines_run
    (W := fun a l => w.mem p = (fun _ => 0) ∨ ¬ a.StaleRead l)
    (fun _ _ _ _ _ h hq hs hl => hq.imp id fun hq => staleRead_of_refines h hq hs hl) href₀ hal hr
  have hsize : a.size = recvBufSize.toNat := (Session.size_run hls).trans hsize₀
  have hsound := hsound₀.run hls
  have hinit : a.received <+: S := href.received ▸ hS.initial
  have hgot := (hearly _).run hsound₀ hbig (hsize₀ ▸ hfits) hal' hls hinit
  have hne := hS.delivered_ne_nil href hsound hgot hsize hlong hbig (hsize ▸ hfits)
  -- what is delivered is in the decoding, which has one request
  have hdel := hsound.delivered_initial hinit
  rw [hsize, decode_of_too_long hbig hfits] at hdel
  obtain ⟨r, rs, hrs⟩ := List.exists_cons_of_ne_nil hne
  rw [hrs] at hdel
  obtain ⟨rfl, hnil⟩ := List.cons_prefix_cons.mp hdel
  obtain rfl := List.prefix_nil.mp hnil
  exact ⟨ofError .headerFieldsTooLarge, href.tells.requests.trans hrs, rfl⟩

/-- **When a header section that is too long is answered with 431**, on every new connection of
every worker: with what was left unread in front it must be too long and fit the receive buffer,
and no read may meet bytes of earlier use.  On a newly allocated context it must fit the buffer. -/
theorem oversize_answered_iff (hw : Reachable P w) (h : w.Takes fd outs p w')
    (hr : run (St.next P) (St.accepted (w'.startConn p fd w.accepted).toGlobals (w'.heap p) p fd
      w.accepted) is = some s) (hS : s.Settles S) (hlong : maxHttpHdrSize < findHttpHeadersEnd S) :
    (s.AnswersTooLarge ↔ (maxHttpHdrSize < findHttpHeadersEnd (w'.unread p ++ S) ∧
      findHttpHeadersEnd (w'.unread p ++ S) ≤ recvBufSize.toNat) ∧
        w'.NoStale P p fd w.accepted is) ∧
    ((w'.heap p).uses = 0 →
      (s.AnswersTooLarge ↔ findHttpHeadersEnd S ≤ recvBufSize.toNat)) := by
  have hs := h.spare hw
  refine ⟨⟨fun hans => ⟨fits_of_answersTooLarge hs hr hS.initial hans, ?_⟩,
    fun ⟨⟨hbig, hfits⟩, hq⟩ => answersTooLarge_of_fits hs hr hS hlong hbig hfits (.inr hq)⟩,
    fun hu => ?_⟩
  · obtain ⟨a₀, href₀, hsound₀, -⟩ := exists_start (P := P) hs fd w.accepted
    exact along_of_answersTooLarge hans href₀ hsound₀ hr
  · -- a newly allocated context is blank, and nothing is in it
    obtain ⟨hblank, hhave, hcurr⟩ := hs.unused hu
    have hunread : w'.unread p = [] := by
      unfold Worker.unread
      rw [hhave, hcurr]
      rfl
    constructor
    · intro hans
      have hfits := (fits_of_answersTooLarge hs hr hS.initial hans).2
      rw [hunread] at hfits
      exact hfits
    · intro hfits
      refine answersTooLarge_of_fits hs hr hS hlong ?_ ?_ (.inl hblank)
      · rw [hunread]
        exact hlong
      · rw [hunread]
        exact hfits

/-! ### Streams that fill the first reads -/

/-- The bytes that an operation brings. -/
def Op.bytes : Op → Bytes
  | .read r => r.bytes
  | _ => []

/-- A run receives the bytes of its reads. -/
theorem received_run {s' : St} : ∀ {is : List (Tick × Op)} {s : St} {a : Session}, Refines P s a →
    run (St.next P) s is = some s' →
      received s'.curr.hist = received s.curr.hist ++ is.flatMap fun i => i.2.bytes := by
  intro is
  induction is with
  | nil =>
    intro s a _ hr
    obtain rfl := Option.some.inj hr
    exact (List.append_nil _).symm
  | cons i is ih =>
    intro s a href hr
    obtain ⟨u, hu, hrun⟩ := run_cons_eq_some_iff.mp hr
    obtain ⟨t, op⟩ := i
    have hstep : ∃ a', Refines P u a' ∧ a'.received = a.received ++ op.bytes := by
      obtain ⟨a', href', ⟨rfl, hemits⟩ | ⟨l, hemits, ha⟩⟩ := refines_step href hu
      · cases op with
        | resume | check => exact ⟨a', href', (List.append_nil _).symm⟩
        | read | write =>
          obtain ⟨timedOut, hnone⟩ := hemits
          cases hnone
      · refine ⟨a', href', ?_⟩
        rw [Session.received_step ha]
        cases op with
        | resume | check =>
          obtain rfl : l = none := hemits
          rfl
        | read | write =>
          obtain ⟨timedOut, rfl⟩ := hemits
          simp [Answer.bytes, Op.bytes]
    obtain ⟨a', href', hrec⟩ := hstep
    rw [ih href' hrun, href'.received, hrec, ← href.received, List.append_assoc, List.flatMap_cons]

/-- The first read of a connection meets no bytes of earlier use, when it brings the whole header
section. -/
theorem Awaits.not_staleRead {size : ℕ} {b : ℕ → Byte} {bs : Bytes} (h : Awaits P s size b [])
    (h0 : findHttpHeadersEnd bs ≠ 0) : ¬ s.StaleRead (.read (.data bs)) := by
  obtain ⟨a, href, -, hst, -⟩ := h
  intro hstale
  unfold St.StaleRead at hstale
  split at hstale
  · next f k cs hc hop =>
    obtain rfl : bs = cs := ReadResult.data.inj (Op.read.inj hop)
    obtain ⟨hterm, hfind, -⟩ := hstale
    obtain ⟨prev, n, hst', hn, -⟩ := hdr_of_terminator href hc hterm
    obtain ⟨-, rfl⟩ := Stage.hdr.inj (hst'.symm.trans hst)
    rw [hn, Int.toNat_natCast, window_store_chunk] at hfind
    exact h0 hfind
  · exact hstale

/-- A new connection on which nothing was left unread reads these bytes. -/
theorem exists_firstRead (hs : Spare (w.heap p) p (w.mem p))
    (hd : (w.heap p).recvBufCurr = (w.heap p).recvBufHave) {bs : Bytes} (hne : bs ≠ [])
    (hle : bs.length ≤ 8192) (connSock : Fd) (inst : ℕ) :
    ∃ s, run (St.next P) (St.accepted (w.startConn p connSock inst).toGlobals (w.heap p) p connSock
      inst) (firstReads [bs]) = some s ∧ received s.curr.hist = bs ∧
      (findHttpHeadersEnd bs ≠ 0 → w.NoStale P p connSock inst (firstReads [bs])) := by
  obtain ⟨a₀, href₀, -⟩ := exists_start (P := P) hs connSock inst
  have hsize : (w.heap p).recvBufSize.toNat = 8192 := by
    rw [hs.recvBufSize]
    rfl
  have hfirst := Awaits.first (P := P) (drained_of_spare hs hd)
    (w.startConn p connSock inst).toGlobals p connSock inst (.atTime 0)
  rw [hsize] at hfirst
  obtain ⟨a, s, -, -, -, -, hread, -⟩ := hfirst.read hne (by simpa using hle) (.atTime 0)
  have hresume := St.step_of_main (P := P) (s := St.accepted (w.startConn p connSock inst).toGlobals
    (w.heap p) p connSock inst) rfl (.atTime 0) true
  have hr : run (St.next P) (St.accepted (w.startConn p connSock inst).toGlobals (w.heap p) p
      connSock inst) (firstReads [bs]) = some s :=
    run_cons_eq_some_iff.mpr ⟨_, hresume, run_cons_eq_some_iff.mpr ⟨s, hread, rfl⟩⟩
  refine ⟨s, hr, ?_, fun h0 => ⟨?_, fun u hu => ?_⟩⟩
  · rw [received_run href₀ hr]
    exact List.append_nil bs
  · -- a switch reads nothing
    intro hstale
    unfold St.StaleRead at hstale
    split at hstale
    · next hop => cases hop
    · exact hstale
  · obtain rfl := Option.some.inj (hu.symm.trans hresume)
    exact ⟨hfirst.not_staleRead h0, fun _ _ => trivial⟩

/-- A header section of 2052 bytes, on a context that has served another connection before. -/
theorem oversize_answered_iff_reused : ∃ (w : Worker) (is : List (Tick × Op)) (s : St),
    Reachable .plain w ∧ (w.reusing.heap 1).uses = 1 ∧
    run (St.next .plain) (St.accepted (w.reusing.startConn 1 6 w.accepted).toGlobals
      (w.reusing.heap 1) 1 6 w.accepted) is = some s ∧
    received s.curr.hist = oddHdr 2048 ∧ s.AnswersTooLarge := by
  have hused : (script .plain oneContext answeredScript).any (fun w => (Reusable w ∧
      (w.reusing.heap 1).recvBufCurr = (w.reusing.heap 1).recvBufHave ∧
      (w.reusing.heap 1).uses = 1)) = true := by
    decide +kernel
  obtain ⟨w, hw, hr, hd, huses⟩ := exists_of_script .plain hused
  have htakes := hr.takes
  have hfind := find_oddHdr 2048
  have hlen := length_oddHdr 2048
  generalize oddHdr 2048 = bs at hfind hlen ⊢
  have hne : bs ≠ [] := List.ne_nil_of_length_pos (by omega)
  obtain ⟨s, hrun, hrec, hq⟩ := exists_firstRead (P := .plain) (htakes.spare hw) hd hne (by omega) 6
    w.accepted
  have hunread : w.reusing.unread 1 = [] := by
    unfold Worker.unread
    rw [hd, Nat.sub_self]
    rfl
  have hlong : maxHttpHdrSize < findHttpHeadersEnd bs := by
    rw [hfind]
    decide
  refine ⟨w, _, s, hw, huses, hrun, hrec, (oversize_answered_iff hw htakes hrun (S := bs) ?_
    hlong).1.mpr ⟨?_, hq (by omega)⟩⟩
  · refine ⟨by rw [hrec], .inl ?_⟩
    rw [hrec, hlen, hfind]
    decide
  · rw [hunread, List.nil_append, hfind]
    decide

/-! ### Sections that are not answered -/

/-- A text with one LF is no header section. -/
theorem find_of_one_LF {A B : Bytes} (hA : LF ∉ A) (hB : LF ∉ B) :
    findHttpHeadersEnd (A ++ LF :: B) = 0 := by
  rw [findHttpHeadersEnd_eq_zero_iff, List.firstInfix?_eq_none_iff]
  intro i hi
  -- the end of a section has two LFs
  have hat : ∀ j, (A ++ LF :: B)[j]? = some LF → j = A.length := by
    intro j hj
    rcases Nat.lt_trichotomy j A.length with hlt | heq | hgt
    · rw [List.getElem?_append_left hlt] at hj
      exact absurd (List.mem_of_getElem? hj) hA
    · exact heq
    · obtain ⟨k, rfl⟩ : ∃ k, j = A.length + (k + 1) := ⟨j - A.length - 1, by omega⟩
      rw [List.getElem?_append_right (by omega), Nat.add_sub_cancel_left,
        List.getElem?_cons_succ] at hj
      exact absurd (List.mem_of_getElem? hj) hB
  have h1 := hat (i + 1) (getElem?_of_prefix_drop (i := 1) hi (by decide))
  have h3 := hat (i + 3) (getElem?_of_prefix_drop (i := 3) hi (by decide))
  omega

/-- A text with one LF, and an end of a header section behind it. -/
theorem find_of_one_LF_end {A B : Bytes} (hA : LF ∉ A) (hB : LF ∉ B) :
    (A ++ LF :: B).length < findHttpHeadersEnd (A ++ LF :: B ++ headersEnd) ∧
      findHttpHeadersEnd (A ++ LF :: B ++ headersEnd) ≤ (A ++ LF :: B).length + 4 := by
  have hend : headersEnd <+: (A ++ LF :: B ++ headersEnd).drop (A ++ LF :: B).length := by
    rw [List.drop_left]
  have h0 : findHttpHeadersEnd (A ++ LF :: B ++ headersEnd) ≠ 0 := fun h0 =>
    List.firstInfix?_eq_none_iff.mp (findHttpHeadersEnd_eq_zero_iff.mp h0) _ hend
  exact ⟨length_lt_of_find_eq_zero (List.prefix_append _ headersEnd) (find_of_one_LF hA hB) h0,
    find_le_of_prefix_drop hend⟩

/-- The first context of a worker that has just started is taken. -/
theorem freshContext : (script .plain oneContext []).any (fun w =>
    ((w.step .plain (.atTime 9, .poll .eintr)).isSome = true ∧ w.fds 6 = none ∧ w.cache.cnt ≠ 0 ∧
      w.cache.qconnList = [1] ∧ (w.reusing.heap 1).uses = 0)) = true := by
  decide +kernel

/-- The first read of a connection on a newly allocated context fills the buffer. -/
theorem exists_dropped_full : ∃ (w : Worker) (is : List (Tick × Op)) (s : St) (S : Bytes),
    Reachable .plain w ∧ w.Takes 6 [] 1 w.reusing ∧ (w.reusing.heap 1).uses = 0 ∧
    run (St.next .plain) (St.accepted (w.reusing.startConn 1 6 w.accepted).toGlobals
      (w.reusing.heap 1) 1 6 w.accepted) is = some s ∧
    s.Settles S ∧ maxHttpHdrSize < findHttpHeadersEnd S ∧ requests s.curr.hist = [] := by
  obtain ⟨w, hw, hpoll, hfree, hcnt, hl, hu⟩ := exists_of_script .plain freshContext
  have htakes : w.Takes 6 [] 1 w.reusing := takes_reusing hpoll hfree hcnt hl
  obtain ⟨-, hhave, hcurr⟩ := (htakes.spare hw).unused hu
  have hfind := find_oddHdr 8192
  have hpre : List.replicate 8192 97 <+: oddHdr 8192 := List.prefix_append _ _
  have hlen : (List.replicate 8192 (97 : Byte)).length = 8192 := List.length_replicate
  generalize oddHdr 8192 = S at hfind hpre
  generalize List.replicate 8192 (97 : Byte) = bs at hlen hpre
  have hne : bs ≠ [] := List.ne_nil_of_length_pos (by omega)
  obtain ⟨s, hrun, hrec, -⟩ := exists_firstRead (P := .plain) (htakes.spare hw)
    (hcurr.trans hhave.symm) hne (by omega) 6 w.accepted
  have hunread : w.reusing.unread 1 = [] := by
    unfold Worker.unread
    rw [hhave, hcurr]
    rfl
  rw [← hrec] at hpre
  -- what is delivered is in the decoding, which has no request
  have hdec := requests_initial (htakes.spare hw) hrun hpre
  rw [hunread, List.nil_append, decode_of_size_lt (by rw [hfind]; decide)] at hdec
  refine ⟨w, _, s, S, hw, htakes, hu, hrun, ⟨hpre, .inl ?_⟩, ?_, List.prefix_nil.mp hdec⟩
  · rw [hrec, hlen, hfind]
    decide
  · rw [hfind]
    decide

/-- The next client sends a section with an end behind its first CRLF and CR, over an LF that the
last client left. -/
theorem answeredScript_stale : (script .plain oneContext answeredScript).any (fun w =>
    (Reusable w ∧ (run (St.next .plain) (St.accepted (w.reusing.startConn 1 6 w.accepted).toGlobals
      (w.reusing.heap 1) 1 6 w.accepted)
      (firstReads [ascii "aaaaaaaaaaaa\r\n", ascii "\r"])).any (fun s =>
        (s.Over ∧ answers s.curr.hist = [.read (.data (ascii "aaaaaaaaaaaa\r\n")) false,
          .read (.data (ascii "\r")) false] ∧ requests s.curr.hist = [])) = true)) = true := by
  decide +kernel

/-- The second read of a connection meets the LF that the last client left. -/
theorem exists_dropped_stale : ∃ (w : Worker) (is : List (Tick × Op)) (s : St) (S : Bytes),
    Reachable .plain w ∧ w.Takes 6 [] 1 w.reusing ∧
    run (St.next .plain) (St.accepted (w.reusing.startConn 1 6 w.accepted).toGlobals
      (w.reusing.heap 1) 1 6 w.accepted) is = some s ∧
    s.Settles S ∧ maxHttpHdrSize < findHttpHeadersEnd S ∧
    findHttpHeadersEnd S ≤ recvBufSize.toNat ∧ requests s.curr.hist = [] := by
  obtain ⟨w, hw, hr, hany⟩ := exists_of_script .plain answeredScript_stale
  obtain ⟨s, hrun, hs⟩ := (Option.any_eq_true _ _).mp hany
  obtain ⟨ho, hans, hnone⟩ := of_decide_eq_true hs
  have hrec : received s.curr.hist = ascii "aaaaaaaaaaaa\r" ++ LF :: [CR] := by
    rw [received_eq, hans]
    decide +kernel
  -- the section goes on behind these bytes, and ends far behind them
  have hlenA : (ascii "aaaaaaaaaaaa\r").length = 13 := by decide +kernel
  have hA : LF ∉ ascii "aaaaaaaaaaaa\r" := by decide +kernel
  generalize ascii "aaaaaaaaaaaa\r" = A at hrec hA hlenA
  have hlenB : (CR :: List.replicate 2048 (97 : Byte)).length = 2049 := by
    rw [List.length_cons, List.length_replicate]
  have hB : LF ∉ CR :: List.replicate 2048 (97 : Byte) := by
    rw [List.mem_cons, List.mem_replicate]
    decide
  have hpre : [CR] <+: CR :: List.replicate 2048 (97 : Byte) := ⟨_, rfl⟩
  generalize CR :: List.replicate 2048 (97 : Byte) = B at hlenB hB hpre
  obtain ⟨hlt, hle⟩ := find_of_one_LF_end hA hB
  have hlen : (A ++ LF :: B).length = 2063 := by
    rw [List.length_append, List.length_cons, hlenA, hlenB]
  have hmax : maxHttpHdrSize = 2048 := rfl
  have hsize : recvBufSize.toNat = 8192 := rfl
  refine ⟨w, _, s, A ++ LF :: B ++ headersEnd, hw, hr.takes, hrun, ⟨?_, .inr ⟨ho, ?_⟩⟩, by omega,
    by omega, hnone⟩
  · rw [hrec, List.append_assoc, List.prefix_append_right_inj, List.cons_append,
      List.cons_prefix_cons]
    exact ⟨rfl, hpre.trans (List.prefix_append _ _)⟩
  · intro timedOut
    rw [hans]
    simp

/-- **A header section that is longer than the buffer**, on a newly allocated context: the buffer
is full, and no request was delivered.  **One that fits the buffer**, on a context that has served
another connection before: the connection is over, and no request was delivered. -/
theorem oversize_dropped :
    (∃ (w : Worker) (is : List (Tick × Op)) (s : St) (S : Bytes), Reachable .plain w ∧
      w.Takes 6 [] 1 w.reusing ∧ (w.reusing.heap 1).uses = 0 ∧
      run (St.next .plain) (St.accepted (w.reusing.startConn 1 6 w.accepted).toGlobals
        (w.reusing.heap 1) 1 6 w.accepted) is = some s ∧
      s.Settles S ∧ maxHttpHdrSize < findHttpHeadersEnd S ∧ requests s.curr.hist = []) ∧
    ∃ (w : Worker) (is : List (Tick × Op)) (s : St) (S : Bytes), Reachable .plain w ∧
      w.Takes 6 [] 1 w.reusing ∧
      run (St.next .plain) (St.accepted (w.reusing.startConn 1 6 w.accepted).toGlobals
        (w.reusing.heap 1) 1 6 w.accepted) is = some s ∧
      s.Settles S ∧ maxHttpHdrSize < findHttpHeadersEnd S ∧
      findHttpHeadersEnd S ≤ recvBufSize.toNat ∧ requests s.curr.hist = [] :=
  ⟨exists_dropped_full, exists_dropped_stale⟩

end

end SrvAsync
