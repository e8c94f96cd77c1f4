import SrvAsync.Receive.Split
import SrvAsync.Receive.Terminator
import SrvAsync.Receive.Twin

/-!
# Contexts that are used again

`init_new_conn_ctx` leaves the receive buffer and its two cursors as the last connection on
the context left them.  `alloc_conn_ctx_mem` zeroes them all.  When nothing is left unread, a
connection on the context goes like one on a new context for as long as no read completes the
end of a header section with bytes of earlier use; on a clean buffer these are bytes of its own.

## Main definitions

* `St.Touches` — a `read` behind which the terminator check touches the guard page.
* `Session.Over` — a session that delivers nothing more.
* `AsFresh` — a connection beside the same connection on a new context.

## Main results

* `twin_step` — twins make the same steps.
* `AsFresh.requests` — **they deliver the same requests**.
-/

namespace SrvAsync

open Http History Machine Memory

variable {clean : Prop} {P : Platform} {s s' s₀ s₀' : St} {t : Tick} {op : Op} {a a' : Session}

/-! ### One step of twins -/

/-- The step is a read whose check for the end of a header section touches the guard page. -/
structure St.Touches (s : St) (f : RecvFrame) (k : RecvCaller) (bs : Bytes) : Prop where
  ctl : s.ctl = .coro (.recv f k)
  fits : (ReadResult.data bs).Fits f.toRecv
  terminator : f.terminator = true
  none : isHttpMessageEnd (store (s.mem s.curr.recvBufP) f.nRecv.toNat bs)
    s.curr.recvBufSize.toNat f.nRecv.toNat (f.nRecv + bs.length).toNat = none

/-- What is possible does not depend on the residue. -/
theorem step_withResidue_eq_none {x : Residue} (h : s.step P t op = none) :
    (s.withResidue x).step P t op = none := by
  by_contra hne
  obtain ⟨s', hs⟩ := Option.ne_none_iff_exists'.mp hne
  cases op with
  | resume fcntlOk =>
    obtain ⟨hc, -⟩ := St.step_resume hs
    exact Option.some_ne_none _ ((St.step_of_main (s := s) hc t fcntlOk).symm.trans h)
  | read r =>
    obtain ⟨f, k, hc, hfits, -⟩ := St.step_read hs
    exact Option.some_ne_none _ ((St.step_of_recv (s := s) hc hfits t).symm.trans h)
  | write r =>
    obtain ⟨f, k, hc, hfits, -⟩ := St.step_write hs
    exact Option.some_ne_none _ ((St.step_of_send (s := s) hc hfits t).symm.trans h)
  | check =>
    obtain ⟨y, hc, -⟩ := St.step_check hs
    rw [St.step_of_check (s := s) hc t] at h
    split at h <;> cases h

/-- The receive operations that look for the end of a header section. -/
theorem hdr_of_terminator {f : RecvFrame} {k : RecvCaller} (href : Refines P s a)
    (hc : s.ctl = .coro (.recv f k)) (hterm : f.terminator = true) :
    ∃ prev n : ℕ, a.stage = .hdr prev n ∧ f.nRecv = n ∧ f.toRecv = a.size - n ∧
      f.buf = s.curr.recvBufP ∧ Base P s.curr (s.mem s.curr.recvBufP) a := by
  obtain ⟨-, hb, hst⟩ := (refines_coro_iff hc).mp href
  generalize hstage : a.stage = st at hst
  cases hst with
  | recvHdr hat => exact ⟨_, _, rfl, by rw [hat.frame], by rw [hat.frame], by rw [hat.frame], hb⟩
  | recvBody hat =>
    rw [hat.frame] at hterm
    cases hterm

/-- **The check for the end of a header section has the same result for twins**, when the first
touches no guard page, and no bytes of earlier use complete an end. -/
theorem Twins.scan_eq {m : ℕ} {x : Residue} (h : Twins clean m s x) (href : Refines P s a)
    (htidy : a.Tidy) {f : RecvFrame} {k : RecvCaller} {bs : Bytes} (hc : s.ctl = .coro (.recv f k))
    (hfits : (ReadResult.data bs).Fits f.toRecv) (hm : f.nRecv ≤ m)
    (hq : clean ∨ ¬ s.StaleRead (.read (.data bs))) (hterm : f.terminator = true)
    (htouch : ¬ s.Touches f k bs) :
    isHttpMessageEnd (store (s.mem s.curr.recvBufP) f.nRecv.toNat bs)
        s.curr.recvBufSize.toNat f.nRecv.toNat (f.nRecv + bs.length).toNat =
      isHttpMessageEnd (store x.mem f.nRecv.toNat bs)
        s.curr.recvBufSize.toNat f.nRecv.toNat (f.nRecv + bs.length).toNat := by
  obtain ⟨prev, n, hst, hn, hto, hbuf, hb⟩ := hdr_of_terminator href hc hterm
  have hstage := htidy.stage
  rw [hst] at hstage
  obtain ⟨-, hlt, h0⟩ := hstage
  obtain ⟨hne, hle⟩ := hfits
  have hsize : s.curr.recvBufSize.toNat = a.size := by rw [hb.size]; rfl
  have hroom : f.nRecv.toNat + bs.length ≤ s.curr.recvBufSize.toNat := by omega
  have hsum : (f.nRecv + bs.length).toNat = f.nRecv.toNat + bs.length := by omega
  rw [hsum]
  rcases h.scan hm hroom with he | hnone | ⟨htrue, hnot⟩
  · exact he
  · exact absurd ⟨hc, ⟨hne, hle⟩, hterm, hsum ▸ hnone⟩ htouch
  · -- what was found was received, so it is found in the other buffer too
    have hkin := h.kin.store (Int.toNat_le.mpr hm) hroom
    have hnat : f.nRecv.toNat = n := by omega
    have hfind : findHttpHeadersEnd (window (store (s.mem s.curr.recvBufP) f.nRecv.toNat bs) 0
        (f.nRecv.toNat + bs.length)) ≠ 0 := by
      intro hnil
      refine (hq.resolve_left hnot) ?_
      unfold St.StaleRead
      rw [hc]
      exact ⟨hterm, hbuf ▸ staleEnd_of_isHttpMessageEnd_true hnil htrue⟩
    obtain ⟨p, hp, hw⟩ := findHttpHeadersEnd_ne_zero_iff.mp hfind
    have hold : findHttpHeadersEnd (window (store x.mem f.nRecv.toNat bs) 0 f.nRecv.toNat) = 0 := by
      rw [window_store_before bs (by omega), ← h.kin.window (by omega), hb.buf, hnat]
      exact h0
    have hwin : window (store x.mem f.nRecv.toNat bs) p 4 = headersEnd := by
      rw [← hkin.window (by omega)]
      exact hw
    exact htrue.trans (isHttpMessageEnd_of_window hold hwin hp hroom).symm

/-- **Twins make the same steps**, unless the first touches the guard page, as long as no read
completes an end with bytes of earlier use, or these are clean. -/
theorem twin_step (href : Refines P s a) (htidy : a.Tidy) (h : Twin clean s s₀)
    (hq : clean ∨ ¬ s.StaleRead op) (hs : s.step P t op = some s') :
    ∃ s₀', s₀.step P t op = some s₀' ∧
      (Twin clean s' s₀' ∨ ∃ f k bs, op = .read (.data bs) ∧ s.Touches f k bs) := by
  obtain ⟨m, x, htwins, rfl, hm⟩ := h
  cases op with
  | resume fcntlOk =>
    obtain ⟨hc, rfl⟩ := St.step_resume hs
    obtain ⟨-, -, hr⟩ := (refines_main_iff hc).mp href
    unfold St.filled at hm
    rw [hc] at hm
    exact ⟨_, St.step_of_main (s := s.withResidue x) hc t fcntlOk,
      .inl (htwins.resume hr.inside hm fcntlOk)⟩
  | read r =>
    obtain ⟨f, k, hc, hfits, rfl⟩ := St.step_read hs
    obtain ⟨-, hr⟩ := (refines_coro_iff hc).mp href
    unfold St.filled at hm
    rw [hc] at hm
    have hm' : f.nRecv ≤ m := Int.toNat_le.mp hm
    refine ⟨_, St.step_of_recv (s := s.withResidue x) hc hfits t, ?_⟩
    by_cases htouch : ∃ bs, r = .data bs ∧ s.Touches f k bs
    · obtain ⟨bs, rfl, htouch⟩ := htouch
      exact .inr ⟨f, k, bs, rfl, htouch⟩
    · refine .inl (htwins.recvRead hr.inside hm' hfits ?_)
      rintro bs rfl hterm
      exact htwins.scan_eq href htidy hc hfits hm' hq hterm fun h => htouch ⟨bs, rfl, h⟩
  | write r =>
    obtain ⟨f, k, hc, hfits, rfl⟩ := St.step_write hs
    exact ⟨_, St.step_of_send (s := s.withResidue x) hc hfits t, .inl (htwins.sendWrite f k r)⟩
  | check =>
    obtain ⟨y, hc, -⟩ := St.step_check hs
    obtain ⟨-, hr⟩ := (refines_coro_iff hc).mp href
    have hneed : (s.withResidue x).needCtxSwap (t.clk 0) = s.needCtxSwap (t.clk 0) := rfl
    rw [St.step_of_check hc] at hs
    rw [St.step_of_check (s := s.withResidue x) hc, hneed]
    cases hn : s.needCtxSwap (t.clk 0) with
    | true =>
      rw [hn, if_pos rfl] at hs
      obtain rfl := Option.some.inj hs
      exact ⟨_, rfl, .inl (htwins.swapToMainCtx (Nat.zero_le m))⟩
    | false =>
      rw [hn, if_neg Bool.false_ne_true] at hs
      obtain rfl := Option.some.inj hs
      exact ⟨_, rfl, .inl (htwins.passYield hr.inside)⟩

/-! ### Sessions that deliver nothing more -/

/-- The session has delivered these requests, and none is to come whatever follows. -/
structure Session.Over (D : List HttpRequestMsg) (a : Session) : Prop where
  pos : 0 < a.size
  tidy : a.Tidy
  delivered : a.delivered = D
  expect : ∀ T, a.expect T = []

section

variable {D : List HttpRequestMsg} {l : Option Answer}

/-- No request is to come behind the answer of this step. -/
theorem Session.Tidy.over (h : a.Tidy) (hpos : 0 < a.size)
    (hnone : ∀ T, a.expect (l.toList.flatMap Answer.bytes ++ T) = []) (hs : a.step P l = some a') :
    a'.Over a.delivered := by
  rcases Session.goes_or_stops h hpos hs with hgo | ⟨hst, -⟩
  · have hall : ∀ T, a'.delivered ++ a'.expect T = a.delivered := by
      intro T
      rw [hgo.expect, hnone, List.append_nil]
    -- nothing is taken back, and nothing may be added
    have hle : a'.delivered <+: a.delivered := by
      rw [← hall []]
      exact List.prefix_append _ _
    have hge : a.delivered <+: a'.delivered := (Session.sees_step hs).notes.filterMap _
    have hdel : a'.delivered = a.delivered := hle.eq_of_length_le hge.length_le
    refine ⟨hgo.size ▸ hpos, hgo.tidy, hdel, fun T => ?_⟩
    have htotal := hall T
    rw [hdel] at htotal
    exact List.append_right_eq_self.mp htotal
  · exact ⟨hst.size ▸ hpos, hst.tidy, hst.delivered, hst.expect⟩

theorem Session.Over.step (h : a.Over D) (hs : a.step P l = some a') : a'.Over D :=
  h.delivered ▸ h.tidy.over h.pos (fun _ => h.expect _) hs

/-- **The connection of such a session delivers nothing more**, whatever happens. -/
theorem Refines.requests_of_over (h : Refines P s a) (ho : a.Over D) (is : List (Tick × Op)) :
    requests (runFar (St.next P) s is).curr.hist = D := by
  have hinv : ∃ b, Refines P (runFar (St.next P) s is) b ∧ b.Over D := by
    refine runFar_invariant (P := fun u => ∃ b, Refines P u b ∧ b.Over D) ?_ is ⟨a, h, ho⟩
    rintro u i u' ⟨b, hb, hob⟩ hs
    obtain ⟨b', hb', ⟨rfl, -⟩ | ⟨l, -, hstep⟩⟩ := refines_step hb hs
    · exact ⟨b', hb', hob⟩
    · exact ⟨b', hb', hob.step hstep⟩
  obtain ⟨b, hb, hob⟩ := hinv
  rw [hb.tells.requests]
  exact hob.delivered

end

/-! ### The guard page -/

/-- **When the guard page is touched, no request is to come**, on this context or on a twin. -/
theorem St.Touches.expect {f : RecvFrame} {k : RecvCaller} {bs : Bytes} (h : s.Touches f k bs)
    (href : Refines P s a) (htidy : a.Tidy) {m : ℕ} {x : Residue} (hx : Twins clean m s x)
    (hm : s.filled ≤ m) {a₀ : Session} (href₀ : Refines P (s.withResidue x) a₀)
    (timedOut : Bool) (T : Bytes) :
    a.expect ((some (Answer.read (.data bs) timedOut)).toList.flatMap Answer.bytes ++ T) = [] ∧
      a₀.expect ((some (Answer.read (.data bs) timedOut)).toList.flatMap Answer.bytes ++ T) = [] := by
  obtain ⟨prev, n, hst, hn, hto, -, hb⟩ := hdr_of_terminator href h.ctl h.terminator
  obtain ⟨prev₀, n₀, hst₀, hn₀, -, -, hb₀⟩ :=
    hdr_of_terminator (s := s.withResidue x) href₀ h.ctl h.terminator
  obtain rfl : n₀ = n := Int.ofNat.inj (hn₀.symm.trans hn)
  have hsize : a₀.size = a.size := Int.ofNat.inj (hb₀.size.symm.trans hb.size)
  -- the bytes received are the same in both buffers
  have hfilled : n₀ ≤ m := by
    unfold St.filled at hm
    rw [h.ctl] at hm
    simp only [Point.filled, hn, Int.toNat_natCast] at hm
    exact hm
  have hwin : window a₀.buf 0 n₀ = window a.buf 0 n₀ := by
    have hmem : (s.withResidue x).mem (s.withResidue x).curr.recvBufP = x.mem := withResidue_mem
    have hsub : 0 + n₀ ≤ m := by omega
    rw [← hb.buf, ← hb₀.buf, hmem]
    exact (hx.kin.window hsub).symm
  have hstage := htidy.stage
  rw [hst] at hstage
  obtain ⟨-, hlt, h0⟩ := hstage
  obtain ⟨hne, hle⟩ := h.fits
  have hpos : 0 < bs.length := List.length_pos_iff.mpr hne
  have hnone := h.none
  rw [hb.buf, hb.size, hn] at hnone
  have hsum : ((n₀ : ℤ) + bs.length).toNat = n₀ + bs.length := by omega
  rw [hsum, Int.toNat_natCast, Int.toNat_natCast] at hnone
  have hold : findHttpHeadersEnd (window (store a.buf n₀ bs) 0 n₀) = 0 := by
    rw [window_store_before bs (by omega)]
    exact h0
  have hdec : decode a.size (window a.buf 0 n₀ ++ (bs ++ T)) = [] := by
    rw [← List.append_assoc, ← window_store_chunk]
    exact decode_of_lt fun pos hpos' =>
      lt_of_isHttpMessageEnd_none hold (by omega) (by omega) hnone hpos'
  have hbytes : (some (Answer.read (.data bs) timedOut)).toList.flatMap Answer.bytes ++ T =
      bs ++ T := by
    simp [Answer.bytes, ReadResult.bytes]
  rw [hbytes]
  unfold Session.expect
  rw [hst, hst₀]
  refine ⟨hdec, ?_⟩
  show decode a₀.size (window a₀.buf 0 n₀ ++ (bs ++ T)) = []
  rw [hsize, hwin, hdec]

/-! ### A connection beside the same connection on a new context -/

/-- The connection on the first context goes like the one on the second: they are twins, at
sessions whose buffer was empty at the start. -/
structure AsFresh (clean : Prop) (P : Platform) (s s₀ : St) : Prop where
  twin : Twin clean s s₀
  sound : ∃ a, Refines P s a ∧ a.Sound []
  sound₀ : ∃ a, Refines P s₀ a ∧ a.Sound []

namespace AsFresh

theorem hist_eq (h : AsFresh clean P s s₀) : s.curr.hist = s₀.curr.hist := by
  obtain ⟨m, x, -, rfl, -⟩ := h.twin
  rfl

theorem next_eq_none {i : Tick × Op} (h : AsFresh clean P s s₀) (hs : s.next P i = none) :
    s₀.next P i = none := by
  obtain ⟨m, x, -, rfl, -⟩ := h.twin
  exact step_withResidue_eq_none hs

/-- A sound session behind a step. -/
theorem sound_step (h : ∃ a, Refines P s a ∧ a.Sound []) (hs : s.step P t op = some s') :
    ∃ a, Refines P s' a ∧ a.Sound [] := by
  obtain ⟨a, href, hsound⟩ := h
  obtain ⟨a', href', ⟨rfl, -⟩ | ⟨l, -, ha⟩⟩ := refines_step href hs
  · exact ⟨a', href', hsound⟩
  · exact ⟨a', href', hsound.step ha⟩

/-- **One step**: both go on, or neither delivers anything more. -/
theorem next {i : Tick × Op} (h : AsFresh clean P s s₀) (hq : clean ∨ ¬ s.StaleRead i.2)
    (hs : s.next P i = some s') :
    ∃ s₀', s₀.next P i = some s₀' ∧ (AsFresh clean P s' s₀' ∨
      ∀ is, requests (runFar (St.next P) s' is).curr.hist =
        requests (runFar (St.next P) s₀' is).curr.hist) := by
  obtain ⟨t, op⟩ := i
  obtain ⟨a, href, hsound⟩ := h.sound
  obtain ⟨a₀, href₀, hsound₀⟩ := h.sound₀
  obtain ⟨s₀', hs₀, htwin | ⟨f, k, bs, rfl, htouch⟩⟩ := twin_step href hsound.tidy h.twin hq hs
  · exact ⟨s₀', hs₀, .inl ⟨htwin, sound_step h.sound hs, sound_step h.sound₀ hs₀⟩⟩
  · -- the first process dies, and the second gets no header section any more
    refine ⟨s₀', hs₀, .inr fun is => ?_⟩
    have hdel : a.delivered = a₀.delivered := by
      have htell := href.tells.requests
      rw [h.hist_eq, href₀.tells.requests] at htell
      exact htell.symm
    obtain ⟨m, x, hx, rfl, hm⟩ := h.twin
    obtain ⟨a', href', ⟨-, b, hb⟩ | ⟨l, ⟨b, rfl⟩, ha⟩⟩ := refines_step href hs
    · cases hb
    obtain ⟨a₀', href₀', ⟨-, b', hb'⟩ | ⟨l, ⟨b', rfl⟩, ha₀⟩⟩ := refines_step href₀ hs₀
    · cases hb'
    have hover := hsound.tidy.over hsound.pos
      (fun T => (htouch.expect href hsound.tidy hx hm href₀ b T).1) ha
    have hover₀ := hsound₀.tidy.over hsound₀.pos
      (fun T => (htouch.expect href hsound.tidy hx hm href₀ b' T).2) ha₀
    rw [href'.requests_of_over hover, href₀'.requests_of_over hover₀, hdel]

/-- **Both deliver the same requests**, however far they go, as long as no read completes an end
with bytes of earlier use, or these are clean. -/
theorem requests (h : AsFresh clean P s s₀) {is : List (Tick × Op)}
    (hq : clean ∨ Along (fun s i => ¬ s.StaleRead i.2) (St.next P) s is) :
    History.requests (runFar (St.next P) s is).curr.hist =
      History.requests (runFar (St.next P) s₀ is).curr.hist := by
  have hal : Along (fun s i => clean ∨ ¬ s.StaleRead i.2) (St.next P) s is := by
    rcases hq with hclean | hal
    · exact along_of_forall fun _ _ _ => .inl hclean
    · exact hal.imp fun _ _ => .inr
  refine runFar_lockstep (R := AsFresh clean P)
    (Q := fun s s₀ => History.requests s.curr.hist = History.requests s₀.curr.hist) ?_ ?_ ?_ is h hal
  · exact fun s s₀ h => congrArg History.requests h.hist_eq
  · exact fun s s₀ i h hs => h.next_eq_none hs
  · exact fun s s₀ i s' h hq hs => h.next hq hs

end AsFresh

end SrvAsync
