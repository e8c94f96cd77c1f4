import SrvAsync.Isolation
import SrvAsync.Receive.Scan

/-!
# How far the terminator check looks

`is_http_message_end` compares four bytes at the three offsets in front of a chunk,
however short the chunk is.  Such a comparison can run over the end of the chunk: it then
depends on bytes that were not received, and at the end of the buffer on the guard page.

## Main definitions

* `messageEndCells` — the cells the check inspects.
* `Undecided` — a comparison that the bytes received do not decide.
* `ReachesGuard` — a comparison that runs into the guard page.
* `ScanAgrees` — the check agrees with the full search, whatever is behind the bytes received.

## Main results

* `scan_agrees_iff` — **when the check agrees with the full search**.
* `scan_inside_iff` — **when the check stays inside the receive buffer**, in every call a
  worker makes.
-/

namespace SrvAsync

open Http History Machine Memory Worker

variable {m m' : ℕ → Byte} {size prev n i : ℕ} {pat : Bytes}

/-! ### The cells a comparison inspects -/

/-- The cells `strncmp` inspects from `i` on: it stops at the first difference. -/
def inspected (m : ℕ → Byte) : ℕ → Bytes → List ℕ
  | _, [] => []
  | i, b :: bs => i :: if m i = b then inspected m (i + 1) bs else []

/-- The cells that comparisons at these offsets inspect: the first one that succeeds is the
last. -/
def scanned (m : ℕ → Byte) (pat : Bytes) : List ℕ → List ℕ
  | [] => []
  | i :: is => inspected m i pat ++ if window m i pat.length = pat then [] else scanned m pat is

/-- The cells `is_http_message_end` inspects. -/
def messageEndCells (m : ℕ → Byte) (prev n : ℕ) : List ℕ :=
  if n < 4 then [] else scanned m headersEnd (scanOffsets prev n)

theorem startsWith_eq_none_iff : startsWith m size i pat = none ↔ ∃ j ∈ inspected m i pat, size ≤ j := by
  induction pat generalizing i with
  | nil => simp [startsWith, inspected]
  | cons b bs ih =>
    unfold startsWith inspected
    split
    · next hlt =>
      split
      · rw [ih]
        constructor
        · rintro ⟨j, hj, hle⟩
          exact ⟨j, List.mem_cons_of_mem i hj, hle⟩
        · rintro ⟨j, hj, hle⟩
          rcases List.mem_cons.mp hj with rfl | hj
          · omega
          · exact ⟨j, hj, hle⟩
      · constructor
        · intro h
          cases h
        · rintro ⟨j, hj, hle⟩
          obtain rfl := List.mem_singleton.mp hj
          omega
    · next hge => exact ⟨fun _ => ⟨i, List.mem_cons_self, by omega⟩, fun _ => rfl⟩

theorem anyStartsWith_eq_none_iff : ∀ {is : List ℕ},
    anyStartsWith m size pat is = none ↔ ∃ j ∈ scanned m pat is, size ≤ j := by
  intro is
  induction is with
  | nil => simp [anyStartsWith, scanned]
  | cons i is ih =>
    have hone : startsWith m size i pat = none ↔ ∃ j ∈ inspected m i pat, size ≤ j :=
      startsWith_eq_none_iff
    unfold anyStartsWith scanned
    cases hs : startsWith m size i pat with
    | none =>
      obtain ⟨j, hj, hle⟩ := hone.mp hs
      exact ⟨fun _ => ⟨j, List.mem_append_left _ hj, hle⟩, fun _ => rfl⟩
    | some b =>
      have hin : ¬ ∃ j ∈ inspected m i pat, size ≤ j := by
        intro he
        cases (hone.mpr he).symm.trans hs
      cases b with
      | true =>
        -- the comparisons stop with the first that succeeds
        rw [if_pos (startsWith_eq_true hs).1, List.append_nil]
        exact ⟨fun h => absurd h (Option.some_ne_none true), fun he => absurd he hin⟩
      | false =>
        rw [if_neg (startsWith_eq_false hs)]
        simp only
        rw [ih]
        constructor
        · rintro ⟨j, hj, hle⟩
          exact ⟨j, List.mem_append_right _ hj, hle⟩
        · rintro ⟨j, hj, hle⟩
          rcases List.mem_append.mp hj with hj | hj
          · exact absurd ⟨j, hj, hle⟩ hin
          · exact ⟨j, hj, hle⟩

/-- **The check dies exactly when it inspects a cell behind the buffer.** -/
theorem isHttpMessageEnd_eq_none_iff :
    isHttpMessageEnd m size prev n = none ↔ ∃ j ∈ messageEndCells m prev n, size ≤ j := by
  unfold isHttpMessageEnd messageEndCells
  split
  · simp
  · exact anyStartsWith_eq_none_iff

/-! ### What decides a comparison -/

/-- A comparison that stays inside the buffer is decided. -/
theorem startsWith_of_le (h : i + pat.length ≤ size) :
    startsWith m size i pat = some (decide (window m i pat.length = pat)) := by
  cases hs : startsWith m size i pat with
  | none =>
    obtain ⟨hsz, -⟩ := startsWith_eq_none (by omega) hs
    omega
  | some b =>
    cases b with
    | true => rw [decide_eq_true (startsWith_eq_true hs).1]
    | false => rw [decide_eq_false (startsWith_eq_false hs)]

/-- A comparison that meets a difference inside the buffer fails. -/
theorem startsWith_of_not_prefix {k : ℕ} (hk : k ≤ pat.length) (hi : i + k ≤ size)
    (h : ¬ window m i k <+: pat) : startsWith m size i pat = some false := by
  cases hs : startsWith m size i pat with
  | none =>
    obtain ⟨-, hw⟩ := startsWith_eq_none (by omega) hs
    refine absurd ?_ h
    rw [← take_window m i (show k ≤ size - i by omega), hw, List.take_take]
    exact List.take_prefix _ _
  | some b =>
    cases b with
    | false => rfl
    | true =>
      refine absurd ?_ h
      have hw := (startsWith_eq_true hs).1
      rw [← take_window m i hk, hw]
      exact List.take_prefix _ _

/-- A comparison that agrees with all that is left of the buffer touches the guard page. -/
theorem startsWith_of_prefix (hi : i ≤ size) (hsz : size < i + pat.length)
    (h : window m i (size - i) <+: pat) : startsWith m size i pat = none := by
  induction pat generalizing i with
  | nil =>
    simp only [List.length_nil] at hsz
    omega
  | cons b bs ih =>
    unfold startsWith
    split
    · next hlt =>
      obtain ⟨k, hk⟩ : ∃ k, size - i = k + 1 := ⟨size - i - 1, by omega⟩
      rw [hk, window_succ, List.cons_prefix_cons] at h
      obtain ⟨hb, hw⟩ := h
      have hk' : size - (i + 1) = k := by omega
      rw [if_pos hb]
      refine ih (by omega) ?_ (hk' ▸ hw)
      rw [List.length_cons] at hsz
      omega
    · rfl

theorem anyStartsWith_of_forall : ∀ {is : List ℕ},
    (∀ i ∈ is, startsWith m size i pat = some false) → anyStartsWith m size pat is = some false := by
  intro is
  induction is with
  | nil => intro _; rfl
  | cons i is ih =>
    intro h
    unfold anyStartsWith
    rw [h i List.mem_cons_self]
    exact ih fun j hj => h j (List.mem_cons_of_mem i hj)

/-- The comparisons before the one that succeeds failed. -/
theorem anyStartsWith_split : ∀ {is : List ℕ}, anyStartsWith m size pat is = some true →
    ∃ l₁ i l₂, is = l₁ ++ i :: l₂ ∧ (∀ j ∈ l₁, startsWith m size j pat = some false) ∧
      startsWith m size i pat = some true := by
  intro is
  induction is with
  | nil => intro h; cases h
  | cons i is ih =>
    intro h
    unfold anyStartsWith at h
    split at h
    · cases h
    · next hi => exact ⟨[], i, is, rfl, fun j hj => absurd hj List.not_mem_nil, hi⟩
    · next hi =>
      obtain ⟨l₁, j, l₂, rfl, hl₁, hj⟩ := ih h
      refine ⟨i :: l₁, j, l₂, rfl, ?_, hj⟩
      intro k hk
      rcases List.mem_cons.mp hk with rfl | hk
      · exact hi
      · exact hl₁ k hk

/-! ### The check and the full search -/

/-- **The check agrees with the full search** of the bytes received, and does not depend on what is
behind them. -/
def ScanAgrees (m : ℕ → Byte) (size prev n : ℕ) : Prop :=
  isHttpMessageEnd m size prev n = some (decide (findHttpHeadersEnd (window m 0 n) ≠ 0)) ∧
    ∀ m', (∀ i < n, m' i = m i) → isHttpMessageEnd m' size prev n = isHttpMessageEnd m size prev n

/-- Up to the end of the bytes received, the bytes from one of the last three offsets before the
chunk are the beginning of an end of a header section, and not all of it. -/
def Undecided (m : ℕ → Byte) (prev n : ℕ) : Prop :=
  4 ≤ n ∧ ∃ i < prev, prev ≤ i + 3 ∧ n < i + 4 ∧ window m i (n - i) <+: headersEnd

theorem findHttpHeadersEnd_ne_zero_iff : findHttpHeadersEnd (window m 0 n) ≠ 0 ↔
    ∃ p, p + 4 ≤ n ∧ window m p 4 = headersEnd := by
  rw [Ne, find_window_eq_zero_iff]
  push Not
  rfl

/-- The bytes received decide every comparison, so there is no end where none was found. -/
theorem isHttpMessageEnd_of_decided (hlt : prev < n) (hn : n ≤ size)
    (hfind : findHttpHeadersEnd (window m 0 n) = 0) (hdec : ¬ Undecided m prev n) :
    isHttpMessageEnd m size prev n = some false := by
  have hlen : headersEnd.length = 4 := rfl
  unfold isHttpMessageEnd
  split
  · rfl
  · next h4 =>
    refine anyStartsWith_of_forall fun i hi => ?_
    have hmem := mem_scanOffsets_iff.mp hi
    by_cases hin : i + 4 ≤ n
    · have hne := find_window_eq_zero_iff.mp hfind i hin
      rw [startsWith_of_le (by omega)]
      exact congrArg some (decide_eq_false hne)
    · -- the comparison starts before the chunk, and meets a difference in it
      refine startsWith_of_not_prefix (k := n - i) (by omega) (by omega) fun hpre => hdec ?_
      exact ⟨by omega, i, by omega, by omega, by omega, hpre⟩

/-- Bytes behind those received that complete what is undecided. -/
theorem exists_completion (hundec : Undecided m prev n) (hlt : prev < n) :
    ∃ m', (∀ i < n, m' i = m i) ∧ isHttpMessageEnd m' size prev n ≠ some false := by
  obtain ⟨h4, i, hi, hi3, hin, hpre⟩ := hundec
  have hlen : headersEnd.length = 4 := rfl
  refine ⟨store m n (headersEnd.drop (n - i)), fun j hj => store_of_lt _ hj, fun hfalse => ?_⟩
  have hwin : window (store m n (headersEnd.drop (n - i))) i 4 = headersEnd := by
    have hsum : 4 = (n - i) + (headersEnd.drop (n - i)).length := by
      rw [List.length_drop]
      omega
    have hcat : i + (n - i) = n := by omega
    rw [hsum, window_add, hcat, window_store_self, window_store_before _ (by omega),
      List.prefix_iff_eq_take.mp hpre, length_window, List.take_append_drop]
  unfold isHttpMessageEnd at hfalse
  rw [if_neg (by omega)] at hfalse
  have hmem : i ∈ scanOffsets prev n := mem_scanOffsets_iff.mpr (by omega)
  exact startsWith_eq_false (anyStartsWith_eq_false hfalse i hmem) hwin

/-- **When the check agrees with the full search**: an end was received, or the bytes received
decide every comparison. -/
theorem scan_agrees_iff (hlt : prev < n) (hn : n ≤ size)
    (h0 : findHttpHeadersEnd (window m 0 prev) = 0) : ScanAgrees m size prev n ↔
      (∃ p, p + 4 ≤ n ∧ window m p 4 = headersEnd) ∨ ¬ Undecided m prev n := by
  have hcong : ∀ {m' : ℕ → Byte}, (∀ i < n, m' i = m i) → ∀ off len, off + len ≤ n →
      window m' off len = window m off len :=
    fun hm off len hle => window_congr fun i _ hi => hm i (by omega)
  constructor
  · rintro ⟨hself, hall⟩
    by_cases hfind : findHttpHeadersEnd (window m 0 n) = 0
    · refine .inr fun hundec => ?_
      -- an undecided comparison comes out the other way over other bytes
      obtain ⟨m', hm', hne⟩ : ∃ m', (∀ i < n, m' i = m i) ∧
          isHttpMessageEnd m' size prev n ≠ some false := exists_completion hundec hlt
      refine hne ((hall m' hm').trans ?_)
      rw [hself, hfind]
      rfl
    · exact .inl (findHttpHeadersEnd_ne_zero_iff.mp hfind)
  · intro hcond
    by_cases hfind : findHttpHeadersEnd (window m 0 n) = 0
    · -- no end was received, and every comparison meets a difference in what was
      have hdec := hcond.resolve_left fun hp => findHttpHeadersEnd_ne_zero_iff.mpr hp hfind
      have hany : ∀ m', (∀ i < n, m' i = m i) → isHttpMessageEnd m' size prev n = some false := by
        intro m' hm'
        refine isHttpMessageEnd_of_decided hlt hn ?_ ?_
        · rw [hcong hm' 0 n (by omega), hfind]
        · rintro ⟨h4, i, hi, hi3, hin, hpre⟩
          rw [hcong hm' i (n - i) (by omega)] at hpre
          exact hdec ⟨h4, i, hi, hi3, hin, hpre⟩
      have hself := hany m fun _ _ => rfl
      refine ⟨?_, fun m' hm' => (hany m' hm').trans hself.symm⟩
      rw [hself, hfind]
      rfl
    · obtain ⟨p, hp, hw⟩ := findHttpHeadersEnd_ne_zero_iff.mp hfind
      have hany : ∀ m', (∀ i < n, m' i = m i) → isHttpMessageEnd m' size prev n = some true := by
        intro m' hm'
        refine isHttpMessageEnd_of_window (p := p) ?_ ?_ hp hn
        · rw [hcong hm' 0 prev (by omega), h0]
        · rw [hcong hm' p 4 (by omega), hw]
      have hself := hany m fun _ _ => rfl
      refine ⟨?_, fun m' hm' => (hany m' hm').trans hself.symm⟩
      rw [hself, decide_eq_true hfind]

/-- A whole request, received in two reads. -/
theorem scan_agrees_whole :
    ScanAgrees (store (fun _ => 0) 0 (ascii "GET / HTTP/1.1\r\n\r\n")) 8192 10 18 ↔
      (∃ p, p + 4 ≤ 18 ∧
        window (store (fun _ => 0) 0 (ascii "GET / HTTP/1.1\r\n\r\n")) p 4 = headersEnd) ∨
      ¬ Undecided (store (fun _ => 0) 0 (ascii "GET / HTTP/1.1\r\n\r\n")) 10 18 :=
  scan_agrees_iff (by decide) (by decide) (by decide +kernel)

/-- **Four bytes without an end, and an LF behind them**: the check finds an end. -/
theorem scan_disagrees : ¬ ∀ m size prev n, prev < n → n ≤ size →
    findHttpHeadersEnd (window m 0 prev) = 0 → ScanAgrees m size prev n := by
  intro h
  obtain ⟨hself, -⟩ := h (store (fun _ => 0) 0 (ascii "a\r\n\r\n")) 8192 3 4 (by decide) (by decide)
    (by decide +kernel)
  exact absurd hself (by decide +kernel)

/-! ### The check and the guard page -/

/-- A comparison that starts in front of the chunk agrees with all that is left of the buffer, and
no comparison before it succeeds. -/
def ReachesGuard (m : ℕ → Byte) (size prev n : ℕ) : Prop :=
  4 ≤ n ∧ ∃ i < prev, prev ≤ i + 3 ∧ size < i + 4 ∧ window m i (size - i) <+: headersEnd ∧
    ∀ j, j = n - 4 ∨ (j < i ∧ prev ≤ j + 3) → j + 4 ≤ size → window m j 4 ≠ headersEnd

/-- **When the check touches the guard page.** -/
theorem isHttpMessageEnd_eq_none_iff_reachesGuard (hlt : prev < n) (hn : n ≤ size) :
    isHttpMessageEnd m size prev n = none ↔ ReachesGuard m size prev n := by
  have hlen : headersEnd.length = 4 := rfl
  constructor
  · intro h
    unfold isHttpMessageEnd at h
    split at h
    · cases h
    · next h4 =>
      obtain ⟨l₁, i, l₂, hl, hfalse, hnone⟩ := anyStartsWith_eq_none h
      have hmem : i ∈ scanOffsets prev n := by
        rw [hl]
        exact List.mem_append_right _ List.mem_cons_self
      have hi := mem_scanOffsets_iff.mp hmem
      obtain ⟨hsz, hw⟩ := startsWith_eq_none (by omega) hnone
      have hsplit : ∀ j, _ := fun j => mem_scanOffsets_split (j := j) hl (by omega)
      refine ⟨by omega, i, by omega, by omega, by omega, hw ▸ List.take_prefix _ _, ?_⟩
      rintro j (hj | ⟨hji, hj⟩) -
      · exact startsWith_eq_false (hfalse j ((hsplit j).1 hj))
      · exact startsWith_eq_false (hfalse j ((hsplit j).2 (mem_scanOffsets_iff.mpr (by omega)) hji))
  · rintro ⟨h4, i, hi, hi3, hsz, hpre, hbefore⟩
    have hnone : startsWith m size i headersEnd = none :=
      startsWith_of_prefix (by omega) (by omega) hpre
    have hmem : i ∈ scanOffsets prev n := mem_scanOffsets_iff.mpr (by omega)
    unfold isHttpMessageEnd
    rw [if_neg (by omega)]
    cases hany : anyStartsWith m size headersEnd (scanOffsets prev n) with
    | none => rfl
    | some b =>
      cases b with
      | false => cases hnone.symm.trans (anyStartsWith_eq_false hany i hmem)
      | true =>
        -- the comparison that succeeds cannot come first, and none in front of it touches the page
        obtain ⟨l₁, j, l₂, hl, hfalse, htrue⟩ := anyStartsWith_split hany
        obtain ⟨hw, hle⟩ := startsWith_eq_true htrue
        have hle := hle headersEnd_ne_nil
        have hj : j ∈ scanOffsets prev n := by
          rw [hl]
          exact List.mem_append_right _ List.mem_cons_self
        have hnot : ¬ (j = n - 4 ∨ (j < i ∧ prev ≤ j + 3)) :=
          fun hor => hbefore j hor (by omega) hw
        have hmj := mem_scanOffsets_iff.mp hj
        have hij : i ≠ j := by
          rintro rfl
          cases hnone.symm.trans htrue
        have hl₁ := (mem_scanOffsets_split (j := i) hl (by omega)).2 hmem (by omega)
        cases hnone.symm.trans (hfalse i hl₁)

/-- **When the check stays inside the receive buffer.** -/
theorem messageEndCells_lt_iff (hlt : prev < n) (hn : n ≤ size) :
    (∀ j ∈ messageEndCells m prev n, j < size) ↔ ¬ ReachesGuard m size prev n := by
  rw [← isHttpMessageEnd_eq_none_iff_reachesGuard hlt hn, isHttpMessageEnd_eq_none_iff]
  push Not
  rfl

/-! ### The calls of a worker -/

variable {P : Platform} {w : Worker} {f : RecvFrame} {k : RecvCaller} {bs : Bytes}

/-- A call of `is_http_message_end`: the coroutine is at a `read` for a header section, and the
`read` gives these bytes. -/
structure MessageEndCall (w : Worker) (f : RecvFrame) (k : RecvCaller) (bs : Bytes) : Prop where
  ctl : w.ctl = .coro (.recv f k)
  terminator : f.terminator = true
  fits : (ReadResult.data bs).Fits f.toRecv

/-- The receive buffer with the bytes that were read. -/
def Worker.bufWith (w : Worker) (f : RecvFrame) (bs : Bytes) : ℕ → Byte :=
  Memory.store (w.mem f.buf) f.nRecv.toNat bs

/-- What a worker calls `is_http_message_end` with. -/
theorem MessageEndCall.range (hw : Reachable P w) (hc : MessageEndCall w f k bs) :
    f.nRecv.toNat < (f.nRecv + bs.length).toNat ∧ (f.nRecv + bs.length).toNat ≤ recvBufSize.toNat := by
  obtain ⟨-, -, -, hsize, a, -, hrep⟩ := rep_of_coro hw hc.ctl
  obtain ⟨hne, hle⟩ := hc.fits
  have hpos : 0 < bs.length := List.length_pos_iff.mpr hne
  have ha : (a.size : ℤ) = recvBufSize := hrep.size.symm.trans hsize
  have hterm := hc.terminator
  have hst := hrep.stands
  generalize a.stage = st at hst
  cases hst with
  | recvBody hat =>
    rw [hat.frame] at hterm
    cases hterm
  | recvHdr hat =>
    have hlt := hat.lt
    rw [hat.frame] at hle ⊢
    simp only at hle ⊢
    omega

/-- **When the terminator check stays inside the receive buffer**, in every call that a worker
makes. -/
theorem scan_inside_iff (hw : Reachable P w) (hc : MessageEndCall w f k bs) :
    (∀ j ∈ messageEndCells (w.bufWith f bs) f.nRecv.toNat (f.nRecv + bs.length).toNat,
      j < recvBufSize.toNat) ↔
    ¬ ReachesGuard (w.bufWith f bs) recvBufSize.toNat f.nRecv.toNat (f.nRecv + bs.length).toNat := by
  obtain ⟨hlt, hle⟩ := hc.range hw
  exact messageEndCells_lt_iff hlt hle

/-- A worker whose one connection waits for its first bytes. -/
def asksScript : List (Time × WorkerOp) := [(0, .poll (.ready (some 5) [])), (1, .resume true)]

theorem asksScript_isSome : (script .plain oneContext asksScript).isSome = true := by decide

/-- The worker of this script. -/
def asking : Worker := (script .plain oneContext asksScript).get asksScript_isSome

theorem reachable_asking : Reachable .plain asking := reachable_get _ asksScript_isSome

theorem ctl_asking : asking.ctl = .coro (.recv ⟨1, 8192, 0, 0, timeoutInf, true⟩ (.hdr 1 0)) := rfl

theorem scan_inside_iff_request :
    (∀ j ∈ messageEndCells (asking.bufWith ⟨1, 8192, 0, 0, timeoutInf, true⟩
      (ascii "GET / HTTP/1.1\r\n\r\n")) 0 18, j < 8192) ↔
    ¬ ReachesGuard (asking.bufWith ⟨1, 8192, 0, 0, timeoutInf, true⟩
      (ascii "GET / HTTP/1.1\r\n\r\n")) 8192 0 18 :=
  scan_inside_iff reachable_asking (k := .hdr 1 0) ⟨ctl_asking, rfl, by decide +kernel⟩

/-- A read for a header section whose bytes have no end of one, and do not fill the buffer. -/
theorem recvRead_goes {s : St} {t : Tick} (ret : St → ℤ → St) (hterm : f.terminator = true)
    (hinf : f.timeout = timeoutInf) (hne : f.toRecv ≠ bs.length)
    (hscan : isHttpMessageEnd (Memory.store (s.mem f.buf) f.nRecv.toNat bs)
      s.curr.recvBufSize.toNat f.nRecv.toNat (f.nRecv + bs.length).toNat = some false) :
    (recvRead s t f k ret (.data bs)).ctl =
        .coro (.recv { f with nRecv := f.nRecv + bs.length, toRecv := f.toRecv - bs.length } k) ∧
      (recvRead s t f k ret (.data bs)).mem =
        Function.update s.mem f.buf (Memory.store (s.mem f.buf) f.nRecv.toNat bs) ∧
      (recvRead s t f k ret (.data bs)).queue.currConn = s.queue.currConn := by
  have hmem : (s.poke f.buf f.nRecv bs).mem f.buf = Memory.store (s.mem f.buf) f.nRecv.toNat bs :=
    Function.update_self ..
  have hsize : (s.poke f.buf f.nRecv bs).curr.recvBufSize = s.curr.recvBufSize := rfl
  have hmore : f.toRecv - bs.length ≠ 0 := by omega
  simp only [recvRead, hterm, if_true, hinf, bne_self_eq_false, Bool.false_and, mem_updateActive,
    recvBufSize_updateActive, hmem, hsize, hscan, recvLoop, hmore, ne_eq, not_false_eq_true,
    and_self]
  refine ⟨rfl, ?_, ?_⟩
  · exact mem_updateActive _ _
  · show (s.poke f.buf f.nRecv bs |>.currConnUpdateActive (t.clk 0)).queue.currConn = _
    rw [currConnUpdateActive_eq]
    rfl

/-- A read for a header section whose check touches the guard page. -/
theorem recvRead_dies {s : St} {t : Tick} {ret : St → ℤ → St} (hterm : f.terminator = true)
    (hscan : isHttpMessageEnd (Memory.store (s.mem f.buf) f.nRecv.toNat bs)
      s.curr.recvBufSize.toNat f.nRecv.toNat (f.nRecv + bs.length).toNat = none) :
    (recvRead s t f k ret (.data bs)).ctl = .dead .segv := by
  have hmem : (s.poke f.buf f.nRecv bs).mem f.buf = Memory.store (s.mem f.buf) f.nRecv.toNat bs :=
    Function.update_self ..
  have hsize : (s.poke f.buf f.nRecv bs).curr.recvBufSize = s.curr.recvBufSize := rfl
  simp only [recvRead, hterm, if_true, mem_updateActive, recvBufSize_updateActive, hmem, hsize, hscan]
  rfl

/-- Bytes without an LF have no end of a header section among them. -/
theorem findHttpHeadersEnd_of_not_mem {W : Bytes} (h : LF ∉ W) : findHttpHeadersEnd W = 0 := by
  rw [findHttpHeadersEnd_eq_zero_iff, List.firstInfix?_eq_none_iff]
  intro j hp
  have hmem : LF ∈ W.drop j := hp.subset (by decide)
  exact h (List.mem_of_mem_drop hmem)

/-- The worker behind a first read that has no LF in it. -/
theorem exists_behind_read (hne : bs ≠ []) (hlt : bs.length < 8192) (hlf : LF ∉ bs) :
    ∃ w : Worker, Reachable .plain w ∧
      w.ctl = .coro (.recv ⟨1, 8192 - bs.length, 0 + bs.length, 0, timeoutInf, true⟩ (.hdr 1 0)) ∧
      w.queue.currConn = some 1 ∧ w.mem 1 = Memory.store (fun _ => 0) 0 bs := by
  have hcur : asking.queue.currConn = some 1 := rfl
  have hmem : asking.mem 1 = fun _ => 0 := rfl
  have hfits : (ReadResult.data bs).Fits 8192 := ⟨hne, by omega⟩
  have hstep := step_read (P := .plain) (t := Tick.atTime 2) ctl_asking hcur (.data bs)
  rw [if_pos hfits] at hstep
  have hpos : 0 < bs.length := List.length_pos_iff.mpr hne
  have hfind : findHttpHeadersEnd (window (Memory.store (fun _ => 0) 0 bs) 0 bs.length) = 0 := by
    rw [window_store_self]
    exact findHttpHeadersEnd_of_not_mem hlf
  have hscan : isHttpMessageEnd (Memory.store (fun _ => 0) 0 bs) 8192 0 bs.length = some false := by
    refine isHttpMessageEnd_of_decided hpos hlt.le hfind ?_
    rintro ⟨-, i, hi, -⟩
    exact absurd hi (Nat.not_lt_zero i)
  have hlen : (0 + (bs.length : ℤ)).toNat = bs.length := by omega
  have hfull : (8192 : ℤ) ≠ bs.length := by omega
  rw [← hlen] at hscan
  obtain ⟨hctl', hmem', hcur'⟩ := recvRead_goes (s := asking.load 1) (t := Tick.atTime 2)
    (f := ⟨1, 8192, 0, 0, timeoutInf, true⟩) (k := .hdr 1 0)
    (recvReturned .plain (Tick.atTime 2) (.hdr 1 0)) rfl rfl hfull hscan
  refine ⟨_, reachable_asking.step hstep, hctl', hcur'.trans hcur, ?_⟩
  refine (congrFun hmem' 1).trans ?_
  rw [Function.update_self]
  rfl

/-- **A header section that fills the buffer, and ends with a CR and an LF in two reads**: the check
for the second read touches the guard page, and the worker dies. -/
theorem guard_reached : ∃ w f k bs, Reachable .plain w ∧ MessageEndCall w f k bs ∧
    (∃ j ∈ messageEndCells (w.bufWith f bs) f.nRecv.toNat (f.nRecv + bs.length).toNat,
      recvBufSize.toNat ≤ j) ∧
    ∃ w', w.step .plain (Tick.atTime 3, .co (.read (.data bs))) = some w' ∧ w'.ctl = .dead .segv := by
  obtain ⟨l, hlen, hl⟩ : ∃ l : Bytes, l.length = 8190 ∧ ∀ b ∈ l, b = 97 :=
    ⟨List.replicate 8190 97, List.length_replicate, fun b hb => (List.mem_replicate.mp hb).2⟩
  have hlenb : (l ++ [CR]).length = 8191 := by rw [List.length_append, hlen]; rfl
  have hlf : LF ∉ l ++ [CR] := by
    intro h
    rcases List.mem_append.mp h with h | h
    · exact absurd (hl LF h) (by decide)
    · exact absurd (List.mem_singleton.mp h) (by decide)
  obtain ⟨w, hw, hctl, hcur, hmem⟩ := exists_behind_read
    (List.append_ne_nil_of_right_ne_nil l (List.cons_ne_nil CR [])) (by omega) hlf
  rw [hlenb] at hctl
  have hcall : MessageEndCall w ⟨1, 8192 - (8191 : ℕ), 0 + (8191 : ℕ), 0, timeoutInf, true⟩ (.hdr 1 0)
      [LF] := ⟨hctl, rfl, by decide⟩
  -- the comparison at the CR goes on to the LF, which is in the last cell of the buffer
  have hreach : ReachesGuard (Memory.store (w.mem 1) 8191 [LF]) 8192 8191 8192 := by
    have hlf : Memory.store (w.mem 1) 8191 [LF] 8191 = LF := rfl
    have hcr : Memory.store (w.mem 1) 8191 [LF] 8190 = CR := by
      rw [store_of_lt _ (by decide), hmem, Memory.store, if_pos (Nat.zero_le _), Nat.sub_zero,
        List.getElem?_append_right (by omega), hlen]
      rfl
    have hcell : ∀ j < 8190, Memory.store (w.mem 1) 8191 [LF] j = 97 := by
      intro j hj
      have hjl : j < l.length := by omega
      rw [store_of_lt _ (by omega), hmem, Memory.store, if_pos (Nat.zero_le _), Nat.sub_zero,
        List.getElem?_append_left hjl, List.getElem?_eq_getElem hjl]
      exact hl _ (List.getElem_mem hjl)
    refine ⟨by decide, 8190, by decide, by decide, by decide, ?_, ?_⟩
    · rw [window_succ, window_succ, hcr, hlf]
      exact ⟨[CR, LF], rfl⟩
    · intro j hj _ hw
      rw [window_succ, hcell j (by omega)] at hw
      exact absurd (List.cons.inj hw).1 (by decide)
  have hnone := (isHttpMessageEnd_eq_none_iff_reachesGuard (by decide) (by decide)).mpr hreach
  refine ⟨w, _, _, _, hw, hcall, isHttpMessageEnd_eq_none_iff.mp hnone, _,
    (step_read hctl hcur _).trans (if_pos (by decide)), ?_⟩
  obtain ⟨hself, -, -, hsize, -⟩ := rep_of_coro hw hctl
  rw [← Option.some.inj (hcur.symm.trans hself)] at hsize
  refine recvRead_dies rfl ?_
  show isHttpMessageEnd _ (w.heap 1).recvBufSize.toNat _ _ = none
  rw [hsize]
  exact hnone

end SrvAsync
