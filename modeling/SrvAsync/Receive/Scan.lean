import SrvAsync.Base.Window
import SrvAsync.Http.SendRecv

/-!
# The search for the end of a header section

What `is_http_message_end` finds when a chunk arrives behind bytes that have no end
of a header section in them.  A comparison that starts in the bytes before the chunk
can run over the end of the chunk, into bytes of earlier use: it can then succeed
although no end was received (`StaleEnd`), or touch the guard page.

## Main definitions

* `StaleEnd` — bytes of earlier use complete an end of a header section.

## Main results

* `find_of_isHttpMessageEnd_false` — nothing is missed.
* `staleEnd_of_isHttpMessageEnd_true` — what is found was received, or is a `StaleEnd`.
* `isHttpMessageEnd_of_window` — what was received is found.
* `lt_of_isHttpMessageEnd_none` — when the guard page is touched, no header section that
  fits the buffer can be received any more.
-/

namespace SrvAsync

open Http Memory

variable {m : ℕ → Byte} {size i n N : ℕ} {pat : Bytes}

/-! ### Comparisons -/

theorem window_succ (m : ℕ → Byte) (i len : ℕ) :
    window m i (len + 1) = m i :: window m (i + 1) len := by
  rw [Nat.add_comm len 1, window_add]
  rfl

/-- A comparison that succeeds, ends before the guard page. -/
theorem startsWith_eq_true : ∀ {pat : Bytes} {i : ℕ}, startsWith m size i pat = some true →
    window m i pat.length = pat ∧ (pat ≠ [] → i + pat.length ≤ size)
  | [], _, _ => ⟨rfl, fun h => absurd rfl h⟩
  | b :: bs, i, h => by
    unfold startsWith at h
    split at h
    · next hi =>
      split at h
      · next hb =>
        obtain ⟨hw, hle⟩ := startsWith_eq_true h
        refine ⟨?_, fun _ => ?_⟩
        · rw [List.length_cons, window_succ, hw, hb]
        · by_cases hbs : bs = []
          · rw [hbs]
            exact hi
          · have := hle hbs
            rw [List.length_cons]
            omega
      · cases h
    · cases h

/-- A comparison that fails, fails at a byte. -/
theorem startsWith_eq_false : ∀ {pat : Bytes} {i : ℕ}, startsWith m size i pat = some false →
    window m i pat.length ≠ pat
  | [], _, h => by cases h
  | b :: bs, i, h => by
    intro hw
    rw [List.length_cons, window_succ] at hw
    obtain ⟨hb, hw⟩ := List.cons.inj hw
    unfold startsWith at h
    split at h
    · exact startsWith_eq_false (by simpa [hb] using h) hw
    · cases h

/-- A comparison that touches the guard page agrees with the bytes before it. -/
theorem startsWith_eq_none : ∀ {pat : Bytes} {i : ℕ}, i ≤ size → startsWith m size i pat = none →
    size < i + pat.length ∧ window m i (size - i) = pat.take (size - i)
  | [], _, _, h => by cases h
  | b :: bs, i, hi, h => by
    unfold startsWith at h
    split at h
    · next hlt =>
      split at h
      · next hb =>
        obtain ⟨hsz, hw⟩ := startsWith_eq_none hlt h
        obtain ⟨k, hk⟩ : ∃ k, size - i = k + 1 := ⟨size - i - 1, by omega⟩
        have hk' : size - (i + 1) = k := by omega
        rw [hk'] at hw
        rw [hk, window_succ, List.take_succ_cons, hw, hb, List.length_cons]
        exact ⟨by omega, rfl⟩
      · cases h
    · next hge =>
      have h0 : size - i = 0 := by omega
      rw [h0, List.length_cons]
      exact ⟨by omega, rfl⟩

theorem anyStartsWith_eq_true : ∀ {is : List ℕ}, anyStartsWith m size pat is = some true →
    ∃ i ∈ is, startsWith m size i pat = some true
  | [], h => by cases h
  | i :: is, h => by
    unfold anyStartsWith at h
    split at h
    · cases h
    · next hi => exact ⟨i, List.mem_cons_self, hi⟩
    · obtain ⟨j, hj, hs⟩ := anyStartsWith_eq_true h
      exact ⟨j, List.mem_cons_of_mem _ hj, hs⟩

theorem anyStartsWith_eq_false : ∀ {is : List ℕ}, anyStartsWith m size pat is = some false →
    ∀ i ∈ is, startsWith m size i pat = some false
  | [], _, _, hi => absurd hi List.not_mem_nil
  | i :: is, h, j, hj => by
    unfold anyStartsWith at h
    split at h
    · cases h
    · cases h
    · next hi =>
      rcases List.mem_cons.mp hj with rfl | hj
      · exact hi
      · exact anyStartsWith_eq_false h j hj

/-- The comparisons before the one that touches the guard page failed. -/
theorem anyStartsWith_eq_none : ∀ {is : List ℕ}, anyStartsWith m size pat is = none →
    ∃ l₁ i l₂, is = l₁ ++ i :: l₂ ∧ (∀ j ∈ l₁, startsWith m size j pat = some false) ∧
      startsWith m size i pat = none
  | [], h => by cases h
  | i :: is, h => by
    unfold anyStartsWith at h
    split at h
    · next hi => exact ⟨[], i, is, rfl, fun j hj => absurd hj List.not_mem_nil, hi⟩
    · cases h
    · next hi =>
      obtain ⟨l₁, j, l₂, rfl, hl₁, hj⟩ := anyStartsWith_eq_none h
      refine ⟨i :: l₁, j, l₂, rfl, ?_, hj⟩
      intro k hk
      rcases List.mem_cons.mp hk with rfl | hk
      · exact hi
      · exact hl₁ k hk

/-! ### Where an end can be -/

/-- An end of a header section in the first `N` bytes. -/
theorem find_window_eq_zero_iff :
    findHttpHeadersEnd (window m 0 N) = 0 ↔ ∀ i, i + 4 ≤ N → window m i 4 ≠ headersEnd := by
  rw [findHttpHeadersEnd_eq_zero_iff, List.firstInfix?_eq_none_iff]
  constructor
  · intro h i hi he
    refine h i ?_
    have hle : 4 ≤ N - i := by omega
    rw [drop_window m 0 (by omega), Nat.zero_add, ← he, ← take_window m i hle]
    exact List.take_prefix _ _
  · intro h i hp
    have hlen := hp.length_le
    rw [List.length_drop, length_window] at hlen
    have hi : i + 4 ≤ N := by
      have : headersEnd.length = 4 := rfl
      omega
    refine h i hi ?_
    rw [drop_window m 0 (by omega), Nat.zero_add] at hp
    have htake := List.prefix_iff_eq_take.mp hp
    rw [htake, take_window m i (by rw [← length_window m i (N - i)]; exact hp.length_le)]
    rfl

/-- The offsets of the comparisons after the first. -/
theorem mem_scanOffsets_iff {j : ℕ} : j ∈ scanOffsets n N ↔
    j = N - 4 ∨ (j < n ∧ n ≤ j + 3) ∨ (n ≤ j ∧ j + 3 < N) := by
  unfold scanOffsets
  simp only [List.mem_append, List.mem_cons, List.mem_map, List.mem_filter, decide_eq_true_eq,
    List.not_mem_nil, or_false, List.mem_range'_1]
  constructor
  · rintro ((rfl | ⟨k, ⟨hk, hle⟩, rfl⟩) | hj)
    · exact .inl rfl
    · exact .inr (.inl (by omega))
    · exact .inr (.inr (by omega))
  · rintro (rfl | hj | hj)
    · exact .inl (.inl rfl)
    · exact .inl (.inr ⟨n - j, by omega, by omega⟩)
    · exact .inr (by omega)

/-- The comparisons after the first go from the front to the back. -/
theorem pairwise_tail_scanOffsets (n N : ℕ) : (scanOffsets n N).tail.Pairwise (· < ·) := by
  unfold scanOffsets
  rw [List.cons_append, List.tail_cons, List.pairwise_append]
  refine ⟨?_, List.pairwise_lt_range' .., ?_⟩
  · rw [List.pairwise_map]
    have hp : List.Pairwise (· > ·) ([3, 2, 1].filter fun i => decide (i ≤ n)) :=
      List.Pairwise.filter _ (by decide)
    refine hp.imp_of_mem ?_
    intro a b ha hb hab
    have hle := of_decide_eq_true (List.mem_filter.mp ha).2
    omega
  · intro a ha b hb
    obtain ⟨k, hk, rfl⟩ := List.mem_map.mp ha
    obtain ⟨hk, hle⟩ := List.mem_filter.mp hk
    have hle := of_decide_eq_true hle
    have hb := (List.mem_range'_1.mp hb).1
    simp only [List.mem_cons, List.not_mem_nil, or_false] at hk
    omega

/-- A comparison in front of another one, which is not the first, is at the end of the chunk or
at a smaller offset. -/
theorem mem_scanOffsets_split {l₁ l₂ : List ℕ} {i j : ℕ} (h : scanOffsets n N = l₁ ++ i :: l₂)
    (hi : i ≠ N - 4) : (j = N - 4 → j ∈ l₁) ∧ (j ∈ scanOffsets n N → j < i → j ∈ l₁) := by
  have hpw := pairwise_tail_scanOffsets n N
  cases l₁ with
  | nil => exact absurd (List.cons.inj h).1.symm hi
  | cons k l₁ =>
    have hk : N - 4 = k := (List.cons.inj h).1
    rw [h] at hpw ⊢
    constructor
    · rintro rfl
      rw [hk]
      exact List.mem_cons_self
    · intro hj hlt
      rcases List.mem_append.mp hj with hj | hj
      · exact hj
      rcases List.mem_cons.mp hj with rfl | hj
      · omega
      · have hlt' := List.rel_of_pairwise_cons (List.pairwise_append.mp hpw).2.1 hj
        omega

/-! ### What the search finds -/

/-- No end of a header section was received with a chunk, but a comparison that started before
the chunk is completed behind it, by bytes of earlier use. -/
def StaleEnd (m : ℕ → Byte) (size n : ℕ) (bs : Bytes) : Prop :=
  findHttpHeadersEnd (window (store m n bs) 0 (n + bs.length)) = 0 ∧ 4 ≤ n + bs.length ∧
    ∃ i < n, n + bs.length < i + 4 ∧ n ≤ i + 3 ∧ i + 4 ≤ size ∧
      window (store m n bs) i 4 = headersEnd

instance (m : ℕ → Byte) (size n : ℕ) (bs : Bytes) : Decidable (StaleEnd m size n bs) :=
  inferInstanceAs (Decidable (_ ∧ _))

/-- **Nothing is missed.** -/
theorem find_of_isHttpMessageEnd_false (h0 : findHttpHeadersEnd (window m 0 n) = 0)
    (h : isHttpMessageEnd m size n N = some false) : findHttpHeadersEnd (window m 0 N) = 0 := by
  rw [find_window_eq_zero_iff] at h0 ⊢
  intro i hi he
  unfold isHttpMessageEnd at h
  rw [if_neg (by omega)] at h
  -- an end in the bytes before the chunk would have been found before
  have hn : n < i + 4 := by
    by_contra hle
    exact h0 i (by omega) he
  exact startsWith_eq_false (anyStartsWith_eq_false h i (mem_scanOffsets_iff.mpr (by omega))) he

/-- **What is found was received, or bytes of earlier use complete it.** -/
theorem staleEnd_of_isHttpMessageEnd_true {m : ℕ → Byte} {bs : Bytes}
    (h0 : findHttpHeadersEnd (window (store m n bs) 0 (n + bs.length)) = 0)
    (h : isHttpMessageEnd (store m n bs) size n (n + bs.length) = some true) :
    StaleEnd m size n bs := by
  refine ⟨h0, ?_⟩
  unfold isHttpMessageEnd at h
  split at h
  · cases h
  · next h4 =>
    obtain ⟨i, hi, hs⟩ := anyStartsWith_eq_true h
    obtain ⟨hw, hle⟩ := startsWith_eq_true hs
    have hsize := hle headersEnd_ne_nil
    have hlt : n + bs.length < i + 4 := by
      by_contra hge
      exact find_window_eq_zero_iff.mp h0 i (by omega) hw
    have hmem := mem_scanOffsets_iff.mp hi
    have hlen : headersEnd.length = 4 := rfl
    exact ⟨by omega, i, by omega, hlt, by omega, by omega, hw⟩

/-- A comparison that starts before the chunk and agrees is taken for an end, unless the guard page
is touched before. -/
theorem isHttpMessageEnd_of_starts_before (h4 : 4 ≤ N) (hi : i < n) (hle : n ≤ i + 3)
    (hw : window m i 4 = headersEnd) : isHttpMessageEnd m size n N ≠ some false := by
  intro hfalse
  unfold isHttpMessageEnd at hfalse
  rw [if_neg (by omega)] at hfalse
  have hmem : i ∈ scanOffsets n N := mem_scanOffsets_iff.mpr (.inr (.inl ⟨hi, hle⟩))
  exact startsWith_eq_false (anyStartsWith_eq_false hfalse i hmem) hw

/-- **Bytes of earlier use that complete an end are taken for one**, or the guard page is touched
before. -/
theorem isHttpMessageEnd_of_staleEnd {m : ℕ → Byte} {bs : Bytes} (h : StaleEnd m size n bs) :
    isHttpMessageEnd (store m n bs) size n (n + bs.length) ≠ some false := by
  obtain ⟨-, h4, i, hi, -, hle, -, hw⟩ := h
  exact isHttpMessageEnd_of_starts_before h4 hi hle hw

/-- No end is completed by the zeros of a fresh buffer. -/
theorem not_staleEnd_fresh {W bs : Bytes} {size : ℕ} :
    ¬ StaleEnd (store (fun _ => 0) 0 W) size W.length bs := by
  rintro ⟨-, -, i, hi, hlt, -, -, hw⟩
  have hcell : window (store (store (fun _ => 0) 0 W) W.length bs) i 4 = headersEnd := hw
  have hzero : store (store (fun _ => 0) 0 W) W.length bs (i + 3) = 0 := by
    rw [store_of_ge (by omega), store_of_ge (by omega)]
  have hlast := congrArg (fun l => l[3]?) hcell
  simp only [getElem?_window] at hlast
  rw [if_pos (by omega), hzero] at hlast
  exact absurd hlast (by decide)

/-- The bytes a comparison agreed with before it touched the guard page. -/
theorem eq_of_startsWith_eq_none (hi : i + 2 ≤ size) (h : startsWith m size i headersEnd = none) :
    size < i + 4 ∧ m i = CR ∧ m (i + 1) = LF := by
  obtain ⟨hsz, hw⟩ := startsWith_eq_none (by omega) h
  obtain ⟨k, hk⟩ : ∃ k, size - i = k + 2 := ⟨size - i - 2, by omega⟩
  rw [hk, window_succ, window_succ] at hw
  obtain ⟨h1, hw⟩ := List.cons.inj hw
  exact ⟨hsz, h1, (List.cons.inj hw).1⟩

/-- The bytes of a pattern that starts somewhere. -/
theorem getElem?_of_prefix_drop {S : Bytes} {pos i : ℕ} (h : headersEnd <+: S.drop pos)
    (hi : i < headersEnd.length) : S[pos + i]? = headersEnd[i]? := by
  obtain ⟨u, hu⟩ := h
  rw [← List.getElem?_drop, ← hu, List.getElem?_append_left hi]

/-- **An end that was received is found**: every comparison in front of it stays in the bytes
received. -/
theorem isHttpMessageEnd_of_window {p : ℕ} (h0 : findHttpHeadersEnd (window m 0 n) = 0)
    (hp : window m p 4 = headersEnd) (hpN : p + 4 ≤ N) (hN : N ≤ size) :
    isHttpMessageEnd m size n N = some true := by
  have hlen : headersEnd.length = 4 := rfl
  have hn : n < p + 4 := by
    by_contra hge
    exact find_window_eq_zero_iff.mp h0 p (by omega) hp
  have hmem : p ∈ scanOffsets n N := mem_scanOffsets_iff.mpr (by omega)
  unfold isHttpMessageEnd
  rw [if_neg (by omega)]
  cases hany : anyStartsWith m size headersEnd (scanOffsets n N) with
  | some b =>
    cases b with
    | true => rfl
    | false => exact absurd hp (startsWith_eq_false (anyStartsWith_eq_false hany p hmem))
  | none =>
    obtain ⟨l₁, i, l₂, hl, hfalse, hnone⟩ := anyStartsWith_eq_none hany
    have hi : i ∈ scanOffsets n N := by
      rw [hl]
      exact List.mem_append_right _ List.mem_cons_self
    have hmi := mem_scanOffsets_iff.mp hi
    obtain ⟨hsz, -⟩ := startsWith_eq_none (by omega) hnone
    -- the comparison that touches the guard page comes behind the one that succeeds
    have hl₁ := (mem_scanOffsets_split (j := p) hl (by omega)).2 hmem (by omega)
    exact absurd hp (startsWith_eq_false (hfalse p hl₁))

/-- **When the guard page is touched, no header section that fits the buffer is left.** -/
theorem lt_of_isHttpMessageEnd_none {T : Bytes} {pos : ℕ}
    (h0 : findHttpHeadersEnd (window m 0 n) = 0) (hnN : n < N) (hN : N ≤ size)
    (h : isHttpMessageEnd m size n N = none)
    (hpos : headersEnd <+: (window m 0 N ++ T).drop pos) : size < pos + 4 := by
  by_contra hle
  have hlen : headersEnd.length = 4 := rfl
  by_cases hposN : pos + 4 ≤ N
  · -- the end was received, and compared with before
    have hw : window m pos 4 = headersEnd := by
      rw [List.prefix_drop_append_iff (by rw [length_window, hlen]; exact hposN),
        drop_window m 0 (by omega), Nat.zero_add] at hpos
      have h4 : 4 ≤ N - pos := by omega
      rw [List.prefix_iff_eq_take.mp hpos, hlen, take_window m pos h4]
    cases h.symm.trans (isHttpMessageEnd_of_window h0 hw hposN hN)
  · unfold isHttpMessageEnd at h
    split at h
    · cases h
    · next h4 =>
      obtain ⟨l₁, i, l₂, hl, -, hnone⟩ := anyStartsWith_eq_none h
      have hmem : i ∈ scanOffsets n N := by
        rw [hl]
        exact List.mem_append_right _ List.mem_cons_self
      have hi := mem_scanOffsets_iff.mp hmem
      -- the comparison started in one of the last bytes of the buffer before the chunk
      obtain ⟨hsz, hcr, -⟩ := eq_of_startsWith_eq_none (by omega) hnone
      -- the end is completed later, where the comparison met a CR
      have hposi : pos + 1 = i := by omega
      have h1 := getElem?_of_prefix_drop (i := 1) hpos (by decide)
      rw [hposi, List.getElem?_append_left (by rw [length_window]; omega), getElem?_window,
        if_pos (by omega), Nat.zero_add, hcr] at h1
      exact absurd h1 (by decide)

end SrvAsync
