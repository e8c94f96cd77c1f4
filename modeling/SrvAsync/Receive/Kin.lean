import SrvAsync.Receive.Scan

/-!
# Buffers that cannot be told apart

Two receive buffers that agree where bytes were received.  Behind that the first holds bytes of
earlier use, and the second is blank.  The terminator check looks behind the bytes received.  In
a blank cell it finds nothing, so it has the same result on both, unless it touches the guard
page or the bytes of earlier use complete an end; without an LF among them they do not.

## Main definitions

* `Kin` — the buffers agree in front; behind it one is blank, and the other may have no LF.

## Main results

* `isHttpMessageEnd_kin` — **when the terminator check tells kin buffers apart**.
-/

namespace SrvAsync

open Http Memory

/-! ### Kin buffers -/

/-- The buffers agree in front of `m`; from there on one is blank, and the other, if it is
`clean`, has no LF behind its first four cells. -/
structure Kin (clean : Prop) (size m : ℕ) (b b₀ : ℕ → Byte) : Prop where
  le : m ≤ size
  eq : ∀ i < m, b i = b₀ i
  blank : ∀ i, m ≤ i → b₀ i = 0
  noLF : clean → ∀ i, m ≤ i → 4 ≤ i → i < size → b i ≠ LF

namespace Kin

variable {clean : Prop} {size m : ℕ} {b b₀ : ℕ → Byte}

/-- What was written is read alike. -/
theorem window (h : Kin clean size m b b₀) {off len : ℕ} (hle : off + len ≤ m) :
    window b off len = window b₀ off len :=
  window_congr fun i _ hi => h.eq i (by omega)

/-- The same bytes are written to both. -/
theorem store (h : Kin clean size m b b₀) {off : ℕ} {bs : Bytes} (hoff : off ≤ m)
    (hle : off + bs.length ≤ size) :
    Kin clean size (max m (off + bs.length)) (store b off bs) (store b₀ off bs) where
  le := Nat.max_le.mpr ⟨h.le, hle⟩
  eq := by
    intro i hi
    by_cases h1 : i < off
    · rw [store_of_lt bs h1, store_of_lt bs h1]
      exact h.eq i (by omega)
    · by_cases h2 : i < off + bs.length
      · exact store_of_mem (by omega) h2
      · rw [store_of_ge (by omega), store_of_ge (by omega)]
        exact h.eq i (by omega)
  blank := by
    intro i hi
    rw [store_of_ge (by omega)]
    exact h.blank i (by omega)
  noLF := by
    intro hclean i hi h4 hlt
    rw [store_of_ge (by omega)]
    exact h.noLF hclean i (by omega) h4 hlt

end Kin

/-! ### The terminator check -/

section

variable {clean : Prop} {size m : ℕ} {b b₀ : ℕ → Byte} {i : ℕ}

/-- One step of a comparison. -/
theorem startsWith_cons (b : ℕ → Byte) (size i : ℕ) (c : Byte) (pat : Bytes) :
    startsWith b size i (c :: pat) =
      if i < size then if b i = c then startsWith b size (i + 1) pat else some false else none := rfl

theorem startsWith_of_ne {c : Byte} (hi : i < size) (h : b i ≠ c) (pat : Bytes) :
    startsWith b size i (c :: pat) = some false := by
  rw [startsWith_cons, if_pos hi, if_neg h]

/-- A comparison with a blank cell fails. -/
theorem startsWith_of_blank (hi : i < size) (h0 : b i = 0) {c : Byte} (hc : c ≠ 0) (pat : Bytes) :
    startsWith b size i (c :: pat) = some false :=
  startsWith_of_ne hi (fun h => hc (h.symm.trans h0)) pat

/-- A comparison has the same result in both buffers, or in the first it touches the guard page,
or goes well over bytes that the other does not have. -/
def SameFinding (b b₀ : ℕ → Byte) (size m i : ℕ) (pat : Bytes) : Prop :=
  startsWith b size i pat = startsWith b₀ size i pat ∨ startsWith b size i pat = none ∨
    startsWith b size i pat = some true ∧ m < i + pat.length

/-- **A comparison that tells kin buffers apart** is one of these two. -/
theorem sameFinding (h : Kin clean size m b b₀) :
    ∀ {pat : Bytes} {i : ℕ}, (∀ c ∈ pat, c ≠ 0) → SameFinding b b₀ size m i pat := by
  intro pat
  induction pat with
  | nil => exact fun _ => .inl rfl
  | cons c pat ih =>
    intro i hpat
    obtain ⟨hc, hpat⟩ := List.forall_mem_cons.mp hpat
    unfold SameFinding
    by_cases hm : i < m
    · -- the comparison goes on where the buffers agree
      rw [startsWith_cons, startsWith_cons, h.eq i hm]
      split
      · split
        · rcases ih (i := i + 1) hpat with he | hnone | ⟨htrue, hlt⟩
          · exact .inl he
          · exact .inr (.inl hnone)
          · refine .inr (.inr ⟨htrue, ?_⟩)
            rw [List.length_cons]
            omega
        · exact .inl rfl
      · exact .inl rfl
    · by_cases hi : i < size
      · rw [startsWith_of_blank hi (h.blank i (by omega)) hc]
        cases hb : startsWith b size i (c :: pat) with
        | none => exact .inr (.inl rfl)
        | some found =>
          cases found with
          | false => exact .inl rfl
          | true => exact .inr (.inr ⟨rfl, by rw [List.length_cons]; omega⟩)
      · exact .inr (.inl (if_neg hi))

/-- A clean buffer does not complete an end. -/
theorem not_alien_end (h : Kin clean size m b b₀) (hclean : clean) (h4 : 4 ≤ m)
    (hlt : m < i + headersEnd.length) : startsWith b size i headersEnd ≠ some true := by
  intro htrue
  obtain ⟨hw, hle⟩ := startsWith_eq_true htrue
  have hsize := hle headersEnd_ne_nil
  have hlen : headersEnd.length = 4 := rfl
  rw [hlen] at hlt hsize hw
  -- the last byte of an end is an LF
  have hlast := congrArg (fun l => l[3]?) hw
  simp only [getElem?_window] at hlast
  rw [if_pos (by omega)] at hlast
  exact h.noLF hclean (i + 3) (by omega) (by omega) (by omega) (Option.some.inj hlast)

/-- The comparisons of a list. -/
theorem anyStartsWith_kin (h : Kin clean size m b b₀) (h4 : 4 ≤ m) (is : List ℕ) :
    anyStartsWith b size headersEnd is = anyStartsWith b₀ size headersEnd is ∨
      anyStartsWith b size headersEnd is = none ∨
      anyStartsWith b size headersEnd is = some true ∧ ¬ clean := by
  induction is with
  | nil => exact .inl rfl
  | cons i is ih =>
    unfold anyStartsWith
    have hbytes : ∀ c ∈ headersEnd, c ≠ 0 := by decide +kernel
    rcases sameFinding h (i := i) hbytes with he | hnone | ⟨htrue, hlt⟩
    · rw [he]
      cases startsWith b₀ size i headersEnd with
      | none => exact .inl rfl
      | some found =>
        cases found with
        | true => exact .inl rfl
        | false => exact ih
    · rw [hnone]
      exact .inr (.inl rfl)
    · rw [htrue]
      exact .inr (.inr ⟨rfl, fun hclean => not_alien_end h hclean h4 hlt htrue⟩)

/-- **The terminator check cannot tell kin buffers apart**, unless it touches the guard page, or
the bytes of earlier use complete an end; they do not when they are clean. -/
theorem isHttpMessageEnd_kin (h : Kin clean size m b b₀) (prev : ℕ) {n : ℕ} (hn : n ≤ m) :
    isHttpMessageEnd b size prev n = isHttpMessageEnd b₀ size prev n ∨
      isHttpMessageEnd b size prev n = none ∨
      isHttpMessageEnd b size prev n = some true ∧ ¬ clean := by
  unfold isHttpMessageEnd
  split
  · exact .inl rfl
  · exact anyStartsWith_kin h (by omega) _

end

end SrvAsync
