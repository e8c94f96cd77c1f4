import SrvAsync.Base.Window
import SrvAsync.Http.Bytes

/-!
# `trim_spaces` of the configuration

The loop of `srv_config.c` that takes the white space out of a line, in the buffer of the line:
`c_s` is where the next byte is written, and the byte that is read is `w` cells further.

## Main definitions

* `isspace` — as in the C locale.
* `trimRounds`, `trimSpaces` — the loop, and the string it leaves.
* `Ahead` — the text that the loop has still to read.
* `Access`, `trimTraced` — the loop with the cells that it reads and writes.
* `CBuffer` — a buffer with a NUL.

## Main results

* `trimRounds_spec` — what the loop leaves in the buffer.
* `trimSpaces_eq` — the bytes in front of the first end of line that are no white space.
* `trimTraced_spec` — which cells the loop reads and writes, and in which order.
* `trim_in_place` — **`trim_spaces` filters a buffer in place**.
-/

namespace SrvAsync
namespace Config

open Http

/-- `isspace` of the C locale. -/
def isspace (c : Byte) : Bool := decide (c = SP ∨ 9 ≤ c ∧ c ≤ 13)

/-- Where `trim_spaces` stops. -/
def endsLine (c : Byte) : Bool := decide (c = 0 ∨ c = LF)

/-- The rounds of `trim_spaces`, with `c_s` and `w`.  The first argument bounds them; one more than
there are bytes in the string are enough. -/
def trimRounds : ℕ → (ℕ → Byte) → ℕ → ℕ → Option (ℕ → Byte)
  | 0, _, _, _ => none
  | fuel + 1, buf, cS, w =>
    if endsLine (buf (cS + w)) then some (Function.update buf cS 0)
    else if isspace (buf (cS + w)) then trimRounds fuel buf cS (w + 1)
    else trimRounds fuel (Function.update buf cS (buf (cS + w))) (cS + 1) w

/-- The string at the beginning of a buffer. -/
def cString (len : ℕ) (buf : ℕ → Byte) : Bytes := (Memory.window buf 0 len).takeWhile (· != 0)

/-- `trim_spaces`, on a buffer with this string. -/
def trimSpaces (line : Bytes) : Bytes :=
  ((trimRounds (line.length + 1) (fun i => line.getD i 0) 0 0).map
    (cString (line.length + 1))).getD []

/-- What a line is without its white space. -/
def trimmed (line : Bytes) : Bytes := (line.takeWhile fun c => !endsLine c).filter fun c => !isspace c

/-- A cell of a window that is extended. -/
theorem window_update_succ (buf : ℕ → Byte) (n : ℕ) (c : Byte) :
    Memory.window (Function.update buf n c) 0 (n + 1) = Memory.window buf 0 n ++ [c] := by
  have hlow : Memory.window (Function.update buf n c) 0 n = Memory.window buf 0 n :=
    Memory.window_congr fun i _ hi => Function.update_of_ne (by omega) _ _
  rw [Memory.window_add, hlow]
  simp [Memory.window]

/-- The text that is still to be read, from a cell on. -/
structure Ahead (buf : ℕ → Byte) (i : ℕ) (rest : Bytes) : Prop where
  reads : Memory.window buf i rest.length = rest
  goes : ∀ c ∈ rest, endsLine c = false
  stops : endsLine (buf (i + rest.length)) = true

theorem Ahead.head {buf : ℕ → Byte} {i : ℕ} {c : Byte} {rest : Bytes}
    (h : Ahead buf i (c :: rest)) : buf i = c := by
  have hread := congrArg List.head? h.reads
  rw [List.length_cons, Nat.add_comm rest.length 1, Memory.window_add] at hread
  simpa [Memory.window] using hread

theorem Ahead.tail {buf : ℕ → Byte} {i : ℕ} {c : Byte} {rest : Bytes}
    (h : Ahead buf i (c :: rest)) : Ahead buf (i + 1) rest := by
  refine ⟨?_, fun b hb => h.goes b (List.mem_cons_of_mem c hb), ?_⟩
  · have hread := congrArg List.tail h.reads
    rw [List.length_cons, Nat.add_comm rest.length 1, Memory.window_add] at hread
    simpa [Memory.window] using hread
  · rw [Nat.add_right_comm]
    exact h.stops

/-- A write in front of it does not change it. -/
theorem Ahead.update {buf : ℕ → Byte} {i j : ℕ} {rest : Bytes} (h : Ahead buf i rest) (hj : j < i)
    (c : Byte) : Ahead (Function.update buf j c) i rest := by
  have hcell : ∀ k, i ≤ k → Function.update buf j c k = buf k := fun k hk =>
    Function.update_of_ne (by omega) _ _
  refine ⟨?_, h.goes, ?_⟩
  · rw [Memory.window_congr fun k hk _ => hcell k hk]
    exact h.reads
  · rw [hcell _ (Nat.le_add_right i _)]
    exact h.stops

/-- **What the loop leaves in the buffer.**  By induction on the text that is still to be read; the
cells from the one that is read on were not written yet. -/
theorem trimRounds_spec {rest : Bytes} (buf : ℕ → Byte) (fuel cS w : ℕ)
    (hahead : Ahead buf (cS + w) rest) (hf : rest.length < fuel) :
    ∃ buf' n, trimRounds fuel buf cS w = some buf' ∧ n ≤ cS + w + rest.length ∧
      Memory.window buf' 0 n = Memory.window buf 0 cS ++ rest.filter (fun c => !isspace c) ∧
      buf' n = 0 := by
  induction rest generalizing fuel cS w buf with
  | nil =>
    obtain ⟨fuel, rfl⟩ := Nat.exists_eq_succ_of_ne_zero (Nat.ne_of_gt hf)
    refine ⟨Function.update buf cS 0, cS, if_pos hahead.stops, by omega, ?_, Function.update_self _ _ _⟩
    rw [List.filter_nil, List.append_nil]
    exact Memory.window_congr fun i _ hi => Function.update_of_ne (by omega) _ _
  | cons c rest ih =>
    obtain ⟨fuel, rfl⟩ := Nat.exists_eq_succ_of_ne_zero (Nat.ne_of_gt (Nat.zero_lt_of_lt hf))
    have hlt : rest.length < fuel := by simpa using hf
    have hstop : endsLine c = false := hahead.goes c List.mem_cons_self
    unfold trimRounds
    rw [hahead.head, hstop, if_neg Bool.false_ne_true]
    cases hsp : isspace c with
    | true =>
      -- `w++`
      obtain ⟨buf', n, hrun, hn, hwin, hz⟩ := ih buf fuel cS (w + 1) hahead.tail hlt
      refine ⟨buf', n, hrun, by rw [List.length_cons]; omega, ?_, hz⟩
      rw [hwin, List.filter_cons_of_neg (by simp [hsp])]
    | false =>
      -- `*c_s = *(c_s + w)`, and the cell that is written is not behind the one that was read
      have hnext : Ahead (Function.update buf cS c) (cS + 1 + w) rest := by
        rw [Nat.add_right_comm]
        exact hahead.tail.update (by omega) c
      obtain ⟨buf', n, hrun, hn, hwin, hz⟩ := ih _ fuel (cS + 1) w hnext hlt
      refine ⟨buf', n, hrun, by rw [List.length_cons]; omega, ?_, hz⟩
      rw [hwin, window_update_succ, List.filter_cons_of_pos (by simp [hsp]), List.append_assoc]
      rfl

/-- The text in front of the first end of line is at the beginning of the buffer. -/
theorem window_takeWhile (s : Bytes) (p : Byte → Bool) :
    Memory.window (fun i => s.getD i 0) 0 (s.takeWhile p).length = s.takeWhile p := by
  apply List.ext_getElem?
  intro i
  rw [Memory.getElem?_window, Nat.zero_add]
  split
  · next h =>
    have hget : s[i]? = (s.takeWhile p)[i]? := by
      conv_lhs => rw [← List.takeWhile_append_dropWhile (p := p) (l := s)]
      rw [List.getElem?_append_left h]
    rw [List.getD_eq_getElem?_getD, hget, List.getElem?_eq_getElem h]
    rfl
  · next h => rw [List.getElem?_eq_none (by omega)]

/-- The text ends where the loop stops. -/
theorem endsLine_getD_takeWhile (line : Bytes) :
    endsLine (line.getD (line.takeWhile fun c => !endsLine c).length 0) = true := by
  induction line with
  | nil => rfl
  | cons c line ih =>
    cases hc : endsLine c with
    | true => simp [hc]
    | false => simpa [hc] using ih

/-- What the loop has to read when it starts. -/
theorem ahead_takeWhile {buf : ℕ → Byte} {line : Bytes}
    (hwin : Memory.window buf 0 (line.takeWhile fun c => !endsLine c).length =
      line.takeWhile fun c => !endsLine c)
    (hend : endsLine (buf (line.takeWhile fun c => !endsLine c).length) = true) :
    Ahead buf (0 + 0) (line.takeWhile fun c => !endsLine c) := by
  refine ⟨hwin, ?_, ?_⟩
  · intro c hc
    have h := List.mem_takeWhile_imp (p := fun c => !endsLine c) hc
    simpa using h
  · rw [Nat.zero_add]
    exact hend

/-- A NUL ends the line. -/
theorem zero_notMem_trimmed (line : Bytes) : 0 ∉ trimmed line := by
  intro h
  have h0 := List.mem_takeWhile_imp (p := fun c => !endsLine c) (List.mem_of_mem_filter h)
  exact absurd h0 (by decide)

/-- A string is what stands in front of its first zero. -/
theorem cString_eq {buf : ℕ → Byte} {len n : ℕ} {t : Bytes} (hn : n < len)
    (hwin : Memory.window buf 0 n = t) (ht : 0 ∉ t) (hz : buf n = 0) : cString len buf = t := by
  obtain ⟨k, rfl⟩ := Nat.exists_eq_add_of_lt hn
  have hpos : ∀ c ∈ t, (c != 0) = true := by
    intro c hc
    refine bne_iff_ne.mpr ?_
    rintro rfl
    exact ht hc
  unfold cString
  rw [Nat.add_assoc, Memory.window_add, hwin, List.takeWhile_append_of_pos hpos, Nat.add_comm k 1,
    Memory.window_add]
  simp [Memory.window, hz]

/-- **`trim_spaces` leaves the bytes in front of the first end of line that are no white space.** -/
theorem trimSpaces_eq (line : Bytes) : trimSpaces line = trimmed line := by
  have hahead := ahead_takeWhile (window_takeWhile line _) (endsLine_getD_takeWhile line)
  have hle := (List.takeWhile_prefix (l := line) fun c => !endsLine c).length_le
  obtain ⟨buf', n, hrun, hn, hwin, hz⟩ := trimRounds_spec (fun i => line.getD i 0)
    (line.length + 1) 0 0 hahead (by omega)
  rw [Memory.window_zero, List.nil_append] at hwin
  unfold trimSpaces
  rw [hrun]
  exact cString_eq (by omega) hwin (zero_notMem_trimmed line) hz

/-! ### The cells that are read and written -/

/-- An access of `trim_spaces` to its buffer. -/
inductive Access
  /-- A read of the cell `c_s + w`. -/
  | read (cS w : ℕ)
  /-- A write of the cell `c_s`. -/
  | write (cS : ℕ)
  deriving DecidableEq, Repr

/-- The cell of an access. -/
def Access.index : Access → ℕ
  | .read cS w => cS + w
  | .write cS => cS

/-- A read behind a write is of a cell behind the one that was written, which holds the byte that
it held from the beginning. -/
def Access.Untouched : Access → Access → Prop
  | .write i, .read cS w => i < cS + w
  | _, _ => True

/-- The rounds of `trim_spaces`, with their accesses.  All the reads of a round are of one cell. -/
def trimTraced : ℕ → (ℕ → Byte) → ℕ → ℕ → Option ((ℕ → Byte) × List Access)
  | 0, _, _, _ => none
  | fuel + 1, buf, cS, w =>
    if endsLine (buf (cS + w)) then some (Function.update buf cS 0, [.read cS w, .write cS])
    else if isspace (buf (cS + w)) then
      (trimTraced fuel buf cS (w + 1)).map fun r => (r.1, .read cS w :: r.2)
    else
      (trimTraced fuel (Function.update buf cS (buf (cS + w))) (cS + 1) w).map fun r =>
        (r.1, .read cS w :: .write cS :: r.2)

/-- Without the accesses it is the loop. -/
theorem map_fst_trimTraced (fuel : ℕ) : ∀ (buf : ℕ → Byte) (cS w : ℕ),
    (trimTraced fuel buf cS w).map Prod.fst = trimRounds fuel buf cS w := by
  induction fuel with
  | zero =>
    intro buf cS w
    rfl
  | succ fuel ih =>
    intro buf cS w
    unfold trimTraced trimRounds
    split
    · rfl
    · split
      · rw [← ih, Option.map_map]
        rfl
      · rw [← ih, Option.map_map]
        rfl

/-- **Which cells the loop reads and writes.**  By induction on the text that is still to be read:
what is read lies from the cell that is read on, what is written from `c_s` on, and neither behind
the end of the text. -/
theorem trimTraced_spec {rest : Bytes} (buf : ℕ → Byte) (cS w : ℕ)
    (hahead : Ahead buf (cS + w) rest) :
    ∃ buf' log, (∀ fuel, rest.length < fuel → trimTraced fuel buf cS w = some (buf', log)) ∧
      (∀ a ∈ log, a.index ≤ cS + w + rest.length) ∧
      (∀ i x, Access.read i x ∈ log → cS + w ≤ i + x) ∧ log.Pairwise Access.Untouched ∧
      ∀ i, cS + w + rest.length < i → buf' i = buf i := by
  induction rest generalizing cS w buf with
  | nil =>
    refine ⟨Function.update buf cS 0, [.read cS w, .write cS], fun fuel hf => ?_, ?_, ?_, ?_, ?_⟩
    · obtain ⟨fuel, rfl⟩ := Nat.exists_eq_succ_of_ne_zero (Nat.ne_of_gt hf)
      exact if_pos hahead.stops
    · simp [Access.index]
    · intro i x hx
      simp only [List.mem_cons, Access.read.injEq, reduceCtorEq, List.not_mem_nil, or_false] at hx
      omega
    · simp [Access.Untouched]
    · intro i hi
      exact Function.update_of_ne (by omega) _ _
  | cons c rest ih =>
    have hstop : endsLine c = false := hahead.goes c List.mem_cons_self
    rw [List.length_cons]
    cases hsp : isspace c with
    | true =>
      obtain ⟨buf', log, hrun, hle, hge, hpw, hkeep⟩ := ih buf cS (w + 1) hahead.tail
      refine ⟨buf', .read cS w :: log, fun fuel hf => ?_, ?_, ?_, ?_, fun i hi => hkeep i (by omega)⟩
      · obtain ⟨fuel, rfl⟩ := Nat.exists_eq_succ_of_ne_zero (Nat.ne_of_gt (Nat.zero_lt_of_lt hf))
        unfold trimTraced
        rw [hahead.head, hstop, if_neg Bool.false_ne_true, hsp, if_pos rfl, hrun fuel (by omega)]
        rfl
      · intro a ha
        rcases List.mem_cons.mp ha with rfl | ha
        · show cS + w ≤ _
          omega
        · have := hle a ha
          omega
      · intro i x hx
        rcases List.mem_cons.mp hx with he | hx
        · obtain ⟨rfl, rfl⟩ := Access.read.inj he
          exact Nat.le_refl _
        · have := hge i x hx
          omega
      · exact List.pairwise_cons.mpr ⟨fun _ _ => trivial, hpw⟩
    | false =>
      -- the cell that is written is not behind the one that was read
      have hnext : Ahead (Function.update buf cS c) (cS + 1 + w) rest := by
        rw [Nat.add_right_comm]
        exact hahead.tail.update (by omega) c
      obtain ⟨buf', log, hrun, hle, hge, hpw, hkeep⟩ := ih _ (cS + 1) w hnext
      refine ⟨buf', .read cS w :: .write cS :: log, fun fuel hf => ?_, ?_, ?_, ?_, fun i hi => ?_⟩
      · obtain ⟨fuel, rfl⟩ := Nat.exists_eq_succ_of_ne_zero (Nat.ne_of_gt (Nat.zero_lt_of_lt hf))
        unfold trimTraced
        rw [hahead.head, hstop, if_neg Bool.false_ne_true, hsp, if_neg Bool.false_ne_true,
          hrun fuel (by omega)]
        rfl
      · intro a ha
        rcases List.mem_cons.mp ha with rfl | ha
        · show cS + w ≤ _
          omega
        · rcases List.mem_cons.mp ha with rfl | ha
          · show cS ≤ _
            omega
          · have := hle a ha
            omega
      · intro i x hx
        rcases List.mem_cons.mp hx with he | hx
        · obtain ⟨rfl, rfl⟩ := Access.read.inj he
          exact Nat.le_refl _
        · have hmem : Access.read i x ∈ log := by simpa using hx
          have := hge i x hmem
          omega
      · refine List.pairwise_cons.mpr ⟨fun _ _ => trivial, List.pairwise_cons.mpr ⟨fun a ha => ?_, hpw⟩⟩
        cases a with
        | read i x =>
          have := hge i x ha
          show cS < i + x
          omega
        | write i => exact trivial
      · rw [hkeep i (by omega)]
        exact Function.update_of_ne (by omega) _ _

/-- A buffer, and the index of its first NUL. -/
structure CBuffer where
  cells : ℕ → Byte
  nul : ℕ
  cells_nul : cells nul = 0
  cells_ne_zero : ∀ i < nul, cells i ≠ 0

/-- The string in a buffer. -/
def CBuffer.text (s : CBuffer) : Bytes := Memory.window s.cells 0 s.nul

/-- The text in front of the end of the line, and what follows it. -/
theorem CBuffer.endsLine_text (s : CBuffer) :
    Memory.window s.cells 0 (s.text.takeWhile fun c => !endsLine c).length =
        s.text.takeWhile (fun c => !endsLine c) ∧
      (s.text.takeWhile fun c => !endsLine c).length ≤ s.nul ∧
      endsLine (s.cells (s.text.takeWhile fun c => !endsLine c).length) = true := by
  have hpre := List.takeWhile_prefix (l := s.text) fun c => !endsLine c
  have hlen : s.text.length = s.nul := Memory.length_window _ _ _
  have hle := hpre.length_le
  have hend := endsLine_getD_takeWhile s.text
  refine ⟨?_, by omega, ?_⟩
  · rw [← Memory.take_window s.cells 0 (hlen ▸ hle)]
    exact (List.prefix_iff_eq_take.mp hpre).symm
  · generalize (s.text.takeWhile fun c => !endsLine c).length = k at hle hend
    unfold CBuffer.text at hend
    rw [List.getD_eq_getElem?_getD, Memory.getElem?_window, Nat.zero_add] at hend
    split at hend
    · exact hend
    · -- the line ends with the string
      have hk : k = s.nul := by omega
      rw [hk, s.cells_nul]
      rfl

/-- **`trim_spaces` filters a buffer in place**: the loop ends, no cell behind the NUL is read or
written, no cell is read after it or a later one was written, and the bytes in front of the first
end of line that are no white space are left, with a NUL behind them. -/
theorem trim_in_place (s : CBuffer) : ∃ (r : CBuffer) (log : List Access),
    (∀ fuel, s.nul < fuel → trimTraced fuel s.cells 0 0 = some (r.cells, log)) ∧
      r.text = trimmed s.text ∧ (∀ a ∈ log, a.index ≤ s.nul) ∧ log.Pairwise Access.Untouched ∧
      ∀ i, s.nul < i → r.cells i = s.cells i := by
  obtain ⟨hwin, hle, hend⟩ := s.endsLine_text
  have hahead := ahead_takeWhile hwin hend
  obtain ⟨buf', log, hrun, hindex, -, hpw, hkeep⟩ := trimTraced_spec s.cells 0 0 hahead
  obtain ⟨buf'', n, hrounds, hn, htext, hz⟩ := trimRounds_spec s.cells (s.nul + 1) 0 0 hahead
    (by omega)
  -- both describe the same buffer
  have hsame : buf'' = buf' := by
    have hmap := map_fst_trimTraced (s.nul + 1) s.cells 0 0
    rw [hrun _ (by omega), hrounds] at hmap
    exact (Option.some.inj hmap).symm
  subst hsame
  rw [Memory.window_zero, List.nil_append] at htext
  have hpos : ∀ i < n, buf'' i ≠ 0 := by
    intro i hi h0
    have hmem : buf'' i ∈ Memory.window buf'' 0 n := by
      refine List.mem_iff_getElem?.mpr ⟨i, ?_⟩
      rw [Memory.getElem?_window, if_pos hi, Nat.zero_add]
    rw [htext, h0] at hmem
    exact zero_notMem_trimmed s.text hmem
  refine ⟨⟨buf'', n, hz, hpos⟩, log, fun fuel hf => hrun fuel (by omega), htext, fun a ha => ?_, hpw,
    fun i hi => hkeep i (by omega)⟩
  have := hindex a ha
  omega

end Config
end SrvAsync
