import SrvAsync.Base.Search
import Mathlib.Data.List.DropRight
import Mathlib.Tactic.Ring

/-!
# Byte strings

The helpers of `srv_http_msg.cpp` on byte strings, and the parts of the standard
library the http code uses on them: `std::string_view::find` and `rfind`,
`std::from_chars` on a `size_t`, and the decimal output of an integer.

## Main definitions

* `toLower`, `containsCi`, `trimSpaces` — the helpers of namespace `srv_http`.
* `findByte`, `rfindByte` — the two searches for one character.
* `fromChars`, `decimal` — reading and printing a `size_t`.
-/

namespace SrvAsync

/-- A byte of a message. -/
abbrev Byte := UInt8

/-- A byte string. -/
abbrev Bytes := List Byte

/-- The bytes of an ASCII literal of the source. -/
def ascii (s : String) : Bytes := s.toList.map fun c => UInt8.ofNat c.toNat

/-- Carriage return. -/
def CR : Byte := 13

/-- Line feed. -/
def LF : Byte := 10

/-- The space character. -/
def SP : Byte := 32

/-- `CRLF`, the end of a line. -/
def crlf : Bytes := [CR, LF]

/-- `HEADERS_END`, the end of a header section. -/
def headersEnd : Bytes := [CR, LF, CR, LF]

theorem crlf_ne_nil : crlf ≠ [] := List.cons_ne_nil _ _

theorem headersEnd_ne_nil : headersEnd ≠ [] := List.cons_ne_nil _ _

namespace Http

/-- `std::tolower` of the C locale. -/
def tolower (c : Byte) : Byte := if 65 ≤ c ∧ c ≤ 90 then c + 32 else c

/-- `to_lower`. -/
def toLower (s : Bytes) : Bytes := s.map tolower

/-- The inner loop of `contains_ci` at alignment `i`: the value of `j` when it
stops.  The first argument bounds the rounds; `needle.length` of them are
enough. -/
def ciMatch (haystack needle : Bytes) (i : ℕ) : ℕ → ℕ → ℕ
  | 0, j => j
  | fuel + 1, j =>
    if j < needle.length ∧ tolower (haystack.getD (i + j) 0) = tolower (needle.getD j 0) then
      ciMatch haystack needle i fuel (j + 1)
    else j

/-- `contains_ci`: case-insensitive search of `needle` inside `haystack`. -/
def containsCi (haystack needle : Bytes) : Bool :=
  if needle.isEmpty || decide (haystack.length < needle.length) then false
  else (List.range (haystack.length - needle.length + 1)).any fun i =>
    ciMatch haystack needle i needle.length 0 == needle.length

/-- `trim_spaces` of `srv_http_msg.cpp`: drop spaces, and only spaces, at both ends. -/
def trimSpaces (s : Bytes) : Bytes := (s.dropWhile (· == SP)).rdropWhile (· == SP)

/-- Spaces in front of a text do not count. -/
theorem trimSpaces_append_left {a : Bytes} (h : ∀ c ∈ a, c = SP) (s : Bytes) :
    trimSpaces (a ++ s) = trimSpaces s := by
  have hp : ∀ c ∈ a, (c == SP) = true := fun c hc => beq_iff_eq.mpr (h c hc)
  unfold trimSpaces
  rw [List.dropWhile_append_of_pos hp]

/-- Spaces behind a text do not count. -/
theorem trimSpaces_append_right {b : Bytes} (h : ∀ c ∈ b, c = SP) (s : Bytes) :
    trimSpaces (s ++ b) = trimSpaces s := by
  have hp : ∀ c ∈ b, (c == SP) = true := fun c hc => beq_iff_eq.mpr (h c hc)
  have hright : ∀ t : Bytes, (t ++ b).rdropWhile (· == SP) = t.rdropWhile (· == SP) := by
    intro t
    unfold List.rdropWhile
    rw [List.reverse_append, List.dropWhile_append_of_pos fun c hc => hp c (List.mem_reverse.mp hc)]
  unfold trimSpaces
  rw [List.dropWhile_append]
  split
  · next hnil =>
    rw [List.isEmpty_iff.mp hnil, List.dropWhile_eq_nil_iff.mpr hp]
  · exact hright _

/-- Only spaces are dropped. -/
theorem count_trimSpaces {c : Byte} (hc : c ≠ SP) (s : Bytes) : (trimSpaces s).count c = s.count c := by
  have hleft : (s.dropWhile (· == SP)).count c = s.count c := by
    have hzero : (s.takeWhile (· == SP)).count c = 0 :=
      List.count_eq_zero.mpr fun h => hc (eq_of_beq (List.mem_takeWhile_imp (p := (· == SP)) h))
    conv_rhs => rw [← List.takeWhile_append_dropWhile (p := (· == SP)) (l := s), List.count_append]
    rw [hzero, Nat.zero_add]
  have hright : ∀ t : Bytes, (t.rdropWhile (· == SP)).count c = t.count c := by
    intro t
    have hzero : (t.rtakeWhile (· == SP)).count c = 0 :=
      List.count_eq_zero.mpr fun h => hc (eq_of_beq (List.mem_rtakeWhile_imp (p := (· == SP)) h))
    conv_rhs => rw [← List.rdropWhile_append_rtakeWhile (p := (· == SP)) (l := t), List.count_append]
    rw [hzero, Nat.add_zero]
  unfold trimSpaces
  rw [hright, hleft]

/-- A text that was trimmed has no space at its ends. -/
theorem trimSpaces_trimSpaces (s : Bytes) : trimSpaces (trimSpaces s) = trimSpaces s := by
  have hhead : (trimSpaces s).dropWhile (· == SP) = trimSpaces s := by
    cases ht : trimSpaces s with
    | nil => rfl
    | cons b t =>
      -- the first byte of the result is the first one that is not dropped
      have hb : ¬ (b == SP) = true := by
        obtain ⟨u, hu⟩ : trimSpaces s <+: s.dropWhile (· == SP) := List.rdropWhile_prefix _ _
        have hnot := List.head?_dropWhile_not (· == SP) s
        rw [← hu, ht, List.cons_append, List.head?_cons] at hnot
        exact Bool.eq_false_iff.mp hnot
      exact List.dropWhile_cons_of_neg hb
  have htail : (trimSpaces s).rdropWhile (· == SP) = trimSpaces s := List.rdropWhile_idempotent _ _
  change ((trimSpaces s).dropWhile (· == SP)).rdropWhile (· == SP) = _
  rw [hhead, htail]

/-- `std::string_view::find` of one character. -/
def findByte (c : Byte) (s : Bytes) : Option ℕ := s.findIdx? (· == c)

/-- `std::string_view::rfind` of one character. -/
def rfindByte (c : Byte) (s : Bytes) : Option ℕ :=
  (s.reverse.findIdx? (· == c)).map fun i => s.length - 1 - i

/-- What is found is the first one. -/
theorem findByte_eq_some_iff {c : Byte} {s : Bytes} {i : ℕ} :
    findByte c s = some i ↔ ∃ l t, s = l ++ c :: t ∧ c ∉ l ∧ l.length = i := by
  unfold findByte
  induction s generalizing i with
  | nil => simp
  | cons b s ih =>
    rw [List.findIdx?_cons]
    by_cases hb : (b == c) = true
    · rw [if_pos hb]
      obtain rfl := eq_of_beq hb
      constructor
      · intro h
        exact ⟨[], s, rfl, List.not_mem_nil, Option.some.inj h⟩
      · rintro ⟨l, t, hs, hl, rfl⟩
        cases l with
        | nil => rfl
        | cons a l =>
          obtain rfl := (List.cons.inj hs).1
          exact absurd List.mem_cons_self hl
    · rw [if_neg hb]
      constructor
      · intro h
        obtain ⟨j, hj, rfl⟩ := Option.map_eq_some_iff.mp h
        obtain ⟨l, t, rfl, hl, rfl⟩ := ih.mp hj
        refine ⟨b :: l, t, rfl, ?_, rfl⟩
        intro hc
        rcases List.mem_cons.mp hc with rfl | hc
        · exact hb (beq_self_eq_true _)
        · exact hl hc
      · rintro ⟨l, t, hs, hl, rfl⟩
        cases l with
        | nil =>
          obtain rfl := (List.cons.inj hs).1
          exact absurd (beq_self_eq_true _) hb
        | cons a l =>
          obtain ⟨rfl, rfl⟩ := List.cons.inj hs
          have hl' : c ∉ l := fun hc => hl (List.mem_cons_of_mem _ hc)
          exact Option.map_eq_some_iff.mpr ⟨l.length, ih.mpr ⟨l, t, rfl, hl', rfl⟩, rfl⟩

theorem findByte_eq_none_iff {c : Byte} {s : Bytes} : findByte c s = none ↔ c ∉ s := by
  unfold findByte
  rw [List.findIdx?_eq_none_iff]
  constructor
  · intro h hc
    exact absurd (h c hc) (by simp)
  · intro h b hb
    apply beq_false_of_ne
    rintro rfl
    exact h hb

/-- What is found from the end is the last one. -/
theorem rfindByte_eq_some_iff {c : Byte} {s : Bytes} {i : ℕ} :
    rfindByte c s = some i ↔ ∃ l t, s = l ++ c :: t ∧ c ∉ t ∧ l.length = i := by
  have hrev : rfindByte c s = (findByte c s.reverse).map fun i => s.length - 1 - i := rfl
  rw [hrev, Option.map_eq_some_iff]
  constructor
  · rintro ⟨j, hj, rfl⟩
    obtain ⟨t, l, hs, ht, rfl⟩ := findByte_eq_some_iff.mp hj
    have hs' : s = l.reverse ++ c :: t.reverse := by
      have := congrArg List.reverse hs
      rw [List.reverse_reverse, List.reverse_append, List.reverse_cons, List.append_assoc] at this
      exact this
    refine ⟨l.reverse, t.reverse, hs', fun hc => ht (List.mem_reverse.mp hc), ?_⟩
    rw [hs']
    simp
  · rintro ⟨l, t, rfl, ht, rfl⟩
    refine ⟨t.length, findByte_eq_some_iff.mpr ⟨t.reverse, l.reverse, ?_, ?_, ?_⟩, ?_⟩
    · simp
    · exact fun hc => ht (List.mem_reverse.mp hc)
    · simp
    · simp

/-- The errors of `std::from_chars`. -/
inductive Errc
  /-- No digit at the start of the range. -/
  | invalidArgument
  /-- The number does not fit the type. -/
  | resultOutOfRange
  deriving DecidableEq, Repr

/-- Is the byte a decimal digit? -/
def isDigit (c : Byte) : Bool := decide (48 ≤ c ∧ c ≤ 57)

/-- The number a string of digits denotes. -/
def digitsValue (s : Bytes) : ℕ := s.foldl (fun n c => 10 * n + (c.toNat - 48)) 0

/-- `std::from_chars` into a 64-bit `size_t`: the number the longest decimal
prefix denotes, and how many characters it has. -/
def fromChars (s : Bytes) : Except Errc (ℕ × ℕ) :=
  let ds := s.takeWhile isDigit
  if ds.isEmpty then .error .invalidArgument
  else if digitsValue ds < 2 ^ 64 then .ok (digitsValue ds, ds.length)
  else .error .resultOutOfRange

/-- An integer as `operator<<` and `std::to_string` print it. -/
def decimal (n : ℕ) : Bytes := (Nat.toDigits 10 n).map fun c => UInt8.ofNat c.toNat

theorem toNat_of_mem_toDigits {n : ℕ} {c : Char} (h : c ∈ Nat.toDigits 10 n) :
    48 ≤ c.toNat ∧ c.toNat ≤ 57 :=
  Char.isDigit_iff_toNat.mp (Nat.isDigit_of_mem_toDigits (by decide) (by decide) h)

/-- A decimal has digits only. -/
theorem isDigit_of_mem_decimal {n : ℕ} {c : Byte} (h : c ∈ decimal n) : isDigit c = true := by
  obtain ⟨d, hd, rfl⟩ := List.mem_map.mp h
  obtain ⟨hle, hge⟩ := toNat_of_mem_toDigits hd
  refine decide_eq_true ⟨?_, ?_⟩
  · rw [UInt8.le_iff_toNat_le, UInt8.toNat_ofNat']
    change 48 ≤ d.toNat % 256
    omega
  · rw [UInt8.le_iff_toNat_le, UInt8.toNat_ofNat']
    change d.toNat % 256 ≤ 57
    omega

/-- **A decimal denotes its number.** -/
theorem digitsValue_decimal (n : ℕ) : digitsValue (decimal n) = n := by
  have hfold : ∀ (ds : List Char), (∀ c ∈ ds, c.toNat < 256) → ∀ k,
      (ds.map fun c => UInt8.ofNat c.toNat).foldl (fun n c => 10 * n + (c.toNat - 48)) k
        = Nat.ofDigitChars 10 ds k := by
    intro ds
    induction ds with
    | nil =>
      intro _ k
      rw [Nat.ofDigitChars_nil]
      rfl
    | cons c ds ih =>
      intro hds k
      have hc : (UInt8.ofNat c.toNat).toNat = c.toNat := by
        rw [UInt8.toNat_ofNat']
        exact Nat.mod_eq_of_lt (hds c List.mem_cons_self)
      rw [List.map_cons, List.foldl_cons, hc, ih fun d hd => hds d (List.mem_cons_of_mem c hd),
        Nat.ofDigitChars_cons]
      rfl
  have hlt : ∀ c ∈ Nat.toDigits 10 n, c.toNat < 256 := by
    intro c hc
    obtain ⟨-, hge⟩ := toNat_of_mem_toDigits hc
    omega
  unfold digitsValue decimal
  rw [hfold _ hlt, Nat.ofDigitChars_ten_toDigits]

example : fromChars (ascii "0042x") = .ok (42, 4) := by rfl

example : containsCi (ascii "Keep-Alive, TE") (ascii "keep-alive") = true := by decide

end Http
end SrvAsync
