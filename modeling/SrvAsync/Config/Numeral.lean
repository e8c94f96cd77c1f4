import SrvAsync.Config.Settings
import SrvAsync.Http.Fields

/-!
# Numbers in the configuration

`parse_range_value` looks at what `atoi` makes of a value: the number at its beginning, limited to
a `long` and truncated to an `int`.  What follows that number does not count, and a number that is
too large can come back into the range.

## Main definitions

* `Number` — the settings with a number, their keys, letters and ranges.
* `IsNumeral`, `leadingNumber` — a signed numeral, and the number at the beginning of a string.
* `ComesInto` — the number comes into a range when it is truncated.
* `AcceptsExactly` — a numeral in the range is stored, and everything else is rejected.

## Main results

* `atoi_mem_iff` — what the range check sees.
* `numeric_accepted_iff` — **when exactly the valid values are accepted**.
* `wrapped_port` — a port that is too large is accepted.
-/

namespace SrvAsync
namespace Config

open Http

variable {env : ℕ → LogAnswer}

/-! ### The settings with a number -/

/-- A setting with a number. -/
inductive Number
  | port
  | numWorkers
  | logLevel
  deriving DecidableEq, Repr

namespace Number

/-- The setting. -/
def setting : Number → Setting
  | .port => .port
  | .numWorkers => .numWorkers
  | .logLevel => .logLevel

/-- Its key in the config file. -/
def key : Number → Bytes
  | .port => ascii "port"
  | .numWorkers => ascii "num_workers"
  | .logLevel => ascii "log_level"

/-- Its letter on the command line. -/
def letter : Number → Byte
  | .port => 112
  | .numWorkers => 119
  | .logLevel => 108

/-- The smallest value. -/
def min : Number → ℤ
  | .port => 1
  | .numWorkers => 1
  | .logLevel => logError

/-- The largest value. -/
def max : Number → ℤ
  | .port => 65535
  | .numWorkers => maxNumWorkers
  | .logLevel => logInfo2

/-- Its name in a message. -/
def pName : Number → String
  | .port => "port"
  | .numWorkers => "num_workers"
  | .logLevel => "log_level"

/-- Its field. -/
def get : Number → SrvConfig → ℤ
  | .port, c => c.port
  | .numWorkers, c => c.numWorkers
  | .logLevel, c => c.logLevel

/-- A store to its field. -/
def set : Number → ℤ → SrvConfig → SrvConfig
  | .port, n, c => { c with port := n }
  | .numWorkers, n, c => { c with numWorkers := n }
  | .logLevel, n, c => { c with logLevel := n }

theorem min_nonneg (k : Number) : 0 ≤ k.min := by cases k <;> decide

theorem max_lt (k : Number) : k.max < 2 ^ 31 := by cases k <;> decide

@[simp] theorem get_set (k : Number) (n : ℤ) (c : SrvConfig) : k.get (k.set n c) = n := by
  cases k <;> rfl

theorem get_set_of_ne {k k' : Number} (h : k' ≠ k) (n : ℤ) (c : SrvConfig) :
    k'.get (k.set n c) = k'.get c := by
  cases k <;> cases k' <;> first | exact absurd rfl h | rfl

end Number

/-- Both parsers check a number the same way. -/
theorem assign_setting (k : Number) (v : Bytes) (isConfig : Bool) :
    assign env k.setting v isConfig = storeRangeValue k.set v k.min k.max k.pName isConfig := by
  cases k <;> rfl

/-- The option of a number. -/
theorem optSetting_letter (k : Number) (v : Bytes) : optSetting ⟨k.letter, v⟩ = some (k.setting, v) := by
  cases k <;> rfl

/-- A line with the key of a number and a value. -/
theorem lineSetting_key {k : Number} {v line : Bytes} (h : trimmed line = k.key ++ 58 :: v) :
    lineSetting line = if v = [] then none else some (k.setting, v) := by
  have hno : 58 ∉ k.key := by cases k <;> decide
  have hhead : (k.key ++ 58 :: v).head? ≠ some 35 := by
    cases k <;> simp [Number.key, ascii]
  have hfind : findByte 58 (k.key ++ 58 :: v) = some k.key.length :=
    findByte_eq_some_iff.mpr ⟨k.key, v, rfl, hno, rfl⟩
  have hkey : keySetting k.key = some k.setting := by cases k <;> rfl
  unfold lineSetting
  simp only [h]
  rw [if_neg hhead, hfind, Option.bind_some, List.drop_length_add_append, List.take_left, hkey]
  rfl

/-! ### Numerals -/

/-- An optionally signed decimal numeral, and its value. -/
inductive IsNumeral : Bytes → ℤ → Prop
  | plain {ds : Bytes} (h : IsDecimal ds) : IsNumeral ds (digitsValue ds)
  | plus {ds : Bytes} (h : IsDecimal ds) : IsNumeral (43 :: ds) (digitsValue ds)
  | minus {ds : Bytes} (h : IsDecimal ds) : IsNumeral (45 :: ds) (-digitsValue ds)

/-- The number that stands at the beginning of a string, behind its white space; zero when there is
none. -/
def leadingNumber (s : Bytes) : ℤ :=
  let s := s.dropWhile isspace
  let ds := if s.head? = some 45 ∨ s.head? = some 43 then s.tail else s
  let n : ℤ := digitsValue (ds.takeWhile isDigit)
  if s.head? = some 45 then -n else n

/-- A number comes into a range when it is limited to 64 bits and the low 32 of them are kept. -/
def ComesInto (lo hi n : ℤ) : Prop :=
  n < 2 ^ 63 ∧ lo ≤ max n (-2 ^ 63) % 2 ^ 32 ∧ max n (-2 ^ 63) % 2 ^ 32 ≤ hi

instance (lo hi n : ℤ) : Decidable (ComesInto lo hi n) :=
  inferInstanceAs (Decidable (n < 2 ^ 63 ∧ _))

/-- `strtol` limits the number at the beginning. -/
theorem strtol_eq (s : Bytes) : strtol s = max (-2 ^ 63) (min (2 ^ 63 - 1) (leadingNumber s)) := by
  unfold strtol leadingNumber
  generalize s.dropWhile isspace = t
  simp only
  split <;> omega

/-- **What the range check sees.** -/
theorem atoi_mem_iff {lo hi : ℤ} (hlo : 0 ≤ lo) (hhi : hi < 2 ^ 31) (s : Bytes) :
    (lo ≤ atoi s ∧ atoi s ≤ hi ↔ ComesInto lo hi (leadingNumber s)) ∧
      (ComesInto lo hi (leadingNumber s) → atoi s = max (leadingNumber s) (-2 ^ 63) % 2 ^ 32) := by
  unfold atoi ComesInto
  rw [strtol_eq, Int.bmod_def]
  generalize leadingNumber s = n
  push_cast
  norm_num
  split <;> omega

/-! ### What the number at the beginning is -/

/-- A digit is no white space, and no sign. -/
theorem not_isspace_of_isDigit {c : Byte} (h : isDigit c = true) :
    isspace c = false ∧ c ≠ 45 ∧ c ≠ 43 := by
  have hc : 48 ≤ c ∧ c ≤ 57 := of_decide_eq_true h
  have hlow : 48 ≤ c.toNat := UInt8.le_iff_toNat_le.mp hc.1
  refine ⟨?_, ?_, ?_⟩
  · refine decide_eq_false ?_
    rintro (rfl | ⟨-, hle⟩)
    · exact absurd hlow (by decide)
    · have hle' : c.toNat ≤ 13 := UInt8.le_iff_toNat_le.mp hle
      omega
  · rintro rfl
    exact absurd hlow (by decide)
  · rintro rfl
    exact absurd hlow (by decide)

/-- A string that begins with no white space, and has digits behind its sign. -/
theorem leadingNumber_cons {c : Byte} (hc : isspace c = false) (s : Bytes) :
    leadingNumber (c :: s) =
      if c = 45 then -(digitsValue (s.takeWhile isDigit) : ℤ)
      else if c = 43 then digitsValue (s.takeWhile isDigit)
      else digitsValue ((c :: s).takeWhile isDigit) := by
  unfold leadingNumber
  rw [List.dropWhile_cons_of_neg (by rw [hc]; decide)]
  by_cases hminus : c = 45
  · subst hminus
    rfl
  · by_cases hplus : c = 43
    · subst hplus
      rfl
    · simp [hminus, hplus]

/-- **The number at the beginning of a numeral is its value.** -/
theorem IsNumeral.leadingNumber_eq {v : Bytes} {n : ℤ} (h : IsNumeral v n) : leadingNumber v = n := by
  have htake : ∀ {ds : Bytes}, IsDecimal ds → ds.takeWhile isDigit = ds := fun h =>
    List.takeWhile_eq_self_iff.mpr h.2
  cases h with
  | plain h =>
    obtain ⟨c, ds, rfl⟩ := List.exists_cons_of_ne_nil h.1
    obtain ⟨hsp, hminus, hplus⟩ := not_isspace_of_isDigit (h.2 c List.mem_cons_self)
    rw [leadingNumber_cons hsp, if_neg hminus, if_neg hplus, htake h]
  | plus h =>
    rw [leadingNumber_cons (by decide), if_neg (by decide), if_pos rfl, htake h]
  | minus h =>
    rw [leadingNumber_cons (by decide), if_pos rfl, htake h]

/-! ### Accepted values -/

/-- The value of a setting with a number is treated as it should be: a numeral in the range is
stored in its field, and everything else is rejected with an error. -/
structure AcceptsExactly (k : Number) (v : Bytes) (s : Proc) (r : ℤ × Proc) : Prop where
  valid : ∀ n, IsNumeral v n → k.min ≤ n → n ≤ k.max →
    r = (0, { s with config := k.set n s.config })
  invalid : (∀ n, IsNumeral v n → ¬ (k.min ≤ n ∧ n ≤ k.max)) →
    r.1 < 0 ∧ ∃ d, r.2 = s.complain d

/-- The value is a numeral in the range, or the number at its beginning does not come into the
range. -/
def Number.Reads (k : Number) (v : Bytes) : Prop :=
  (∃ n, IsNumeral v n ∧ k.min ≤ n ∧ n ≤ k.max) ∨ ¬ ComesInto k.min k.max (leadingNumber v)

/-- **A value for a setting with a number.** -/
theorem acceptsExactly_assign_iff (k : Number) (v : Bytes) (isConfig : Bool) (s : Proc) :
    AcceptsExactly k v s (assign env k.setting v isConfig s) ↔ k.Reads v := by
  obtain ⟨hmem, hval⟩ := atoi_mem_iff k.min_nonneg k.max_lt v
  have hlow := k.min_nonneg
  have hhigh := k.max_lt
  rw [assign_setting]
  by_cases hin : ComesInto k.min k.max (leadingNumber v)
  · -- the number comes into the range, so the value is stored
    have hstore : storeRangeValue k.set v k.min k.max k.pName isConfig s =
        (0, { s with config := k.set (atoi v) s.config }) := storeRangeValue_of_mem (hmem.mpr hin)
    rw [hstore]
    constructor
    · intro h
      by_contra hno
      have hinvalid := h.invalid fun n hn hr => hno (.inl ⟨n, hn, hr⟩)
      exact absurd hinvalid.1 (Int.lt_irrefl 0)
    · rintro (⟨n, hn, hle, hge⟩ | hout)
      · refine ⟨fun n' hn' hle' hge' => ?_, fun h => absurd ⟨hle, hge⟩ (h n hn)⟩
        have hatoi : atoi v = n' := by
          rw [hval hin, hn'.leadingNumber_eq]
          omega
        rw [hatoi]
      · exact absurd hin hout
  · -- it is rejected with an error
    have hreject : storeRangeValue k.set v k.min k.max k.pName isConfig s =
        (-ERANGE, s.complain (.range (atoi v) k.pName isConfig k.min k.max)) :=
      storeRangeValue_of_not_mem (mt hmem.mp hin)
    have hneg : -ERANGE < 0 := by decide
    rw [hreject]
    refine iff_of_true ⟨fun n hn hle hge => ?_, fun _ => ⟨hneg, _, rfl⟩⟩ (.inr hin)
    -- a numeral in the range comes into it
    refine absurd ?_ hin
    rw [hn.leadingNumber_eq]
    unfold ComesInto
    omega

/-- **When exactly the valid values are accepted**: on the command line, and in a line of the config
file whose text is a key, a colon and a value. -/
theorem numeric_accepted_iff (env : ℕ → LogAnswer) (k : Number) (v : Bytes) (s : Proc) :
    (AcceptsExactly k v s (parseSrvCmdlineOpt env ⟨k.letter, v⟩ s) ↔ k.Reads v) ∧
      ∀ line, trimmed line = k.key ++ 58 :: v →
        (AcceptsExactly k v s (parseSrvConfigLine env line s) ↔ v ≠ [] ∧ k.Reads v) := by
  constructor
  · rw [parseSrvCmdlineOpt_eq, optSetting_letter]
    exact acceptsExactly_assign_iff k v false s
  · intro line hline
    rw [parseSrvConfigLine_eq, lineSetting_key hline]
    by_cases hnil : v = []
    · -- a line without a value is skipped
      subst hnil
      refine iff_of_false (fun h => ?_) fun h => h.1 rfl
      have hempty : ∀ n, ¬ IsNumeral [] n := by
        intro n hn
        cases hn with
        | plain h => exact h.1 rfl
      exact absurd (h.invalid fun n hn => absurd hn (hempty n)).1 (Int.lt_irrefl 0)
    · rw [if_neg hnil]
      exact (acceptsExactly_assign_iff k v true s).trans (and_iff_right hnil).symm

/-- A signed numeral, with blanks in the line. -/
theorem numeric_accepted_iff_port :
    parseSrvConfigLine (fun _ => .opened) (ascii "port : +080") initSrvConfigDefault =
      (0, { initSrvConfigDefault with config := { initSrvConfigDefault.config with port := 80 } }) := by
  have hnum : IsNumeral (ascii "+080") 80 := .plus (show IsDecimal (ascii "080") by decide)
  have hline : trimmed (ascii "port : +080") = Number.port.key ++ 58 :: ascii "+080" := by decide
  have hiff := (numeric_accepted_iff (fun _ => .opened) .port (ascii "+080") initSrvConfigDefault).2 _
    hline
  exact (hiff.mpr ⟨by decide, .inl ⟨80, hnum, by decide, by decide⟩⟩).valid 80 hnum (by decide)
    (by decide)

/-- **A port that is too large is accepted** when it comes back into the range, and so are a port
with other text behind it and a log level without a digit. -/
theorem wrapped_port :
    (∀ env s, parseSrvCmdlineOpt env ⟨112, ascii "4294967376"⟩ s =
      (0, { s with config := { s.config with port := 80 } })) ∧
    (∀ env s, parseSrvCmdlineOpt env ⟨112, ascii "80abc"⟩ s =
      (0, { s with config := { s.config with port := 80 } })) ∧
    (∀ env s, parseSrvCmdlineOpt env ⟨108, ascii "high"⟩ s =
      (0, { s with config := { s.config with logLevel := 0 } })) ∧
    ¬ ∀ (env : ℕ → LogAnswer) (k : Number) (v : Bytes) (s : Proc),
      AcceptsExactly k v s (parseSrvCmdlineOpt env ⟨k.letter, v⟩ s) := by
  have hport : ∀ {v : Bytes}, atoi v = 80 → ∀ env s, parseSrvCmdlineOpt env ⟨112, v⟩ s =
      (0, { s with config := { s.config with port := 80 } }) := by
    intro v hv env s
    have hstore : storePort v false s = (0, { s with config := { s.config with port := atoi v } }) :=
      storeRangeValue_of_mem (by rw [hv]; decide)
    rw [hv] at hstore
    exact hstore
  refine ⟨hport (by decide), hport (by decide), fun env s => ?_, fun h => ?_⟩
  · have hv : atoi (ascii "high") = 0 := by decide
    have hstore : storeLogLevel (ascii "high") false s =
        (0, { s with config := { s.config with logLevel := atoi (ascii "high") } }) :=
      storeRangeValue_of_mem (by rw [hv]; decide)
    rw [hv] at hstore
    exact hstore
  · have hvalid := h (fun _ => .opened) .port (ascii "4294967376") initSrvConfigDefault
    have hrejected := (hvalid.invalid fun n hn hr => ?_).1
    · rw [show Number.port.letter = 112 from rfl, hport (by decide)] at hrejected
      exact absurd hrejected (Int.lt_irrefl 0)
    · have hlead : leadingNumber (ascii "4294967376") = 4294967376 := by decide
      have hle : n ≤ 65535 := hr.2
      have heq := hn.leadingNumber_eq
      omega

end Config
end SrvAsync
