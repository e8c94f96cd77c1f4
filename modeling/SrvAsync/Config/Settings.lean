import SrvAsync.Config.Parse

/-!
# Settings

A line of the config file and an option of the command line do the same thing when they are about
the same setting: the two parsers differ in how they find the setting and its value, and in
whether an error message names the file or the command line.

## Main definitions

* `Setting`, `assign` — a setting, and what it does with a value.
* `lineSetting`, `optSetting` — which setting a line or an option makes.

## Main results

* `assign_cases` — **what a setting can do**.
* `parseSrvConfigLine_eq`, `parseSrvCmdlineOpt_eq` — the two parsers.
-/

namespace SrvAsync
namespace Config

open Http

/-- The settings that have a value. -/
inductive Setting
  | port
  | numWorkers
  | logFile
  | logLevel
  deriving DecidableEq, Repr

variable (env : ℕ → LogAnswer)

/-- A value for a setting. -/
def assign (k : Setting) (v : Bytes) (isConfig : Bool) : Proc → ℤ × Proc :=
  match k with
  | .port => storePort v isConfig
  | .numWorkers => storeNumWorkers v isConfig
  | .logFile => parseLogFileName env v isConfig
  | .logLevel => storeLogLevel v isConfig

/-- The setting with this key in the config file. -/
def keySetting (key : Bytes) : Option Setting :=
  if key = ascii "port" then some .port
  else if key = ascii "num_workers" then some .numWorkers
  else if key = ascii "log_file" then some .logFile
  else if key = ascii "log_level" then some .logLevel
  else none

/-- The setting that a line makes, and its value. -/
def lineSetting (line : Bytes) : Option (Setting × Bytes) :=
  let text := trimmed line
  if text.head? = some 35 then none
  else
    (findByte 58 text).bind fun n =>
      if text.drop (n + 1) = [] then none
      else (keySetting (text.take n)).map fun k => (k, text.drop (n + 1))

/-- The setting that an option makes, and its value. -/
def optSetting (o : Opt) : Option (Setting × Bytes) :=
  if o.c = 119 then some (.numWorkers, o.optarg)
  else if o.c = 112 then some (.port, o.optarg)
  else if o.c = 102 then some (.logFile, o.optarg)
  else if o.c = 108 then some (.logLevel, o.optarg)
  else none

variable {env}

/-! ### What a setting does -/

/-- A value in its range is stored. -/
theorem storeRangeValue_of_mem {store : ℤ → SrvConfig → SrvConfig} {v : Bytes} {min max : ℤ}
    {pName : String} {isConfig : Bool} {s : Proc} (h : min ≤ atoi v ∧ atoi v ≤ max) :
    storeRangeValue store v min max pName isConfig s =
      (0, { s with config := store (atoi v) s.config }) := by
  have hrange : parseRangeValue v min max pName isConfig s = (.ok (atoi v), s) :=
    if_neg (by omega)
  unfold storeRangeValue
  rw [hrange]

/-- A value that is not in its range leaves `SRV_CONFIG` as it is. -/
theorem storeRangeValue_of_not_mem {store : ℤ → SrvConfig → SrvConfig} {v : Bytes} {min max : ℤ}
    {pName : String} {isConfig : Bool} {s : Proc} (h : ¬ (min ≤ atoi v ∧ atoi v ≤ max)) :
    storeRangeValue store v min max pName isConfig s =
      (-ERANGE, s.complain (.range (atoi v) pName isConfig min max)) := by
  have hrange : parseRangeValue v min max pName isConfig s =
      (.error (-ERANGE), s.complain (.range (atoi v) pName isConfig min max)) :=
    if_pos (by omega)
  unfold storeRangeValue
  rw [hrange]

/-- What a setting of a number can do: the value is stored, or nothing changes. -/
theorem storeRangeValue_cases (store : ℤ → SrvConfig → SrvConfig) (v : Bytes) (min max : ℤ)
    (pName : String) (isConfig : Bool) (s : Proc) :
    (∃ val, storeRangeValue store v min max pName isConfig s =
      (0, { s with config := store val s.config })) ∨
    ∃ d, storeRangeValue store v min max pName isConfig s = (-ERANGE, s.complain d) := by
  by_cases h : min ≤ atoi v ∧ atoi v ≤ max
  · exact .inl ⟨_, storeRangeValue_of_mem h⟩
  · exact .inr ⟨_, storeRangeValue_of_not_mem h⟩

variable (env) in
/-- What a setting of the log file can do. -/
theorem parseLogFileName_cases (v : Bytes) (isConfig : Bool) (s : Proc) :
    (env s.asked = .opened ∧ ∃ s', parseLogFileName env v isConfig s = (0, s') ∧
      s'.config = { s.config with
        logFileName := some s.blocks.length, logFileDesc := some (.file s.files.length) } ∧
      s'.blocks = s.blocks ++ [v] ∧ s'.files = s.files ++ [v]) ∨
    (∃ e : Errno, env s.asked = .notOpened e ∧
      ∃ s', parseLogFileName env v isConfig s = (-e.val, s') ∧
        s'.config = { s.config with logFileName := some s.blocks.length, logFileDesc := none } ∧
        s'.blocks = s.blocks ++ [v] ∧ s'.files = s.files) ∨
    (env s.asked = .noMemory ∧ ∃ s', parseLogFileName env v isConfig s = (-ENOMEM, s') ∧
      s'.config = { s.config with logFileName := none } ∧ s'.blocks = s.blocks ∧
      s'.files = s.files) := by
  unfold parseLogFileName
  cases h : env s.asked with
  | opened => exact .inl ⟨rfl, _, rfl, rfl, rfl, rfl⟩
  | notOpened e => exact .inr (.inl ⟨e, rfl, _, rfl, rfl, rfl, rfl⟩)
  | noMemory => exact .inr (.inr ⟨rfl, _, rfl, rfl, rfl, rfl⟩)

/-! ### The two parsers -/

/-- No line end is left in the text that `trim_spaces` leaves. -/
theorem LF_not_mem_trimmed (line : Bytes) : LF ∉ trimmed line := by
  intro h
  have hmem := List.mem_of_mem_filter h
  have hline := List.mem_takeWhile_imp (p := fun c => !endsLine c) hmem
  exact absurd hline (by decide)

/-- **A line of the config file.** -/
theorem parseSrvConfigLine_eq (line : Bytes) (s : Proc) :
    parseSrvConfigLine env line s =
      match lineSetting line with
      | none => (0, s)
      | some kv => assign env kv.1 kv.2 true s := by
  have hno := LF_not_mem_trimmed line
  rw [parseSrvConfigLine_trimmed]
  unfold parseTrimmedLine lineSetting
  generalize trimmed line = text at hno
  have hhead : text.head? ≠ some LF := fun h => hno (List.mem_of_mem_head? h)
  by_cases hcomment : text.head? = some 35
  · rw [if_pos (.inr (.inr hcomment)), if_pos hcomment]
  · rw [if_neg hcomment]
    cases hf : findByte 58 text with
    | none => split <;> rfl
    | some n =>
      have hnil : text ≠ [] := by
        rintro rfl
        cases hf
      rw [if_neg (by simp [hnil, hhead, hcomment])]
      -- `trim_spaces` left no LF, so the checks for one fail
      have hval : (text.drop (n + 1)).head? ≠ some LF := fun h =>
        hno (List.mem_of_mem_drop (List.mem_of_mem_head? h))
      simp only [Option.bind_some]
      by_cases hv : text.drop (n + 1) = []
      · rw [if_pos (.inl hv), if_pos hv]
      · rw [if_neg (not_or.mpr ⟨hv, hval⟩), if_neg hv]
        unfold keySetting
        split_ifs <;> rfl

/-- **An option of the command line.** -/
theorem parseSrvCmdlineOpt_eq (o : Opt) (s : Proc) :
    parseSrvCmdlineOpt env o s =
      match optSetting o with
      | none => (if o.c = 104 then 0 else -EINVAL, { s with config := { s.config with help := true } })
      | some kv => assign env kv.1 kv.2 false s := by
  unfold parseSrvCmdlineOpt optSetting
  split_ifs <;> rfl

/-! ### Codes -/

/-- The code of a setting is zero or negative. -/
theorem assign_ret (k : Setting) (v : Bytes) (isConfig : Bool) (s : Proc) :
    (assign env k v isConfig s).1 = 0 ∨ (assign env k v isConfig s).1 < 0 := by
  have hrange : ∀ store min max pName,
      (storeRangeValue store v min max pName isConfig s).1 = 0 ∨
        (storeRangeValue store v min max pName isConfig s).1 < 0 := by
    intro store min max pName
    rcases storeRangeValue_cases store v min max pName isConfig s with ⟨val, h⟩ | ⟨d, h⟩
    · exact .inl (by rw [h])
    · refine .inr ?_
      rw [h]
      show -ERANGE < 0
      decide
  cases k with
  | port => exact hrange _ _ _ _
  | numWorkers => exact hrange _ _ _ _
  | logLevel => exact hrange _ _ _ _
  | logFile =>
    show (parseLogFileName env v isConfig s).1 = 0 ∨ (parseLogFileName env v isConfig s).1 < 0
    rcases parseLogFileName_cases env v isConfig s with ⟨-, s', h, -⟩ | ⟨e, -, s', h, -⟩ | ⟨-, s', h, -⟩
    · exact .inl (by rw [h])
    · exact .inr (by rw [h]; exact Int.neg_neg_of_pos e.property)
    · refine .inr ?_
      rw [h]
      show -ENOMEM < 0
      decide

/-- The code of a line is zero or negative. -/
theorem parseSrvConfigLine_ret (line : Bytes) (s : Proc) :
    (parseSrvConfigLine env line s).1 = 0 ∨ (parseSrvConfigLine env line s).1 < 0 := by
  rw [parseSrvConfigLine_eq]
  cases lineSetting line with
  | none => exact .inl rfl
  | some kv => exact assign_ret kv.1 kv.2 true s

/-- The code of an option is zero or negative. -/
theorem parseSrvCmdlineOpt_ret (o : Opt) (s : Proc) :
    (parseSrvCmdlineOpt env o s).1 = 0 ∨ (parseSrvCmdlineOpt env o s).1 < 0 := by
  rw [parseSrvCmdlineOpt_eq]
  cases optSetting o with
  | none =>
    show (if o.c = 104 then 0 else -EINVAL) = 0 ∨ (if o.c = 104 then 0 else -EINVAL) < 0
    split
    · exact .inl rfl
    · exact .inr (by decide)
  | some kv => exact assign_ret kv.1 kv.2 false s

end Config
end SrvAsync
