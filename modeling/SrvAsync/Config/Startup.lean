import SrvAsync.Config.Numeral
import SrvAsync.Config.Reject

/-!
# The numbers a server starts with

The lines of the config file are handled up to the first one that is rejected, and then all the
options of the command line.  Both parsers have a table of their own, and a number is in the end
what the last accepted assignment to it says.

## Main definitions

* `accepted` — the number that an assignment stores when it is accepted.
* `assignments` — the accepted assignments from the start of the server on, in their order.
* `OthersKept` — an assignment touches the fields of its own setting only.

## Main results

* `get_assign` — **what an assignment does to a number**.
* `startup_numbers` — **the numbers that a server starts with**.
-/

namespace SrvAsync
namespace Config

open Http

variable {env : ℕ → LogAnswer}

/-! ### Assignments -/

/-- The value without an assignment. -/
def Number.default (k : Number) : ℤ := k.get initSrvConfigDefault.config

theorem Number.default_mem (k : Number) : k.min ≤ k.default ∧ k.default ≤ k.max := by
  cases k <;> decide

/-- The number of a setting. -/
def Setting.number : Setting → Option Number
  | .port => some .port
  | .numWorkers => some .numWorkers
  | .logLevel => some .logLevel
  | .logFile => none

/-- The number that an assignment stores, when it is accepted. -/
def accepted (kv : Setting × Bytes) : Option (Number × ℤ) :=
  kv.1.number.bind fun k =>
    if k.min ≤ atoi kv.2 ∧ atoi kv.2 ≤ k.max then some (k, atoi kv.2) else none

/-- The value, when it is for this number. -/
def Number.value (k : Number) (a : Number × ℤ) : Option ℤ := if a.1 = k then some a.2 else none

/-- An accepted number is in its range. -/
theorem mem_range_of_accepted {kv : Setting × Bytes} {k : Number} {n : ℤ}
    (h : accepted kv = some (k, n)) : k.min ≤ n ∧ n ≤ k.max := by
  obtain ⟨k', -, h⟩ := Option.bind_eq_some_iff.mp h
  split at h
  · next hmem =>
    obtain ⟨rfl, rfl⟩ := Prod.mk.inj (Option.some.inj h)
    exact hmem
  · cases h

/-- A value for a setting with a number. -/
theorem accepted_setting (k : Number) (v : Bytes) :
    accepted (k.setting, v) = if k.min ≤ atoi v ∧ atoi v ≤ k.max then some (k, atoi v) else none := by
  cases k <;> rfl

/-- A setting is the log file, or has a number. -/
theorem Setting.eq_logFile_or (st : Setting) : st = .logFile ∨ ∃ k : Number, st = k.setting := by
  cases st with
  | logFile => exact .inl rfl
  | port => exact .inr ⟨.port, rfl⟩
  | numWorkers => exact .inr ⟨.numWorkers, rfl⟩
  | logLevel => exact .inr ⟨.logLevel, rfl⟩

/-- The log file has nothing to do with the numbers. -/
theorem numbers_parseLogFileName (v : Bytes) (isConfig : Bool) (s : Proc) :
    (∀ k : Number, k.get (parseLogFileName env v isConfig s).2.config = k.get s.config) ∧
      (parseLogFileName env v isConfig s).2.config.help = s.config.help := by
  rcases parseLogFileName_cases env v isConfig s with ⟨-, s', heq, hc, -⟩ | ⟨e, -, s', heq, hc, -⟩ |
    ⟨-, s', heq, hc, -⟩
  all_goals
    rw [heq]
    show (∀ k : Number, k.get s'.config = k.get s.config) ∧ s'.config.help = s.config.help
    rw [hc]
    exact ⟨fun k => by cases k <;> rfl, rfl⟩

/-- **What an assignment does to a number.** -/
theorem get_assign (k : Number) (kv : Setting × Bytes) (isConfig : Bool) (s : Proc) :
    k.get (assign env kv.1 kv.2 isConfig s).2.config =
      ((accepted kv).bind k.value).getD (k.get s.config) := by
  obtain ⟨st, v⟩ := kv
  rcases st.eq_logFile_or with rfl | ⟨k', rfl⟩
  · exact (numbers_parseLogFileName v isConfig s).1 k
  · rw [accepted_setting]
    show k.get (assign env k'.setting v isConfig s).2.config = _
    rw [assign_setting]
    by_cases hmem : k'.min ≤ atoi v ∧ atoi v ≤ k'.max
    · rw [storeRangeValue_of_mem hmem, if_pos hmem, Option.bind_some]
      unfold Number.value
      by_cases hk : k' = k
      · subst hk
        simp
      · rw [if_neg hk]
        exact Number.get_set_of_ne (Ne.symm hk) _ _
    · rw [storeRangeValue_of_not_mem hmem, if_neg hmem]
      rfl

/-- An assignment touches the fields of its own setting only. -/
structure OthersKept (st : Setting) (c c' : SrvConfig) : Prop where
  numbers : ∀ k : Number, k.setting ≠ st → k.get c' = k.get c
  log : st ≠ .logFile → c'.logFileName = c.logFileName ∧ c'.logFileDesc = c.logFileDesc
  help : c'.help = c.help

theorem othersKept_assign (st : Setting) (v : Bytes) (isConfig : Bool) (s : Proc) :
    OthersKept st s.config (assign env st v isConfig s).2.config := by
  refine ⟨fun k hk => ?_, fun hlog => ?_, ?_⟩
  · rw [get_assign k (st, v)]
    rcases st.eq_logFile_or with rfl | ⟨k', rfl⟩
    · rfl
    · have hne : k' ≠ k := fun he => hk (congrArg Number.setting he.symm)
      rw [accepted_setting]
      split <;> simp [Number.value, hne]
  · have hsame : SameLog s (assign env st v isConfig s).2 := (assign_number hlog v isConfig s).1
    exact ⟨hsame.name, hsame.desc⟩
  · rcases st.eq_logFile_or with rfl | ⟨k, rfl⟩
    · exact (numbers_parseLogFileName v isConfig s).2
    · rw [assign_setting]
      rcases storeRangeValue_cases k.set v k.min k.max k.pName isConfig s with ⟨n, h⟩ | ⟨d, h⟩
      · rw [h]
        cases k <;> rfl
      · rw [h]
        rfl

/-! ### Lines and options -/

theorem get_line (k : Number) (line : Bytes) (s : Proc) :
    k.get (parseSrvConfigLine env line s).2.config =
      (((lineSetting line).bind accepted).bind k.value).getD (k.get s.config) := by
  rw [parseSrvConfigLine_eq]
  cases lineSetting line with
  | none => rfl
  | some kv => exact get_assign k kv true s

theorem get_opt (k : Number) (o : Opt) (s : Proc) :
    k.get (parseSrvCmdlineOpt env o s).2.config =
      (((optSetting o).bind accepted).bind k.value).getD (k.get s.config) := by
  rw [parseSrvCmdlineOpt_eq]
  cases optSetting o with
  | none => cases k <;> rfl
  | some kv => exact get_assign k kv false s

/-- The lines of the config file up to the first one that is rejected, if there is one. -/
def startLines (env : ℕ → LogAnswer) (file : Option Bytes) : List Bytes :=
  match file with
  | none => []
  | some content =>
    (Until.handled stops (parseSrvConfigLine env) (lines content) initSrvConfigDefault).map Prod.fst

/-- **The accepted assignments** of the config file, and behind them those of the command line. -/
def assignments (env : ℕ → LogAnswer) (file : Option Bytes) (posix : Bool) (args : List Bytes) :
    List (Number × ℤ) :=
  (startLines env file).filterMap (fun l => (lineSetting l).bind accepted) ++
    (getopt posix none args).filterMap fun o => (optSetting o).bind accepted

/-- The last value for a number. -/
def Number.last (k : Number) (as : List (Number × ℤ)) (n : ℤ) : ℤ :=
  (as.filterMap k.value).getLast?.getD n

theorem Number.last_append (k : Number) (as bs : List (Number × ℤ)) (n : ℤ) :
    k.last (as ++ bs) n = k.last bs (k.last as n) := by
  unfold Number.last
  rw [List.filterMap_append, List.getLast?_append]
  cases (bs.filterMap k.value).getLast? <;> rfl

/-- The last of some values in a range. -/
theorem Number.last_mem {k : Number} {as : List (Number × ℤ)} {n : ℤ}
    (has : ∀ a ∈ as, a.1.min ≤ a.2 ∧ a.2 ≤ a.1.max) (hn : k.min ≤ n ∧ n ≤ k.max) :
    k.min ≤ k.last as n ∧ k.last as n ≤ k.max := by
  unfold Number.last
  cases hlast : (as.filterMap k.value).getLast? with
  | none => exact hn
  | some m =>
    obtain ⟨a, ha, hval⟩ := List.mem_filterMap.mp (List.mem_of_getLast? hlast)
    unfold Number.value at hval
    split at hval
    · next hk =>
      obtain rfl := Option.some.inj hval
      exact hk ▸ has a ha
    · cases hval

/-! ### The start of the server -/

/-- The number behind a loop that handles items with settings. -/
theorem Number.get_run {α : Type*} {bad : ℤ → Bool} {f : α → Proc → ℤ × Proc}
    {u : α → Option (Number × ℤ)} (k : Number)
    (h : ∀ a s, k.get (f a s).2.config = ((u a).bind k.value).getD (k.get s.config))
    (as : List α) (ret : ℤ) (s : Proc) :
    k.get (Until.run bad f as ret s).2.config =
      k.last (((Until.handled bad f as s).map Prod.fst).filterMap u) (k.get s.config) := by
  refine (Until.run_last (fun a => (u a).bind k.value) (fun s : Proc => k.get s.config) h).trans ?_
  unfold Number.last
  rw [List.filterMap_map, List.filterMap_filterMap]
  rfl

/-- **The config file**, when its lines fit. -/
theorem get_configured (k : Number) {file : Option Bytes}
    (hfits : ∀ content ∈ file, ∀ l ∈ lines content, l.length < maxLineLen) :
    k.get (configured env file).config =
      k.last ((startLines env file).filterMap fun l => (lineSetting l).bind accepted) k.default := by
  have hmain : k.get (configured env file).config =
      k.get (parseSrvConfig env file initSrvConfigDefault).2.config := by
    unfold configured mainConfigured
    split <;> rfl
  rw [hmain]
  cases file with
  | none => rfl
  | some content =>
    have hle : ∀ l ∈ lines content, l.length ≤ 1023 := fun l hl =>
      Nat.le_of_lt_succ (hfits content rfl l hl)
    rw [parseSrvConfig_eq_applyLines fun l hl => hle l (mem_of_mem_reached hl)]
    exact k.get_run (get_line k) (lines content) 0 initSrvConfigDefault

/-- **The command line**, when all its options are accepted. -/
theorem get_opts (k : Number) {opts : List Opt} {s s' : Proc}
    (h : Until.run fails (parseSrvCmdlineOpt env) opts 0 s = (0, s')) :
    k.get s'.config =
      k.last (opts.filterMap fun o => (optSetting o).bind accepted) (k.get s.config) := by
  have hgood : fails (Until.run fails (parseSrvCmdlineOpt env) opts 0 s).1 = false := by
    rw [h]
    rfl
  have hget : k.get (Until.run fails (parseSrvCmdlineOpt env) opts 0 s).2.config = _ :=
    k.get_run (get_opt k) opts 0 s
  rwa [Until.map_fst_handled hgood, h] at hget

/-- **The numbers that a server starts with**: each is what the last accepted assignment to it says,
in the lines of the config file up to the first one that is rejected and then in all the options, or
its default; and it is in its range.  No assignment touches the field of another setting. -/
theorem startup_numbers {file : Option Bytes} {posix : Bool} {args : List Bytes} {s : Proc}
    (h : main env file posix args = (.started, s))
    (hfits : ∀ content ∈ file, ∀ l ∈ lines content, l.length < maxLineLen) :
    (∀ k : Number, k.get s.config = k.last (assignments env file posix args) k.default ∧
      k.min ≤ k.get s.config ∧ k.get s.config ≤ k.max) ∧
    (∀ line st v s₀, lineSetting line = some (st, v) →
      OthersKept st s₀.config (parseSrvConfigLine env line s₀).2.config) ∧
    ∀ o st v s₀, optSetting o = some (st, v) →
      OthersKept st s₀.config (parseSrvCmdlineOpt env o s₀).2.config := by
  have hlast : ∀ k : Number, k.get s.config = k.last (assignments env file posix args) k.default := by
    intro k
    rw [get_opts k (run_opts_of_started h), get_configured k hfits]
    exact (k.last_append _ _ _).symm
  have hmem : ∀ a ∈ assignments env file posix args, a.1.min ≤ a.2 ∧ a.2 ≤ a.1.max := by
    intro a ha
    -- an assignment of a line, or of an option
    rcases List.mem_append.mp ha with ha | ha
    · obtain ⟨l, -, hl⟩ := List.mem_filterMap.mp ha
      obtain ⟨kv, -, hkv⟩ := Option.bind_eq_some_iff.mp hl
      exact mem_range_of_accepted hkv
    · obtain ⟨o, -, ho⟩ := List.mem_filterMap.mp ha
      obtain ⟨kv, -, hkv⟩ := Option.bind_eq_some_iff.mp ho
      exact mem_range_of_accepted hkv
  refine ⟨fun k => ⟨hlast k, ?_⟩, fun line st v s₀ hl => ?_, fun o st v s₀ ho => ?_⟩
  · rw [hlast k]
    exact Number.last_mem hmem k.default_mem
  · rw [parseSrvConfigLine_eq, hl]
    exact othersKept_assign st v true s₀
  · rw [parseSrvCmdlineOpt_eq, ho]
    exact othersKept_assign st v false s₀

/-- A file whose second line is rejected. -/
def rejectedWorkers : Bytes := ascii "port: 81\nnum_workers: 0\nnum_workers: 7"

theorem lines_rejectedWorkers :
    lines rejectedWorkers =
      [ascii "port: 81", ascii "num_workers: 0", ascii "num_workers: 7"] := by
  decide

theorem startLines_rejectedWorkers :
    startLines (fun _ => .opened) (some rejectedWorkers) =
      [ascii "port: 81", ascii "num_workers: 0"] := by
  show (Until.handled stops (parseSrvConfigLine fun _ => .opened) (lines rejectedWorkers)
    initSrvConfigDefault).map Prod.fst = _
  rw [lines_rejectedWorkers]
  rfl

/-- The numbers behind it and some options. -/
theorem startup_numbers_run :
    Number.port.get (main (fun _ => .opened) (some rejectedWorkers) false
        [ascii "-p", ascii "90", ascii "-l2", ascii "-p91"]).2.config = 91 ∧
      Number.numWorkers.get (main (fun _ => .opened) (some rejectedWorkers) false
        [ascii "-p", ascii "90", ascii "-l2", ascii "-p91"]).2.config = 1 := by
  have hle : ∀ l ∈ lines rejectedWorkers, l.length ≤ 1023 := by
    rw [lines_rejectedWorkers]
    decide
  have hfits : ∀ content ∈ some rejectedWorkers, ∀ l ∈ lines content, l.length < maxLineLen := by
    rintro content h l hl
    obtain rfl := Option.some.inj h
    exact Nat.lt_succ_of_le (hle l hl)
  have hfile : parseSrvConfig (fun _ => .opened) (some rejectedWorkers) initSrvConfigDefault =
      applyLines (fun _ => .opened) (lines rejectedWorkers) initSrvConfigDefault :=
    parseSrvConfig_eq_applyLines fun l hl => hle l (mem_of_mem_reached hl)
  have hmain : main (fun _ => .opened) (some rejectedWorkers) false
      [ascii "-p", ascii "90", ascii "-l2", ascii "-p91"] =
      (.started, (main (fun _ => .opened) (some rejectedWorkers) false
        [ascii "-p", ascii "90", ascii "-l2", ascii "-p91"]).2) := by
    refine Prod.ext ?_ rfl
    unfold main
    rw [hfile, lines_rejectedWorkers]
    rfl
  refine ⟨((startup_numbers hmain hfits).1 .port).1.trans ?_,
    ((startup_numbers hmain hfits).1 .numWorkers).1.trans ?_⟩
  all_goals
    unfold assignments
    rw [startLines_rejectedWorkers]
    rfl

end Config
end SrvAsync
