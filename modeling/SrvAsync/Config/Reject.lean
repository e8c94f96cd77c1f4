import SrvAsync.Config.Lines

/-!
# Rejected settings

A number is checked before it is stored.  The name of the log file and its stream are stored
before they are checked, so a log file that is rejected can leave a null stream, or the name of
another file, behind.  `main` goes on after a config file with an error.

## Main definitions

* `SameSettings` — every field but `help` is the same.
* `loses` — the settings that lose the log file when they are rejected.
* `NamesLog` — the stream of the log can be written to, and has the name in `SRV_CONFIG`.
* `handledLines`, `handledOpts` — what the two parsers handle when the server starts.

## Main results

* `assign_keeps_iff` — a setting.
* `namesLog_run_lines`, `namesLog_run_opts` — the config file, and the command line.
* `rejection_keeps_iff` — **when a rejected setting changes nothing**.
-/

namespace SrvAsync
namespace Config

open Http

variable {env : ℕ → LogAnswer}

/-- Every field but `help` is the same. -/
def SameSettings (c c' : SrvConfig) : Prop := c' = { c with help := c'.help }

/-- The settings that lose the log file when they are rejected: `fopen` fails, or `malloc` fails
when there is a name already. -/
def loses (env : ℕ → LogAnswer) (s : Proc) : Option (Setting × Bytes) → Bool
  | some (.logFile, _) =>
    match env s.asked with
    | .opened => false
    | .notOpened _ => true
    | .noMemory => s.config.logFileName.isSome
  | _ => false

/-- The name in `SRV_CONFIG` is a block that `malloc` gave. -/
def HasBlock (s : Proc) : Prop := ∀ n, s.config.logFileName = some n → n < s.blocks.length

/-- **The stream of the log can be written to, and has the name in `SRV_CONFIG`**: no name for
`stdout`, and the name that was given to `fopen` for another one. -/
def NamesLog (s : Proc) : Prop :=
  match s.config.logFileDesc with
  | none => False
  | some .stdout => s.config.logFileName = none
  | some (.file i) => ∃ n path, s.config.logFileName = some n ∧ s.blocks[n]? = some path ∧
      s.files[i]? = some path

/-! ### A setting -/

/-- The number settings touch neither the name nor the stream of the log. -/
structure SameLog (s s' : Proc) : Prop where
  name : s'.config.logFileName = s.config.logFileName
  desc : s'.config.logFileDesc = s.config.logFileDesc
  blocks : s'.blocks = s.blocks
  files : s'.files = s.files

theorem SameLog.namesLog_iff {s s' : Proc} (h : SameLog s s') : NamesLog s' ↔ NamesLog s := by
  unfold NamesLog
  rw [h.name, h.desc, h.blocks, h.files]

theorem SameLog.hasBlock_iff {s s' : Proc} (h : SameLog s s') : HasBlock s' ↔ HasBlock s := by
  unfold HasBlock
  rw [h.name, h.blocks]

/-- **A setting of a number**: it touches nothing of the log, and changes nothing when it is
rejected. -/
theorem assign_number {k : Setting} (hk : k ≠ .logFile) (v : Bytes) (isConfig : Bool) (s : Proc) :
    SameLog s (assign env k v isConfig s).2 ∧
      ((assign env k v isConfig s).1 ≠ 0 →
        SameSettings s.config (assign env k v isConfig s).2.config) := by
  have hrange : ∀ (store : ℤ → SrvConfig → SrvConfig) (min max : ℤ) (pName : String),
      (∀ val c, (store val c).logFileName = c.logFileName ∧
        (store val c).logFileDesc = c.logFileDesc) →
      SameLog s (storeRangeValue store v min max pName isConfig s).2 ∧
        ((storeRangeValue store v min max pName isConfig s).1 ≠ 0 →
          SameSettings s.config (storeRangeValue store v min max pName isConfig s).2.config) := by
    intro store min max pName hstore
    rcases storeRangeValue_cases store v min max pName isConfig s with ⟨val, h⟩ | ⟨d, h⟩
    · rw [h]
      exact ⟨⟨(hstore val _).1, (hstore val _).2, rfl, rfl⟩, fun hne => absurd rfl hne⟩
    · rw [h]
      exact ⟨⟨rfl, rfl, rfl, rfl⟩, fun _ => rfl⟩
  cases k with
  | port => exact hrange _ _ _ _ fun _ _ => ⟨rfl, rfl⟩
  | numWorkers => exact hrange _ _ _ _ fun _ _ => ⟨rfl, rfl⟩
  | logLevel => exact hrange _ _ _ _ fun _ _ => ⟨rfl, rfl⟩
  | logFile => exact absurd rfl hk

/-- A log file that is accepted is named. -/
theorem namesLog_of_accepted {v : Bytes} {isConfig : Bool} {s : Proc}
    (h : (assign env .logFile v isConfig s).1 = 0) : NamesLog (assign env .logFile v isConfig s).2 := by
  have hdef : assign env .logFile v isConfig s = parseLogFileName env v isConfig s := rfl
  rw [hdef] at h ⊢
  rcases parseLogFileName_cases env v isConfig s with ⟨-, s', heq, hc, hb, hf⟩ | ⟨e, -, s', heq, -⟩ |
    ⟨-, s', heq, -⟩
  · rw [heq]
    unfold NamesLog
    rw [hc, hb, hf]
    exact ⟨s.blocks.length, v, rfl, by simp, by simp⟩
  · rw [heq] at h
    have hpos := e.property
    change -e.val = 0 at h
    omega
  · rw [heq] at h
    exact absurd (show -ENOMEM = 0 from h) (by decide)

/-- **A setting that is rejected changes nothing**, unless it loses the log file. -/
theorem assign_keeps_iff (k : Setting) (v : Bytes) (isConfig : Bool) {s : Proc} (hs : HasBlock s) :
    ((assign env k v isConfig s).1 ≠ 0 →
      SameSettings s.config (assign env k v isConfig s).2.config) ↔
    loses env s (some (k, v)) = false := by
  by_cases hk : k = .logFile
  · subst hk
    have hdef : assign env .logFile v isConfig s = parseLogFileName env v isConfig s := rfl
    rw [hdef]
    unfold loses
    rcases parseLogFileName_cases env v isConfig s with ⟨henv, s', heq, -⟩ | ⟨e, henv, s', heq, hc, -⟩ |
      ⟨henv, s', heq, hc, -⟩
    · rw [heq, henv]
      exact iff_of_true (fun h => absurd rfl h) rfl
    · -- the block is a new one
      rw [heq, henv]
      have hpos := e.property
      refine iff_of_false (fun h => ?_) (by simp)
      have hsame := h (fun h0 => by change -e.val = 0 at h0; omega)
      have hname := congrArg SrvConfig.logFileName hsame
      change s'.config.logFileName = s.config.logFileName at hname
      rw [hc] at hname
      exact absurd (hs _ hname.symm) (Nat.lt_irrefl _)
    · rw [heq, henv]
      -- no memory: the name is NULL now, whatever it was
      cases hn : s.config.logFileName with
      | none =>
        refine iff_of_true (fun _ => ?_) rfl
        unfold SameSettings
        rw [hc, ← hn]
      | some n =>
        refine iff_of_false (fun h => ?_) (by simp)
        have hsame := h (show -ENOMEM ≠ 0 by decide)
        have hname := congrArg SrvConfig.logFileName hsame
        change s'.config.logFileName = s.config.logFileName at hname
        rw [hc, hn] at hname
        cases hname
  · have hno : loses env s (some (k, v)) = false := by
      cases k with
      | logFile => exact absurd rfl hk
      | port => rfl
      | numWorkers => rfl
      | logLevel => rfl
    exact iff_of_true (assign_number hk v isConfig s).2 hno

/-- A setting that loses the log file is rejected. -/
theorem assign_ret_of_loses {k : Setting} {v : Bytes} {isConfig : Bool} {s : Proc}
    (h : loses env s (some (k, v)) = true) : (assign env k v isConfig s).1 ≠ 0 := by
  cases k with
  | port => cases h
  | numWorkers => cases h
  | logLevel => cases h
  | logFile =>
    intro h0
    rcases parseLogFileName_cases env v isConfig s with ⟨henv, -⟩ | ⟨e, -, s', heq, -⟩ |
      ⟨-, s', heq, -⟩
    · unfold loses at h
      rw [henv] at h
      cases h
    · have hpos := e.property
      have hret : (assign env .logFile v isConfig s).1 = -e.val := congrArg Prod.fst heq
      omega
    · have hret : (assign env .logFile v isConfig s).1 = -ENOMEM := congrArg Prod.fst heq
      exact absurd (hret.symm.trans h0) (by decide)

/-- Whether the log is named behind a setting. -/
theorem namesLog_assign_iff {k : Setting} {v : Bytes} {isConfig : Bool} {s : Proc} (hs : NamesLog s) :
    NamesLog (assign env k v isConfig s).2 ↔ loses env s (some (k, v)) = false := by
  cases k with
  | port => exact iff_of_true ((assign_number (by decide) v isConfig s).1.namesLog_iff.mpr hs) rfl
  | numWorkers => exact iff_of_true ((assign_number (by decide) v isConfig s).1.namesLog_iff.mpr hs) rfl
  | logLevel => exact iff_of_true ((assign_number (by decide) v isConfig s).1.namesLog_iff.mpr hs) rfl
  | logFile =>
    have hdef : assign env .logFile v isConfig s = parseLogFileName env v isConfig s := rfl
    rcases parseLogFileName_cases env v isConfig s with ⟨henv, s', heq, -⟩ | ⟨e, henv, s', heq, hc, -⟩ |
      ⟨henv, s', heq, hc, hb, hf⟩
    · have h0 : (assign env .logFile v isConfig s).1 = 0 := congrArg Prod.fst heq
      refine iff_of_true (namesLog_of_accepted h0) ?_
      unfold loses
      rw [henv]
    · rw [hdef, heq]
      unfold NamesLog loses
      rw [henv, hc]
      simp
    · rw [hdef, heq]
      unfold NamesLog at hs ⊢
      unfold loses
      rw [henv, hc, hb, hf]
      -- no memory: the name is lost, and only the standard output has none
      cases hd : s.config.logFileDesc with
      | none =>
        rw [hd] at hs
        exact hs.elim
      | some d =>
        rw [hd] at hs
        cases d with
        | stdout => simp [show s.config.logFileName = none from hs]
        | file i =>
          obtain ⟨n, path, hn, -⟩ := hs
          simp [hn]

/-- The name stays a block that `malloc` gave. -/
theorem hasBlock_assign {k : Setting} {v : Bytes} {isConfig : Bool} {s : Proc} (hs : HasBlock s) :
    HasBlock (assign env k v isConfig s).2 := by
  cases k with
  | port => exact (assign_number (by decide) v isConfig s).1.hasBlock_iff.mpr hs
  | numWorkers => exact (assign_number (by decide) v isConfig s).1.hasBlock_iff.mpr hs
  | logLevel => exact (assign_number (by decide) v isConfig s).1.hasBlock_iff.mpr hs
  | logFile =>
    have hdef : assign env .logFile v isConfig s = parseLogFileName env v isConfig s := rfl
    rw [hdef]
    rcases parseLogFileName_cases env v isConfig s with ⟨-, s', heq, hc, hb, -⟩ |
      ⟨e, -, s', heq, hc, hb, -⟩ | ⟨-, s', heq, hc, hb, -⟩
    all_goals
      rw [heq]
      intro n hn
      change s'.config.logFileName = some n at hn
      show n < s'.blocks.length
      rw [hc] at hn
      rw [hb]
    · obtain rfl := Option.some.inj hn
      simp
    · obtain rfl := Option.some.inj hn
      simp
    · cases hn

/-! ### Lines and options -/

/-- A line. -/
theorem line_keeps_iff (line : Bytes) {s : Proc} (hs : HasBlock s) :
    ((parseSrvConfigLine env line s).1 < 0 →
      SameSettings s.config (parseSrvConfigLine env line s).2.config) ↔
    loses env s (lineSetting line) = false := by
  rw [parseSrvConfigLine_eq]
  cases lineSetting line with
  | none => exact iff_of_true (fun h => absurd h (Int.lt_irrefl 0)) rfl
  | some kv =>
    refine Iff.trans ?_ (assign_keeps_iff kv.1 kv.2 true hs)
    refine imp_congr_left ⟨Int.ne_of_lt, fun h => ?_⟩
    exact (assign_ret kv.1 kv.2 true s).resolve_left h

/-- An option. -/
theorem opt_keeps_iff (o : Opt) {s : Proc} (hs : HasBlock s) :
    ((parseSrvCmdlineOpt env o s).1 ≠ 0 →
      SameSettings s.config (parseSrvCmdlineOpt env o s).2.config) ↔
    loses env s (optSetting o) = false := by
  rw [parseSrvCmdlineOpt_eq]
  cases optSetting o with
  | none => exact iff_of_true (fun _ => rfl) rfl
  | some kv => exact assign_keeps_iff kv.1 kv.2 false hs

theorem hasBlock_line (line : Bytes) {s : Proc} (hs : HasBlock s) :
    HasBlock (parseSrvConfigLine env line s).2 := by
  rw [parseSrvConfigLine_eq]
  cases lineSetting line with
  | none => exact hs
  | some kv => exact hasBlock_assign hs

theorem hasBlock_opt (o : Opt) {s : Proc} (hs : HasBlock s) :
    HasBlock (parseSrvCmdlineOpt env o s).2 := by
  rw [parseSrvCmdlineOpt_eq]
  cases optSetting o with
  | none => exact hs
  | some kv => exact hasBlock_assign hs

variable (env) in
/-- Whether the log is named behind a line. -/
theorem namesLog_line_iff (line : Bytes) {s : Proc} (hs : NamesLog s) :
    NamesLog (parseSrvConfigLine env line s).2 ↔ loses env s (lineSetting line) = false := by
  rw [parseSrvConfigLine_eq]
  cases lineSetting line with
  | none => exact iff_of_true hs rfl
  | some kv => exact namesLog_assign_iff hs

/-! ### The start of the server -/

/-- **The config file**: the log is named behind it unless a line loses it. -/
theorem namesLog_run_lines {ls : List Bytes} {ret : ℤ} {s : Proc} (hs : NamesLog s) :
    NamesLog (Until.run stops (parseSrvConfigLine env) ls ret s).2 ↔
      ∀ x ∈ Until.handled stops (parseSrvConfigLine env) ls s,
        loses env x.2 (lineSetting x.1) = false := by
  induction ls generalizing ret s with
  | nil => exact iff_of_true hs fun x hx => absurd hx List.not_mem_nil
  | cons l ls ih =>
    have hline := namesLog_line_iff env l hs
    unfold Until.handled
    cases hbad : stops (parseSrvConfigLine env l s).1 with
    | true =>
      rw [Until.run_cons_of_bad hbad, if_pos rfl, List.forall_mem_singleton]
      exact hline
    | false =>
      rw [Until.run_cons_of_good hbad, if_neg Bool.false_ne_true, List.forall_mem_cons]
      -- a line that lost the log would have stopped the loop
      have hkeep : loses env s (lineSetting l) = false := by
        by_contra hlose
        rw [Bool.not_eq_false] at hlose
        have hret := ret_of_not_stops l s hbad
        rw [parseSrvConfigLine_eq] at hret
        cases hk : lineSetting l with
        | none =>
          rw [hk] at hlose
          cases hlose
        | some kv =>
          rw [hk] at hret hlose
          exact assign_ret_of_loses hlose hret
      rw [ih (hline.mpr hkeep)]
      exact ⟨fun h => ⟨hkeep, h⟩, fun h => h.2⟩

/-- A code that ends the loop of `parse_srv_cmdline_opts`. -/
abbrev fails (ret : ℤ) : Bool := decide (ret ≠ 0)

/-- Whether the log is named behind an option that is accepted. -/
theorem namesLog_opt_iff {o : Opt} {s : Proc} (h : (parseSrvCmdlineOpt env o s).1 = 0) :
    NamesLog (parseSrvCmdlineOpt env o s).2 ↔ o.c = 102 ∨ NamesLog s := by
  rw [parseSrvCmdlineOpt_eq] at h ⊢
  cases hk : optSetting o with
  | none =>
    have hf : o.c ≠ 102 := by
      intro hc
      unfold optSetting at hk
      rw [hc] at hk
      exact absurd hk (by simp)
    rw [or_iff_right hf]
    exact SameLog.namesLog_iff ⟨rfl, rfl, rfl, rfl⟩
  | some kv =>
    rw [hk] at h
    by_cases hf : o.c = 102
    · have hkv : optSetting o = some (.logFile, o.optarg) := by
        unfold optSetting
        rw [hf]
        rfl
      obtain rfl := Option.some.inj (hk.symm.trans hkv)
      exact iff_of_true (namesLog_of_accepted h) (.inl hf)
    · have hkind : kv.1 ≠ .logFile := by
        unfold optSetting at hk
        split_ifs at hk <;> obtain rfl := Option.some.inj hk <;> simp
      rw [or_iff_right hf]
      exact (assign_number hkind kv.2 false s).1.namesLog_iff

/-- **The command line**: behind options that are all accepted the log is named when one of them
names it, or when it was named before. -/
theorem namesLog_run_opts {opts : List Opt} {s : Proc}
    (h : (Until.run fails (parseSrvCmdlineOpt env) opts 0 s).1 = 0) :
    NamesLog (Until.run fails (parseSrvCmdlineOpt env) opts 0 s).2 ↔
      NamesLog s ∨ ∃ o ∈ opts, o.c = 102 := by
  induction opts generalizing s with
  | nil => simp
  | cons o opts ih =>
    cases hbad : fails (parseSrvCmdlineOpt env o s).1 with
    | true =>
      rw [Until.run_cons_of_bad hbad] at h
      exact absurd h (of_decide_eq_true hbad)
    | false =>
      have hret : (parseSrvCmdlineOpt env o s).1 = 0 := not_not.mp (of_decide_eq_false hbad)
      rw [Until.run_cons_of_good hbad, hret] at h ⊢
      rw [ih h, namesLog_opt_iff hret, List.exists_mem_cons_iff]
      tauto

/-- The lines that are handled when the server starts, with the states they find. -/
def handledLines (env : ℕ → LogAnswer) (file : Option Bytes) : List (Bytes × Proc) :=
  match file with
  | none => []
  | some content =>
    Until.handled stops (parseSrvConfigLine env) (pieces content) initSrvConfigDefault

/-- The process when the command line is parsed. -/
def configured (env : ℕ → LogAnswer) (file : Option Bytes) : Proc :=
  mainConfigured (parseSrvConfig env file initSrvConfigDefault).1
    (parseSrvConfig env file initSrvConfigDefault).2

/-- The options that are handled when the server starts, with the states they find. -/
def handledOpts (env : ℕ → LogAnswer) (file : Option Bytes) (posix : Bool) (args : List Bytes) :
    List (Opt × Proc) :=
  Until.handled fails (parseSrvCmdlineOpt env) (getopt posix none args) (configured env file)

/-- **A setting that is rejected changes nothing**, in the config file and on the command line, and
the log is there under its name when the server has started. -/
structure RejectionKeeps (env : ℕ → LogAnswer) (file : Option Bytes) (posix : Bool)
    (args : List Bytes) : Prop where
  lines : ∀ x ∈ handledLines env file, (parseSrvConfigLine env x.1 x.2).1 < 0 →
    SameSettings x.2.config (parseSrvConfigLine env x.1 x.2).2.config
  opts : ∀ x ∈ handledOpts env file posix args, (parseSrvCmdlineOpt env x.1 x.2).1 ≠ 0 →
    SameSettings x.2.config (parseSrvCmdlineOpt env x.1 x.2).2.config
  log : ∀ s, main env file posix args = (.started, s) → NamesLog s ∧ (printSrvConfig s).isSome

theorem namesLog_init : NamesLog initSrvConfigDefault := rfl

theorem hasBlock_init : HasBlock initSrvConfigDefault := fun _ h => by cases h

/-- A message touches nothing of the log. -/
theorem sameLog_mainConfigured (ret : ℤ) (s : Proc) : SameLog s (mainConfigured ret s) := by
  unfold mainConfigured
  split <;> exact ⟨rfl, rfl, rfl, rfl⟩

/-- The log is named when the command line is parsed, unless a line has lost it. -/
theorem namesLog_configured_iff (file : Option Bytes) :
    NamesLog (configured env file) ↔
      ∀ x ∈ handledLines env file, loses env x.2 (lineSetting x.1) = false := by
  unfold configured
  rw [(sameLog_mainConfigured _ _).namesLog_iff]
  cases file with
  | none => exact iff_of_true namesLog_init fun x hx => absurd hx List.not_mem_nil
  | some content =>
    show NamesLog (readLines env content 0 initSrvConfigDefault).2 ↔ _
    rw [readLines_eq_run]
    exact namesLog_run_lines namesLog_init

theorem hasBlock_configured (file : Option Bytes) : HasBlock (configured env file) := by
  unfold configured
  rw [(sameLog_mainConfigured _ _).hasBlock_iff]
  cases file with
  | none => exact hasBlock_init
  | some content =>
    show HasBlock (readLines env content 0 initSrvConfigDefault).2
    rw [readLines_eq_run]
    exact Until.run_induct hasBlock_init fun x _ hx => hasBlock_line x.1 hx

/-- When the server has started, every option was accepted. -/
theorem run_opts_of_started {file : Option Bytes} {posix : Bool} {args : List Bytes} {s : Proc}
    (h : main env file posix args = (.started, s)) :
    Until.run fails (parseSrvCmdlineOpt env) (getopt posix none args) 0 (configured env file) =
      (0, s) := by
  generalize hr : Until.run fails (parseSrvCmdlineOpt env) (getopt posix none args) 0
    (configured env file) = r
  have hmain : main env file posix args =
      if r.1 < 0 then (.failed, r.2.complain .cmdlineFailed)
      else if r.2.config.help then (.helped, r.2)
      else (.started, r.2) := by
    rw [← hr]
    rfl
  have hcode : r.1 = 0 ∨ r.1 < 0 := by
    rw [← hr]
    exact Until.run_code (Q := fun ret => ret = 0 ∨ ret < 0) (.inl rfl) parseSrvCmdlineOpt_ret
  rw [hmain] at h
  by_cases hneg : r.1 < 0
  · rw [if_pos hneg] at h
    cases h
  · rw [if_neg hneg] at h
    by_cases hhelp : r.2.config.help = true
    · rw [if_pos hhelp] at h
      cases h
    · rw [if_neg hhelp] at h
      exact Prod.ext (hcode.resolve_right hneg) (Prod.mk.inj h).2

/-- A log that is named can be printed to. -/
theorem isSome_printSrvConfig {s : Proc} (h : NamesLog s) : (printSrvConfig s).isSome = true := by
  unfold NamesLog at h
  cases hd : s.config.logFileDesc with
  | none =>
    rw [hd] at h
    exact h.elim
  | some fout => simp [printSrvConfig, hd]

/-- **When a rejected setting changes nothing**: no setting that is handled loses the log file.
The log is there under its name when the server has started if no line of the config file lost it,
or if an option sets it again. -/
theorem rejection_keeps_iff (env : ℕ → LogAnswer) (file : Option Bytes) (posix : Bool)
    (args : List Bytes) :
    (RejectionKeeps env file posix args ↔
      (∀ x ∈ handledLines env file, loses env x.2 (lineSetting x.1) = false) ∧
        ∀ x ∈ handledOpts env file posix args, loses env x.2 (optSetting x.1) = false) ∧
    ∀ s, main env file posix args = (.started, s) →
      (NamesLog s ↔ (∀ x ∈ handledLines env file, loses env x.2 (lineSetting x.1) = false) ∨
        ∃ o ∈ getopt posix none args, o.c = 102) := by
  have hstart : ∀ s, main env file posix args = (.started, s) →
      (NamesLog s ↔ (∀ x ∈ handledLines env file, loses env x.2 (lineSetting x.1) = false) ∨
        ∃ o ∈ getopt posix none args, o.c = 102) := by
    intro s hs
    have hrun := run_opts_of_started hs
    have hzero : (Until.run fails (parseSrvCmdlineOpt env) (getopt posix none args) 0
        (configured env file)).1 = 0 := by rw [hrun]
    have hnames := namesLog_run_opts hzero
    rwa [hrun, namesLog_configured_iff] at hnames
  -- in front of every line and every option the name is a block that `malloc` gave
  have hlines : ∀ x ∈ handledLines env file, HasBlock x.2 := by
    cases file with
    | none => exact fun x hx => absurd hx List.not_mem_nil
    | some content => exact Until.mem_handled_induct hasBlock_init fun l _ => hasBlock_line l
  have hopts : ∀ x ∈ handledOpts env file posix args, HasBlock x.2 :=
    Until.mem_handled_induct (hasBlock_configured file) fun o _ => hasBlock_opt o
  refine ⟨⟨fun h => ⟨fun x hx => ?_, fun x hx => ?_⟩,
    fun h => ⟨fun x hx => ?_, fun x hx => ?_, fun s hs => ?_⟩⟩, hstart⟩
  · exact (line_keeps_iff x.1 (hlines x hx)).mp (h.lines x hx)
  · exact (opt_keeps_iff x.1 (hopts x hx)).mp (h.opts x hx)
  · exact (line_keeps_iff x.1 (hlines x hx)).mpr (h.1 x hx)
  · exact (opt_keeps_iff x.1 (hopts x hx)).mpr (h.2 x hx)
  · have hnames := (hstart s hs).mpr (.inl h.1)
    exact ⟨hnames, isSome_printSrvConfig hnames⟩

/-- A file whose port is too large. -/
def badPort : Bytes := ascii "port: 70000"

/-- It is rejected, and loses no log file; the server starts, and its option is accepted. -/
theorem badPort_rejected :
    (∃ x ∈ handledLines (fun _ => .opened) (some badPort),
      (parseSrvConfigLine (fun _ => .opened) x.1 x.2).1 < 0) ∧
    ((∀ x ∈ handledLines (fun _ => .opened) (some badPort),
        loses (fun _ => .opened) x.2 (lineSetting x.1) = false) ∧
      ∀ x ∈ handledOpts (fun _ => .opened) (some badPort) false [ascii "-f", ascii "a.log"],
        loses (fun _ => .opened) x.2 (optSetting x.1) = false) ∧
    main (fun _ => .opened) (some badPort) false [ascii "-f", ascii "a.log"] =
      (.started, (main (fun _ => .opened) (some badPort) false [ascii "-f", ascii "a.log"]).2) := by
  decide +kernel

/-- The port that is rejected changes nothing, and the log is the one that the option names. -/
theorem rejection_keeps_port :
    (∃ x ∈ handledLines (fun _ => .opened) (some badPort),
      (parseSrvConfigLine (fun _ => .opened) x.1 x.2).1 < 0) ∧
    RejectionKeeps (fun _ => .opened) (some badPort) false [ascii "-f", ascii "a.log"] ∧
    NamesLog (main (fun _ => .opened) (some badPort) false [ascii "-f", ascii "a.log"]).2 := by
  obtain ⟨hrejected, hkeeps, hmain⟩ := badPort_rejected
  have hiff := rejection_keeps_iff (fun _ => .opened) (some badPort) false [ascii "-f", ascii "a.log"]
  exact ⟨hrejected, hiff.1.mpr hkeeps, (hiff.2 _ hmain).mpr (.inr (by decide))⟩

/-- A file whose log cannot be opened. -/
def badLog : Bytes := ascii "log_file: /no/such/dir/srv.log"

/-- It is rejected when `fopen` fails. -/
theorem parseSrvConfig_badLog (errno : Errno) :
    parseSrvConfig (fun _ => .notOpened errno) (some badLog) initSrvConfigDefault =
      parseLogFileName (fun _ => .notOpened errno) (ascii "/no/such/dir/srv.log") true
        initSrvConfigDefault := by
  have hlines : lines badLog = [badLog] := lines_of_not_mem (by decide)
  have hfits : ∀ l ∈ lines badLog, l.length ≤ 1023 := by
    rw [hlines]
    decide
  have htrim : trimmed badLog = ascii "log_file:/no/such/dir/srv.log" := by decide
  have hline : parseSrvConfigLine (fun _ => .notOpened errno) badLog initSrvConfigDefault =
      parseLogFileName (fun _ => .notOpened errno) (ascii "/no/such/dir/srv.log") true
        initSrvConfigDefault := by
    rw [parseSrvConfigLine_trimmed, htrim]
    rfl
  have hbad : stops (parseSrvConfigLine (fun _ => .notOpened errno) badLog initSrvConfigDefault).1 =
      true := by
    rw [hline]
    exact decide_eq_true (Int.neg_neg_of_pos errno.property)
  rw [parseSrvConfig_eq_applyLines fun l hl => hfits l (mem_of_mem_reached hl), hlines]
  exact (Until.run_cons_of_bad hbad).trans hline

/-- **A log file that cannot be opened is lost**: the server starts without a stream to print to. -/
theorem bad_log_lost :
    (main (fun _ => .notOpened ⟨2, by decide⟩) (some badLog) false []).1 = .started ∧
      printSrvConfig (main (fun _ => .notOpened ⟨2, by decide⟩) (some badLog) false []).2 = none ∧
      ¬ ∀ (env : ℕ → LogAnswer) (file : Option Bytes) (posix : Bool) (args : List Bytes),
        RejectionKeeps env file posix args := by
  have hstarted : (main (fun _ => .notOpened ⟨2, by decide⟩) (some badLog) false []).1 = .started := by
    unfold main
    rw [parseSrvConfig_badLog]
    rfl
  have hlost : printSrvConfig (main (fun _ => .notOpened ⟨2, by decide⟩) (some badLog) false []).2 =
      none := by
    unfold main
    rw [parseSrvConfig_badLog]
    rfl
  refine ⟨hstarted, hlost, fun h => ?_⟩
  have hlog := ((h (fun _ => .notOpened ⟨2, by decide⟩) (some badLog) false []).log _
    (Prod.ext hstarted rfl)).2
  rw [hlost] at hlog
  cases hlog

end Config
end SrvAsync
