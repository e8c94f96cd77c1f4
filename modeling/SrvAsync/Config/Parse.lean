import SrvAsync.Base.Until
import SrvAsync.Config.Trim

/-!
# The configuration

`srv_config.c`, and `main` of `srv_async.c` up to the first use of the configuration.

A setting of the log file asks `malloc` and `fopen`; what they answer, the first time, the second
time and so on, is a parameter.  The blocks that `malloc` gave and the streams that `fopen` gave
are numbered, so a pointer to the name of the log file is the number of a block.

## Main definitions

* `SrvConfig`, `Proc` — `SRV_CONFIG`, and the rest of the process.
* `parseRangeValue`, `parseLogFileName` — the checks of a value.
* `parseSrvConfigLine`, `parseSrvConfig` — the config file, read with `fgets`.
* `getopt`, `parseSrvCmdlineOpts` — the command line.
* `main`, `printSrvConfig` — the start of the server.

## Main results

* `length_fgets_lt` — a line that is read makes the file shorter.
* `parseSrvConfigLine_trimmed` — the white space of a line does not count.
-/

namespace SrvAsync
namespace Config

open Http

/-! ### The state of the process -/

/-- A stream that can be written to. -/
inductive Stream
  /-- `stdout`. -/
  | stdout
  /-- The stream that `fopen` gave as the `n`th. -/
  | file (n : ℕ)
  deriving DecidableEq, Repr

/-- `srv_config_t`; `none` is the null pointer. -/
structure SrvConfig where
  port : ℤ
  numWorkers : ℤ
  logFileName : Option ℕ
  logFileDesc : Option Stream
  logLevel : ℤ
  help : Bool
  deriving DecidableEq, Repr

/-- An `errno`. -/
abbrev Errno := { e : ℤ // 0 < e }

/-- What is printed to `stderr`. -/
inductive Diag
  /-- A value is not in its range. -/
  | range (val : ℤ) (pName : String) (isConfig : Bool) (min max : ℤ)
  /-- There is no memory for the name of the log file. -/
  | alloc (size : ℕ) (valStr : Bytes) (isConfig : Bool)
  /-- The log file cannot be opened. -/
  | notOpened (valStr : Bytes) (isConfig : Bool) (errno : Errno)
  /-- `main` has seen the config file fail. -/
  | configFailed
  /-- `main` has seen the command line fail. -/
  | cmdlineFailed
  deriving DecidableEq, Repr

/-- What `malloc` and `fopen` answer when the log file is set. -/
inductive LogAnswer
  /-- `malloc` fails. -/
  | noMemory
  /-- `malloc` gives a block, and `fopen` fails. -/
  | notOpened (errno : Errno)
  /-- `malloc` gives a block, and `fopen` a stream. -/
  | opened
  deriving DecidableEq, Repr

/-- The process: `SRV_CONFIG`, what the blocks of `malloc` hold, the names of the files that
`fopen` opened, how often the log file was set, and what was printed to `stderr`. -/
structure Proc where
  config : SrvConfig
  blocks : List Bytes
  files : List Bytes
  asked : ℕ
  stderr : List Diag
  deriving DecidableEq, Repr

/-- Something is printed to `stderr`. -/
def Proc.complain (s : Proc) (d : Diag) : Proc := { s with stderr := s.stderr ++ [d] }

/-- `DEFAULT_SRV_PORT`. -/
def defaultSrvPort : ℤ := 8080

/-- `DEFAULT_NUM_WORKERS`. -/
def defaultNumWorkers : ℤ := 1

/-- `MAX_NUM_WORKERS`. -/
def maxNumWorkers : ℤ := 1000

/-- `LOG_ERROR`. -/
def logError : ℤ := 0

/-- `LOG_INFO2`. -/
def logInfo2 : ℤ := 2

/-- `MAX_LINE_LEN`. -/
def maxLineLen : ℕ := 1024

/-- `ENOENT`. -/
def ENOENT : ℤ := 2

/-- `ENOMEM`. -/
def ENOMEM : ℤ := 12

/-- `EINVAL`. -/
def EINVAL : ℤ := 22

/-- `ERANGE`. -/
def ERANGE : ℤ := 34

/-! ### Values -/

/-- `strtol` with base 10: white space, a sign, and the number that the digits denote, or the
bound of a `long` that it exceeds. -/
def strtol (s : Bytes) : ℤ :=
  let s := s.dropWhile isspace
  let ds := if s.head? = some 45 ∨ s.head? = some 43 then s.tail else s
  let n : ℤ := digitsValue (ds.takeWhile isDigit)
  if s.head? = some 45 then max (-2 ^ 63) (-n) else min (2 ^ 63 - 1) n

/-- `atoi`: the `long` as an `int`. -/
def atoi (s : Bytes) : ℤ := Int.bmod (strtol s) (2 ^ 32)

/-- `parse_range_value`: the value, or the code it returns. -/
def parseRangeValue (valStr : Bytes) (min max : ℤ) (pName : String) (isConfig : Bool) (s : Proc) :
    Except ℤ ℤ × Proc :=
  let tmp := atoi valStr
  if tmp < min ∨ max < tmp then (.error (-ERANGE), s.complain (.range tmp pName isConfig min max))
  else (.ok tmp, s)

/-- `parse_range_value`, and the store when it returns zero. -/
def storeRangeValue (store : ℤ → SrvConfig → SrvConfig) (valStr : Bytes) (min max : ℤ)
    (pName : String) (isConfig : Bool) (s : Proc) : ℤ × Proc :=
  match parseRangeValue valStr min max pName isConfig s with
  | (.error ret, s) => (ret, s)
  | (.ok val, s) => (0, { s with config := store val s.config })

/-- The port. -/
def storePort (valStr : Bytes) (isConfig : Bool) : Proc → ℤ × Proc :=
  storeRangeValue (fun v c => { c with port := v }) valStr 1 65535 "port" isConfig

/-- The number of workers. -/
def storeNumWorkers (valStr : Bytes) (isConfig : Bool) : Proc → ℤ × Proc :=
  storeRangeValue (fun v c => { c with numWorkers := v }) valStr 1 maxNumWorkers "num_workers" isConfig

/-- The log level. -/
def storeLogLevel (valStr : Bytes) (isConfig : Bool) : Proc → ℤ × Proc :=
  storeRangeValue (fun v c => { c with logLevel := v }) valStr logError logInfo2 "log_level" isConfig

variable (env : ℕ → LogAnswer)

/-- `parse_log_file_name`.  The results of `malloc` and `fopen` are stored before they are looked
at. -/
def parseLogFileName (valStr : Bytes) (isConfig : Bool) (s : Proc) : ℤ × Proc :=
  match env s.asked with
  | .noMemory =>
    (-ENOMEM, Proc.complain
      { s with config := { s.config with logFileName := none }, asked := s.asked + 1 }
      (.alloc (valStr.length + 1) valStr isConfig))
  | .notOpened errno =>
    (-errno.val, Proc.complain
      { s with
        config := { s.config with logFileName := some s.blocks.length, logFileDesc := none }
        blocks := s.blocks ++ [valStr], asked := s.asked + 1 }
      (.notOpened valStr isConfig errno))
  | .opened =>
    (0,
      { s with
        config := { s.config with
          logFileName := some s.blocks.length, logFileDesc := some (.file s.files.length) }
        blocks := s.blocks ++ [valStr], files := s.files ++ [valStr], asked := s.asked + 1 })

/-! ### The config file -/

/-- `parse_srv_config_line` on a string that `trim_spaces` left. -/
def parseTrimmedLine (key : Bytes) (s : Proc) : ℤ × Proc :=
  if key = [] ∨ key.head? = some LF ∨ key.head? = some 35 then (0, s)
  else
    match findByte 58 key with
    | none => (0, s)
    | some n =>
      let valStr := key.drop (n + 1)
      let key := key.take n
      if valStr = [] ∨ valStr.head? = some LF then (0, s)
      else if key = ascii "port" then storePort valStr true s
      else if key = ascii "num_workers" then storeNumWorkers valStr true s
      else if key = ascii "log_file" then parseLogFileName env valStr true s
      else if key = ascii "log_level" then storeLogLevel valStr true s
      else (0, s)

/-- `parse_srv_config_line`. -/
def parseSrvConfigLine (line : Bytes) (s : Proc) : ℤ × Proc :=
  parseTrimmedLine env (trimSpaces line) s

/-- `fgets` into a buffer of this size: what it reads, and what is left of the file. -/
def fgets (size : ℕ) (file : Bytes) : Option (Bytes × Bytes) :=
  if file = [] then none
  else
    let n := min (size - 1) ((file.takeWhile (· != LF)).length + 1)
    some (file.take n, file.drop n)

/-- A line that is read makes the file shorter. -/
theorem length_fgets_lt {file line rest : Bytes} (h : fgets maxLineLen file = some (line, rest)) :
    rest.length < file.length := by
  unfold fgets at h
  split at h
  · cases h
  · next hne =>
    have hpos := List.length_pos_iff.mpr hne
    obtain ⟨-, rfl⟩ := Prod.mk.inj (Option.some.inj h)
    rw [List.length_drop]
    unfold maxLineLen
    omega

/-- The loop of `parse_srv_config`, with `ret`. -/
def readLines (file : Bytes) (ret : ℤ) (s : Proc) : ℤ × Proc :=
  match _h : fgets maxLineLen file with
  | none => (ret, s)
  | some (line, rest) =>
    let r := parseSrvConfigLine env line s
    if r.1 < 0 then r else readLines rest r.1 r.2
termination_by file.length
decreasing_by exact length_fgets_lt _h

/-- `parse_srv_config`; without a file `fopen` fails. -/
def parseSrvConfig (file : Option Bytes) (s : Proc) : ℤ × Proc :=
  match file with
  | none => (-ENOENT, s)
  | some content => readLines env content 0 s

/-! ### The command line -/

/-- What `getopt` returns, with `optarg`.  A question mark stands for an option that it does not
know, and for one without its argument. -/
structure Opt where
  c : Byte
  optarg : Bytes
  deriving DecidableEq, Repr

/-- Which options of `"w:p:f:l:h"` have an argument. -/
def takesArg (c : Byte) : Bool := decide (c ∈ ascii "wpfl")

/-- The options of one argument of the command line, behind its dash, and the option that waits
for the next argument. -/
def getoptCluster : Bytes → List Opt × Option Byte
  | [] => ([], none)
  | c :: cs =>
    if takesArg c then if cs = [] then ([], some c) else ([⟨c, cs⟩], none)
    else
      let r := getoptCluster cs
      (⟨if c = 104 then c else 63, []⟩ :: r.1, r.2)

/-- The successive results of `getopt` before it returns -1, from the arguments behind the name of
the program.  An argument that is no option is skipped, or ends the options when
`POSIXLY_CORRECT` is set. -/
def getopt (posix : Bool) : Option Byte → List Bytes → List Opt
  | some _, [] => [⟨63, []⟩]
  | some c, arg :: args => ⟨c, arg⟩ :: getopt posix none args
  | none, [] => []
  | none, arg :: args =>
    if arg = ascii "--" then []
    else
      match arg with
      | 45 :: c :: cs =>
        let r := getoptCluster (c :: cs)
        r.1 ++ getopt posix r.2 args
      | _ => if posix then [] else getopt posix none args

/-- One round of `parse_srv_cmdline_opts`: what it returns, or zero when it goes on. -/
def parseSrvCmdlineOpt (o : Opt) (s : Proc) : ℤ × Proc :=
  if o.c = 119 then storeNumWorkers o.optarg false s
  else if o.c = 112 then storePort o.optarg false s
  else if o.c = 102 then parseLogFileName env o.optarg false s
  else if o.c = 108 then storeLogLevel o.optarg false s
  else if o.c = 104 then (0, { s with config := { s.config with help := true } })
  else (-EINVAL, { s with config := { s.config with help := true } })

/-- `parse_srv_cmdline_opts`. -/
def parseSrvCmdlineOpts (opts : List Opt) (s : Proc) : ℤ × Proc :=
  Until.run (fun ret : ℤ => decide (ret ≠ 0)) (parseSrvCmdlineOpt env) opts 0 s

/-! ### The start of the server -/

/-- `init_srv_config_default`, in a process that has not done anything yet. -/
def initSrvConfigDefault : Proc :=
  { config := ⟨defaultSrvPort, defaultNumWorkers, none, some .stdout, 0, false⟩
    blocks := [], files := [], asked := 0, stderr := [] }

/-- How far `main` comes. -/
inductive Progress
  /-- It exits with `EXIT_FAILURE`. -/
  | failed
  /-- It shows the help and returns. -/
  | helped
  /-- It calls `print_srv_config`. -/
  | started
  deriving DecidableEq, Repr

/-- `main` behind `parse_srv_config`. -/
def mainConfigured (ret : ℤ) (s : Proc) : Proc := if ret < 0 then s.complain .configFailed else s

/-- `main`, up to `print_srv_config`. -/
def main (file : Option Bytes) (posix : Bool) (args : List Bytes) : Progress × Proc :=
  let r := parseSrvConfig env file initSrvConfigDefault
  let r := parseSrvCmdlineOpts env (getopt posix none args) (mainConfigured r.1 r.2)
  if r.1 < 0 then (.failed, r.2.complain .cmdlineFailed)
  else if r.2.config.help then (.helped, r.2)
  else (.started, r.2)

/-- What `print_srv_config` prints. -/
structure Banner where
  port : ℤ
  numWorkers : ℤ
  logFileName : Bytes
  logFileDesc : Stream
  deriving DecidableEq, Repr

/-- `print_srv_config`: the stream it prints to, and what it prints there.  Printing to the null
pointer is `none`. -/
def printSrvConfig (s : Proc) : Option (Stream × Banner) :=
  s.config.logFileDesc.map fun fout =>
    (fout, ⟨s.config.port, s.config.numWorkers,
      (s.config.logFileName.bind fun n => s.blocks[n]?).getD (ascii "stdout"), fout⟩)

variable {env}

/-- The white space of a line does not count. -/
theorem parseSrvConfigLine_trimmed (line : Bytes) (s : Proc) :
    parseSrvConfigLine env line s = parseTrimmedLine env (trimmed line) s := by
  unfold parseSrvConfigLine
  rw [trimSpaces_eq]

end Config
end SrvAsync
