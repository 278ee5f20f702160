import J1939Gen.Lib.Words
import J1939Gen.Console.Numbers
import J1939Gen.Operation.Model
import J1939Gen.Waveform.Model

/-!
# The command line

Model of `APP/app_cli.c`: how the bytes the console returns become lines, and how
a line becomes a command or an error. What a command does is
`Operation.processLine`; its reply, apart from the errors found before anything is
done, is left out, and so are the bytes `prv_process_line` overwrites in the line
buffer, which are not read again.
-/

namespace J1939Gen.Cli

open ByteMem Boot Console Generator Operation

/-! ## The line buffer -/

/-- `APP_CLI_BUF_LEN`. -/
def bufLen : ℕ := 128

/-- `s_line_buf` and `s_line_pos`. -/
structure LineBuffer where
  buf : Mem
  pos : UInt8

/-- The zeroed statics. -/
def LineBuffer.init : LineBuffer := ⟨fun _ => 0, 0⟩

/-- The C string at the start of a buffer of `size` bytes. -/
def cString (buf : Mem) (size : ℕ) : Chars := (bytes buf 0 size).takeWhile fun c => c ≠ 0

/-- The body of the loop of `App_Cli_Poll` (`app_cli.c:331-345`), and the line it
    hands to `prv_process_line`. -/
def pollByte (s : LineBuffer) (c : UInt8) : LineBuffer × Option Chars :=
  if c = 10 ∨ c = 13 then
    if s.pos > 0 then
      let buf := Function.update s.buf s.pos.toNat 0
      (⟨buf, 0⟩, some (cString buf bufLen))
    else (s, none)
  else if s.pos < UInt8.ofNat bufLen - 1 then
    (⟨Function.update s.buf s.pos.toNat c, s.pos + 1⟩, none)
  else (s, none)

/-! ## Commands -/

/-- `J1939_Sched_Mode_t`. -/
inductive SchedMode
  | smooth
  | sae
  | stress
deriving DecidableEq, Repr

/-- A line that passed its checks. -/
inductive Command
  | config (req : Waveform.Request)
  | start (durationSec : UInt32) (mode : SchedMode)
  | stop
  | clear
  | baud (baudKbps : UInt32)
  | status
  | reset
  | cantest
  | txlog (enable : Option Bool)

/-- What the parser takes from outside: `(float)atof`, the conversion of an `int`
    to `Pattern_Type_t`, and `prv_raw_from_physical`. -/
structure Libc where
  atof : Chars → Float32
  patternType : Int32 → PatternType
  rawFromPhysical : Float32 → ℕ → UInt32

/-- The separators of `strtok`, and what is skipped before a command and before its
    arguments. -/
def isBlank (c : UInt8) : Bool := c = 32 ∨ c = 9

/-- `strtok` with `" \t"`: the token and where the next call goes on. -/
def strtok (s : Chars) : Option (Chars × Chars) := Words.nextWord isBlank s

/-- `strtok(NULL, " \t")` after a call that ended with this result. -/
def strtokNext : Option (Chars × Chars) → Option (Chars × Chars)
  | none => none
  | some (_, rest) => strtok rest

/-- `tolower` in the C locale. -/
def toLower (c : UInt8) : UInt8 := if 65 ≤ c ∧ c ≤ 90 then c + 32 else c

/-- `strcasecmp(a, b) == 0`. -/
def strcasecmp (a b : Chars) : Bool := a.map toLower = b.map toLower

/-! ## The commands with arguments -/

/-- The catalog identity of `CONFIG`: `<spn>` or `<pgn>:<spn>` (`app_cli.c:41-58`). -/
def parseIdentity (token : Chars) : Except Chars (UInt32 × UInt32) :=
  match token.dropWhile fun c => c ≠ 58 with
  | [] => .ok (0, strtoul token)
  | _ :: spn =>
    let pgn := token.takeWhile fun c => c ≠ 58
    if pgn = [] ∨ spn = [] then
      .error (ascii "[ERR] Use decimal PGN:SPN, for example 61451:928")
    else .ok (strtoul pgn, strtoul spn)

/-- An optional argument of `CONFIG`. -/
def optional {α : Type} (convert : Chars → α) (default : α) (token : Option (Chars × Chars)) : α :=
  match token with
  | none => default
  | some (t, _) => convert t

/-- The request of `CONFIG` from the type on (`app_cli.c:60-83`). -/
def parsePattern (L : Libc) (pgn spn : UInt32) (token : Option (Chars × Chars)) :
    Except Chars Command :=
  match token with
  | none => .error (ascii "[ERR] CONFIG missing type")
  | some (typeText, _) =>
    let minToken := strtokNext token
    let maxToken := strtokNext minToken
    let param1Token := strtokNext maxToken
    let timeframeToken := strtokNext param1Token
    let tStartToken := strtokNext timeframeToken
    let tDurToken := strtokNext tStartToken
    let minValue := optional L.atof 0 minToken
    .ok (.config
      { pgn := pgn
        spn := spn
        type := L.patternType (atoi typeText)
        rawFromPhysical := L.rawFromPhysical minValue
        minValue := minValue
        maxValue := optional L.atof 100 maxToken
        param1 := optional L.atof 10 param1Token
        timeframeMs := optional strtoul 0 timeframeToken
        tStart := optional L.atof 0 tStartToken
        tDur := optional L.atof 0 tDurToken })

/-- `prv_cmd_config` (`app_cli.c:31-83`), up to the request. -/
def parseConfig (L : Libc) (args : Option Chars) : Except Chars Command :=
  match args with
  | none => .error (ascii ("[ERR] Expected: CONFIG <spn|pgn:spn> <type> <min> <max> " ++
      "[param1] [timeframe_ms] [t_start] [t_dur]"))
  | some args =>
    match strtok args with
    | none => .error (ascii "[ERR] CONFIG missing SPN")
    | some (token, rest) => do
      let (pgn, spn) ← parseIdentity token
      parsePattern L pgn spn (strtok rest)

/-- `prv_cmd_start` (`app_cli.c:149-165`), up to the call. -/
def parseStart (args : Option Chars) : Command :=
  let token := args.bind strtok
  let mode := optional atoi 0 (strtokNext token)
  .start (optional strtoul 0 token)
    (if mode = 1 then .sae else if mode = 2 then .stress else .smooth)

/-- `prv_cmd_baud` (`app_cli.c:188-194`), up to the call. -/
def parseBaud (args : Option Chars) : Except Chars Command :=
  let baud := match args with
    | none => defaultBaudKbps
    | some args => strtoul args
  if baud ≠ 250 ∧ baud ≠ 500 then
    .error (ascii "[ERR] Supported baud rates are 250 or 500 kbps.")
  else .ok (.baud baud)

/-- `prv_cmd_txlog` (`app_cli.c:206-213`), up to the call. -/
def parseTxlog (args : Option Chars) : Command :=
  match args with
  | none | some [] => .txlog none
  | some args => .txlog (some (atoi args ≠ 0))

/-- The comparisons of `prv_process_line` (`app_cli.c:305-328`). -/
def parseCommand (L : Libc) (word : Chars) (args : Option Chars) : Except Chars Command :=
  if strcasecmp word (ascii "CONFIG") then parseConfig L args
  else if strcasecmp word (ascii "START") then .ok (parseStart args)
  else if strcasecmp word (ascii "STOP") then .ok .stop
  else if strcasecmp word (ascii "CLEAR") then .ok .clear
  else if strcasecmp word (ascii "BAUD") then parseBaud args
  else if strcasecmp word (ascii "STATUS") then .ok .status
  else if strcasecmp word (ascii "RESET") then .ok .reset
  else if strcasecmp word (ascii "CANTEST") then .ok .cantest
  else if strcasecmp word (ascii "TXLOG") then .ok (parseTxlog args)
  else .error (ascii "[ERR] Unknown command '" ++ word ++ ascii ("'. Available: CONFIG, START, " ++
    "STOP, CLEAR, BAUD, STATUS, RESET, CANTEST, TXLOG"))

/-- What stands behind the command word and its blank, leading blanks skipped
    (`app_cli.c:297-303`). -/
def argsBehind : Chars → Option Chars
  | [] => none
  | _ :: rest => some (rest.dropWhile isBlank)

/-- `prv_process_line` (`app_cli.c:292-329`): the command of a line, or the error it
    is answered with; nothing for a blank line. -/
def parseLine (L : Libc) (line : Chars) : Option (Except Chars Command) :=
  let line := line.dropWhile isBlank
  if line = [] then none
  else
    let word := line.takeWhile fun c => c ≠ 32
    let args := argsBehind (line.dropWhile fun c => c ≠ 32)
    some (parseCommand L word args)

/-! ## What a command does -/

/-- The step of the firmware a command is; `STATUS` and `TXLOG` change nothing the
    model has. -/
def Command.action (c : Command) (nowMs : UInt32) : Option CliCommand :=
  match c with
  | .config req => some (.config req.toSignalRequest nowMs)
  | .start durationSec _ => some (.start durationSec nowMs)
  | .stop => some .stop
  | .clear | .reset => some .clear
  | .baud baudKbps => some (.baud baudKbps)
  | .cantest => some .cantest
  | .status | .txlog _ => none

/-- The lines the bytes of a stream complete. -/
def linesOf (stream : Chars) : List Chars :=
  (Mealy.run pollByte LineBuffer.init stream).2.reduceOption

/-- The commands the bytes of a stream give, errors left out. -/
def commandsOf (L : Libc) (stream : Chars) : List Command :=
  (linesOf stream).filterMap fun line =>
    match parseLine L line with
    | some (.ok c) => some c
    | _ => none

end J1939Gen.Cli
