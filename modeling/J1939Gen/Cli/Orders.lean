import J1939Gen.Cli.Lines

/-!
# What the operator writes

The commands as an operator means them, and how they may be written: the verb in any
case, then the end of the line or a space (a tab there makes the line an unknown
command), blanks in front, between the further words and behind, numbers in decimal.

* `parseLine_spells`: a line that spells an order is parsed as its command.
* `commandsOf_typed`: text typed line by line gives the commands of its orders.
-/

namespace J1939Gen.Cli

open Boot Console Generator Operation

/-! ## Orders -/

/-- What the operator means; the numbers of `CONFIG` after the type are kept as they
    are written. -/
inductive Order
  | config (pgn : Option UInt32) (spn : UInt32) (type : Int32) (params : List Chars)
  | start (durationSec : Option UInt32)
  | startMode (durationSec : UInt32) (mode : SchedMode)
  | stop
  | clear
  | baud (baudKbps : UInt32)
  | status
  | reset
  | cantest
  | txlogQuery
  | txlog (enable : Bool)

/-- The number of a mode. -/
def SchedMode.code : SchedMode → Int32
  | .smooth => 0
  | .sae => 1
  | .stress => 2

/-- The first word of an order. -/
def Order.verb : Order → Chars
  | .config .. => ascii "CONFIG"
  | .start _ | .startMode .. => ascii "START"
  | .stop => ascii "STOP"
  | .clear => ascii "CLEAR"
  | .baud _ => ascii "BAUD"
  | .status => ascii "STATUS"
  | .reset => ascii "RESET"
  | .cantest => ascii "CANTEST"
  | .txlogQuery | .txlog _ => ascii "TXLOG"

/-- `<spn>` or `<pgn>:<spn>`. -/
def identityWord (pgn : Option UInt32) (spn : UInt32) : Chars :=
  match pgn with
  | none => decimal spn
  | some pgn => decimal pgn ++ 58 :: decimal spn

/-- The words of an order after the verb. -/
def Order.words : Order → List Chars
  | .config pgn spn type params => identityWord pgn spn :: writeI32 type :: params
  | .start durationSec => (durationSec.map decimal).toList
  | .startMode durationSec mode => [decimal durationSec, writeI32 mode.code]
  | .baud baudKbps => [decimal baudKbps]
  | .txlog enable => [writeI32 (if enable then 1 else 0)]
  | .stop | .clear | .status | .reset | .cantest | .txlogQuery => []

/-- An order the firmware takes. -/
def Order.Valid : Order → Prop
  | .baud baudKbps => baudKbps = 250 ∨ baudKbps = 500
  | _ => True

/-- An argument of `CONFIG`, or its default. -/
def param {α : Type} (params : List Chars) (i : ℕ) (convert : Chars → α) (default : α) : α :=
  (params[i]?.map convert).getD default

/-- The command an order asks for. -/
def Order.command (L : Libc) : Order → Command
  | .config pgn spn type params => .config
      { pgn := pgn.getD 0
        spn := spn
        type := L.patternType type
        rawFromPhysical := L.rawFromPhysical (param params 0 L.atof 0)
        minValue := param params 0 L.atof 0
        maxValue := param params 1 L.atof 100
        param1 := param params 2 L.atof 10
        timeframeMs := param params 3 strtoul 0
        tStart := param params 4 L.atof 0
        tDur := param params 5 L.atof 0 }
  | .start durationSec => .start (durationSec.getD 0) .smooth
  | .startMode durationSec mode => .start durationSec mode
  | .stop => .stop
  | .clear => .clear
  | .baud baudKbps => .baud baudKbps
  | .status => .status
  | .reset => .reset
  | .cantest => .cantest
  | .txlogQuery => .txlog none
  | .txlog enable => .txlog (some enable)

/-- `line` is the verb in any case and, behind a space, the words. Further blanks may
    stand in front, between and behind; what is right behind the verb has to be a space,
    since `prv_process_line` cuts the line at the first one (`app_cli.c:298`). -/
structure Spells (verb : Chars) (ws : List Chars) (line : Chars) : Prop where
  parts : ∃ lead word tail, line = lead ++ (word ++ tail) ∧ (∀ c ∈ lead, isBlank c) ∧
    strcasecmp word verb ∧
    (tail = [] ∧ ws = [] ∨ ∃ rest, tail = 32 :: rest ∧ Words.words isBlank rest = ws)

/-! ## The verb -/

/-- `A` to `Z` and `a` to `z`. -/
def isLetter (c : UInt8) : Bool := (65 ≤ c ∧ c ≤ 90) ∨ (97 ≤ c ∧ c ≤ 122)

theorem isLetter_of_toLower {c : UInt8} (h : isLetter (toLower c)) : isLetter c := by
  simp only [isLetter, toLower, decide_eq_true_eq, UInt8.le_iff_toNat_le] at h ⊢
  split at h
  · next hupper =>
    exact .inl hupper
  · exact h

theorem ne_blank_of_isLetter {c : UInt8} (h : isLetter c) : isBlank c = false ∧ c ≠ 32 := by
  have hne : c ≠ 32 ∧ c ≠ 9 := by
    refine ⟨?_, ?_⟩ <;>
    · rintro rfl
      exact absurd h (by decide)
  exact ⟨decide_eq_false (not_or.mpr hne), hne.1⟩

theorem letters_of_strcasecmp {word verb : Chars} (h : strcasecmp word verb)
    (hverb : ∀ c ∈ verb.map toLower, isLetter c) : ∀ c ∈ word, isLetter c := by
  intro c hc
  apply isLetter_of_toLower
  apply hverb
  rw [← of_decide_eq_true h]
  exact List.mem_map_of_mem hc

theorem strcasecmp_congr {word verb : Chars} (h : strcasecmp word verb) (v : Chars) :
    strcasecmp word v = strcasecmp verb v := by
  rw [strcasecmp, strcasecmp, show word.map toLower = verb.map toLower from of_decide_eq_true h]

/-- The first words of the orders. -/
def verbs : List Chars :=
  [ascii "CONFIG", ascii "START", ascii "STOP", ascii "CLEAR", ascii "BAUD", ascii "STATUS",
    ascii "RESET", ascii "CANTEST", ascii "TXLOG"]

theorem Order.verb_mem (o : Order) : o.verb ∈ verbs := by
  cases o <;> simp only [Order.verb, verbs, List.mem_cons, true_or, or_true]

theorem verbs_letters : ∀ verb ∈ verbs, verb ≠ [] ∧ ∀ c ∈ verb.map toLower, isLetter c := by
  decide +kernel

/-- What `prv_process_line` hands to the commands. -/
inductive Args (ws : List Chars) : Option Chars → Prop
  | none : ws = [] → Args ws none
  | some {rest : Chars} : Words.words isBlank rest = ws → Args ws (some (rest.dropWhile isBlank))

theorem parseLine_eq (L : Libc) {verb : Chars} {ws : List Chars} {line : Chars}
    (h : Spells verb ws line) (hverb : verb ∈ verbs) :
    ∃ word args, strcasecmp word verb ∧ Args ws args ∧
      parseLine L line = some (parseCommand L word args) := by
  obtain ⟨hne, hlower⟩ := verbs_letters verb hverb
  obtain ⟨lead, word, tail, rfl, hlead, hcase, htail⟩ := h.parts
  have hletters := letters_of_strcasecmp hcase hlower
  have hword : word ≠ [] := by
    rintro rfl
    have hnil : [] = verb.map toLower := of_decide_eq_true hcase
    exact hne (List.map_eq_nil_iff.mp hnil.symm)
  obtain ⟨c, cs, rfl⟩ := List.exists_cons_of_ne_nil hword
  have hdrop : (lead ++ (c :: cs ++ tail)).dropWhile isBlank = c :: cs ++ tail := by
    rw [List.dropWhile_append_of_pos hlead, List.cons_append, List.dropWhile_cons_of_neg]
    rw [(ne_blank_of_isLetter (hletters c List.mem_cons_self)).1]
    exact Bool.false_ne_true
  have hstop : ∀ d ∈ c :: cs, decide (d ≠ 32) := fun d hd =>
    decide_eq_true (ne_blank_of_isLetter (hletters d hd)).2
  have hparse : parseLine L (lead ++ (c :: cs ++ tail)) =
      some (parseCommand L (c :: cs ++ tail.takeWhile fun c => c ≠ 32)
        (argsBehind (tail.dropWhile fun c => c ≠ 32))) := by
    rw [parseLine]
    simp only [hdrop]
    rw [if_neg (by simp), List.takeWhile_append_of_pos hstop, List.dropWhile_append_of_pos hstop]
  rw [hparse]
  obtain ⟨rfl, hws⟩ | ⟨rest, rfl, hws⟩ := htail
  · exact ⟨_, _, by rwa [List.takeWhile_nil, List.append_nil], .none hws, rfl⟩
  · rw [List.takeWhile_cons_of_neg (by decide), List.dropWhile_cons_of_neg (by decide),
      List.append_nil]
    exact ⟨_, _, hcase, .some hws, rfl⟩

/-! ## The arguments -/

/-- The state of `strtok` with these words to come. -/
def Reads (token : Option (Chars × Chars)) (ws : List Chars) : Prop :=
  match token with
  | none => ws = []
  | some (t, rest) => ws = t :: Words.words isBlank rest

theorem reads_strtok (s : Chars) : Reads (strtok s) (Words.words isBlank s) := by
  rw [strtok]
  rcases hnext : Words.nextWord isBlank s with _ | ⟨t, rest⟩
  · exact Words.nextWord_eq_none_iff.mp hnext
  · exact Words.words_eq_of_nextWord hnext

theorem Reads.next {token : Option (Chars × Chars)} {ws : List Chars} (h : Reads token ws) :
    Reads (strtokNext token) ws.tail := by
  rcases token with _ | ⟨t, rest⟩
  · rw [show ws = [] from h]
    rfl
  · rw [show ws = t :: Words.words isBlank rest from h]
    exact reads_strtok rest

theorem Reads.optional_eq {α : Type} {token : Option (Chars × Chars)} {ws : List Chars}
    (h : Reads token ws) (convert : Chars → α) (default : α) :
    optional convert default token = (ws.head?.map convert).getD default := by
  rcases token with _ | ⟨t, rest⟩
  · rw [show ws = [] from h]
    rfl
  · rw [show ws = t :: Words.words isBlank rest from h]
    rfl

/-- The `i`-th argument after a token. -/
theorem Reads.param_eq {α : Type} {token : Option (Chars × Chars)} {params : List Chars} {i : ℕ}
    (h : Reads token (params.drop i)) (convert : Chars → α) (default : α) :
    optional convert default token = param params i convert default := by
  rw [h.optional_eq, List.head?_drop]
  rfl

theorem Reads.next_drop {token : Option (Chars × Chars)} {params : List Chars} {i : ℕ}
    (h : Reads token (params.drop i)) : Reads (strtokNext token) (params.drop (i + 1)) := by
  have hnext := h.next
  rwa [List.tail_drop] at hnext

theorem args_word {ws : List Chars} {w : Chars} {args : Option Chars} (h : Args (w :: ws) args) :
    ∃ tail, args = some (w ++ tail) ∧ EndsNumber tail := by
  obtain hnil | @⟨rest, hws⟩ := h
  · exact absurd hnil (List.cons_ne_nil w ws)
  · obtain ⟨tail, htail, hend⟩ := Words.dropWhile_of_words hws
    refine ⟨tail, congrArg some htail, fun c hc => ?_⟩
    have hblank := of_decide_eq_true (hend c hc)
    obtain rfl | rfl := hblank <;> rfl

theorem args_reads {ws : List Chars} {args : Option Chars} (h : Args ws args) :
    Reads (args.bind strtok) ws := by
  obtain hnil | @⟨rest, hws⟩ := h
  · exact hnil
  · have hreads := reads_strtok (rest.dropWhile isBlank)
    rwa [Words.words_dropWhile, hws] at hreads

theorem ne_colon_of_isDigit {c : UInt8} (h : isDigit c) : c ≠ 58 := by
  rintro rfl
  exact absurd h (by decide)

theorem parseIdentity_word (pgn : Option UInt32) (spn : UInt32) :
    parseIdentity (identityWord pgn spn) = .ok (pgn.getD 0, spn) := by
  have hdigits (value : UInt32) : ∀ c ∈ decimal value, decide (c ≠ 58) := fun c hc =>
    decide_eq_true (ne_colon_of_isDigit (isDigit_of_mem_decimal hc))
  rcases pgn with _ | pgn
  · rw [parseIdentity, identityWord, List.dropWhile_eq_nil_iff.mpr (hdigits spn)]
    simp only [strtoul_word]
    rfl
  · rw [parseIdentity, identityWord, List.dropWhile_append_of_pos (hdigits pgn),
      List.dropWhile_cons_of_neg (by decide), List.takeWhile_append_of_pos (hdigits pgn),
      List.takeWhile_cons_of_neg (by decide), List.append_nil]
    simp only [strtoul_word]
    rw [if_neg (not_or.mpr ⟨decimal_ne_nil pgn, decimal_ne_nil spn⟩)]
    rfl

theorem parsePattern_words (L : Libc) (pgn spn : UInt32) (type : Int32) {params : List Chars}
    {token : Option (Chars × Chars)} (h : Reads token (writeI32 type :: params)) :
    parsePattern L pgn spn token = .ok ((Order.config (some pgn) spn type params).command L) := by
  rcases token with _ | ⟨t, rest⟩
  · exact absurd h (List.cons_ne_nil _ _)
  · obtain ⟨rfl, hparams⟩ := List.cons.inj (show writeI32 type :: params = t :: _ from h)
    have h0 : Reads (strtokNext (some (writeI32 type, rest))) (params.drop 0) := h.next
    have h1 := h0.next_drop
    have h2 := h1.next_drop
    have h3 := h2.next_drop
    have h4 := h3.next_drop
    have h5 := h4.next_drop
    simp only [parsePattern, Order.command, atoi_word, h0.param_eq, h1.param_eq, h2.param_eq,
      h3.param_eq, h4.param_eq, h5.param_eq, Option.getD_some]

theorem parseConfig_words (L : Libc) (pgn : Option UInt32) (spn : UInt32) (type : Int32)
    {params : List Chars} {args : Option Chars}
    (h : Args (identityWord pgn spn :: writeI32 type :: params) args) :
    parseConfig L args = .ok ((Order.config pgn spn type params).command L) := by
  have hreads := args_reads h
  obtain ⟨tail, rfl, -⟩ := args_word h
  rw [parseConfig]
  rw [Option.bind_some] at hreads
  rcases hnext : strtok (identityWord pgn spn ++ tail) with _ | ⟨t, rest⟩
  · rw [hnext] at hreads
    exact absurd hreads (List.cons_ne_nil _ _)
  · rw [hnext] at hreads
    obtain ⟨rfl, hrest⟩ := List.cons.inj
      (show identityWord pgn spn :: writeI32 type :: params = t :: _ from hreads)
    have hpattern := reads_strtok rest
    rw [← hrest] at hpattern
    simp only [parseIdentity_word]
    exact parsePattern_words L (pgn.getD 0) spn type hpattern

/-! ## One line -/

/-- The case of a verb does not matter. -/
theorem parseCommand_congr (L : Libc) {word verb : Chars} (h : strcasecmp word verb)
    (hverb : verb ∈ verbs) (args : Option Chars) :
    parseCommand L word args = parseCommand L verb args := by
  simp only [verbs, List.mem_cons, List.not_mem_nil, or_false] at hverb
  obtain rfl | rfl | rfl | rfl | rfl | rfl | rfl | rfl | rfl := hverb <;>
  · simp only [parseCommand, strcasecmp_congr h]
    rfl

theorem parseStart_words {args : Option Chars} {durationSec : Option UInt32}
    (h : Args (durationSec.map decimal).toList args) :
    parseStart args = .start (durationSec.getD 0) .smooth := by
  have hreads := args_reads h
  rw [parseStart, hreads.optional_eq, hreads.next.optional_eq]
  rcases durationSec with _ | durationSec
  · rfl
  · simp [strtoul_word]

theorem parseStart_mode {args : Option Chars} {durationSec : UInt32} {mode : SchedMode}
    (h : Args [decimal durationSec, writeI32 mode.code] args) :
    parseStart args = .start durationSec mode := by
  have hreads := args_reads h
  rw [parseStart, hreads.optional_eq, hreads.next.optional_eq]
  simp only [List.head?_cons, List.tail_cons, Option.map_some, Option.getD_some, strtoul_word,
    atoi_word]
  cases mode <;> rfl

theorem parseBaud_word {args : Option Chars} {baudKbps : UInt32}
    (h : Args [decimal baudKbps] args) (hvalid : baudKbps = 250 ∨ baudKbps = 500) :
    parseBaud args = .ok (.baud baudKbps) := by
  obtain ⟨tail, rfl, hend⟩ := args_word h
  simp only [parseBaud, strtoul_decimal baudKbps hend]
  rw [if_neg (by grind)]

theorem parseTxlog_none {args : Option Chars} (h : Args [] args) : parseTxlog args = .txlog none := by
  obtain - | @⟨rest, hws⟩ := h
  · rfl
  · rw [Words.dropWhile_of_words_nil hws]
    rfl

theorem parseTxlog_word {args : Option Chars} {enable : Bool}
    (h : Args [writeI32 (if enable then 1 else 0)] args) :
    parseTxlog args = .txlog (some enable) := by
  obtain ⟨tail, rfl, hend⟩ := args_word h
  have hread := atoi_writeI32 (if enable then 1 else 0) hend
  cases enable with
  | false =>
    show Command.txlog (some (decide (atoi (writeI32 0 ++ tail) ≠ 0))) = _
    rw [show atoi (writeI32 0 ++ tail) = 0 from hread]
    rfl
  | true =>
    show Command.txlog (some (decide (atoi (writeI32 1 ++ tail) ≠ 0))) = _
    rw [show atoi (writeI32 1 ++ tail) = 1 from hread]
    rfl

/-- **One line.** A line that spells an order is parsed as its command. -/
theorem parseLine_spells (L : Libc) (o : Order) (line : Chars) (hvalid : o.Valid)
    (h : Spells o.verb o.words line) : parseLine L line = some (.ok (o.command L)) := by
  obtain ⟨word, args, hcase, hargs, hparse⟩ := parseLine_eq L h o.verb_mem
  rw [hparse, parseCommand_congr L hcase o.verb_mem]
  apply congrArg some
  cases o with
  | config pgn spn type params => exact parseConfig_words L pgn spn type hargs
  | start durationSec => exact congrArg Except.ok (parseStart_words hargs)
  | startMode durationSec mode => exact congrArg Except.ok (parseStart_mode hargs)
  | baud baudKbps => exact parseBaud_word hargs hvalid
  | txlogQuery => exact congrArg Except.ok (parseTxlog_none hargs)
  | txlog enable => exact congrArg Except.ok (parseTxlog_word hargs)
  | stop | clear | status | reset | cantest => rfl

/-! ## Text typed line by line -/

/-- A line that spells an order, as it is typed: at most 127 bytes, the room of the
    buffer, without a NUL or a line end inside, and ended. -/
structure Typed where
  order : Order
  line : Chars
  eol : Chars
  valid : order.Valid
  spells : Spells order.verb order.words line
  plain : ∀ c ∈ line, c ≠ 0 ∧ isEol c = false
  fits : line.length ≤ 127
  ended : eol ≠ [] ∧ ∀ c ∈ eol, isEol c

/-- The bytes that are typed. -/
def Typed.bytes (t : Typed) : Chars := t.line ++ t.eol

theorem Typed.line_ne_nil (t : Typed) : t.line ≠ [] := by
  obtain ⟨lead, word, tail, hline, -, hcase, -⟩ := t.spells.parts
  rw [hline]
  intro hnil
  obtain ⟨-, hnil⟩ := List.append_eq_nil_iff.mp hnil
  obtain ⟨rfl, -⟩ := List.append_eq_nil_iff.mp hnil
  have hverb : [] = t.order.verb.map toLower := of_decide_eq_true hcase
  exact (verbs_letters _ t.order.verb_mem).1 (List.map_eq_nil_iff.mp hverb.symm)

theorem textOf_line (t : Typed) : textOf t.line = t.line := by
  rw [textOf, List.takeWhile_eq_self_iff]
  exact fun c hc => decide_eq_true (t.plain c hc).1

theorem linesOf_typed (t : Typed) (stream : Chars) :
    linesOf (t.bytes ++ stream) = t.line :: linesOf stream := by
  obtain ⟨hne, heol⟩ := t.ended
  obtain ⟨e, es, hes⟩ := List.exists_cons_of_ne_nil hne
  rw [hes] at heol
  have hline : t.line.take 127 = t.line := List.take_of_length_le t.fits
  have hsplit : t.bytes ++ stream = t.line ++ e :: (es ++ stream) := by
    rw [Typed.bytes, hes, List.append_assoc, List.cons_append]
  rw [linesOf_eq, linesOf_eq, hsplit,
    Words.frames_cons (fun c hc => (t.plain c hc).2) (heol e List.mem_cons_self),
    Words.frames_delims fun c hc => heol c (List.mem_cons_of_mem e hc), hline,
    if_neg (by simpa using t.line_ne_nil), List.singleton_append, List.map_cons, textOf_line]

/-- **Typed text.** The commands are those of the orders, one a line. -/
theorem commandsOf_typed (L : Libc) (ts : List Typed) :
    commandsOf L (ts.flatMap Typed.bytes) = ts.map fun t => t.order.command L := by
  induction ts with
  | nil => rfl
  | cons t ts ih =>
    have hparse := parseLine_spells L t.order t.line t.valid t.spells
    rw [commandsOf] at ih
    rw [commandsOf, List.flatMap_cons, linesOf_typed, List.filterMap_cons, hparse, List.map_cons, ih]

end J1939Gen.Cli
