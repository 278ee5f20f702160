import J1939Gen.Cli.Orders
import J1939Gen.Console.Rings

/-!
# A session on the command line

From the wire to the commands: the interrupt puts what arrives into the receive ring,
the main loop polls it at its own pace, and the command line acts on whole lines.

* `polled_lines`: the lines do not depend on how the polls cut the stream.
* `session_commands`: under every interleaving of interrupts and polls the commands are
  those of the typed orders, in order, and all of them once the ring is read.
-/

namespace J1939Gen.Cli

open Console

/-! ## Polls -/

/-- `App_Cli_Poll` when `hal_console_read` returns these bytes before `-1`: what it
    hands to `prv_process_line` after each. -/
def cliPoll (s : LineBuffer) (received : Chars) : LineBuffer × List (Option Chars) :=
  Mealy.run pollByte s received

/-- **However the stream is cut.** The polls process what stands between two line ends,
    cut to 127 bytes and at the first NUL, the empty pieces left out; the buffer holds
    what came since the last line end, and its index stays below 128. -/
theorem polled_lines (polls : List Chars) :
    (Mealy.run cliPoll LineBuffer.init polls).2.flatten.reduceOption =
        (Words.frames isEol 127 polls.flatten).map textOf ∧
      Holds (Mealy.run cliPoll LineBuffer.init polls).1 (Words.rest isEol 127 polls.flatten) := by
  obtain ⟨hstate, hlines⟩ := Mealy.run_flatMap pollByte id LineBuffer.init polls
  rw [List.flatMap_id] at hstate hlines
  refine ⟨?_, ?_⟩
  · rw [show (Mealy.run cliPoll LineBuffer.init polls).2.flatten = _ from hlines]
    exact linesOf_eq polls.flatten
  · rw [show (Mealy.run cliPoll LineBuffer.init polls).1 = _ from hstate,
      ← (Words.collect_run isEol 127 polls.flatten).1]
    exact (run_pollByte holds_init polls.flatten).1

/-! ## The session -/

/-- The bytes the handler read from `DR`. -/
def arrivedOf (tr : List Shown) : Chars :=
  tr.filterMap fun | .arrived c _ => some c | .put _ | .sent _ | .returned _ => none

/-- The byte found the receive ring full. -/
def isLost : Shown → Bool
  | .arrived _ kept => !kept
  | .put _ | .sent _ | .returned _ => false

theorem keptOf_eq_arrivedOf {tr : List Shown} (h : ∀ x ∈ tr, isLost x = false) :
    keptOf tr = arrivedOf tr := by
  apply List.filterMap_congr
  intro x hx
  cases x with
  | arrived c kept =>
    cases kept with
    | true => rfl
    | false => exact absurd (h _ hx) Bool.true_eq_false_eq_False
  | put _ | sent _ | returned _ => rfl

theorem commandsOf_of_isPrefix (L : Libc) {stream whole : Chars} (h : stream <+: whole) :
    commandsOf L stream <+: commandsOf L whole := by
  obtain ⟨rest, rfl⟩ := h
  rw [commandsOf, commandsOf, linesOf, linesOf, Mealy.run_append, List.reduceOption_append]
  exact (List.prefix_append _ _).filterMap _

/-- **The session.** While no byte of the typed text is lost, the commands are the first
    of the typed orders, whatever the interleaving; and when the text has arrived and
    the ring is empty they are all of them. -/
theorem session_commands (L : Libc) (typed : List Typed) (es : List Event)
    (harrived : arrivedOf (trace init es) <+: typed.flatMap Typed.bytes)
    (hlost : ∀ x ∈ trace init es, isLost x = false) :
    commandsOf L (returnedOf (trace init es)) <+: typed.map (fun t => t.order.command L) ∧
      (arrivedOf (trace init es) = typed.flatMap Typed.bytes → (after init es).rxQueue = [] →
        commandsOf L (returnedOf (trace init es)) = typed.map fun t => t.order.command L) := by
  have hkept := keptOf_eq es
  rw [keptOf_eq_arrivedOf hlost] at hkept
  rw [← commandsOf_typed]
  refine ⟨commandsOf_of_isPrefix L ?_, fun hall hempty => ?_⟩
  · rw [hkept] at harrived
    exact (List.prefix_append _ _).trans harrived
  · rw [← hall, hkept, hempty, List.append_nil]

/-- `START 10`, typed with two blanks and ended with CR LF. -/
def typedStart : Typed where
  order := .start (some 10)
  line := ascii "Start  10"
  eol := [13, 10]
  valid := trivial
  spells := ⟨[], ascii "Start", ascii "  10", by decide +kernel, fun c hc => absurd hc List.not_mem_nil,
    by decide +kernel, .inr ⟨ascii " 10", by decide +kernel, by decide +kernel⟩⟩
  plain := by decide +kernel
  fits := by decide
  ended := by decide +kernel

/-- `stop`, typed in small letters and ended with a CR. -/
def typedStop : Typed where
  order := .stop
  line := ascii "stop"
  eol := [13]
  valid := trivial
  spells := ⟨[], ascii "stop", [], rfl, fun c hc => absurd hc List.not_mem_nil,
    by decide +kernel, .inl ⟨rfl, rfl⟩⟩
  plain := by decide +kernel
  fits := by decide
  ended := by decide +kernel

/-- Both orders arrive in three pieces, and what is there is read after each. -/
theorem session_commands_start_stop :
    let L : Libc := ⟨fun _ => 0, fun _ => .constant, fun _ _ => 0⟩
    let receive (cs : Chars) : List Event := cs.map fun c => .irq usartSrRxne c
    let poll (n : ℕ) : List Event := (List.range n).flatMap fun _ => [.read, .resume, .resume]
    let es : List Event := receive (ascii "Star") ++ poll 4 ++
      receive (ascii "t  10" ++ [13, 10] ++ ascii "sto") ++ poll 10 ++ receive (ascii "p" ++ [13]) ++
      poll 2
    commandsOf L (returnedOf (trace init es)) = [Command.start 10 .smooth, Command.stop] :=
  (session_commands _ [typedStart, typedStop] _ (by decide +kernel) (by decide +kernel)).2
    (by decide +kernel) (by decide +kernel)

end J1939Gen.Cli
