import J1939Gen.Lib.SpscRing
import J1939Gen.Lib.Mealy

/-!
# The serial console

Model of `HAL/hal_console_stm32f1.c`: the two rings between the firmware and the
interrupt handler of the USART. The handler runs to its end between two steps of
the firmware; a step of the firmware is one access to a variable or a register
that the handler also uses. The set-up of the pins, the clock and the baud rate
is left out.
-/

namespace J1939Gen.Console

/-! ## Registers and indices -/

/-- `USART_SR_ORE`, `USART_SR_RXNE`, `USART_SR_TXE` (`stm32f103_reg.h:286-289`). -/
def usartSrOre : UInt32 := (1 : UInt32) <<< 3
def usartSrRxne : UInt32 := (1 : UInt32) <<< 5
def usartSrTxe : UInt32 := (1 : UInt32) <<< 7

/-- `USART_CR1_*` (`stm32f103_reg.h:290-294`). -/
def usartCr1Re : UInt32 := (1 : UInt32) <<< 2
def usartCr1Te : UInt32 := (1 : UInt32) <<< 3
def usartCr1Rxneie : UInt32 := (1 : UInt32) <<< 5
def usartCr1Txeie : UInt32 := (1 : UInt32) <<< 7
def usartCr1Ue : UInt32 := (1 : UInt32) <<< 13

/-- `TX_BUF_SIZE`. -/
def txBufSize : UInt32 := 1024

/-- `RX_BUF_SIZE`. -/
def rxBufSize : UInt32 := 128

/-- `(uint16_t)((i + 1u) & (size - 1u))`. -/
def nextIndex (size : UInt32) (i : UInt16) : UInt16 :=
  ((i.toUInt32 + 1) &&& (size - 1)).toUInt16

/-- Where the firmware is inside `prv_put` or `hal_console_read`. -/
inductive Pc
  /-- In neither. -/
  | idle
  /-- `while (next == s_tx_tail)`. -/
  | putWait (c : UInt8) (next : UInt16)
  /-- `s_tx_buf[s_tx_head] = (uint8_t)c`. -/
  | putStore (c : UInt8) (next : UInt16)
  /-- `s_tx_head = next`. -/
  | putPublish (next : UInt16)
  /-- `CR1 |= USART_CR1_TXEIE`, its load. -/
  | putLoadCr1
  /-- `CR1 |= USART_CR1_TXEIE`, its store. -/
  | putStoreCr1 (cr1 : UInt32)
  /-- `c = s_rx_buf[s_rx_tail]`. -/
  | readTake
  /-- `s_rx_tail = …` and the return. -/
  | readAdvance (c : UInt8)
deriving DecidableEq, Repr

/-- The statics of `hal_console_stm32f1.c`, `CR1`, and where the firmware is. -/
structure State where
  cr1 : UInt32
  txBuf : ℕ → UInt8
  txHead : UInt16
  txTail : UInt16
  rxBuf : ℕ → UInt8
  rxHead : UInt16
  rxTail : UInt16
  pc : Pc

/-- `hal_console_init` (`hal_console_stm32f1.c:59-79`): the rings are empty, and
    the USART receives with its interrupt on. -/
def init : State where
  cr1 := usartCr1Ue ||| usartCr1Te ||| usartCr1Re ||| usartCr1Rxneie
  txBuf := fun _ => 0
  txHead := 0
  txTail := 0
  rxBuf := fun _ => 0
  rxHead := 0
  rxTail := 0
  pc := .idle

/-! ## What an observer sees -/

/-- What a step shows outside. -/
inductive Shown
  /-- The firmware entered `prv_put` with a byte. -/
  | put (c : UInt8)
  /-- The handler wrote a byte to `DR`. -/
  | sent (c : UInt8)
  /-- The handler read a byte from `DR`, and kept it or not. -/
  | arrived (c : UInt8) (kept : Bool)
  /-- `hal_console_read` returned a byte, or `-1`. -/
  | returned (c : Option UInt8)
deriving DecidableEq, Repr

/-! ## The interrupt handler -/

/-- The first branch of `USART1_IRQHandler` (`hal_console_stm32f1.c:29-36`);
    `dr` is what `DR` holds. -/
def irqReceive (s : State) (sr : UInt32) (dr : UInt8) : State × List Shown :=
  if sr &&& (usartSrRxne ||| usartSrOre) ≠ 0 then
    let next := nextIndex rxBufSize s.rxHead
    if next ≠ s.rxTail then
      ({ s with rxBuf := Function.update s.rxBuf s.rxHead.toNat dr, rxHead := next },
        [.arrived dr true])
    else (s, [.arrived dr false])
  else (s, [])

/-- The second branch (`hal_console_stm32f1.c:38-45`). -/
def irqTransmit (s : State) (sr : UInt32) : State × List Shown :=
  if s.cr1 &&& usartCr1Txeie ≠ 0 ∧ sr &&& usartSrTxe ≠ 0 then
    if s.txTail ≠ s.txHead then
      ({ s with txTail := nextIndex txBufSize s.txTail }, [.sent (s.txBuf s.txTail.toNat)])
    else ({ s with cr1 := s.cr1 &&& ~~~usartCr1Txeie }, [])
  else (s, [])

/-- `USART1_IRQHandler` (`hal_console_stm32f1.c:25-46`). -/
def irqHandler (s : State) (sr : UInt32) (dr : UInt8) : State × List Shown :=
  let (s, received) := irqReceive s sr dr
  let (s, sent) := irqTransmit s sr
  (s, received ++ sent)

/-! ## The firmware -/

/-- `prv_put` is entered (`hal_console_stm32f1.c:48-50`). -/
def put (s : State) (c : UInt8) : State × List Shown :=
  ({ s with pc := .putWait c (nextIndex txBufSize s.txHead) }, [.put c])

/-- `hal_console_read` is entered (`hal_console_stm32f1.c:81-85`). -/
def read (s : State) : State × List Shown :=
  if s.rxTail = s.rxHead then (s, [.returned none]) else ({ s with pc := .readTake }, [])

/-- The next access of the firmware inside `prv_put` (`hal_console_stm32f1.c:51-56`)
    or `hal_console_read` (`hal_console_stm32f1.c:86-88`). -/
def resume (s : State) : State × List Shown :=
  match s.pc with
  | .idle => (s, [])
  | .putWait c next => (if next = s.txTail then s else { s with pc := .putStore c next }, [])
  | .putStore c next =>
    ({ s with txBuf := Function.update s.txBuf s.txHead.toNat c, pc := .putPublish next }, [])
  | .putPublish next => ({ s with txHead := next, pc := .putLoadCr1 }, [])
  | .putLoadCr1 => ({ s with pc := .putStoreCr1 s.cr1 }, [])
  | .putStoreCr1 cr1 => ({ s with cr1 := cr1 ||| usartCr1Txeie, pc := .idle }, [])
  | .readTake => ({ s with pc := .readAdvance (s.rxBuf s.rxTail.toNat) }, [])
  | .readAdvance c =>
    ({ s with rxTail := nextIndex rxBufSize s.rxTail, pc := .idle }, [.returned (some c)])

/-- `hal_console_tx_free` (`hal_console_stm32f1.c:91-95`). -/
def txFree (s : State) : UInt16 :=
  let used := ((s.txHead.toUInt32 - s.txTail.toUInt32) &&& (txBufSize - 1)).toUInt16
  (txBufSize - 1 - used.toUInt32).toUInt16

/-! ## Interleavings -/

/-- What happens next. -/
inductive Event
  /-- The firmware calls `prv_put`. -/
  | put (c : UInt8)
  /-- The firmware calls `hal_console_read`. -/
  | read
  /-- The firmware takes its next step. -/
  | resume
  /-- The interrupt, with the values of `SR` and `DR`. -/
  | irq (sr : UInt32) (dr : UInt8)
deriving DecidableEq, Repr

/-- One event; the firmware calls nothing while it is inside a call. -/
def step (s : State) : Event → State × List Shown
  | .put c => if s.pc = .idle then put s c else (s, [])
  | .read => if s.pc = .idle then read s else (s, [])
  | .resume => resume s
  | .irq sr dr => irqHandler s sr dr

/-- The state after a list of events. -/
def after (s : State) (events : List Event) : State := (Mealy.run step s events).1

/-- What the events show, in order. -/
def trace (s : State) (events : List Event) : List Shown := (Mealy.run step s events).2.flatten

end J1939Gen.Console
