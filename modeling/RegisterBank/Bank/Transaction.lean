import RegisterBank.Bank.Machine

/-!
# Bus transactions

A transaction runs a machine through the cycles that its bus family takes for
it.  Only the strobe cycle carries the request; read data is taken in the
response cycle.
-/

namespace RegisterBank.Bank

open RegisterBank.Bus (Phase Protocol)

/-- What is seen of one transaction. -/
structure Transaction where
  /-- One trace for each cycle. -/
  cycles : List Trace
  /-- The word that a read gave. -/
  data : Option Nat
  deriving DecidableEq, Repr

namespace Machine

/-- A machine run through the cycles of a transaction that carries `request`.
Of several responses the last one gives the data. -/
def runPhases (request : Request) (isRead : Bool) :
    List Phase → Machine → Transaction × Machine
  | [], machine => (⟨[], none⟩, machine)
  | phase :: rest, machine =>
    let (trace, machine) := machine.cycle (if phase = .strobe then request else .idle)
    let (transaction, machine) := runPhases request isRead rest machine
    let data :=
      if isRead && phase == .response && trace.readValid then some trace.readData else none
    (⟨trace :: transaction.cycles, transaction.data <|> data⟩, machine)

/-- A write of the strobed bytes of `data`. -/
def writeStrobed (machine : Machine) (protocol : Protocol) (address data strobe : Nat) :
    Transaction × Machine :=
  runPhases (.write address data strobe) false protocol.writePhases machine

/-- A write of all bytes of `data`. -/
def write (machine : Machine) (protocol : Protocol) (address data : Nat) :
    Transaction × Machine :=
  machine.writeStrobed protocol address data (Bits.ones (machine.dataWidth / 8))

/-- A read. -/
def read (machine : Machine) (protocol : Protocol) (address : Nat) : Transaction × Machine :=
  runPhases (.read address) true protocol.readPhases machine

end Machine

end RegisterBank.Bank
