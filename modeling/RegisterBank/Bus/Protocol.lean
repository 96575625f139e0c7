import RegisterBank.ResetStyle

/-!
# Bus protocols

The bus families a bridge can be generated for.  All that a family decides is
a function of it: its ports, the data widths it supports, the nets its front
end declares, and the cycles of its transactions.
-/

namespace RegisterBank.Bus

/-- A supported bus family. -/
inductive Protocol where
  /-- A setup cycle, then an access cycle that the ready signal extends. -/
  | apb
  /-- Independent channels with a valid and a ready signal each. -/
  | axil
  /-- One command phase that a wait request stalls. -/
  | amm
  deriving DecidableEq, Repr

/-- Shape of the handshake of a bus family. -/
inductive Handshake where
  | setupAccess
  | validReady
  | waitRequest
  deriving DecidableEq, Repr

/-- What the Local Bus sees during one clock cycle of a transaction. -/
inductive Phase where
  /-- The transaction is in flight and no strobe is issued. -/
  | idle
  /-- The write or the read strobe is asserted. -/
  | strobe
  /-- The bus master samples the response. -/
  | response
  deriving DecidableEq, Repr

/-- Direction of a port, seen from the bridge. -/
inductive Direction where
  | input
  | output
  deriving DecidableEq, Repr

/-- Width of a bus port. -/
inductive PortWidth where
  | bit
  | fixed (width : Nat)
  | address
  | data
  /-- One bit for each data byte. -/
  | strobe
  deriving DecidableEq, Repr

/-- A port of a bus interface. -/
structure Port where
  name : String
  direction : Direction
  width : PortWidth
  deriving DecidableEq, Repr

/-- Bus widths and reset style of one bridge. -/
structure Geometry where
  addressWidth : Nat
  dataWidth : Nat
  reset : ResetStyle
  deriving DecidableEq, Repr

namespace Geometry

/-- One strobe bit for each data byte. -/
def strobeWidth (bus : Geometry) : Nat := bus.dataWidth / 8

/-- The width in bits of a port on this bus. -/
def portWidth (bus : Geometry) : PortWidth → Nat
  | .bit => 1
  | .fixed width => width
  | .address => bus.addressWidth
  | .data => bus.dataWidth
  | .strobe => bus.strobeWidth

end Geometry

namespace Direction

/-- The direction as a port declaration writes it. -/
def keyword : Direction → String
  | .input => "input"
  | .output => "output"

end Direction

namespace Protocol

/-- Every family, in the order in which the choices are listed. -/
def all : List Protocol := [apb, axil, amm]

/-- The word that selects the family. -/
def word : Protocol → String
  | .apb => "apb"
  | .axil => "axil"
  | .amm => "amm"

/-- The family that a word selects. -/
def ofWord? (word : String) : Option Protocol := all.find? fun protocol => protocol.word == word

/-- The words for "no bridge" and for each family. -/
def choices : List String := "none" :: all.map word

/-- The family's name for people. -/
def title : Protocol → String
  | .apb => "AMBA APB"
  | .axil => "AMBA AXI4-Lite"
  | .amm => "Avalon-MM"

/-- The shape of the family's handshake. -/
def handshake : Protocol → Handshake
  | .apb => .setupAccess
  | .axil => .validReady
  | .amm => .waitRequest

/-- The data widths the family supports, in bits. -/
def dataWidths : Protocol → List Nat
  | .apb => [8, 16, 32]
  | .axil => [32, 64]
  | .amm => [8, 16, 32, 64]

/-- Whether the family supports a data width. -/
def supports (protocol : Protocol) (dataWidth : Nat) : Bool :=
  protocol.dataWidths.contains dataWidth

/-- The ports of the family's interface, in the order of the port list. -/
def ports : Protocol → List Port
  | .apb =>
    [⟨"psel", .input, .bit⟩, ⟨"paddr", .input, .address⟩, ⟨"penable", .input, .bit⟩,
      ⟨"pwrite", .input, .bit⟩, ⟨"pwdata", .input, .data⟩, ⟨"pstrb", .input, .strobe⟩,
      ⟨"prdata", .output, .data⟩, ⟨"pready", .output, .bit⟩, ⟨"pslverr", .output, .bit⟩]
  | .axil =>
    [⟨"awaddr", .input, .address⟩, ⟨"awprot", .input, .fixed 3⟩, ⟨"awvalid", .input, .bit⟩,
      ⟨"awready", .output, .bit⟩, ⟨"wdata", .input, .data⟩, ⟨"wstrb", .input, .strobe⟩,
      ⟨"wvalid", .input, .bit⟩, ⟨"wready", .output, .bit⟩, ⟨"bresp", .output, .fixed 2⟩,
      ⟨"bvalid", .output, .bit⟩, ⟨"bready", .input, .bit⟩, ⟨"araddr", .input, .address⟩,
      ⟨"arprot", .input, .fixed 3⟩, ⟨"arvalid", .input, .bit⟩, ⟨"arready", .output, .bit⟩,
      ⟨"rdata", .output, .data⟩, ⟨"rresp", .output, .fixed 2⟩, ⟨"rvalid", .output, .bit⟩,
      ⟨"rready", .input, .bit⟩]
  | .amm =>
    [⟨"address", .input, .address⟩, ⟨"read", .input, .bit⟩, ⟨"readdata", .output, .data⟩,
      ⟨"write", .input, .bit⟩, ⟨"writedata", .input, .data⟩, ⟨"byteenable", .input, .strobe⟩,
      ⟨"waitrequest", .output, .bit⟩]

/-- The nets that the family's front end declares. -/
def internals : Protocol → List String
  | .apb | .amm => []
  | .axil =>
    ["axil_bvalid", "axil_wr_req", "axil_rd_busy", "axil_rvalid_hold", "axil_rd_req"]

/-- The cycles of a write, from the first in which the master drives it. -/
def writePhases : Protocol → List Phase
  | .apb => [.idle, .strobe]
  | .axil => [.strobe, .response]
  | .amm => [.strobe]

/-- The cycles of a read. -/
def readPhases : Protocol → List Phase
  | .apb | .axil | .amm => [.strobe, .response]

/-- The module generated for the map `mapName`. -/
def moduleName (protocol : Protocol) (mapName : String) : String :=
  s!"{protocol.word}2lb_{mapName}"

end Protocol

end RegisterBank.Bus
