import RegisterBank.Verilog.Module

/-!
# Front ends

The part of a bridge between the ports of its bus family and the internal
Local Bus.
-/

namespace RegisterBank.Bus

open RegisterBank.Verilog

/-- A net as an expression. -/
def net (name : String) : Expr := .net name

/-- The condition under which a reset holds. -/
def resetCondition (reset : ResetStyle) : Expr :=
  if reset.isActiveLow then .isFalse (.net reset.port) else .net reset.port

/-- A single bit. -/
def bit (value : Nat) : Expr := .binary 1 value

/-- A declared flip-flop of one bit. -/
def flipFlop (name : String) : Item := .declare ⟨.reg, 1, false, 0, name, none⟩

/-- A wire of one bit that follows an expression. -/
def follow (name : String) (value : Expr) : Item :=
  .declare ⟨.wire, 1, false, 0, name, some value⟩

/-- Reads are issued in the setup cycle and writes in the access cycle. -/
def apbFrontEnd : List Item :=
  [.comment "APB: setup cycle issues reads, access cycle issues writes",
    .assign "lb_waddr" 8 (net "paddr"),
    .assign "lb_wdata" 8 (net "pwdata"),
    .assign "lb_wstrb" 8 (net "pstrb"),
    .assign "lb_wen" 8 (.bitAnd (.bitAnd (net "psel") (net "penable")) (net "pwrite")),
    .assign "lb_raddr" 8 (net "paddr"),
    .assign "lb_ren" 8
      (.bitAnd (.bitAnd (net "psel") (.invert (net "penable"))) (.invert (net "pwrite"))),
    .assign "prdata" 8 (net "lb_rdata"),
    .assign "pready" 8 (.choose (net "pwrite") (net "lb_wready") (net "lb_rvalid")),
    .assign "pslverr" 8 (bit 0)]

/-- The write channels: address and data are accepted together. -/
def axilWriteChannels (reset : ResetStyle) : List Item :=
  [.comment "AXI4-Lite write channels: accept address and data together",
    flipFlop "axil_bvalid",
    follow "axil_wr_req"
      (.bitAnd (.bitAnd (net "awvalid") (net "wvalid")) (.invert (net "axil_bvalid"))),
    .always reset.sensitivity
      (.branchLine (resetCondition reset) (.set "axil_bvalid" 0 (bit 0))
        (.branchLine (net "axil_wr_req") (.set "axil_bvalid" 0 (bit 1))
          (.branchLine (net "bready") (.set "axil_bvalid" 0 (bit 0)) .skip))),
    .assign "awready" 8 (net "axil_wr_req"),
    .assign "wready" 8 (net "axil_wr_req"),
    .assign "bvalid" 8 (net "axil_bvalid"),
    .assign "bresp" 8 (.binary 2 0),
    .assign "lb_waddr" 8 (net "awaddr"),
    .assign "lb_wdata" 8 (net "wdata"),
    .assign "lb_wstrb" 8 (net "wstrb"),
    .assign "lb_wen" 8 (net "axil_wr_req")]

/-- The read channels: one read at a time, its data held until it is taken. -/
def axilReadChannels (reset : ResetStyle) : List Item :=
  [.comment "AXI4-Lite read channels: one outstanding read, data held until rready",
    flipFlop "axil_rd_busy",
    flipFlop "axil_rvalid_hold",
    follow "axil_rd_req" (.bitAnd (net "arvalid") (.invert (net "axil_rd_busy"))),
    .always reset.sensitivity
      (.branch (resetCondition reset)
        (.seq (.set "axil_rd_busy" 16 (bit 0)) (.set "axil_rvalid_hold" 16 (bit 0)))
        (.seq
          (.set "axil_rvalid_hold" 16 (.bitAnd (net "rvalid") (.invert (net "rready"))))
          (.branchLine (net "axil_rd_req") (.set "axil_rd_busy" 0 (bit 1))
            (.branchLine (.bitAnd (net "rvalid") (net "rready"))
              (.set "axil_rd_busy" 0 (bit 0)) .skip)))),
    .assign "arready" 8 (net "axil_rd_req"),
    .assign "rvalid" 8 (.bitOr (net "lb_rvalid") (net "axil_rvalid_hold")),
    .assign "rdata" 8 (net "lb_rdata"),
    .assign "rresp" 8 (.binary 2 0),
    .assign "lb_raddr" 8 (net "araddr"),
    .assign "lb_ren" 8 (net "axil_rd_req")]

/-- Reads are held back by the wait request until their data is registered. -/
def ammFrontEnd : List Item :=
  [.comment "Avalon-MM: reads stall on waitrequest until the data is registered",
    .assign "lb_waddr" 11 (net "address"),
    .assign "lb_wdata" 11 (net "writedata"),
    .assign "lb_wstrb" 11 (net "byteenable"),
    .assign "lb_wen" 11 (net "write"),
    .assign "lb_raddr" 11 (net "address"),
    .assign "lb_ren" 11 (.bitAnd (net "read") (.invert (net "lb_rvalid"))),
    .assign "readdata" 11 (net "lb_rdata"),
    .assign "waitrequest" 11
      (.choose (net "read") (.invert (net "lb_rvalid")) (.invert (net "lb_wready")))]

/-- The front end of a bus family. -/
def Protocol.frontEnd (protocol : Protocol) (bus : Geometry) : List Item :=
  match protocol with
  | .apb => apbFrontEnd
  | .axil => axilWriteChannels bus.reset ++ [.blank] ++ axilReadChannels bus.reset
  | .amm => ammFrontEnd

end RegisterBank.Bus
