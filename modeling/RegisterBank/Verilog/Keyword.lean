/-!
# Reserved words

The words of Verilog that no generated signal may be called by.
-/

namespace RegisterBank.Verilog

/-- The reserved words. -/
def keywords : List String :=
  ["always", "and", "assign", "begin", "buf", "case", "casex", "casez", "default", "else",
    "end", "endcase", "endfunction", "endgenerate", "endmodule", "for", "function", "generate",
    "genvar", "if", "initial", "inout", "input", "integer", "localparam", "module", "nand",
    "negedge", "nor", "not", "or", "output", "parameter", "posedge", "reg", "signed", "task",
    "wire", "xor"]

/-- Whether a word is reserved. -/
def isKeyword (word : String) : Bool := keywords.contains word

end RegisterBank.Verilog
