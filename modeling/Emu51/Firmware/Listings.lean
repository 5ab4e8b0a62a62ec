import Emu51.Firmware.Assembly

/-!
# The firmware

Two parts of the firmware: the serial output of `hello.s` and `hello.asm`, from `serial_hex` to
`hexdump`, and the access to the switch registers in `hello.s`, from `reg_read` to
`phyocp_reg_addr`.
-/

namespace Emu51

/-! ## Symbols -/

abbrev INDACC_CMD : Byte := 0xa0
abbrev INDACC_STATUS : Byte := 0xa1
abbrev INDACC_ADDR_H : Byte := 0xa2
abbrev INDACC_ADDR_L : Byte := 0xa3
abbrev INDACC_WDATA_H : Byte := 0xa4
abbrev INDACC_WDATA_L : Byte := 0xa5
abbrev INDACC_RDATA_H : Byte := 0xa6
abbrev INDACC_RDATA_L : Byte := 0xa7
abbrev SSPL : Byte := 0xb9
abbrev SSPH : Byte := 0xba
abbrev SSIO : Byte := 0xbb

abbrev SFR_EXEC_READ_REG : Byte := 1
abbrev SFR_EXEC_WRITE_REG : Byte := 3

abbrev RTL8367_0018_PORT0_EEECFG : Word := 0x0018
abbrev RTL8367_1D15_GPHY_OCP_MSB_0 : Word := 0x1d15
abbrev RTL8367_2000_PHY_BASE : Word := 0x2000

/-- The bit `TI`. -/
abbrev TI : Byte := 0x99
/-- The bit `F0`. -/
abbrev F0 : Byte := 0xd5
/-- The bit `ACC.7`. -/
abbrev ACC_7 : Byte := 0xe7
/-- The bit `B.7`. -/
abbrev B_7 : Byte := 0xf7

/-! ## Serial output -/

/-- The labels from `serial_hex` to `hexdump`. -/
inductive SerialLabel where
  | serialHex | serialHexNibble | serialHexDigit | serialWrite | serialWriteWait
  | serialPuts | serialEnd | serialNewline
  | readByte | readStackByte | readCodeByte | readDataByte
  | hexaddr | hexdump | hexdumpLoop | hexdumpNoaddr | hexdumpNonewline
  deriving DecidableEq

open SerialLabel Insn in
/-- The listing, where `call` is `acall` in `hello.s` and `lcall` in `hello.asm`. -/
def serialListing (call : SerialLabel → Insn SerialLabel) : Listing SerialLabel := [
  (serialHex, [
    xch B,
    movA (.dir B),
    onA .swap,
    alu .anl (.imm 0x0f),
    call serialHexNibble,
    movA (.dir B),
    alu .anl (.imm 0x0f)]),
  (serialHexNibble, [
    clrC,
    alu .subb (.imm 0x0a),
    jc serialHexDigit,
    alu .add (.imm 0x27)]),
  (serialHexDigit, [
    alu .add (.imm 0x3a)]),
  (serialWrite, [
    clrBit TI,
    movDirA SBUF]),
  (serialWriteWait, [
    jnb TI serialWriteWait,
    ret]),
  (serialPuts, [
    onA .clr,
    movcA,
    jz serialEnd,
    incDptr,
    call serialWrite,
    sjmp serialPuts]),
  (serialEnd, [
    ret]),
  (serialNewline, [
    movA (.imm 13),
    acall serialWrite,
    movA (.imm 10),
    acall serialWrite,
    ret]),
  (readByte, [
    movA (.reg 7),
    jz readCodeByte,
    onA .dec,
    jz readDataByte]),
  (readStackByte, [
    movA (.dir DPL0),
    alu .add (.imm 1),
    movDirA SSPL,
    movA (.dir DPH0),
    alu .addc (.imm 0),
    movDirA SSPH,
    movA (.dir SSIO),
    ret]),
  (readCodeByte, [
    onA .clr,
    movcA,
    ret]),
  (readDataByte, [
    movxA,
    ret]),
  (hexaddr, [
    movA (.dir DPH0),
    acall serialHex,
    movA (.dir DPL0),
    acall serialHex,
    movA (.imm 0x3a), -- `':'`
    acall serialWrite,
    ret]),
  (hexdump, [
    setBit F0,
    movRegImm 2 16]),
  (hexdumpLoop, [
    jnb F0 hexdumpNoaddr,
    acall hexaddr,
    clrBit F0]),
  (hexdumpNoaddr, [
    movA (.imm 0x20), -- `' '`
    acall serialWrite,
    acall readByte,
    acall serialHex,
    incDptr,
    djnz 2 hexdumpNonewline,
    movRegImm 2 16,
    acall serialNewline,
    setBit F0]),
  (hexdumpNonewline, [
    clrC,
    movA (.reg 1),
    alu .subb (.imm 1),
    movRegA 1,
    movA (.reg 0),
    alu .subb (.imm 0),
    movRegA 0,
    alu .orl (.reg 1),
    jnz hexdumpLoop,
    ret])]

/-- The sources that have it. -/
inductive SerialSource where
  | helloS | helloAsm

/-- The listing of the source. -/
def SerialSource.listing : SerialSource → Listing SerialLabel
  | helloS => serialListing .acall
  | helloAsm => serialListing .lcall

/-! ## Switch registers -/

/-- The labels from `reg_read` to `phyocp_reg_addr`. -/
inductive RegLabel where
  | regRead | regStatusLoop | regWrite
  | regFromInitlistDone | regFromInitlist | regFromInitlistWrite | regFromInitlistRmw
  | portInitEee | phyocpRegAddr
  deriving DecidableEq

open RegLabel Insn in
/-- The listing in `hello.s`. -/
def regListing : Listing RegLabel := [
  (regRead, [
    movDirDir INDACC_ADDR_H DPH0,
    movDirDir INDACC_ADDR_L DPL0,
    movDirImm INDACC_CMD SFR_EXEC_READ_REG]),
  (regStatusLoop, [
    movA (.dir INDACC_STATUS),
    cjneA 0 regStatusLoop,
    ret]),
  (regWrite, [
    movDirDir INDACC_ADDR_H DPH0,
    movDirDir INDACC_ADDR_L DPL0,
    movDirImm INDACC_CMD SFR_EXEC_WRITE_REG,
    sjmp regStatusLoop]),
  (regFromInitlistDone, [
    ret]),
  (regFromInitlist, [
    onA .clr,
    movcA,
    incDptr,
    movDirA B,
    clrBit ACC_7,
    movDirA INDACC_ADDR_H,
    onA .clr,
    movcA,
    incDptr,
    movDirA INDACC_ADDR_L,
    jb B_7 regFromInitlistRmw,
    alu .orl (.dir INDACC_ADDR_H),
    jz regFromInitlistDone,
    onA .clr,
    movcA,
    incDptr,
    movDirA INDACC_WDATA_H,
    onA .clr,
    movcA,
    incDptr,
    movDirA INDACC_WDATA_L]),
  (regFromInitlistWrite, [
    movDirImm INDACC_CMD SFR_EXEC_WRITE_REG,
    acall regStatusLoop,
    sjmp regFromInitlist]),
  (regFromInitlistRmw, [
    movDirImm INDACC_CMD SFR_EXEC_READ_REG,
    acall regStatusLoop,
    onA .clr,
    movcA,
    incDptr,
    alu .anl (.dir INDACC_RDATA_H),
    movDirA INDACC_WDATA_H,
    onA .clr,
    movcA,
    incDptr,
    alu .anl (.dir INDACC_RDATA_L),
    movDirA INDACC_WDATA_L,
    onA .clr,
    movcA,
    incDptr,
    alu .orl (.dir INDACC_WDATA_H),
    movDirA INDACC_WDATA_H,
    onA .clr,
    movcA,
    incDptr,
    alu .orl (.dir INDACC_WDATA_L),
    movDirA INDACC_WDATA_L,
    sjmp regFromInitlistWrite]),
  (portInitEee, [
    movDptr RTL8367_0018_PORT0_EEECFG,
    movA (.reg 7),
    movDirImm B 0x20,
    mulAB,
    push B,
    movDirA B,
    movA (.dir DPL0),
    alu .add (.dir B),
    movDirA DPL0,
    movA (.dir DPH0),
    pop B,
    alu .addc (.dir B),
    movDirA DPH0,
    acall regRead,
    movA (.dir INDACC_RDATA_H),
    alu .orl (.imm 0x0f),
    movDirA INDACC_WDATA_H,
    movA (.dir INDACC_RDATA_L),
    movDirA INDACC_WDATA_L,
    acall regWrite,
    ret]),
  (phyocpRegAddr, [
    movRegDir 6 DPH0,
    movRegDir 5 DPL0,
    -- the upper bits of the address go into the register 0x1d15
    movDptr RTL8367_1D15_GPHY_OCP_MSB_0,
    acall regRead,
    movA (.dir INDACC_RDATA_H),
    movDirA INDACC_WDATA_H,
    movA (.dir INDACC_RDATA_L),
    alu .anl (.imm 0xc0),
    movDirA B,
    movA (.reg 6),
    onA .rr,
    onA .rr,
    alu .anl (.imm 0x3f),
    alu .orl (.dir B),
    movDirA INDACC_WDATA_L,
    acall regWrite,
    -- the base address of the port
    movDptr RTL8367_2000_PHY_BASE,
    movA (.reg 7),
    movDirImm B 0x20,
    mulAB,
    push B,
    movDirA B,
    movA (.dir DPL0),
    alu .add (.dir B),
    movDirA DPL0,
    movA (.dir DPH0),
    pop B,
    alu .addc (.dir B),
    movDirA DPH0,
    -- bits 5 to 1 of the address
    movDirDir B DPL0,
    movA (.reg 5),
    rrcA,
    alu .anl (.imm 0x1f),
    alu .add (.dir B),
    movDirA DPL0,
    movA (.dir DPH0),
    alu .addc (.imm 0),
    movDirA DPH0,
    -- bits 9 to 6 of the address
    movA (.reg 6),
    rrcA,
    movRegA 6,
    movA (.reg 5),
    rrcA,
    movRegA 5,
    movA (.reg 6),
    rrcA,
    movRegA 6,
    movA (.reg 5),
    rrcA,
    onA .swap,
    alu .anl (.imm 0x0f),
    alu .add (.dir DPH0),
    movDirA DPH0,
    ret])]

/-- Both listings can be assembled, for instance at address 0. -/
example : ∀ ls ∈ [SerialSource.helloS.listing, SerialSource.helloAsm.listing],
    (assemble ls.code 0).isSome := by decide +kernel

end Emu51
