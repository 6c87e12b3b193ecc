import RiscvEmu.Basic

/-!
# The decoder

`insnDecode` is `insn_decode`: a nested switch on the fields of the fetched
word. The macros that cut fields are in `Field`, the helpers that read the
operands of one format follow, and each opcode group of the switch is a
definition of its own.

The helpers of the compressed formats take 16 bits, so a fetched word is
truncated when it is passed to one of them.
-/

set_option autoImplicit false

namespace RiscvEmu

/-! ## Field macros -/

namespace Field

def quadrant (data : U32) : U32 := data &&& 0x3
def opcode (data : U32) : U32 := (data >>> 2) &&& 0x1f
def rd (data : U32) : Reg := ((data >>> 7) &&& 0x1f).setWidth 5
def rs1 (data : U32) : Reg := ((data >>> 15) &&& 0x1f).setWidth 5
def rs2 (data : U32) : Reg := ((data >>> 20) &&& 0x1f).setWidth 5
def rs3 (data : U32) : Reg := ((data >>> 27) &&& 0x1f).setWidth 5
def funct2 (data : U32) : U32 := (data >>> 25) &&& 0x3
def funct3 (data : U32) : U32 := (data >>> 12) &&& 0x7
def funct7 (data : U32) : U32 := (data >>> 25) &&& 0x7f
def imm116 (data : U32) : U32 := (data >>> 26) &&& 0x3f

def copcode (data : U32) : U32 := (data >>> 13) &&& 0x7
def cfunct1 (data : U32) : U32 := (data >>> 12) &&& 0x1
def cfunct2low (data : U32) : U32 := (data >>> 5) &&& 0x3
def cfunct2high (data : U32) : U32 := (data >>> 10) &&& 0x3
def rp1 (data : U32) : Reg := ((data >>> 7) &&& 0x7).setWidth 5
def rp2 (data : U32) : Reg := ((data >>> 2) &&& 0x7).setWidth 5
def rc1 (data : U32) : Reg := ((data >>> 7) &&& 0x1f).setWidth 5
def rc2 (data : U32) : Reg := ((data >>> 2) &&& 0x1f).setWidth 5

end Field

/-- `(data >> shift) & mask`, the shape of every immediate field. -/
def bits (data : U32) (shift : Nat) (mask : U32) : U32 := (data >>> shift) &&& mask

/-- `(imm << k) >> k` on a signed 32-bit value. -/
def signFrom (imm : U32) (k : Nat) : U32 := (imm <<< k).sshiftRight k

/-! ## Operand formats of 32-bit instructions -/

def insnUtypeRead (data : U32) : Insn where
  imm := data &&& 0xfffff000
  rd := Field.rd data

def insnItypeRead (data : U32) : Insn where
  imm := data.sshiftRight 20
  rs1 := Field.rs1 data
  rd := Field.rd data

def insnJtypeRead (data : U32) : Insn :=
  let imm20 := bits data 31 0x1
  let imm101 := bits data 21 0x3ff
  let imm11 := bits data 20 0x1
  let imm1912 := bits data 12 0xff
  let imm := (imm20 <<< 20) ||| (imm1912 <<< 12) ||| (imm11 <<< 11) ||| (imm101 <<< 1)
  { imm := signFrom imm 11
    rd := Field.rd data }

def insnBtypeRead (data : U32) : Insn :=
  let imm12 := bits data 31 0x1
  let imm105 := bits data 25 0x3f
  let imm41 := bits data 8 0xf
  let imm11 := bits data 7 0x1
  let imm := (imm12 <<< 12) ||| (imm11 <<< 11) ||| (imm105 <<< 5) ||| (imm41 <<< 1)
  { imm := signFrom imm 19
    rs1 := Field.rs1 data
    rs2 := Field.rs2 data }

def insnRtypeRead (data : U32) : Insn where
  rs1 := Field.rs1 data
  rs2 := Field.rs2 data
  rd := Field.rd data

def insnStypeRead (data : U32) : Insn :=
  let imm115 := bits data 25 0x7f
  let imm40 := bits data 7 0x1f
  let imm := (imm115 <<< 5) ||| imm40
  { imm := signFrom imm 20
    rs1 := Field.rs1 data
    rs2 := Field.rs2 data }

def insnCsrtypeRead (data : U32) : Insn where
  csr := (data >>> 20).setWidth 16
  rs1 := Field.rs1 data
  rd := Field.rd data

def insnFprtypeRead (data : U32) : Insn where
  rs1 := Field.rs1 data
  rs2 := Field.rs2 data
  rs3 := Field.rs3 data
  rd := Field.rd data

/-! ## Operand formats of 16-bit instructions

Each helper takes a `u16`; the integer promotion is `setWidth 32`. -/

def insnCatypeRead (data : U16) : Insn :=
  let data := data.setWidth 32
  { rd := Field.rp1 data + 8
    rs2 := Field.rp2 data + 8
    rvc := true }

def insnCrtypeRead (data : U16) : Insn :=
  let data := data.setWidth 32
  { rs1 := Field.rc1 data
    rs2 := Field.rc2 data
    rvc := true }

def insnCitypeRead (data : U16) : Insn :=
  let data := data.setWidth 32
  let imm40 := bits data 2 0x1f
  let imm5 := bits data 12 0x1
  let imm := (imm5 <<< 5) ||| imm40
  { imm := signFrom imm 26
    rd := Field.rc1 data
    rvc := true }

def insnCitypeRead2 (data : U16) : Insn :=
  let data := data.setWidth 32
  let imm86 := bits data 2 0x7
  let imm43 := bits data 5 0x3
  let imm5 := bits data 12 0x1
  { imm := (imm86 <<< 6) ||| (imm43 <<< 3) ||| (imm5 <<< 5)
    rd := Field.rc1 data
    rvc := true }

def insnCitypeRead3 (data : U16) : Insn :=
  let data := data.setWidth 32
  let imm5 := bits data 2 0x1
  let imm87 := bits data 3 0x3
  let imm6 := bits data 5 0x1
  let imm4 := bits data 6 0x1
  let imm9 := bits data 12 0x1
  let imm := (imm5 <<< 5) ||| (imm87 <<< 7) ||| (imm6 <<< 6) ||| (imm4 <<< 4) ||| (imm9 <<< 9)
  { imm := signFrom imm 22
    rd := Field.rc1 data
    rvc := true }

def insnCitypeRead4 (data : U16) : Insn :=
  let data := data.setWidth 32
  let imm5 := bits data 12 0x1
  let imm42 := bits data 4 0x7
  let imm76 := bits data 2 0x3
  { imm := (imm5 <<< 5) ||| (imm42 <<< 2) ||| (imm76 <<< 6)
    rd := Field.rc1 data
    rvc := true }

def insnCitypeRead5 (data : U16) : Insn :=
  let data := data.setWidth 32
  let imm1612 := bits data 2 0x1f
  let imm17 := bits data 12 0x1
  let imm := (imm1612 <<< 12) ||| (imm17 <<< 17)
  { imm := signFrom imm 14
    rd := Field.rc1 data
    rvc := true }

def insnCbtypeRead (data : U16) : Insn :=
  let data := data.setWidth 32
  let imm5 := bits data 2 0x1
  let imm21 := bits data 3 0x3
  let imm76 := bits data 5 0x3
  let imm43 := bits data 10 0x3
  let imm8 := bits data 12 0x1
  let imm := (imm8 <<< 8) ||| (imm76 <<< 6) ||| (imm5 <<< 5) ||| (imm43 <<< 3) ||| (imm21 <<< 1)
  { imm := signFrom imm 23
    rs1 := Field.rp1 data + 8
    rvc := true }

def insnCbtypeRead2 (data : U16) : Insn :=
  let data := data.setWidth 32
  let imm40 := bits data 2 0x1f
  let imm5 := bits data 12 0x1
  let imm := (imm5 <<< 5) ||| imm40
  { imm := signFrom imm 26
    rd := Field.rp1 data + 8
    rvc := true }

def insnCstypeRead (data : U16) : Insn :=
  let data := data.setWidth 32
  let imm76 := bits data 5 0x3
  let imm53 := bits data 10 0x7
  { imm := (imm76 <<< 6) ||| (imm53 <<< 3)
    rs1 := Field.rp1 data + 8
    rs2 := Field.rp2 data + 8
    rvc := true }

def insnCstypeRead2 (data : U16) : Insn :=
  let data := data.setWidth 32
  let imm6 := bits data 5 0x1
  let imm2 := bits data 6 0x1
  let imm53 := bits data 10 0x7
  { imm := (imm6 <<< 6) ||| (imm2 <<< 2) ||| (imm53 <<< 3)
    rs1 := Field.rp1 data + 8
    rs2 := Field.rp2 data + 8
    rvc := true }

def insnCjtypeRead (data : U16) : Insn :=
  let data := data.setWidth 32
  let imm5 := bits data 2 0x1
  let imm31 := bits data 3 0x7
  let imm7 := bits data 6 0x1
  let imm6 := bits data 7 0x1
  let imm10 := bits data 8 0x1
  let imm98 := bits data 9 0x3
  let imm4 := bits data 11 0x1
  let imm11 := bits data 12 0x1
  let imm := (imm5 <<< 5) ||| (imm31 <<< 1) ||| (imm7 <<< 7) ||| (imm6 <<< 6) |||
    (imm10 <<< 10) ||| (imm98 <<< 8) ||| (imm4 <<< 4) ||| (imm11 <<< 11)
  { imm := signFrom imm 20
    rvc := true }

def insnCltypeRead (data : U16) : Insn :=
  let data := data.setWidth 32
  let imm6 := bits data 5 0x1
  let imm2 := bits data 6 0x1
  let imm53 := bits data 10 0x7
  { imm := (imm6 <<< 6) ||| (imm2 <<< 2) ||| (imm53 <<< 3)
    rs1 := Field.rp1 data + 8
    rd := Field.rp2 data + 8
    rvc := true }

def insnCltypeRead2 (data : U16) : Insn :=
  let data := data.setWidth 32
  let imm76 := bits data 5 0x3
  let imm53 := bits data 10 0x7
  { imm := (imm76 <<< 6) ||| (imm53 <<< 3)
    rs1 := Field.rp1 data + 8
    rd := Field.rp2 data + 8
    rvc := true }

def insnCsstypeRead (data : U16) : Insn :=
  let data := data.setWidth 32
  let imm86 := bits data 7 0x7
  let imm53 := bits data 10 0x7
  { imm := (imm86 <<< 6) ||| (imm53 <<< 3)
    rs2 := Field.rc2 data
    rvc := true }

def insnCsstypeRead2 (data : U16) : Insn :=
  let data := data.setWidth 32
  let imm76 := bits data 7 0x3
  let imm52 := bits data 9 0xf
  { imm := (imm76 <<< 6) ||| (imm52 <<< 2)
    rs2 := Field.rc2 data
    rvc := true }

def insnCiwtypeRead (data : U16) : Insn :=
  let data := data.setWidth 32
  let imm3 := bits data 5 0x1
  let imm2 := bits data 6 0x1
  let imm96 := bits data 7 0xf
  let imm54 := bits data 11 0x3
  { imm := (imm3 <<< 3) ||| (imm2 <<< 2) ||| (imm96 <<< 6) ||| (imm54 <<< 4)
    rd := Field.rp2 data + 8
    rvc := true }

/-! ## Quadrants 0 to 2: compressed instructions -/

/-- `case 0x0` of the switch on the quadrant. -/
def decodeQuadrant0 (data : U32) : Except Abort Insn :=
  match (Field.copcode data).toNat with
  | 0x0 => do -- C.ADDI4SPN
      let insn := { insnCiwtypeRead (data.setWidth 16) with rs1 := 2, type := .addi }
      cassert (insn.imm ≠ 0) "insn->imm != 0"
      return insn
  | 0x1 => .ok { insnCltypeRead2 (data.setWidth 16) with type := .fld }
  | 0x2 => .ok { insnCltypeRead (data.setWidth 16) with type := .lw }
  | 0x3 => .ok { insnCltypeRead2 (data.setWidth 16) with type := .ld }
  | 0x5 => .ok { insnCstypeRead (data.setWidth 16) with type := .fsd }
  | 0x6 => .ok { insnCstypeRead2 (data.setWidth 16) with type := .sw }
  | 0x7 => .ok { insnCstypeRead (data.setWidth 16) with type := .sd }
  | _ => .error (.fatal "unimplemented")

/-- C.SRLI, C.SRAI, C.ANDI and the register-register group: `case 0x4` of quadrant 1. -/
def decodeQuadrant1Alu (data : U32) : Except Abort Insn :=
  let shiftOrAnd := insnCbtypeRead2 (data.setWidth 16)
  let registers := insnCatypeRead (data.setWidth 16)
  match (Field.cfunct2high data).toNat with
  | 0x0 => .ok { shiftOrAnd with rs1 := shiftOrAnd.rd, type := .srli }
  | 0x1 => .ok { shiftOrAnd with rs1 := shiftOrAnd.rd, type := .srai }
  | 0x2 => .ok { shiftOrAnd with rs1 := shiftOrAnd.rd, type := .andi }
  | 0x3 =>
      match (Field.cfunct1 data).toNat with
      | 0x0 =>
          match (Field.cfunct2low data).toNat with
          | 0x0 => .ok { registers with rs1 := registers.rd, type := .sub }
          | 0x1 => .ok { registers with rs1 := registers.rd, type := .xor }
          | 0x2 => .ok { registers with rs1 := registers.rd, type := .or }
          | 0x3 => .ok { registers with rs1 := registers.rd, type := .and }
          | _ => .error .unreachable
      | 0x1 =>
          match (Field.cfunct2low data).toNat with
          | 0x0 => .ok { registers with rs1 := registers.rd, type := .subw }
          | 0x1 => .ok { registers with rs1 := registers.rd, type := .addw }
          | _ => .error .unreachable
      | _ => .error .unreachable
  | _ => .error .unreachable

/-- `case 0x1` of the switch on the quadrant. -/
def decodeQuadrant1 (data : U32) : Except Abort Insn :=
  match (Field.copcode data).toNat with
  | 0x0 => -- C.ADDI
      let insn := insnCitypeRead (data.setWidth 16)
      .ok { insn with rs1 := insn.rd, type := .addi }
  | 0x1 => do -- C.ADDIW
      let insn := insnCitypeRead (data.setWidth 16)
      cassert (insn.rd ≠ 0) "insn->rd != 0"
      return { insn with rs1 := insn.rd, type := .addiw }
  | 0x2 => .ok { insnCitypeRead (data.setWidth 16) with rs1 := 0, type := .addi } -- C.LI
  | 0x3 =>
      if Field.rc1 data = 2 then do -- C.ADDI16SP
        let insn := insnCitypeRead3 (data.setWidth 16)
        cassert (insn.imm ≠ 0) "insn->imm != 0"
        return { insn with rs1 := insn.rd, type := .addi }
      else do -- C.LUI
        let insn := insnCitypeRead5 (data.setWidth 16)
        cassert (insn.imm ≠ 0) "insn->imm != 0"
        return { insn with type := .lui }
  | 0x4 => decodeQuadrant1Alu data
  | 0x5 => -- C.J
      .ok { insnCjtypeRead (data.setWidth 16) with rd := 0, type := .jal, cont := true }
  | 0x6 => .ok { insnCbtypeRead (data.setWidth 16) with rs2 := 0, type := .beq } -- C.BEQZ
  | 0x7 => .ok { insnCbtypeRead (data.setWidth 16) with rs2 := 0, type := .bne } -- C.BNEZ
  | _ => .error (.fatal "unrecognized copcode")

/-- C.JR, C.MV, C.EBREAK, C.JALR and C.ADD: `case 0x4` of quadrant 2. -/
def decodeQuadrant2Jump (data : U32) : Except Abort Insn :=
  let insn := insnCrtypeRead (data.setWidth 16)
  match (Field.cfunct1 data).toNat with
  | 0x0 =>
      if insn.rs2 = 0 then do -- C.JR
        cassert (insn.rs1 ≠ 0) "insn->rs1 != 0"
        return { insn with rd := 0, type := .jalr, cont := true }
      else -- C.MV
        .ok { insn with rd := insn.rs1, rs1 := 0, type := .add }
  | 0x1 =>
      if insn.rs1 = 0 ∧ insn.rs2 = 0 then -- C.EBREAK
        .error (.fatal "unimplmented")
      else if insn.rs2 = 0 then -- C.JALR
        .ok { insn with rd := 1, type := .jalr, cont := true }
      else -- C.ADD
        .ok { insn with rd := insn.rs1, type := .add }
  | _ => .error .unreachable

/-- `case 0x2` of the switch on the quadrant. -/
def decodeQuadrant2 (data : U32) : Except Abort Insn :=
  match (Field.copcode data).toNat with
  | 0x0 => -- C.SLLI
      let insn := insnCitypeRead (data.setWidth 16)
      .ok { insn with rs1 := insn.rd, type := .slli }
  | 0x1 => .ok { insnCitypeRead2 (data.setWidth 16) with rs1 := 2, type := .fld } -- C.FLDSP
  | 0x2 => do -- C.LWSP
      let insn := insnCitypeRead4 (data.setWidth 16)
      cassert (insn.rd ≠ 0) "insn->rd != 0"
      return { insn with rs1 := 2, type := .lw }
  | 0x3 => do -- C.LDSP
      let insn := insnCitypeRead2 (data.setWidth 16)
      cassert (insn.rd ≠ 0) "insn->rd != 0"
      return { insn with rs1 := 2, type := .ld }
  | 0x4 => decodeQuadrant2Jump data
  | 0x5 => .ok { insnCsstypeRead (data.setWidth 16) with rs1 := 2, type := .fsd } -- C.FSDSP
  | 0x6 => .ok { insnCsstypeRead2 (data.setWidth 16) with rs1 := 2, type := .sw } -- C.SWSP
  | 0x7 => .ok { insnCsstypeRead (data.setWidth 16) with rs1 := 2, type := .sd } -- C.SDSP
  | _ => .error (.fatal "unrecognized copcode")

/-! ## Quadrant 3: one definition for each opcode group -/

def decodeLoad (data : U32) : Except Abort Insn :=
  let insn := insnItypeRead data
  match (Field.funct3 data).toNat with
  | 0x0 => .ok { insn with type := .lb }
  | 0x1 => .ok { insn with type := .lh }
  | 0x2 => .ok { insn with type := .lw }
  | 0x3 => .ok { insn with type := .ld }
  | 0x4 => .ok { insn with type := .lbu }
  | 0x5 => .ok { insn with type := .lhu }
  | 0x6 => .ok { insn with type := .lwu }
  | _ => .error .unreachable

def decodeLoadFp (data : U32) : Except Abort Insn :=
  let insn := insnItypeRead data
  match (Field.funct3 data).toNat with
  | 0x2 => .ok { insn with type := .flw }
  | 0x3 => .ok { insn with type := .fld }
  | _ => .error .unreachable

def decodeMiscMem (data : U32) : Except Abort Insn :=
  match (Field.funct3 data).toNat with
  | 0x0 => .ok { type := .fence }
  | 0x1 => .ok { type := .fenceI }
  | _ => .error .unreachable

def decodeOpImm (data : U32) : Except Abort Insn :=
  let insn := insnItypeRead data
  match (Field.funct3 data).toNat with
  | 0x0 => .ok { insn with type := .addi }
  | 0x1 =>
      if Field.imm116 data = 0 then .ok { insn with type := .slli }
      else .error .unreachable
  | 0x2 => .ok { insn with type := .slti }
  | 0x3 => .ok { insn with type := .sltiu }
  | 0x4 => .ok { insn with type := .xori }
  | 0x5 =>
      if Field.imm116 data = 0x0 then .ok { insn with type := .srli }
      else if Field.imm116 data = 0x10 then .ok { insn with type := .srai }
      else .error .unreachable
  | 0x6 => .ok { insn with type := .ori }
  | 0x7 => .ok { insn with type := .andi }
  | _ => .error (.fatal "unrecognized funct3")

def decodeOpImm32 (data : U32) : Except Abort Insn :=
  let insn := insnItypeRead data
  match (Field.funct3 data).toNat with
  | 0x0 => .ok { insn with type := .addiw }
  | 0x1 => do
      cassert (Field.funct7 data = 0) "funct7 == 0"
      return { insn with type := .slliw }
  | 0x5 =>
      match (Field.funct7 data).toNat with
      | 0x0 => .ok { insn with type := .srliw }
      | 0x20 => .ok { insn with type := .sraiw }
      | _ => .error .unreachable
  | _ => .error (.fatal "unimplemented")

def decodeStore (data : U32) : Except Abort Insn :=
  let insn := insnStypeRead data
  match (Field.funct3 data).toNat with
  | 0x0 => .ok { insn with type := .sb }
  | 0x1 => .ok { insn with type := .sh }
  | 0x2 => .ok { insn with type := .sw }
  | 0x3 => .ok { insn with type := .sd }
  | _ => .error .unreachable

def decodeStoreFp (data : U32) : Except Abort Insn :=
  let insn := insnStypeRead data
  match (Field.funct3 data).toNat with
  | 0x2 => .ok { insn with type := .fsw }
  | 0x3 => .ok { insn with type := .fsd }
  | _ => .error .unreachable

def decodeOp (data : U32) : Except Abort Insn :=
  let insn := insnRtypeRead data
  match (Field.funct7 data).toNat with
  | 0x0 =>
      match (Field.funct3 data).toNat with
      | 0x0 => .ok { insn with type := .add }
      | 0x1 => .ok { insn with type := .sll }
      | 0x2 => .ok { insn with type := .slt }
      | 0x3 => .ok { insn with type := .sltu }
      | 0x4 => .ok { insn with type := .xor }
      | 0x5 => .ok { insn with type := .srl }
      | 0x6 => .ok { insn with type := .or }
      | 0x7 => .ok { insn with type := .and }
      | _ => .error .unreachable
  | 0x1 =>
      match (Field.funct3 data).toNat with
      | 0x0 => .ok { insn with type := .mul }
      | 0x1 => .ok { insn with type := .mulh }
      | 0x2 => .ok { insn with type := .mulhsu }
      | 0x3 => .ok { insn with type := .mulhu }
      | 0x4 => .ok { insn with type := .div }
      | 0x5 => .ok { insn with type := .divu }
      | 0x6 => .ok { insn with type := .rem }
      | 0x7 => .ok { insn with type := .remu }
      | _ => .error .unreachable
  | 0x20 =>
      match (Field.funct3 data).toNat with
      | 0x0 => .ok { insn with type := .sub }
      | 0x5 => .ok { insn with type := .sra }
      | _ => .error .unreachable
  | _ => .error .unreachable

def decodeOp32 (data : U32) : Except Abort Insn :=
  let insn := insnRtypeRead data
  match (Field.funct7 data).toNat with
  | 0x0 =>
      match (Field.funct3 data).toNat with
      | 0x0 => .ok { insn with type := .addw }
      | 0x1 => .ok { insn with type := .sllw }
      | 0x5 => .ok { insn with type := .srlw }
      | _ => .error .unreachable
  | 0x1 =>
      match (Field.funct3 data).toNat with
      | 0x0 => .ok { insn with type := .mulw }
      | 0x4 => .ok { insn with type := .divw }
      | 0x5 => .ok { insn with type := .divuw }
      | 0x6 => .ok { insn with type := .remw }
      | 0x7 => .ok { insn with type := .remuw }
      | _ => .error .unreachable
  | 0x20 =>
      match (Field.funct3 data).toNat with
      | 0x0 => .ok { insn with type := .subw }
      | 0x5 => .ok { insn with type := .sraw }
      | _ => .error .unreachable
  | _ => .error .unreachable

/-- The four fused groups, `case 0x10` to `case 0x13`, with the type of each precision. -/
def decodeFused (single double : InsnType) (data : U32) : Except Abort Insn :=
  let insn := insnFprtypeRead data
  match (Field.funct2 data).toNat with
  | 0x0 => .ok { insn with type := single }
  | 0x1 => .ok { insn with type := double }
  | _ => .error .unreachable

/-- A switch on `funct3` with cases 0, 1 and 2. -/
def decodeFunct3Of3 (insn : Insn) (t0 t1 t2 : InsnType) (data : U32) : Except Abort Insn :=
  match (Field.funct3 data).toNat with
  | 0x0 => .ok { insn with type := t0 }
  | 0x1 => .ok { insn with type := t1 }
  | 0x2 => .ok { insn with type := t2 }
  | _ => .error .unreachable

/-- A switch on `funct3` with cases 0 and 1. -/
def decodeFunct3Of2 (insn : Insn) (t0 t1 : InsnType) (data : U32) : Except Abort Insn :=
  match (Field.funct3 data).toNat with
  | 0x0 => .ok { insn with type := t0 }
  | 0x1 => .ok { insn with type := t1 }
  | _ => .error .unreachable

/-- A switch on `rs2` with cases 0 to 3: the conversions between integers and floats. -/
def decodeRs2Of4 (insn : Insn) (t0 t1 t2 t3 : InsnType) (data : U32) : Except Abort Insn :=
  match (Field.rs2 data).toNat with
  | 0x0 => .ok { insn with type := t0 }
  | 0x1 => .ok { insn with type := t1 }
  | 0x2 => .ok { insn with type := t2 }
  | 0x3 => .ok { insn with type := t3 }
  | _ => .error .unreachable

def decodeOpFp (data : U32) : Except Abort Insn :=
  let insn := insnRtypeRead data
  match (Field.funct7 data).toNat with
  | 0x0 => .ok { insn with type := .faddS }
  | 0x1 => .ok { insn with type := .faddD }
  | 0x4 => .ok { insn with type := .fsubS }
  | 0x5 => .ok { insn with type := .fsubD }
  | 0x8 => .ok { insn with type := .fmulS }
  | 0x9 => .ok { insn with type := .fmulD }
  | 0xc => .ok { insn with type := .fdivS }
  | 0xd => .ok { insn with type := .fdivD }
  | 0x10 => decodeFunct3Of3 insn .fsgnjS .fsgnjnS .fsgnjxS data
  | 0x11 => decodeFunct3Of3 insn .fsgnjD .fsgnjnD .fsgnjxD data
  | 0x14 => decodeFunct3Of2 insn .fminS .fmaxS data
  | 0x15 => decodeFunct3Of2 insn .fminD .fmaxD data
  | 0x20 => do
      cassert (Field.rs2 data = 1) "RS2(data) == 1"
      return { insn with type := .fcvtSD }
  | 0x21 => do
      cassert (Field.rs2 data = 0) "RS2(data) == 0"
      return { insn with type := .fcvtDS }
  | 0x2c => do
      cassert (insn.rs2 = 0) "insn->rs2 == 0"
      return { insn with type := .fsqrtS }
  | 0x2d => do
      cassert (insn.rs2 = 0) "insn->rs2 == 0"
      return { insn with type := .fsqrtD }
  | 0x50 => decodeFunct3Of3 insn .fleS .fltS .feqS data
  | 0x51 => decodeFunct3Of3 insn .fleD .fltD .feqD data
  | 0x60 => decodeRs2Of4 insn .fcvtWS .fcvtWuS .fcvtLS .fcvtLuS data
  | 0x61 => decodeRs2Of4 insn .fcvtWD .fcvtWuD .fcvtLD .fcvtLuD data
  | 0x68 => decodeRs2Of4 insn .fcvtSW .fcvtSWu .fcvtSL .fcvtSLu data
  | 0x69 => decodeRs2Of4 insn .fcvtDW .fcvtDWu .fcvtDL .fcvtDLu data
  | 0x70 => do
      cassert (Field.rs2 data = 0) "RS2(data) == 0"
      decodeFunct3Of2 insn .fmvXW .fclassS data
  | 0x71 => do
      cassert (Field.rs2 data = 0) "RS2(data) == 0"
      decodeFunct3Of2 insn .fmvXD .fclassD data
  | 0x78 => do
      cassert (Field.rs2 data = 0 ∧ Field.funct3 data = 0) "RS2(data) == 0 && FUNCT3(data) == 0"
      return { insn with type := .fmvWX }
  | 0x79 => do
      cassert (Field.rs2 data = 0 ∧ Field.funct3 data = 0) "RS2(data) == 0 && FUNCT3(data) == 0"
      return { insn with type := .fmvDX }
  | _ => .error .unreachable

def decodeBranch (data : U32) : Except Abort Insn :=
  let insn := insnBtypeRead data
  match (Field.funct3 data).toNat with
  | 0x0 => .ok { insn with type := .beq }
  | 0x1 => .ok { insn with type := .bne }
  | 0x4 => .ok { insn with type := .blt }
  | 0x5 => .ok { insn with type := .bge }
  | 0x6 => .ok { insn with type := .bltu }
  | 0x7 => .ok { insn with type := .bgeu }
  | _ => .error .unreachable

/-- `case 0x1c`. An ECALL sets only the type and `cont`: every other field of the
record keeps what it held before. -/
def decodeSystem (old : Insn) (data : U32) : Except Abort Insn :=
  if data = 0x73 then .ok { old with type := .ecall, cont := true }
  else
    let insn := insnCsrtypeRead data
    match (Field.funct3 data).toNat with
    | 0x1 => .ok { insn with type := .csrrw }
    | 0x2 => .ok { insn with type := .csrrs }
    | 0x3 => .ok { insn with type := .csrrc }
    | 0x5 => .ok { insn with type := .csrrwi }
    | 0x6 => .ok { insn with type := .csrrsi }
    | 0x7 => .ok { insn with type := .csrrci }
    | _ => .error .unreachable

/-- `case 0x3` of the switch on the quadrant. -/
def decodeQuadrant3 (old : Insn) (data : U32) : Except Abort Insn :=
  match (Field.opcode data).toNat with
  | 0x0 => decodeLoad data
  | 0x1 => decodeLoadFp data
  | 0x3 => decodeMiscMem data
  | 0x4 => decodeOpImm data
  | 0x5 => .ok { insnUtypeRead data with type := .auipc }
  | 0x6 => decodeOpImm32 data
  | 0x8 => decodeStore data
  | 0x9 => decodeStoreFp data
  | 0xc => decodeOp data
  | 0xd => .ok { insnUtypeRead data with type := .lui }
  | 0xe => decodeOp32 data
  | 0x10 => decodeFused .fmaddS .fmaddD data
  | 0x11 => decodeFused .fmsubS .fmsubD data
  | 0x12 => decodeFused .fnmsubS .fnmsubD data
  | 0x13 => decodeFused .fnmaddS .fnmaddD data
  | 0x14 => decodeOpFp data
  | 0x18 => decodeBranch data
  | 0x19 => .ok { insnItypeRead data with type := .jalr, cont := true }
  | 0x1b => .ok { insnJtypeRead data with type := .jal, cont := true }
  | 0x1c => decodeSystem old data
  | _ => .error .unreachable

/-- `insn_decode(insn, data)`: the record held `old` before the call. -/
def insnDecode (old : Insn) (data : U32) : Except Abort Insn :=
  match (Field.quadrant data).toNat with
  | 0x0 => decodeQuadrant0 data
  | 0x1 => decodeQuadrant1 data
  | 0x2 => decodeQuadrant2 data
  | 0x3 => decodeQuadrant3 old data
  | _ => .error .unreachable

end RiscvEmu
