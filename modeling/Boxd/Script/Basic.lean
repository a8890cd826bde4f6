import Mathlib.Data.List.GetD
import Boxd.Except

/-!
# Scripts as byte strings: the builder and the instruction decoder

A script is a byte string of opcodes and data pushes (`script.go`).  This file models the
builder (`NewScript`, `AddOpCode`, `AddOperand`, `AddScript`, `PayToPubKeyHashScript`) and
`parseNextOp`, the decoder that `evaluate`, `Validate` and `disasm` all run.  The main facts
are the two frame lemmas for the decoder:

* `parseNextOp_append_left`: decoding inside the second part of a concatenation is decoding
  that part on its own, with every position shifted;
* `parseNextOp_append_right`: a decode that succeeds inside the first part is not changed by
  appending bytes after it (a decode that fails there may succeed once bytes are appended,
  which is how a truncated push in a scriptSig swallows the locking script).
-/

namespace Boxd

/-- A script, the bytes of `Script []byte`. -/
abbrev Script := List UInt8

/-- The data of a push instruction.  Go distinguishes a `nil` operand from an empty one only
in `disasm`'s log text, so both are the empty list here. -/
abbrev Operand := List UInt8

/-! ### Opcodes

Modelled from the spec: `opcode.go` is not under `src/`.  The push opcodes are those of the
spec's encoding section (`0x01..0x4b` push that many bytes, `OP_PUSHDATA1/2/4 = 0x4c/0x4d/0x4e`);
the other opcodes carry the standard numbering that the spec's opcode table follows. -/

def op0 : UInt8 := 0x00
def opPushData1 : UInt8 := 0x4c
def opPushData2 : UInt8 := 0x4d
def opPushData4 : UInt8 := 0x4e
def op1Negate : UInt8 := 0x4f
def opReserved : UInt8 := 0x50
def op1 : UInt8 := 0x51
def op16 : UInt8 := 0x60
def opDup : UInt8 := 0x76
def opEqual : UInt8 := 0x87
def opEqualVerify : UInt8 := 0x88
def opAdd : UInt8 := 0x93
def opSub : UInt8 := 0x94
def opHash160 : UInt8 := 0xa9
def opCodeSeparator : UInt8 := 0xab
def opCheckSig : UInt8 := 0xac
def opCheckSigVerify : UInt8 := 0xad

@[simp] lemma opPushData1_toNat : opPushData1.toNat = 76 := rfl
@[simp] lemma opPushData2_toNat : opPushData2.toNat = 77 := rfl
@[simp] lemma opPushData4_toNat : opPushData4.toNat = 78 := rfl

@[simp] lemma toNat_uint8_ofNat (n : Nat) : (UInt8.ofNat n).toNat = n % 256 := rfl

@[simp] lemma uint8_size : UInt8.size = 256 := rfl

lemma uint8_lt_iff (a b : UInt8) : a < b ↔ a.toNat < b.toNat := Iff.rfl

lemma uint8_le_iff (a b : UInt8) : a ≤ b ↔ a.toNat ≤ b.toNat := Iff.rfl

lemma uint8_eq_iff (a b : UInt8) : a = b ↔ a.toNat = b.toNat :=
  ⟨congrArg UInt8.toNat, UInt8.toNat.inj⟩

/-- The errors of the script engine, named after the error variables of `script.go`; the last
four belong to the stack and script-number helpers, which are not under `src/`. -/
inductive ScriptErr
  | scriptBound
  | noEnoughDataOPPUSHDATA1
  | noEnoughDataOPPUSHDATA2
  | noEnoughDataOPPUSHDATA4
  | invalidStackOperation
  | scriptEqualVerify
  | scriptSignatureVerifyFail
  | badOpcode
  | inputIndexOutOfBound
  | finalStackEmpty
  | finalTopStackEleFalse
  | numberTooBig
  | minimalData
  deriving DecidableEq, Repr

/-! ### The builder -/

/-- `NewScript`: the empty script. -/
def newScript : Script := []

/-- `AddOpCode`. -/
def addOpCode (s : Script) (opCode : UInt8) : Script := s ++ [opCode]

/-- `AddScript`. -/
def addScript (s t : Script) : Script := s ++ t

/-- `binary.LittleEndian.PutUint16(buf, uint16(n))`. -/
def putUint16 (n : Nat) : List UInt8 := [UInt8.ofNat n, UInt8.ofNat (n / 256)]

/-- `binary.LittleEndian.PutUint32(buf, uint32(n))`. -/
def putUint32 (n : Nat) : List UInt8 :=
  [UInt8.ofNat n, UInt8.ofNat (n / 256), UInt8.ofNat (n / 256 ^ 2), UInt8.ofNat (n / 256 ^ 3)]

/-- The push header `AddOperand` writes for an operand of `dataLen` bytes: the smallest of the
direct push, `OP_PUSHDATA1`, `OP_PUSHDATA2` and `OP_PUSHDATA4`. -/
def pushPrefix (dataLen : Nat) : List UInt8 :=
  if dataLen < opPushData1.toNat then [UInt8.ofNat dataLen]
  else if dataLen ≤ 0xff then [opPushData1, UInt8.ofNat dataLen]
  else if dataLen ≤ 0xffff then opPushData2 :: putUint16 dataLen
  else opPushData4 :: putUint32 dataLen

/-- The opcode `AddOperand` writes first for an operand of `n` bytes. -/
def pushOp (n : Nat) : UInt8 := (pushPrefix n).headD 0

/-- `AddOperand`. -/
def addOperand (s : Script) (operand : Operand) : Script :=
  s ++ pushPrefix operand.length ++ operand

/-- `PayToPubKeyHashScript`: `OP_DUP OP_HASH160 <pubKeyHash> OP_EQUALVERIFY OP_CHECKSIG`. -/
def payToPubKeyHashScript (pubKeyHash : List UInt8) : Script :=
  addOpCode (addOpCode (addOperand (addOpCode (addOpCode newScript opDup) opHash160)
    pubKeyHash) opEqualVerify) opCheckSig

/-- `IsPayToScriptHash`: `OP_HASH160 <20 bytes> OP_EQUAL`, 23 bytes long. -/
def isPayToScriptHash (s : Script) : Bool :=
  s.length == 23 && s.getD 0 0 == opHash160 && s.getD 1 0 == 20 && s.getD 22 0 == opEqual

/-! ### The decoder -/

/-- `binary.LittleEndian.Uint16(script[pc:pc+k])`: the value of the two bytes at `pc`.  The
`OP_PUSHDATA4` branch of `parseNextOp` reads its four-byte length this way too. -/
def readUint16 (s : Script) (pc : Nat) : Nat :=
  (s.getD pc 0).toNat + 256 * (s.getD (pc + 1) 0).toNat

/-- The four results of `parseNextOp`: opcode, operand, new program counter and error.
`Validate` reads the operand and the program counter even when the error is set. -/
structure Parsed where
  opCode : UInt8
  operand : Operand
  pc : Nat
  err : Option ScriptErr
  deriving DecidableEq, Repr

/-- The middle of `parseNextOp` for a push opcode: the operand size and the position of the
operand, `pc` being the position just after the opcode. -/
def pushHeader (s : Script) (opCode : UInt8) (pc : Nat) : Except ScriptErr (Nat × Nat) :=
  if opCode < opPushData1 then .ok (opCode.toNat, pc)
  else if opCode = opPushData1 then
    if s.length - pc < 1 then .error .noEnoughDataOPPUSHDATA1 else .ok ((s.getD pc 0).toNat, pc + 1)
  else if opCode = opPushData2 then
    if s.length - pc < 2 then .error .noEnoughDataOPPUSHDATA2 else .ok (readUint16 s pc, pc + 2)
  else if s.length - pc < 4 then .error .noEnoughDataOPPUSHDATA4 else .ok (readUint16 s pc, pc + 4)

/-- `parseNextOp`: decode the instruction at `pc`. -/
def parseNextOp (s : Script) (pc : Nat) : Parsed :=
  if s.length ≤ pc then ⟨0, [], pc, some .scriptBound⟩
  else
    let opCode := s.getD pc 0
    if opPushData4 < opCode then ⟨opCode, [], pc + 1, none⟩
    else match pushHeader s opCode (pc + 1) with
      | .error e => ⟨opCode, [], pc + 1, some e⟩
      | .ok (size, start) =>
        if s.length - start < size then ⟨opCode, [], start, some .scriptBound⟩
        else ⟨opCode, (s.drop start).take size, start + size, none⟩

example : parseNextOp [0x02, 7, 8, 0x76] 0 = ⟨2, [7, 8], 3, none⟩ := by decide

/-- At or past the end of the script the decoder fails with `ErrScriptBound`. -/
lemma parseNextOp_of_le {s : Script} {pc : Nat} (h : s.length ≤ pc) :
    parseNextOp s pc = ⟨0, [], pc, some .scriptBound⟩ := by
  simp [parseNextOp, h]

/-! ### Decoding a concatenation -/

/-- `Parsed` with its program counter moved `n` bytes on. -/
def Parsed.shift (n : Nat) (r : Parsed) : Parsed := { r with pc := n + r.pc }

lemma getD_append_length (p s : Script) (i : Nat) (d : UInt8) :
    (p ++ s).getD (p.length + i) d = s.getD i d := by
  rw [List.getD_append_right _ _ _ _ (by omega), Nat.add_sub_cancel_left]

lemma readUint16_append_left (p s : Script) (pc : Nat) :
    readUint16 (p ++ s) (p.length + pc) = readUint16 s pc := by
  simp only [readUint16, getD_append_length, Nat.add_assoc]

lemma pushHeader_append_left (p s : Script) (op : UInt8) (pc : Nat) :
    pushHeader (p ++ s) op (p.length + pc) =
      (pushHeader s op pc).map (fun r => (r.1, p.length + r.2)) := by
  have hl : (p ++ s).length - (p.length + pc) = s.length - pc := by simp; omega
  unfold pushHeader
  simp only [hl, getD_append_length, readUint16_append_left,
    apply_ite (Except.map fun r : Nat × Nat => (r.1, p.length + r.2)), Nat.add_assoc]
  rfl

lemma parseNextOp_append_left (p s : Script) (pc : Nat) :
    parseNextOp (p ++ s) (p.length + pc) = (parseNextOp s pc).shift p.length := by
  have hl : (p ++ s).length ≤ p.length + pc ↔ s.length ≤ pc := by simp
  unfold parseNextOp
  have hl' : ∀ q, (p ++ s).length - (p.length + q) = s.length - q := fun q => by simp; omega
  simp only [hl, getD_append_length, Nat.add_assoc, pushHeader_append_left]
  split_ifs with h1 h2
  · rfl
  · rfl
  · rcases pushHeader s (s.getD pc 0) (pc + 1) with e | ⟨size, start⟩
    · rfl
    · simp only [Except.map, hl', List.drop_append]
      split_ifs <;> simp [Parsed.shift, Nat.add_assoc]

lemma readUint16_append_right {s : Script} (t : Script) {pc : Nat} (h : pc + 1 < s.length) :
    readUint16 (s ++ t) pc = readUint16 s pc := by
  simp only [readUint16, List.getD_append _ _ _ _ h, List.getD_append _ _ _ _ (by omega : pc < s.length)]

/-- What a successful `pushHeader` returns: below `OP_PUSHDATA1` the opcode is the size and the
operand starts at `pc`; otherwise the size is read from the one, two or four bytes at `pc`, which
must be in the script, and the operand starts after them. -/
lemma pushHeader_ok_cases {s : Script} {op : UInt8} {pc size start : Nat}
    (h : pushHeader s op pc = .ok (size, start)) :
    op < opPushData1 ∧ size = op.toNat ∧ start = pc ∨
      op = opPushData1 ∧ 1 ≤ s.length - pc ∧ size = (s.getD pc 0).toNat ∧ start = pc + 1 ∨
      op = opPushData2 ∧ 2 ≤ s.length - pc ∧ size = readUint16 s pc ∧ start = pc + 2 ∨
      ¬op < opPushData1 ∧ op ≠ opPushData1 ∧ op ≠ opPushData2 ∧ 4 ≤ s.length - pc ∧
        size = readUint16 s pc ∧ start = pc + 4 := by
  unfold pushHeader at h
  by_cases h1 : op < opPushData1
  · rw [if_pos h1] at h; cases h; exact .inl ⟨h1, rfl, rfl⟩
  rw [if_neg h1] at h
  by_cases h2 : op = opPushData1
  · rw [if_pos h2] at h
    by_cases h3 : s.length - pc < 1
    · rw [if_pos h3] at h; cases h
    · rw [if_neg h3] at h; cases h; exact .inr (.inl ⟨h2, by omega, rfl, rfl⟩)
  rw [if_neg h2] at h
  by_cases h4 : op = opPushData2
  · rw [if_pos h4] at h
    by_cases h5 : s.length - pc < 2
    · rw [if_pos h5] at h; cases h
    · rw [if_neg h5] at h; cases h; exact .inr (.inr (.inl ⟨h4, by omega, rfl, rfl⟩))
  rw [if_neg h4] at h
  by_cases h6 : s.length - pc < 4
  · rw [if_pos h6] at h; cases h
  · rw [if_neg h6] at h; cases h; exact .inr (.inr (.inr ⟨h1, h2, h4, by omega, rfl, rfl⟩))

lemma pushHeader_append_right {s : Script} (t : Script) {op : UInt8} {pc size start : Nat}
    (h : pushHeader s op pc = .ok (size, start)) : pushHeader (s ++ t) op pc = .ok (size, start) := by
  have hl : s.length - pc ≤ (s ++ t).length - pc := by simp; omega
  unfold pushHeader
  rcases pushHeader_ok_cases h with ⟨h1, rfl, rfl⟩ | ⟨rfl, h3, rfl, rfl⟩ | ⟨rfl, h5, rfl, rfl⟩ |
    ⟨h1, h2, h4, h6, rfl, rfl⟩
  · rw [if_pos h1]
  · rw [if_neg (by decide), if_pos rfl, if_neg (by omega), List.getD_append _ _ _ _ (by omega)]
  · rw [if_neg (by decide), if_neg (by decide), if_pos rfl, if_neg (by omega),
      readUint16_append_right _ (by omega)]
  · rw [if_neg h1, if_neg h2, if_neg h4, if_neg (by omega), readUint16_append_right _ (by omega)]

lemma pushHeader_start_le {s : Script} {op : UInt8} {pc size start : Nat}
    (h : pushHeader s op pc = .ok (size, start)) (hpc : pc ≤ s.length) :
    pc ≤ start ∧ start ≤ s.length := by
  rcases pushHeader_ok_cases h with ⟨-, -, rfl⟩ | ⟨-, h, -, rfl⟩ | ⟨-, h, -, rfl⟩ | ⟨-, -, -, h, -, rfl⟩ <;>
    omega

lemma parseNextOp_append_right {s : Script} (t : Script) {pc : Nat}
    (h : (parseNextOp s pc).err = none) : parseNextOp (s ++ t) pc = parseNextOp s pc := by
  unfold parseNextOp at h ⊢
  by_cases h1 : s.length ≤ pc
  · rw [if_pos h1] at h; cases h
  rw [if_neg h1] at h
  rw [if_neg (by simp; omega), List.getD_append _ _ _ _ (Nat.lt_of_not_le h1), if_neg h1]
  simp only at h ⊢
  split_ifs at h ⊢ with h2
  · rfl
  rcases hh : pushHeader s (s.getD pc 0) (pc + 1) with e | ⟨size, start⟩
  · rw [hh] at h; cases h
  rw [hh] at h
  rw [pushHeader_append_right t hh]
  have hst := pushHeader_start_le hh (by omega)
  simp only at h ⊢
  split_ifs at h with h3
  rw [if_neg (by simp; omega), if_neg h3, List.drop_append_of_le_length hst.2,
    List.take_append_of_le_length (by simp; omega)]

/-- A decode without error consumes at least the opcode byte and stays inside the script. -/
lemma parseNextOp_pc_of_err_none {s : Script} {pc : Nat} (h : (parseNextOp s pc).err = none) :
    pc < (parseNextOp s pc).pc ∧ (parseNextOp s pc).pc ≤ s.length := by
  unfold parseNextOp at h ⊢
  by_cases h1 : s.length ≤ pc
  · rw [if_pos h1] at h; cases h
  rw [if_neg h1] at h ⊢
  simp only at h ⊢
  split_ifs at h ⊢ with h2
  · simp; omega
  rcases hh : pushHeader s (s.getD pc 0) (pc + 1) with e | ⟨size, start⟩
  · rw [hh] at h; cases h
  rw [hh] at h
  have hst := pushHeader_start_le hh (by omega)
  simp only at h ⊢
  split_ifs at h ⊢ with h3
  simp only
  omega

/-! ### Decoding what the builder wrote -/

/-- An opcode above `OP_PUSHDATA4` decodes as itself, with no operand. -/
lemma parseNextOp_opCode {op : UInt8} (h : opPushData4 < op) (t : Script) :
    parseNextOp (op :: t) 0 = ⟨op, [], 1, none⟩ := by
  simp [parseNextOp, h]

/-- A direct push (`0x00..0x4b`) with enough bytes after it takes that many bytes as operand. -/
lemma parseNextOp_cons_push {op : UInt8} {t : Script} (hop : op < opPushData1)
    (ht : op.toNat ≤ t.length) : parseNextOp (op :: t) 0 = ⟨op, t.take op.toNat, 1 + op.toNat, none⟩ := by
  have h4 : ¬opPushData4 < op := by
    rw [uint8_lt_iff] at hop ⊢; simp only [opPushData1_toNat, opPushData4_toNat] at hop ⊢; omega
  simp [parseNextOp, pushHeader, h4, hop]
  omega

/-- A push whose header reads `size` bytes from `start`, all inside the script, decodes as
those bytes. -/
lemma parseNextOp_of_pushHeader {s : Script} {pc size start : Nat} {op : UInt8}
    (hh : pushHeader s op (pc + 1) = .ok (size, start)) (hpc : pc < s.length) (hop : s.getD pc 0 = op)
    (h4 : ¬opPushData4 < op) (hfit : size ≤ s.length - start) :
    parseNextOp s pc = ⟨op, (s.drop start).take size, start + size, none⟩ := by
  subst hop
  simp only [parseNextOp, if_neg (Nat.not_le.2 hpc), h4, if_false, hh, if_neg (Nat.not_lt.2 hfit)]

/-- `AddOperand` round trip for operands of at most `0xffff` bytes: the decoder reads the push
back as the operand and stops right after it. -/
lemma parseNextOp_addOperand {d : Operand} (hd : d.length ≤ 0xffff) :
    parseNextOp (addOperand newScript d) 0 =
      ⟨pushOp d.length, d, (addOperand newScript d).length, none⟩ := by
  simp only [addOperand, newScript, List.nil_append, pushOp]
  unfold pushPrefix
  simp only [opPushData1_toNat]
  split_ifs with h1 h2
  · have hop : UInt8.ofNat d.length < opPushData1 := by
      rw [uint8_lt_iff, toNat_uint8_ofNat, Nat.mod_eq_of_lt (by omega)]; exact h1
    rw [List.singleton_append, parseNextOp_cons_push hop (by simp; omega)]
    simp only [toNat_uint8_ofNat, Nat.mod_eq_of_lt (show d.length < 256 by omega), List.take_length,
      List.headD_cons, List.length_cons, Nat.add_comm]
  · have hh : pushHeader (opPushData1 :: UInt8.ofNat d.length :: d) opPushData1 1 = .ok (d.length, 2) := by
      simp only [pushHeader, List.getD_cons_succ, List.getD_cons_zero, toNat_uint8_ofNat,
        Nat.mod_eq_of_lt (show d.length < 256 by omega), List.length_cons,
        if_neg (by decide : ¬opPushData1 < opPushData1), if_true,
        if_neg (show ¬d.length + 1 + 1 - 1 < 1 by omega)]
    rw [List.cons_append, List.singleton_append,
      parseNextOp_of_pushHeader hh (by simp) rfl (by decide) (by simp)]
    simp only [List.drop_succ_cons, List.drop_zero, List.take_length, List.headD_cons, List.length_cons,
      List.getD_cons_zero, Parsed.mk.injEq, true_and, and_true]
    omega
  · have h16 : d.length % 256 + 256 * (d.length / 256 % 256) = d.length := by omega
    have hh : pushHeader (opPushData2 :: UInt8.ofNat d.length :: UInt8.ofNat (d.length / 256) :: d)
        opPushData2 1 = .ok (d.length, 3) := by
      simp only [pushHeader, readUint16, List.getD_cons_succ, List.getD_cons_zero, toNat_uint8_ofNat,
        h16, List.length_cons, if_neg (by decide : ¬opPushData2 < opPushData1),
        if_neg (by decide : opPushData2 ≠ opPushData1), if_true,
        if_neg (show ¬d.length + 1 + 1 + 1 - 1 < 2 by omega)]
    rw [putUint16, List.cons_append, List.cons_append, List.singleton_append,
      parseNextOp_of_pushHeader hh (by simp) rfl (by decide) (by simp)]
    simp only [List.drop_succ_cons, List.drop_zero, List.take_length, List.headD_cons, List.length_cons,
      List.getD_cons_zero, Parsed.mk.injEq, true_and, and_true]
    omega

/-- Past `0xffff` bytes `AddOperand` writes a four-byte length after `OP_PUSHDATA4`, but the
decoder reads only its two low bytes: the operand decodes as its first `n % 65536` bytes and
the decoder stops inside it. -/
lemma parseNextOp_addOperand_pushData4 {d : Operand} (hd : 0xffff < d.length) :
    parseNextOp (addOperand newScript d) 0 =
      ⟨opPushData4, d.take (d.length % 65536), 5 + d.length % 65536, none⟩ := by
  have h16 : d.length % 256 + 256 * (d.length / 256 % 256) = d.length % 65536 := by omega
  simp only [addOperand, newScript, List.nil_append, pushPrefix, opPushData1_toNat,
    if_neg (show ¬d.length < 76 by omega), if_neg (show ¬d.length ≤ 0xff by omega),
    if_neg (show ¬d.length ≤ 0xffff by omega), putUint32, List.cons_append, List.nil_append]
  have hh : pushHeader (opPushData4 :: UInt8.ofNat d.length :: UInt8.ofNat (d.length / 256) ::
      UInt8.ofNat (d.length / 256 ^ 2) :: UInt8.ofNat (d.length / 256 ^ 3) :: d) opPushData4 1 =
      .ok (d.length % 65536, 5) := by
    simp only [pushHeader, readUint16, List.getD_cons_succ, List.getD_cons_zero, toNat_uint8_ofNat, h16,
      List.length_cons, if_neg (by decide : ¬opPushData4 < opPushData1),
      if_neg (by decide : opPushData4 ≠ opPushData1), if_neg (by decide : opPushData4 ≠ opPushData2),
      if_neg (show ¬d.length + 1 + 1 + 1 + 1 + 1 - 1 < 4 by omega)]
  rw [parseNextOp_of_pushHeader hh (by simp) rfl (by decide) (by simp; omega)]
  rfl

end Boxd
