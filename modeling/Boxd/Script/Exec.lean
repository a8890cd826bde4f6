import Boxd.Script.Basic

/-!
# The script machine: `execOp`, `evaluate` and `Validate`

`Validate` runs `scriptSig ‖ OP_CODESEPARATOR ‖ scriptPubKey` through `evaluate`, and for a
pay-to-script-hash output runs a second script built from the scriptSig's first two operands.
`evaluate` is a loop over `parseNextOp` and `execOp` with three variables: the program counter,
the start of the signed script (`scriptPubKeyStart`, moved by `OP_CODESEPARATOR`) and the stack.

The stack, the script numbers, the transaction type and the cryptography are not under `src/`:
the stack and the numbers are modelled from the spec, the transaction after the spec's data
model, and hashing and signature checking are uninterpreted functions (`Crypto`).
-/

namespace Boxd

/-! ### Stack values -/

/-- The truth value of a stack item.  Modelled from the spec ("a truthy value on top"): an
operand is true when one of its bytes is nonzero, except a final `0x80` (negative zero). -/
def castToBool : Operand → Bool
  | [] => false
  | [b] => b != 0 && b != 0x80
  | b :: bs => b != 0 || castToBool bs

/-- `operandTrue`, pushed by a successful comparison. -/
def operandTrue : Operand := [1]

/-- `operandFalse`, pushed by a failed comparison. -/
def operandFalse : Operand := []

@[simp] lemma castToBool_operandTrue : castToBool operandTrue = true := rfl

@[simp] lemma castToBool_operandFalse : castToBool operandFalse = false := rfl

/-- An operand with a nonzero byte before its last one is true. -/
lemma castToBool_cons_of_ne {b : UInt8} {bs : Operand} (hb : b ≠ 0) (hbs : bs ≠ []) :
    castToBool (b :: bs) = true := by
  obtain ⟨c, cs, rfl⟩ := List.exists_cons_of_ne_nil hbs
  simp [castToBool, hb]

/-- `validateTop`: the final check of `evaluate`. -/
def validateTop : List Operand → Except ScriptErr Unit
  | [] => .error .finalStackEmpty
  | top :: _ => if castToBool top then .ok () else .error .finalTopStackEleFalse

/-- The little-endian bytes of a magnitude below `256 ^ fuel`. -/
def leBytes : Nat → Nat → List UInt8
  | 0, _ => []
  | fuel + 1, n => if n = 0 then [] else UInt8.ofNat n :: leBytes fuel (n / 256)

/-- The value of little-endian bytes. -/
def leValue : List UInt8 → Nat
  | [] => 0
  | b :: bs => b.toNat + 256 * leValue bs

/-- `scriptNum.Bytes()`, modelled from the spec ("canonical minimal bytes"): little-endian
sign and magnitude, the sign in the top bit of the last byte, a byte added when the
magnitude's top bit is taken. -/
def scriptNumBytes (n : Int) : Operand :=
  let mag := leBytes 8 n.natAbs
  match mag.getLast? with
  | none => []
  | some last =>
    if last &&& 0x80 ≠ 0 then mag ++ [if n < 0 then 0x80 else 0x00]
    else if n < 0 then mag.dropLast ++ [last ||| 0x80] else mag

/-- `newScriptNum`, modelled from the spec: at most four bytes, minimally encoded. -/
def newScriptNum (v : Operand) : Except ScriptErr Int :=
  match v.getLast? with
  | none => .ok 0
  | some last =>
    if 4 < v.length then .error .numberTooBig
    else if last &&& 0x7f = 0 ∧ (v.length = 1 ∨ (v.getD (v.length - 2) 0) &&& 0x80 = 0) then
      .error .minimalData
    else
      let mag : Int := leValue (v.dropLast ++ [last &&& 0x7f])
      .ok (if last &&& 0x80 ≠ 0 then -mag else mag)

example : scriptNumBytes (-1) = [0x81] ∧ newScriptNum [0x81] = .ok (-1) := ⟨by decide, rfl⟩

/-! ### Transactions and cryptography -/

/-- `OutPoint`, after the spec's data model. -/
structure OutPoint where
  hash : List UInt8
  index : UInt32
  deriving DecidableEq, Repr

/-- `TxIn`, after the spec's data model. -/
structure TxIn where
  prevOutPoint : OutPoint
  scriptSig : List UInt8
  sequence : UInt32
  deriving DecidableEq, Repr

/-- `TxOut`, after the spec's data model. -/
structure TxOut where
  value : UInt64
  scriptPubKey : List UInt8
  deriving DecidableEq, Repr

/-- `Transaction`, after the spec's data model. -/
structure Transaction where
  version : UInt32
  vin : List TxIn
  vout : List TxOut
  lockTime : UInt32
  deriving DecidableEq, Repr

/-- The cryptography the script engine calls, as uninterpreted functions: `Hash160` (twenty
bytes whatever its input), signature and key parsing, signature verification, and the
transaction hash `CalcTxHash` (`none` for its error). -/
structure Crypto (Sig PubKey Hash : Type) where
  hash160 : List UInt8 → List UInt8
  hash160_length : ∀ b, (hash160 b).length = 20
  sigFromBytes : List UInt8 → Option Sig
  publicKeyFromBytes : List UInt8 → Option PubKey
  verifySignature : Sig → PubKey → Hash → Bool
  calcTxHash : Transaction → Option Hash

variable {Sig PubKey Hash : Type} (c : Crypto Sig PubKey Hash)

/-- The transaction `CalcTxHashForSig` hashes: input `txInIdx` carries the signed script and
every other input an empty scriptSig. -/
def sigHashTx (scriptPubKey : List UInt8) (tx : Transaction) (txInIdx : Int) : Transaction :=
  { tx with vin := tx.vin.mapIdx fun j txIn =>
      { txIn with scriptSig := if (j : Int) = txInIdx then scriptPubKey else [] } }

/-- `CalcTxHashForSig`; `none` stands for both of its errors.  The Go code blanks and restores
the scriptSigs in place around `CalcTxHash`; here the hash is taken of the blanked copy. -/
def calcTxHashForSig (scriptPubKey : List UInt8) (tx : Transaction) (txInIdx : Int) :
    Option Hash :=
  if (tx.vin.length : Int) ≤ txInIdx then none else c.calcTxHash (sigHashTx scriptPubKey tx txInIdx)

/-- `verifySig`. -/
def verifySig (sigStr publicKeyStr scriptPubKey : List UInt8) (tx : Transaction)
    (txInIdx : Int) : Bool :=
  match c.sigFromBytes sigStr, c.publicKeyFromBytes publicKeyStr,
      calcTxHashForSig c scriptPubKey tx txInIdx with
  | some sig, some publicKey, some sigHash => c.verifySignature sig publicKey sigHash
  | _, _, _ => false

/-! ### One instruction -/

/-- `execOp`: run one decoded instruction.  `pc` is the position after it; the result is the
new `scriptPubKeyStart` and the new stack, top first. -/
def execOp (s : Script) (opCode : UInt8) (pushData : Operand) (tx : Transaction) (txInIdx : Int)
    (pc start : Nat) (stack : List Operand) : Except ScriptErr (Nat × List Operand) :=
  if opCode ≤ opPushData4 then .ok (start, pushData :: stack)
  else if opCode ≤ op16 ∧ opCode ≠ opReserved then
    .ok (start, scriptNumBytes (opCode.toNat - op1.toNat + 1 : Int) :: stack)
  else if opCode = opDup then
    match stack with
    | top :: rest => .ok (start, top :: top :: rest)
    | [] => .error .invalidStackOperation
  else if opCode = opAdd ∨ opCode = opSub then
    match stack with
    | op2 :: op1 :: rest => do
      let sn1 ← newScriptNum op1
      let sn2 ← newScriptNum op2
      .ok (start, scriptNumBytes (if opCode = opAdd then sn1 + sn2 else sn1 - sn2) :: rest)
    | _ => .error .invalidStackOperation
  else if opCode = opEqual ∨ opCode = opEqualVerify then
    match stack with
    | op2 :: op1 :: rest =>
      if opCode = opEqualVerify then
        if op1 = op2 then .ok (start, rest) else .error .scriptEqualVerify
      else .ok (start, (if op1 = op2 then operandTrue else operandFalse) :: rest)
    | _ => .error .invalidStackOperation
  else if opCode = opHash160 then
    match stack with
    | top :: rest => .ok (start, c.hash160 top :: rest)
    | [] => .error .invalidStackOperation
  else if opCode = opCodeSeparator then .ok (pc, stack)
  else if opCode = opCheckSig ∨ opCode = opCheckSigVerify then
    match stack with
    | publicKey :: signature :: rest =>
      let isVerified := verifySig c signature publicKey (s.drop start) tx txInIdx
      if opCode = opCheckSigVerify then
        if isVerified then .ok (start, rest) else .error .scriptSignatureVerifyFail
      else .ok (start, (if isVerified then operandTrue else operandFalse) :: rest)
    | _ => .error .invalidStackOperation
  else .error .badOpcode

/-- A push instruction pushes its operand. -/
lemma execOp_push {s : Script} {op : UInt8} (h : op ≤ opPushData4) (d : Operand)
    (tx : Transaction) (i : Int) (pc start : Nat) (stack : List Operand) :
    execOp c s op d tx i pc start stack = .ok (start, d :: stack) := by
  simp [execOp, h]

lemma execOp_codeSeparator (s : Script) (d : Operand) (tx : Transaction) (i : Int) (pc start : Nat)
    (stack : List Operand) : execOp c s opCodeSeparator d tx i pc start stack = .ok (pc, stack) := by
  simp [execOp, opCodeSeparator, opPushData4, op16, opDup, opAdd, opSub, opEqual, opEqualVerify,
    opHash160]

lemma execOp_hash160 (s : Script) (d : Operand) (tx : Transaction) (i : Int) (pc start : Nat)
    (top : Operand) (rest : List Operand) :
    execOp c s opHash160 d tx i pc start (top :: rest) = .ok (start, c.hash160 top :: rest) := by
  simp [execOp, opPushData4, op16, opDup, opAdd, opSub, opEqual, opEqualVerify, opHash160]

lemma execOp_equal (s : Script) (d : Operand) (tx : Transaction) (i : Int) (pc start : Nat)
    (op1 op2 : Operand) (rest : List Operand) :
    execOp c s opEqual d tx i pc start (op2 :: op1 :: rest) =
      .ok (start, (if op1 = op2 then operandTrue else operandFalse) :: rest) := by
  simp [execOp, opPushData4, op16, opDup, opAdd, opSub, opEqual, opEqualVerify]

/-! ### The loop of `evaluate` -/

/-- The variables of `evaluate`'s loop. -/
structure Machine where
  pc : Nat
  scriptPubKeyStart : Nat
  stack : List Operand
  deriving DecidableEq, Repr

/-- The machine `evaluate` starts from. -/
def Machine.init : Machine := ⟨0, 0, []⟩

/-- One iteration of `evaluate`'s loop: decode at `pc`, move `pc` past the instruction, run it. -/
def step (s : Script) (tx : Transaction) (txInIdx : Int) (m : Machine) : Except ScriptErr Machine :=
  let r := parseNextOp s m.pc
  match r.err with
  | some e => .error e
  | none => (fun x => ⟨r.pc, x.1, x.2⟩) <$>
      execOp c s r.opCode r.operand tx txInIdx r.pc m.scriptPubKeyStart m.stack

lemma step_pc {s : Script} {tx : Transaction} {i : Int} {m m' : Machine}
    (h : step c s tx i m = .ok m') :
    (parseNextOp s m.pc).err = none ∧ m'.pc = (parseNextOp s m.pc).pc := by
  unfold step at h
  dsimp only at h
  split at h
  · cases h
  · rename_i he
    refine ⟨he, ?_⟩
    cases hx : execOp c s _ _ tx i _ m.scriptPubKeyStart m.stack <;> rw [hx] at h <;> cases h
    rfl

/-- One iteration when the decoder reads the instruction `r` at the machine's `pc`. -/
lemma step_of_parse {s : Script} {tx : Transaction} {i : Int} {m : Machine} {r : Parsed}
    (hr : parseNextOp s m.pc = r) (he : r.err = none) :
    step c s tx i m = (fun x => ⟨r.pc, x.1, x.2⟩) <$>
      execOp c s r.opCode r.operand tx i r.pc m.scriptPubKeyStart m.stack := by
  subst hr
  simp [step, he]

/-- The loop of `evaluate`, run until `pc` reaches the end of the script. -/
def run (s : Script) (tx : Transaction) (txInIdx : Int) (m : Machine) :
    Except ScriptErr Machine :=
  if m.pc < s.length then
    match _h : step c s tx txInIdx m with
    | .error e => .error e
    | .ok m' => run s tx txInIdx m'
  else .ok m
termination_by s.length - m.pc
decreasing_by
  obtain ⟨he, hpc⟩ := step_pc c _h
  have := (parseNextOp_pc_of_err_none he).1
  omega

/-- `evaluate`: run the loop from the start and check the top of the final stack. -/
def evaluate (s : Script) (tx : Transaction) (txInIdx : Int) : Except ScriptErr Unit := do
  let m ← run c s tx txInIdx Machine.init
  validateTop m.stack

lemma run_of_le {s : Script} {tx : Transaction} {i : Int} {m : Machine} (h : s.length ≤ m.pc) :
    run c s tx i m = .ok m := by
  rw [run, if_neg (by omega)]

lemma run_of_step {s : Script} {tx : Transaction} {i : Int} {m m' : Machine}
    (h : m.pc < s.length) (hs : step c s tx i m = .ok m') : run c s tx i m = run c s tx i m' := by
  rw [run, if_pos h]
  split <;> simp_all

/-- `run` through one instruction that decodes without error and executes. -/
lemma run_step {s : Script} {tx : Transaction} {i : Int} {op : UInt8} {d : Operand}
    {pc pc' sps start : Nat} {stack stack' : List Operand} (hr : parseNextOp s pc = ⟨op, d, pc', none⟩)
    (hx : execOp c s op d tx i pc' sps stack = .ok (start, stack')) :
    run c s tx i ⟨pc, sps, stack⟩ = run c s tx i ⟨pc', start, stack'⟩ := by
  have hlt := parseNextOp_pc_of_err_none (show (parseNextOp s pc).err = none by rw [hr])
  rw [hr] at hlt
  exact run_of_step c (hlt.1.trans_le hlt.2)
    (by rw [step_of_parse c (m := ⟨pc, sps, stack⟩) hr rfl, hx]; rfl)

/-- `run` through one instruction at the boundary between `p` and `t`, where `t` starts with an
instruction that decodes without error. -/
lemma run_append_step {p t : Script} {tx : Transaction} {i : Int} {op : UInt8} {d : Operand}
    {pc pc' sps start : Nat} {stack stack' : List Operand} (hm : pc = p.length)
    (hr : parseNextOp t 0 = ⟨op, d, pc', none⟩)
    (hx : execOp c (p ++ t) op d tx i (p.length + pc') sps stack = .ok (start, stack')) :
    run c (p ++ t) tx i ⟨pc, sps, stack⟩ = run c (p ++ t) tx i ⟨p.length + pc', start, stack'⟩ := by
  have h := parseNextOp_append_left p t 0
  rw [Nat.add_zero, hr] at h
  subst hm
  exact run_step c h hx

lemma run_of_step_error {s : Script} {tx : Transaction} {i : Int} {m : Machine} {e : ScriptErr}
    (h : m.pc < s.length) (hs : step c s tx i m = .error e) : run c s tx i m = .error e := by
  rw [run, if_pos h]
  split <;> simp_all

/-! ### `Validate` -/

/-- The script `Validate` evaluates first: `scriptSig ‖ OP_CODESEPARATOR ‖ scriptPubKey`. -/
def catScript (scriptSig scriptPubKey : Script) : Script :=
  addScript (addOpCode (addScript newScript scriptSig) opCodeSeparator) scriptPubKey

/-- The signature and the serialized redeem script `Validate` takes from a P2SH scriptSig: the
operands of its first two instructions, decode errors ignored. -/
def p2shOperands (scriptSig : Script) : Operand × Operand :=
  let r := parseNextOp scriptSig 0
  (r.operand, (parseNextOp scriptSig r.pc).operand)

/-- `Validate`. -/
def validate (scriptSig scriptPubKey : Script) (tx : Transaction) (txInIdx : Int) :
    Except ScriptErr Unit := do
  evaluate c (catScript scriptSig scriptPubKey) tx txInIdx
  if !isPayToScriptHash scriptPubKey then return ()
  let (sig, redeemScript) := p2shOperands scriptSig
  evaluate c (catScript (addOperand newScript sig) redeemScript) tx txInIdx

end Boxd
