import Boxd.Script.Validate

/-!
# The legacy `Evaluate`

`script.go` comes in two versions.  The older one exports `Evaluate`, with its own
`parseNextOp`, `execOp`, `verifySig` and `CalcTxHashForSig`; the newer one has `evaluate`
(`Boxd.Script.Exec`).  The two differ in three ways:

* the errors: the legacy code returns `errors.New` texts where the current code returns error
  variables (`ScriptErr.legacy` pairs them);
* the small-number pushes: the legacy code lists `OP_1NEGATE, OP_1, …, OP_16` as `switch` cases,
  the current code tests `opCode <= OP16 && opCode != OPRESERVED`;
* the signature hash: the legacy `CalcTxHashForSig` calls `tx.TxHash()`, which returns the hash
  the transaction has cached, where the current one calls `tx.CalcTxHash()`.

The decoders agree (`Legacy.parseNextOp_eq`), the number pushes agree
(`Legacy.mem_numberOps_iff`), and every instruction other than `OP_CHECKSIG` and
`OP_CHECKSIGVERIFY` agrees (`Legacy.execOp_of_not_checkSig`).  The signature hash does not: on a
transaction that holds a cached hash, the legacy `Evaluate` rejects a script the current
`evaluate` accepts (`legacy_evaluate_cachedHash`).
-/

namespace Boxd

/-- The errors of the legacy code: the texts of its own `errors.New` calls, and the errors of the
stack and script-number helpers it shares with the current code. -/
inductive LegacyErr
  | text (s : String)
  | helper (e : ScriptErr)
  deriving DecidableEq, Repr

/-- The error the legacy code returns at the place where the current code returns `e`. -/
def ScriptErr.legacy : ScriptErr → LegacyErr
  | .scriptBound => .text "Program counter out of script bound"
  | .noEnoughDataOPPUSHDATA1 => .text "OP_PUSHDATA1 has not enough data"
  | .noEnoughDataOPPUSHDATA2 => .text "OP_PUSHDATA2 has not enough data"
  | .noEnoughDataOPPUSHDATA4 => .text "OP_PUSHDATA4 has not enough data"
  | .invalidStackOperation => .text "ScriptErrInvalidStackOperation"
  | .scriptEqualVerify => .text "ScriptErrEqualVerify"
  | .scriptSignatureVerifyFail => .text "ScriptErrSignatureVerifyFail"
  | .badOpcode => .text "Bad opcode"
  | .inputIndexOutOfBound => .text "input index out of bound"
  | e => .helper e

variable {Sig PubKey Hash : Type} (c : Crypto Sig PubKey Hash)

/-- `tx.TxHash()`, modelled from the spec (`types` is not under `src/`): a transaction caches its
hash, and `TxHash` returns the cached hash when there is one; otherwise it computes the hash and
caches it.  The result is the hash and the cache after the call. -/
def txHash (tx : Transaction) (cache : Option Hash) : Option Hash × Option Hash :=
  match cache with
  | some h => (some h, some h)
  | none => (c.calcTxHash tx, c.calcTxHash tx)

namespace Legacy

/-! ### The decoder -/

/-- The four results of the legacy `parseNextOp`. -/
structure Parsed where
  opCode : UInt8
  operand : Operand
  pc : Nat
  err : Option LegacyErr
  deriving DecidableEq, Repr

/-- The middle of the legacy `parseNextOp` for a push opcode. -/
def pushHeader (s : Script) (opCode : UInt8) (pc : Nat) : Except LegacyErr (Nat × Nat) :=
  if opCode < opPushData1 then .ok (opCode.toNat, pc)
  else if opCode = opPushData1 then
    if s.length - pc < 1 then .error (.text "OP_PUSHDATA1 has not enough data")
    else .ok ((s.getD pc 0).toNat, pc + 1)
  else if opCode = opPushData2 then
    if s.length - pc < 2 then .error (.text "OP_PUSHDATA2 has not enough data")
    else .ok (readUint16 s pc, pc + 2)
  else if s.length - pc < 4 then .error (.text "OP_PUSHDATA4 has not enough data")
  else .ok (readUint16 s pc, pc + 4)

/-- The legacy `parseNextOp`. -/
def parseNextOp (s : Script) (pc : Nat) : Parsed :=
  if s.length ≤ pc then ⟨0, [], pc, some (.text "Program counter out of script bound")⟩
  else
    let opCode := s.getD pc 0
    if opPushData4 < opCode then ⟨opCode, [], pc + 1, none⟩
    else match pushHeader s opCode (pc + 1) with
      | .error e => ⟨opCode, [], pc + 1, some e⟩
      | .ok (size, start) =>
        if s.length - start < size then
          ⟨opCode, [], start, some (.text "Program counter out of script bound")⟩
        else ⟨opCode, (s.drop start).take size, start + size, none⟩

/-! ### The machine -/

/-- The opcodes of the legacy `switch` cases that push a number: `OP_1NEGATE, OP_1, OP_2, …,
OP_16` in the standard numbering. -/
def numberOps : List UInt8 :=
  [op1Negate, op1, 0x52, 0x53, 0x54, 0x55, 0x56, 0x57, 0x58, 0x59, 0x5a, 0x5b, 0x5c, 0x5d, 0x5e,
    0x5f, op16]

/-- The legacy `CalcTxHashForSig`: the hash of the blanked transaction as `TxHash` returns it,
with the cache after the call. -/
def calcTxHashForSig (scriptPubKey : List UInt8) (tx : Transaction) (cache : Option Hash)
    (txInIdx : Int) : Option Hash × Option Hash :=
  if (tx.vin.length : Int) ≤ txInIdx then (none, cache)
  else txHash c (sigHashTx scriptPubKey tx txInIdx) cache

/-- The legacy `verifySig`, with the cache after the call. -/
def verifySig (sigStr publicKeyStr scriptPubKey : List UInt8) (tx : Transaction)
    (cache : Option Hash) (txInIdx : Int) : Bool × Option Hash :=
  match c.sigFromBytes sigStr, c.publicKeyFromBytes publicKeyStr with
  | some sig, some publicKey =>
    let r := calcTxHashForSig c scriptPubKey tx cache txInIdx
    match r.1 with
    | some sigHash => (c.verifySignature sig publicKey sigHash, r.2)
    | none => (false, r.2)
  | _, _ => (false, cache)

/-- The legacy `execOp`: the new `scriptPubKeyStart`, the new stack and the transaction's hash
cache after the instruction. -/
def execOp (s : Script) (opCode : UInt8) (op : Operand) (tx : Transaction) (cache : Option Hash)
    (txInIdx : Int) (pc start : Nat) (stack : List Operand) :
    Except LegacyErr (Nat × List Operand × Option Hash) :=
  if opCode ≤ opPushData4 then .ok (start, op :: stack, cache)
  else if opCode ∈ numberOps then
    .ok (start, scriptNumBytes ((opCode.toNat : Int) - ((op1 - 1 : UInt8).toNat : Int)) :: stack,
      cache)
  else if opCode = opDup then
    match stack with
    | top :: rest => .ok (start, top :: top :: rest, cache)
    | [] => .error (.text "ScriptErrInvalidStackOperation")
  else if opCode = opAdd ∨ opCode = opSub then
    match stack with
    | op2 :: op1 :: rest => do
      let sn1 ← (newScriptNum op1).mapError .helper
      let sn2 ← (newScriptNum op2).mapError .helper
      .ok (start, scriptNumBytes (if opCode = opAdd then sn1 + sn2 else sn1 - sn2) :: rest, cache)
    | _ => .error (.text "ScriptErrInvalidStackOperation")
  else if opCode = opEqual ∨ opCode = opEqualVerify then
    match stack with
    | op2 :: op1 :: rest =>
      if opCode = opEqualVerify then
        if op1 = op2 then .ok (start, rest, cache) else .error (.text "ScriptErrEqualVerify")
      else .ok (start, (if op1 = op2 then operandTrue else operandFalse) :: rest, cache)
    | _ => .error (.text "ScriptErrInvalidStackOperation")
  else if opCode = opHash160 then
    match stack with
    | top :: rest => .ok (start, c.hash160 top :: rest, cache)
    | [] => .error (.text "ScriptErrInvalidStackOperation")
  else if opCode = opCodeSeparator then .ok (pc, stack, cache)
  else if opCode = opCheckSig ∨ opCode = opCheckSigVerify then
    match stack with
    | publicKey :: signature :: rest =>
      let r := verifySig c signature publicKey (s.drop start) tx cache txInIdx
      if opCode = opCheckSigVerify then
        if r.1 then .ok (start, rest, r.2) else .error (.text "ScriptErrSignatureVerifyFail")
      else .ok (start, (if r.1 then operandTrue else operandFalse) :: rest, r.2)
    | _ => .error (.text "ScriptErrInvalidStackOperation")
  else .error (.text "Bad opcode")

end Legacy

/-- A decoded instruction as the legacy decoder reports it. -/
def Parsed.legacy (r : Parsed) : Legacy.Parsed := ⟨r.opCode, r.operand, r.pc, r.err.map ScriptErr.legacy⟩

namespace Legacy

lemma pushHeader_eq (s : Script) (op : UInt8) (pc : Nat) :
    pushHeader s op pc = (Boxd.pushHeader s op pc).mapError ScriptErr.legacy := by
  unfold pushHeader Boxd.pushHeader
  by_cases h1 : op < opPushData1
  · simp only [if_pos h1]; rfl
  by_cases h2 : op = opPushData1
  · simp only [if_neg h1, if_pos h2]; split <;> rfl
  by_cases h4 : op = opPushData2
  · simp only [if_neg h1, if_neg h2, if_pos h4]; split <;> rfl
  simp only [if_neg h1, if_neg h2, if_neg h4]; split <;> rfl

/-- The two decoders agree, up to the names of their errors. -/
lemma parseNextOp_eq (s : Script) (pc : Nat) :
    parseNextOp s pc = (Boxd.parseNextOp s pc).legacy := by
  unfold parseNextOp Boxd.parseNextOp
  split_ifs with h1
  · rfl
  dsimp only
  split_ifs with h2
  · rfl
  rw [pushHeader_eq]
  rcases Boxd.pushHeader s (s.getD pc 0) (pc + 1) with e | ⟨size, start⟩
  · rfl
  dsimp only [Except.mapError]
  split_ifs <;> rfl

/-- One iteration of the legacy `Evaluate`'s loop; the machine carries the transaction's hash
cache beside the loop's variables. -/
def step (s : Script) (tx : Transaction) (txInIdx : Int) (m : Machine × Option Hash) :
    Except LegacyErr (Machine × Option Hash) :=
  let r := parseNextOp s m.1.pc
  match r.err with
  | some e => .error e
  | none => (fun x => (⟨r.pc, x.1, x.2.1⟩, x.2.2)) <$>
      execOp c s r.opCode r.operand tx m.2 txInIdx r.pc m.1.scriptPubKeyStart m.1.stack

lemma step_pc {s : Script} {tx : Transaction} {i : Int} {m m' : Machine × Option Hash}
    (h : step c s tx i m = .ok m') :
    (Boxd.parseNextOp s m.1.pc).err = none ∧ m'.1.pc = (Boxd.parseNextOp s m.1.pc).pc := by
  unfold step at h
  rw [parseNextOp_eq] at h
  dsimp only [Parsed.legacy] at h
  cases he : (Boxd.parseNextOp s m.1.pc).err with
  | some e => rw [he] at h; cases h
  | none =>
    rw [he] at h
    refine ⟨rfl, ?_⟩
    cases hx : execOp c s _ _ tx m.2 i _ m.1.scriptPubKeyStart m.1.stack <;> rw [hx] at h <;> cases h
    rfl

/-- The loop of the legacy `Evaluate`. -/
def run (s : Script) (tx : Transaction) (txInIdx : Int) (m : Machine × Option Hash) :
    Except LegacyErr (Machine × Option Hash) :=
  if m.1.pc < s.length then
    match _h : step c s tx txInIdx m with
    | .error e => .error e
    | .ok m' => run s tx txInIdx m'
  else .ok m
termination_by s.length - m.1.pc
decreasing_by
  obtain ⟨he, hpc⟩ := step_pc c _h
  have := (parseNextOp_pc_of_err_none he).1
  omega

/-- The legacy `Evaluate`, from a transaction whose hash cache is `cache`.  What the call leaves
in the cache is not part of the result. -/
def evaluate (s : Script) (tx : Transaction) (cache : Option Hash) (txInIdx : Int) :
    Except LegacyErr Unit := do
  let m ← run c s tx txInIdx (Machine.init, cache)
  (validateTop m.1.stack).mapError .helper

lemma run_of_le {s : Script} {tx : Transaction} {i : Int} {m : Machine × Option Hash}
    (h : s.length ≤ m.1.pc) : run c s tx i m = .ok m := by
  rw [run, if_neg (by omega)]

lemma run_of_step {s : Script} {tx : Transaction} {i : Int} {m m' : Machine × Option Hash}
    (h : m.1.pc < s.length) (hs : step c s tx i m = .ok m') : run c s tx i m = run c s tx i m' := by
  rw [run, if_pos h]
  split <;> simp_all

/-! ### Where the two versions agree -/

/-- The legacy number pushes are the opcodes the current range test accepts. -/
lemma mem_numberOps_iff {op : UInt8} (h : opPushData4 < op) :
    op ∈ numberOps ↔ op ≤ op16 ∧ op ≠ opReserved := by
  rw [uint8_lt_iff] at h
  simp [numberOps, uint8_eq_iff, uint8_le_iff, op1Negate, op1, op16, opReserved] at h ⊢
  omega

/-- `newScriptNum` fails only with the script-number helper's own errors. -/
lemma newScriptNum_error {v : Operand} {e : ScriptErr} (h : newScriptNum v = .error e) :
    e.legacy = .helper e := by
  unfold newScriptNum at h
  split at h
  · cases h
  · split_ifs at h <;> cases h <;> rfl

/-- Every instruction other than `OP_CHECKSIG` and `OP_CHECKSIGVERIFY` does the same in both
versions, up to the names of the errors, and leaves the hash cache alone. -/
lemma execOp_of_not_checkSig {s : Script} {op : UInt8}
    (h : ¬(op = opCheckSig ∨ op = opCheckSigVerify)) (d : Operand) (tx : Transaction)
    (cache : Option Hash) (i : Int) (pc start : Nat) (stack : List Operand) :
    execOp c s op d tx cache i pc start stack =
      ((Boxd.execOp c s op d tx i pc start stack).map fun r => (r.1, r.2, cache)).mapError
        ScriptErr.legacy := by
  unfold execOp Boxd.execOp
  by_cases h1 : op ≤ opPushData4
  · rw [if_pos h1, if_pos h1]; rfl
  rw [if_neg h1, if_neg h1]
  have hop : opPushData4 < op := by rw [uint8_le_iff] at h1; exact (uint8_lt_iff _ _).2 (by omega)
  by_cases h2 : op ≤ op16 ∧ op ≠ opReserved
  · have hn : ((op.toNat : Int) - ((op1 - 1 : UInt8).toNat : Int)) = op.toNat - op1.toNat + 1 := by
      rw [show (op1 - 1 : UInt8).toNat = 80 from rfl, show op1.toNat = 81 from rfl]; omega
    rw [if_pos ((mem_numberOps_iff hop).2 h2), if_pos h2, hn]
    rfl
  rw [if_neg (fun hm => h2 ((mem_numberOps_iff hop).1 hm)), if_neg h2]
  by_cases h3 : op = opDup
  · rw [if_pos h3, if_pos h3]
    rcases stack with _ | ⟨a, rest⟩ <;> rfl
  rw [if_neg h3, if_neg h3]
  by_cases h4 : op = opAdd ∨ op = opSub
  · rw [if_pos h4, if_pos h4]
    rcases stack with _ | ⟨a, _ | ⟨b, rest⟩⟩
    · rfl
    · rfl
    · cases hb : newScriptNum b with
      | error e =>
        simp only [hb, except_mapError_error, except_error_bind]
        exact congrArg Except.error (newScriptNum_error hb).symm
      | ok sn1 =>
        cases ha : newScriptNum a with
        | error e =>
          simp only [hb, ha, except_mapError_ok, except_ok_bind, except_mapError_error,
            except_error_bind]
          exact congrArg Except.error (newScriptNum_error ha).symm
        | ok sn2 => simp only [hb, ha, except_mapError_ok, except_ok_bind]; rfl
  rw [if_neg h4, if_neg h4]
  by_cases h5 : op = opEqual ∨ op = opEqualVerify
  · rw [if_pos h5, if_pos h5]
    rcases stack with _ | ⟨a, _ | ⟨b, rest⟩⟩
    · rfl
    · rfl
    · dsimp only
      split_ifs <;> rfl
  rw [if_neg h5, if_neg h5]
  by_cases h6 : op = opHash160
  · rw [if_pos h6, if_pos h6]
    rcases stack with _ | ⟨a, rest⟩ <;> rfl
  rw [if_neg h6, if_neg h6]
  by_cases h7 : op = opCodeSeparator
  · rw [if_pos h7, if_pos h7]; rfl
  rw [if_neg h7, if_neg h7, if_neg h, if_neg h]
  rfl

/-- The legacy loop through an instruction that decodes without error and is no signature
check: it runs as the current `execOp` does, and the hash cache stays. -/
lemma run_step {s : Script} {tx : Transaction} {i : Int} {op : UInt8} {d : Operand}
    {pc pc' sps start : Nat} {stack stack' : List Operand} {cache : Option Hash}
    (hr : Boxd.parseNextOp s pc = ⟨op, d, pc', none⟩) (hop : ¬(op = opCheckSig ∨ op = opCheckSigVerify))
    (hx : Boxd.execOp c s op d tx i pc' sps stack = .ok (start, stack')) :
    run c s tx i (⟨pc, sps, stack⟩, cache) = run c s tx i (⟨pc', start, stack'⟩, cache) := by
  have hlt := parseNextOp_pc_of_err_none (show (Boxd.parseNextOp s pc).err = none by rw [hr])
  rw [hr] at hlt
  refine run_of_step c (hlt.1.trans_le hlt.2) ?_
  rw [step, parseNextOp_eq, hr]
  simp only [Parsed.legacy, Option.map_none', execOp_of_not_checkSig c hop, hx]
  rfl


end Legacy

/-! ### Where they do not -/

/-- A signature scheme where the hash of a transaction lists its scriptSigs, and a signature is
valid for the hash that lists it alone. -/
def listingCrypto : Crypto Operand Operand (List (List UInt8)) where
  hash160 b := (b ++ List.replicate 20 0).take 20
  hash160_length b := by simp
  sigFromBytes := some
  publicKeyFromBytes := some
  verifySignature sig _ h := decide (h = [sig])
  calcTxHash tx := some (tx.vin.map TxIn.scriptSig)

/-- The script `<OP_CHECKSIG> OP_0 OP_CODESEPARATOR OP_CHECKSIG`: it pushes the signature
`[OP_CHECKSIG]` and an empty key, and signs the script after the separator, `[OP_CHECKSIG]`. -/
def signedSuffixScript : Script := [0x01, 0xac, 0x00, 0xab, 0xac]

/-- On the one-input transaction that holds its own hash in its cache, as a transaction whose
`TxHash` was called before does, the current `evaluate` accepts `signedSuffixScript` and the
legacy `Evaluate` rejects it: its signature check reads the cached hash of the unblanked
transaction where the current one hashes the blanked transaction. -/
theorem legacy_evaluate_cachedHash :
    evaluate listingCrypto signedSuffixScript (oneInputTx []) 0 = .ok () ∧
      Legacy.evaluate listingCrypto signedSuffixScript (oneInputTx [])
        (listingCrypto.calcTxHash (oneInputTx [])) 0 = .error (.helper .finalTopStackEleFalse) := by
  constructor
  · have hstep := @run_of_step _ _ _ listingCrypto signedSuffixScript (oneInputTx []) 0
    rw [evaluate, @hstep Machine.init ⟨2, 0, [[0xac]]⟩ (by decide) rfl,
      @hstep ⟨2, 0, [[0xac]]⟩ ⟨3, 0, [[], [0xac]]⟩ (by decide) rfl,
      @hstep ⟨3, 0, [[], [0xac]]⟩ ⟨4, 4, [[], [0xac]]⟩ (by decide) rfl,
      @hstep ⟨4, 4, [[], [0xac]]⟩ ⟨5, 4, [operandTrue]⟩ (by decide) rfl, run_of_le _ le_rfl]
    rfl
  · have hstep := @Legacy.run_of_step _ _ _ listingCrypto signedSuffixScript (oneInputTx []) 0
    rw [Legacy.evaluate,
      @hstep (Machine.init, listingCrypto.calcTxHash (oneInputTx [])) (⟨2, 0, [[0xac]]⟩, some [[]])
        (by decide) rfl,
      @hstep (⟨2, 0, [[0xac]]⟩, some [[]]) (⟨3, 0, [[], [0xac]]⟩, some [[]]) (by decide) rfl,
      @hstep (⟨3, 0, [[], [0xac]]⟩, some [[]]) (⟨4, 4, [[], [0xac]]⟩, some [[]]) (by decide) rfl,
      @hstep (⟨4, 4, [[], [0xac]]⟩, some [[]]) (⟨5, 4, [operandFalse]⟩, some [[]]) (by decide) rfl,
      Legacy.run_of_le _ le_rfl]
    rfl

end Boxd
