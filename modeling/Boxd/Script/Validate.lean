import Boxd.Script.Exec

/-!
# What `Validate` establishes about an input

`Validate` evaluates one concatenated script, `scriptSig ‖ OP_CODESEPARATOR ‖ scriptPubKey`,
instead of running the two scripts one after the other.  Nothing makes the concatenation's
instruction boundaries agree with the parts': a scriptSig that ends in a push opcode whose
operand is longer than what is left of the scriptSig takes the separator and the locking script
as push data (`validate_truncatedPush_payToPubKeyHash`).

For a pay-to-script-hash output the second phase runs the scriptSig's first operand and the
script serialized in its second operand, read with the decode errors ignored.  A scriptSig that
is a single push of the redeem script passes the first phase, and the second phase runs the empty
script (`validate_payToScriptHash_singlePush`).

`ExtractAddress` reads the operand of the third instruction of a script.  On a
pay-to-pubkey-hash script that is the key hash it was built from
(`extractAddress_payToPubKeyHashScript`).
-/

namespace Boxd

variable {Sig PubKey Hash : Type} (c : Crypto Sig PubKey Hash)

/-- The locking script `OP_HASH160 <h> OP_EQUAL` that `IsPayToScriptHash` recognises. -/
def payToScriptHashScript (h : List UInt8) : Script :=
  addOpCode (addOperand (addOpCode newScript opHash160) h) opEqual

lemma payToPubKeyHashScript_eq {h : List UInt8} (hh : h.length = 20) :
    payToPubKeyHashScript h = opDup :: opHash160 :: 20 :: (h ++ [opEqualVerify, opCheckSig]) := by
  simp [payToPubKeyHashScript, addOpCode, addOperand, newScript, pushPrefix, hh]

lemma payToScriptHashScript_eq {h : List UInt8} (hh : h.length = 20) :
    payToScriptHashScript h = opHash160 :: 20 :: (h ++ [opEqual]) := by
  simp [payToScriptHashScript, addOpCode, addOperand, newScript, pushPrefix, hh]

lemma catScript_eq (scriptSig scriptPubKey : Script) :
    catScript scriptSig scriptPubKey = scriptSig ++ opCodeSeparator :: scriptPubKey := by
  simp [catScript, addScript, addOpCode, newScript]

/-- A backend for closed instances: the hash is the input cut or padded to twenty bytes, every
byte string parses as a key and as a signature, and no signature verifies. -/
def rejectingCrypto : Crypto Operand Operand Operand where
  hash160 b := (b ++ List.replicate 20 0).take 20
  hash160_length b := by simp
  sigFromBytes := some
  publicKeyFromBytes := some
  verifySignature _ _ _ := false
  calcTxHash _ := some []

/-- A transaction with one input spending output `0` of the empty hash. -/
def oneInputTx (scriptSig : Script) : Transaction :=
  ⟨1, [⟨⟨[], 0⟩, scriptSig, 0⟩], [], 0⟩

/-- A scriptSig made of the single byte `0x1a` ("push 26 bytes") in front of a pay-to-pubkey-hash
locking script: the loop runs one instruction, a push of the separator and the whole locking
script, `OP_CODESEPARATOR` and `OP_CHECKSIG` never run, and `Validate` accepts whatever the
transaction, the input and the key hash. -/
theorem validate_truncatedPush_payToPubKeyHash (h : List UInt8) (hh : h.length = 20)
    (tx : Transaction) (i : Int) :
    run c (catScript [0x1a] (payToPubKeyHashScript h)) tx i Machine.init =
        .ok ⟨27, 0, [opCodeSeparator :: payToPubKeyHashScript h]⟩ ∧
      validate c [0x1a] (payToPubKeyHashScript h) tx i = .ok () := by
  have hspk : (payToPubKeyHashScript h).length = 25 := by
    simp [payToPubKeyHashScript_eq hh, hh]
  have hcat : catScript [0x1a] (payToPubKeyHashScript h) =
      0x1a :: opCodeSeparator :: payToPubKeyHashScript h := by
    simp [catScript_eq]
  have hp : parseNextOp (catScript [0x1a] (payToPubKeyHashScript h)) 0 =
      ⟨0x1a, opCodeSeparator :: payToPubKeyHashScript h, 27, none⟩ := by
    rw [hcat, parseNextOp_cons_push (by decide) (by simp [hspk])]
    simp [hspk, List.take_of_length_le (Nat.le_of_eq hspk)]
  have hrun : run c (catScript [0x1a] (payToPubKeyHashScript h)) tx i Machine.init =
      .ok ⟨27, 0, [opCodeSeparator :: payToPubKeyHashScript h]⟩ := by
    rw [Machine.init, run_step c hp (execOp_push c (by decide) _ _ _ _ _ _),
      run_of_le c (by simp [hcat, hspk])]
  refine ⟨hrun, ?_⟩
  have hne : payToPubKeyHashScript h ≠ [] := by simp [payToPubKeyHashScript_eq hh]
  have hnot : isPayToScriptHash (payToPubKeyHashScript h) = false := by
    simp [isPayToScriptHash, hspk]
  simp [validate, evaluate, hrun, validateTop, @castToBool_cons_of_ne opCodeSeparator _ (by decide) hne, hnot]

theorem validate_truncatedPush_zeroKeyHash :
    (List.replicate 20 (0 : UInt8)).length = 20 ∧
      validate rejectingCrypto [0x1a] (payToPubKeyHashScript (List.replicate 20 0))
        (oneInputTx [0x1a]) 0 = .ok () :=
  ⟨rfl, (validate_truncatedPush_payToPubKeyHash rejectingCrypto (List.replicate 20 0) rfl _ 0).2⟩

/-- A short operand is pushed with its length as the opcode. -/
lemma addOperand_short {d : Operand} (hd : d.length < 76) :
    addOperand newScript d = UInt8.ofNat d.length :: d := by
  simp [addOperand, newScript, pushPrefix, hd]

lemma parseNextOp_short {d t : Operand} (hd : d.length < 76) :
    parseNextOp ((UInt8.ofNat d.length :: d) ++ t) 0 =
      ⟨UInt8.ofNat d.length, d, 1 + d.length, none⟩ := by
  have hn : (UInt8.ofNat d.length).toNat = d.length := by simp; omega
  rw [List.cons_append, parseNextOp_cons_push (by rw [uint8_lt_iff, hn]; simpa using hd) (by simp [hn]), hn]
  simp

/-- A pay-to-script-hash spend whose scriptSig is the single push of a redeem script `R` that
casts to true: the first phase leaves `R`'s hash check true, the second operand read from the
scriptSig is empty, and the second phase runs `R` as data only, so `Validate` accepts whatever
`R` would have done as a script. -/
theorem validate_payToScriptHash_singlePush (R : Operand) (hR : 0 < R.length ∧ R.length < 76)
    (hT : castToBool R = true) (tx : Transaction) (i : Int) :
    p2shOperands (addOperand newScript R) = (R, []) ∧
      validate c (addOperand newScript R) (payToScriptHashScript (c.hash160 R)) tx i = .ok () := by
  have hH : (c.hash160 R).length = 20 := c.hash160_length R
  have hsig := addOperand_short hR.2
  have hp0 := parseNextOp_short (t := []) hR.2
  rw [List.append_nil] at hp0
  have hops : p2shOperands (addOperand newScript R) = (R, []) := by
    simp only [p2shOperands, hsig, hp0]
    rw [parseNextOp_of_le (by simp; omega)]
  refine ⟨hops, ?_⟩
  -- phase one: push R, separator, hash, push the hash, compare
  have ha : (UInt8.ofNat R.length :: R).length = 1 + R.length := by simp; omega
  have hpush : UInt8.ofNat R.length ≤ opPushData4 := by
    rw [← UInt8.not_lt, uint8_lt_iff]; simp; omega
  have hcat1 : catScript (addOperand newScript R) (payToScriptHashScript (c.hash160 R)) =
      (UInt8.ofNat R.length :: R) ++ opCodeSeparator :: opHash160 :: 20 :: (c.hash160 R ++ [opEqual]) := by
    rw [catScript_eq, hsig, payToScriptHashScript_eq hH]
  have hrun1 : run c (catScript (addOperand newScript R) (payToScriptHashScript (c.hash160 R))) tx i
      Machine.init = .ok ⟨(UInt8.ofNat R.length :: R).length + 1 + 1 + 21 + 1,
        (UInt8.ofNat R.length :: R).length + 1, [operandTrue]⟩ := by
    rw [hcat1, Machine.init, run_step c (parseNextOp_short hR.2) (execOp_push c hpush _ _ _ _ _ _),
      run_append_step c ha.symm (parseNextOp_opCode (by decide) _) (execOp_codeSeparator c _ _ _ _ _ _ _),
      List.append_cons,
      run_append_step c (by simp) (parseNextOp_opCode (by decide) _) (execOp_hash160 c _ _ _ _ _ _ _ _),
      List.append_cons,
      run_append_step c (by simp) (parseNextOp_cons_push (by decide) (by simp [hH]))
        (execOp_push c (show (20 : UInt8) ≤ opPushData4 by decide) _ _ _ _ _ _)]
    have h20 : (20 : UInt8).toNat = 20 := rfl
    rw [h20, List.take_left' hH, ← List.cons_append, ← List.append_assoc,
      run_append_step c (by simp [hH]) (parseNextOp_opCode (by decide) _) (execOp_equal c _ _ _ _ _ _ _ _ _),
      if_pos rfl, run_of_le c (by simp [hH])]
    simp [hH]
  -- phase two: the redeem script read from the scriptSig is empty
  have hrun2 : run c (catScript (addOperand newScript R) []) tx i Machine.init =
      .ok ⟨(UInt8.ofNat R.length :: R).length + 1, (UInt8.ofNat R.length :: R).length + 1, [R]⟩ := by
    rw [catScript_eq, hsig, Machine.init, run_step c (parseNextOp_short hR.2) (execOp_push c hpush _ _ _ _ _ _),
      run_append_step c ha.symm (parseNextOp_opCode (by decide) _) (execOp_codeSeparator c _ _ _ _ _ _ _),
      run_of_le c (by simp)]
  have hP2SH : isPayToScriptHash (payToScriptHashScript (c.hash160 R)) = true := by
    simp [isPayToScriptHash, payToScriptHashScript_eq hH, hH]
  simp [validate, evaluate, hrun1, hrun2, validateTop, hops, hT, hP2SH]

theorem validate_payToScriptHash_checkSigRedeem :
    (0 < [opCheckSig].length ∧ [opCheckSig].length < 76) ∧ castToBool [opCheckSig] = true ∧
      validate rejectingCrypto (addOperand newScript [opCheckSig])
        (payToScriptHashScript (rejectingCrypto.hash160 [opCheckSig]))
        (oneInputTx (addOperand newScript [opCheckSig])) 0 = .ok () :=
  ⟨by decide, by decide, (validate_payToScriptHash_singlePush rejectingCrypto [opCheckSig]
    (by decide) (by decide) _ 0).2⟩

/-! ### `ExtractAddress` -/

/-- `ExtractAddress`, up to `types.NewAddressPubKeyHash`, which is not in the repository
sources: the operand of the third instruction, read at the positions the first two parses
return, every error ignored. -/
def extractAddress (s : Script) : Operand :=
  (parseNextOp s (parseNextOp s (parseNextOp s 0).pc).pc).operand

/-- `ExtractAddress` reads back the hash a pay-to-pubkey-hash script is built from, of at most
`0xffff` bytes. -/
theorem extractAddress_payToPubKeyHashScript {h : List UInt8} (hh : h.length ≤ 0xffff) :
    extractAddress (payToPubKeyHashScript h) = h := by
  have hs : payToPubKeyHashScript h =
      opDup :: opHash160 :: (addOperand newScript h ++ [opEqualVerify, opCheckSig]) := by
    simp [payToPubKeyHashScript, addOpCode, addOperand, newScript]
  have h1 : parseNextOp (payToPubKeyHashScript h) 1 = ⟨opHash160, [], 2, none⟩ := by
    have h1 := parseNextOp_append_left [opDup]
      (opHash160 :: (addOperand newScript h ++ [opEqualVerify, opCheckSig])) 0
    rw [parseNextOp_opCode (by decide)] at h1
    rw [hs]
    exact h1
  have h2 : (parseNextOp (payToPubKeyHashScript h) 2).operand = h := by
    have h2 := parseNextOp_append_left [opDup, opHash160]
      (addOperand newScript h ++ [opEqualVerify, opCheckSig]) 0
    rw [parseNextOp_append_right (s := addOperand newScript h) _ (by rw [parseNextOp_addOperand hh]),
      parseNextOp_addOperand hh] at h2
    rw [hs]
    exact congrArg Parsed.operand h2
  rw [extractAddress, show (parseNextOp (payToPubKeyHashScript h) 0).pc = 1 by
    rw [hs, parseNextOp_opCode (by decide)], h1]
  exact h2

/-- The zero key hash. -/
theorem extractAddress_payToPubKeyHashScript_zeroKeyHash :
    (List.replicate 20 (0 : UInt8)).length ≤ 0xffff ∧
      extractAddress (payToPubKeyHashScript (List.replicate 20 0)) = List.replicate 20 0 :=
  ⟨by decide, extractAddress_payToPubKeyHashScript (by decide)⟩

end Boxd
