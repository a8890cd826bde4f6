import Boxd.Script.Exec

/-!
# `evaluate` and `disasm` with Go's runtime checks

`Boxd.Script.Basic` and `Boxd.Script.Exec` model the decoder and the machine with total list
functions, where a read past the end gives a default.  Here the same Go code is modelled with
each of its index and slice expressions and each stack read checked, as the Go runtime checks
them: a read out of range is a panic.  The loops of `evaluate` and `disasm` are cut off after a
given number of rounds.

The main result, `evaluate_terminates_without_panic`, says that on every script, with `len(s)`
rounds, the checked `evaluate` and `disasm` end, never panic, and return what the total model
returns.  Two facts carry it: every decoded instruction moves `pc` forward inside the script
(`parseNextOp_pc_of_err_none`), and `scriptPubKeyStart` never passes the end of the script
(`step_scriptPubKeyStart_le`), so the one slice `execOp` takes, `(*s)[*scriptPubKeyStart:]`, is
in range.
-/

namespace Boxd

/-- How a run of the Go code ends when it does not return a value: with an error value, with a
panic (an index or a slice out of range), or, for a loop cut off after a number of rounds, still
running. -/
inductive Failure
  | error (e : ScriptErr)
  | panic
  | running
  deriving DecidableEq, Repr

/-- One word of `disasm`'s output: the hex of an operand, the name of an opcode, or the
`[Error: ...]` word that ends the output.  The words are kept as values: `opCodeToName` is not
under `src/`, and the final `strings.Join` is left out. -/
inductive DisasmWord
  | operand (d : Operand)
  | opCode (op : UInt8)
  | error (e : ScriptErr)
  deriving DecidableEq, Repr

/-- The word `disasm` writes for a decoded instruction: a push has a non-nil operand, written in
hex; any other opcode is written by its name. -/
def disasmWord (r : Parsed) : DisasmWord :=
  if r.opCode ≤ opPushData4 then .operand r.operand else .opCode r.opCode

/-- `disasm`, from `pc`: the words of the instructions up to the end of the script, or up to
the first decode error, whose word ends the output. -/
def disasm (s : Script) (pc : Nat) : List DisasmWord :=
  if pc < s.length then
    match _h : (parseNextOp s pc).err with
    | some e => [.error e]
    | none => disasmWord (parseNextOp s pc) :: disasm s (parseNextOp s pc).pc
  else []
termination_by s.length - pc
decreasing_by have := (parseNextOp_pc_of_err_none _h).1; omega

lemma disasm_of_le {s : Script} {pc : Nat} (h : s.length ≤ pc) : disasm s pc = [] := by
  rw [disasm, if_neg (by omega)]

namespace Checked

/-! ### Go's checked reads -/

/-- The index expression `a[i]`. -/
def index {α : Type} [Inhabited α] (a : List α) (i : Nat) : Except Failure α :=
  if i < a.length then .ok (a.getD i default) else .error .panic

/-- The slice expression `a[lo:hi]`.  Go bounds `hi` by the capacity, which is at least the
length; the check here is against the length. -/
def slice {α : Type} (a : List α) (lo hi : Nat) : Except Failure (List α) :=
  if lo ≤ hi ∧ hi ≤ a.length then .ok ((a.drop lo).take (hi - lo)) else .error .panic

/-- `binary.LittleEndian.Uint16(b)`, which checks `b[1]` first. -/
def uint16 (b : List UInt8) : Except Failure Nat := do
  let b1 ← index b 1
  let b0 ← index b 0
  pure (b0.toNat + 256 * b1.toNat)

/-- `stack.topN(n)`, the item `stk[len(stk)-n]` of a slice whose last item is the top: the item
`n - 1` places below the top, a panic unless `1 ≤ n ≤ size`.  Modelled from the spec:
`stack.go` is not under `src/`. -/
def topN (stack : List Operand) (n : Nat) : Except Failure Operand :=
  if 1 ≤ n then index stack (n - 1) else .error .panic

/-- `stack.pop()`, which reads the top before it drops it. -/
def pop : List Operand → Except Failure (List Operand)
  | [] => .error .panic
  | _ :: rest => .ok rest

/-- `stack.validateTop()`, modelled from the spec. -/
def validateTop (stack : List Operand) : Except Failure Unit :=
  if stack.length < 1 then throw (.error .finalStackEmpty)
  else do if castToBool (← topN stack 1) then pure () else throw (.error .finalTopStackEleFalse)

/-! ### The decoder -/

/-- The middle of `parseNextOp` for a push opcode: an early return of `parseNextOp` is an
`Except.error` inside. -/
def pushHeader (s : Script) (opCode : UInt8) (pc : Nat) :
    Except Failure (Except ScriptErr (Nat × Nat)) :=
  if opCode < opPushData1 then pure (.ok (opCode.toNat, pc))
  else if opCode = opPushData1 then
    if s.length - pc < 1 then pure (.error .noEnoughDataOPPUSHDATA1)
    else do pure (.ok ((← index s pc).toNat, pc + 1))
  else if opCode = opPushData2 then
    if s.length - pc < 2 then pure (.error .noEnoughDataOPPUSHDATA2)
    else do pure (.ok (← slice s pc (pc + 2) >>= uint16, pc + 2))
  else if s.length - pc < 4 then pure (.error .noEnoughDataOPPUSHDATA4)
  else do pure (.ok (← slice s pc (pc + 4) >>= uint16, pc + 4))

/-- `parseNextOp`. -/
def parseNextOp (s : Script) (pc : Nat) : Except Failure Parsed :=
  if s.length ≤ pc then pure ⟨0, [], pc, some .scriptBound⟩
  else do
    let opCode ← index s pc
    if opPushData4 < opCode then pure ⟨opCode, [], pc + 1, none⟩
    else match ← pushHeader s opCode (pc + 1) with
      | .error e => pure ⟨opCode, [], pc + 1, some e⟩
      | .ok (size, start) =>
        if s.length - start < size then pure ⟨opCode, [], start, some .scriptBound⟩
        else do pure ⟨opCode, ← slice s start (start + size), start + size, none⟩

/-! ### The machine -/

variable {Sig PubKey Hash : Type} (c : Crypto Sig PubKey Hash)

/-- `execOp`.  The stack is read through `topN` and `pop`; the signed script is the slice
`(*s)[*scriptPubKeyStart:]`. -/
def execOp (s : Script) (opCode : UInt8) (pushData : Operand) (tx : Transaction) (txInIdx : Int)
    (pc start : Nat) (stack : List Operand) : Except Failure (Nat × List Operand) :=
  if opCode ≤ opPushData4 then pure (start, pushData :: stack)
  else if opCode ≤ op16 ∧ opCode ≠ opReserved then
    pure (start, scriptNumBytes (opCode.toNat - op1.toNat + 1 : Int) :: stack)
  else if opCode = opDup then
    if stack.length < 1 then throw (.error .invalidStackOperation)
    else do pure (start, (← topN stack 1) :: stack)
  else if opCode = opAdd ∨ opCode = opSub then
    if stack.length < 2 then throw (.error .invalidStackOperation)
    else do
      let sn1 ← (newScriptNum (← topN stack 2)).mapError .error
      let sn2 ← (newScriptNum (← topN stack 1)).mapError .error
      let sn ← if opCode = opAdd then pure (sn1 + sn2)
        else if opCode = opSub then pure (sn1 - sn2) else throw (.error .badOpcode)
      let rest ← pop stack >>= pop
      pure (start, scriptNumBytes sn :: rest)
  else if opCode = opEqual ∨ opCode = opEqualVerify then
    if stack.length < 2 then throw (.error .invalidStackOperation)
    else do
      let op1 ← topN stack 2
      let op2 ← topN stack 1
      let rest ← pop stack >>= pop
      let stack := (if op1 = op2 then operandTrue else operandFalse) :: rest
      if opCode = opEqualVerify then
        if op1 = op2 then do pure (start, ← pop stack) else throw (.error .scriptEqualVerify)
      else pure (start, stack)
  else if opCode = opHash160 then
    if stack.length < 1 then throw (.error .invalidStackOperation)
    else do
      let hash160 := c.hash160 (← topN stack 1)
      let rest ← pop stack
      pure (start, hash160 :: rest)
  else if opCode = opCodeSeparator then pure (pc, stack)
  else if opCode = opCheckSig ∨ opCode = opCheckSigVerify then
    if stack.length < 2 then throw (.error .invalidStackOperation)
    else do
      let signature ← topN stack 2
      let publicKey ← topN stack 1
      let scriptPubKey ← slice s start s.length
      let isVerified := verifySig c signature publicKey scriptPubKey tx txInIdx
      let rest ← pop stack >>= pop
      let stack := (if isVerified then operandTrue else operandFalse) :: rest
      if opCode = opCheckSigVerify then
        if isVerified then do pure (start, ← pop stack)
        else throw (.error .scriptSignatureVerifyFail)
      else pure (start, stack)
  else throw (.error .badOpcode)

/-- One iteration of `evaluate`'s loop. -/
def step (s : Script) (tx : Transaction) (txInIdx : Int) (m : Machine) : Except Failure Machine := do
  let r ← parseNextOp s m.pc
  match r.err with
  | some e => throw (.error e)
  | none =>
    let x ← execOp c s r.opCode r.operand tx txInIdx r.pc m.scriptPubKeyStart m.stack
    pure ⟨r.pc, x.1, x.2⟩

/-- `evaluate`'s loop, cut off after `rounds` iterations. -/
def run (s : Script) (tx : Transaction) (txInIdx : Int) : Nat → Machine → Except Failure Machine
  | 0, m => if m.pc < s.length then .error .running else .ok m
  | rounds + 1, m =>
    if m.pc < s.length then step c s tx txInIdx m >>= run s tx txInIdx rounds else .ok m

/-- `disasm`'s loop from `pc`, cut off after `rounds` iterations. -/
def disasm (s : Script) : Nat → Nat → Except Failure (List DisasmWord)
  | 0, pc => if pc < s.length then .error .running else .ok []
  | rounds + 1, pc =>
    if pc < s.length then do
      let r ← parseNextOp s pc
      match r.err with
      | some e => pure [.error e]
      | none => (disasmWord r :: ·) <$> disasm s rounds r.pc
    else .ok []

/-- `evaluate`, its loops cut off after `rounds` iterations.  The log line it writes first
calls `disasm`, which Go runs whatever the log level. -/
def evaluate (s : Script) (tx : Transaction) (txInIdx : Int) (rounds : Nat) :
    Except Failure Unit := do
  let _ ← disasm s rounds 0
  let m ← run c s tx txInIdx rounds Machine.init
  validateTop m.stack

/-! ### The checked reads in range -/

lemma index_of_lt {α : Type} [Inhabited α] {a : List α} {i : Nat} (h : i < a.length) :
    index a i = .ok (a.getD i default) :=
  if_pos h

lemma slice_of_le {α : Type} {a : List α} {lo hi : Nat} (h : lo ≤ hi) (h' : hi ≤ a.length) :
    slice a lo hi = .ok ((a.drop lo).take (hi - lo)) :=
  if_pos ⟨h, h'⟩

lemma slice_to_length {α : Type} {a : List α} {lo : Nat} (h : lo ≤ a.length) :
    slice a lo a.length = .ok (a.drop lo) := by
  rw [slice_of_le h le_rfl, List.take_of_length_le (by simp)]

/-- The length `OP_PUSHDATA2` and `OP_PUSHDATA4` read from a slice of `k ≥ 2` bytes inside the
script is `readUint16`. -/
lemma slice_uint16 {s : Script} {pc k : Nat} (hk : 2 ≤ k) (h : pc + k ≤ s.length) :
    slice s pc (pc + k) >>= uint16 = .ok (readUint16 s pc) := by
  have hlen : ((s.drop pc).take k).length = k := by simp; omega
  have hget : ∀ j < k, ((s.drop pc).take k).getD j default = s.getD (pc + j) 0 := fun j hj => by
    rw [List.getD_eq_getElem?_getD, List.getElem?_take_of_lt hj, List.getElem?_drop,
      ← List.getD_eq_getElem?_getD]
    rfl
  have h0 : 0 < ((s.drop pc).take k).length := by omega
  have h1 : 1 < ((s.drop pc).take k).length := by omega
  rw [slice_of_le (by omega) h, Nat.add_sub_cancel_left, except_ok_bind]
  simp only [uint16, index_of_lt h0, index_of_lt h1, except_ok_bind, hget 0 (by omega),
    hget 1 (by omega), readUint16, Nat.add_zero]
  rfl

@[simp] lemma topN_cons_one (a : Operand) (stack : List Operand) : topN (a :: stack) 1 = .ok a := by
  simp [topN, index]

@[simp] lemma topN_cons_two (a b : Operand) (stack : List Operand) :
    topN (a :: b :: stack) 2 = .ok b := by
  simp [topN, index]

@[simp] lemma pop_cons (a : Operand) (stack : List Operand) : pop (a :: stack) = .ok stack := rfl

end Checked

/-! ### The decoder reads in range -/

lemma checked_pushHeader_eq (s : Script) (op : UInt8) (pc : Nat) :
    Checked.pushHeader s op pc = .ok (pushHeader s op pc) := by
  unfold Checked.pushHeader pushHeader
  by_cases h1 : op < opPushData1
  · simp only [if_pos h1]; rfl
  by_cases h2 : op = opPushData1
  · by_cases h3 : s.length - pc < 1
    · simp only [if_neg h1, if_pos h2, if_pos h3]; rfl
    · simp only [if_neg h1, if_pos h2, if_neg h3, Checked.index_of_lt (show pc < s.length by omega)]
      rfl
  by_cases h4 : op = opPushData2
  · by_cases h5 : s.length - pc < 2
    · simp only [if_neg h1, if_neg h2, if_pos h4, if_pos h5]; rfl
    · simp only [if_neg h1, if_neg h2, if_pos h4, if_neg h5,
        @Checked.slice_uint16 s pc 2 le_rfl (by omega)]
      rfl
  by_cases h6 : s.length - pc < 4
  · simp only [if_neg h1, if_neg h2, if_neg h4, if_pos h6]; rfl
  · simp only [if_neg h1, if_neg h2, if_neg h4, if_neg h6,
      @Checked.slice_uint16 s pc 4 (by decide) (by omega)]
    rfl

/-- Every read of `parseNextOp` is in range, at every `pc` of every script. -/
lemma checked_parseNextOp_eq (s : Script) (pc : Nat) :
    Checked.parseNextOp s pc = .ok (parseNextOp s pc) := by
  unfold Checked.parseNextOp parseNextOp
  split_ifs with h1
  · rfl
  rw [Checked.index_of_lt (Nat.lt_of_not_le h1), except_ok_bind,
    show (default : UInt8) = 0 from rfl]
  dsimp only
  split_ifs with h2
  · rfl
  rw [checked_pushHeader_eq, except_ok_bind]
  rcases hh : pushHeader s (s.getD pc 0) (pc + 1) with e | ⟨size, start⟩
  · rfl
  have hst := (pushHeader_start_le hh (by omega)).2
  dsimp only
  split_ifs with h3
  · rfl
  rw [Checked.slice_of_le (by omega) (by omega), Nat.add_sub_cancel_left]
  rfl

/-! ### The machine reads in range -/

variable {Sig PubKey Hash : Type} (c : Crypto Sig PubKey Hash)

/-- With `scriptPubKeyStart` inside the script, every read of `execOp` is in range: each stack
read is guarded by its size test, and the signed script is a slice of the script. -/
lemma checked_execOp_eq {s : Script} {start : Nat} (h : start ≤ s.length) (op : UInt8)
    (d : Operand) (tx : Transaction) (i : Int) (pc : Nat) (stack : List Operand) :
    Checked.execOp c s op d tx i pc start stack =
      (execOp c s op d tx i pc start stack).mapError .error := by
  unfold Checked.execOp execOp
  by_cases h1 : op ≤ opPushData4
  · rw [if_pos h1, if_pos h1]; rfl
  rw [if_neg h1, if_neg h1]
  by_cases h2 : op ≤ op16 ∧ op ≠ opReserved
  · rw [if_pos h2, if_pos h2]; rfl
  rw [if_neg h2, if_neg h2]
  by_cases h3 : op = opDup
  · rw [if_pos h3, if_pos h3]
    rcases stack with _ | ⟨a, rest⟩ <;> simp
  rw [if_neg h3, if_neg h3]
  by_cases h4 : op = opAdd ∨ op = opSub
  · rw [if_pos h4, if_pos h4]
    rcases stack with _ | ⟨a, _ | ⟨b, rest⟩⟩
    · rfl
    · rfl
    · rw [if_neg (show ¬(a :: b :: rest).length < 2 by simp)]
      rcases h4 with rfl | rfl <;> cases hb : newScriptNum b <;> cases ha : newScriptNum a <;>
        simp [hb, ha, opAdd, opSub]
  rw [if_neg h4, if_neg h4]
  by_cases h5 : op = opEqual ∨ op = opEqualVerify
  · rw [if_pos h5, if_pos h5]
    rcases stack with _ | ⟨a, _ | ⟨b, rest⟩⟩
    · rfl
    · rfl
    · rw [if_neg (show ¬(a :: b :: rest).length < 2 by simp)]
      rcases h5 with rfl | rfl <;> by_cases hab : b = a <;> simp [hab, opEqual, opEqualVerify]
  rw [if_neg h5, if_neg h5]
  by_cases h6 : op = opHash160
  · rw [if_pos h6, if_pos h6]
    rcases stack with _ | ⟨a, rest⟩ <;> simp
  rw [if_neg h6, if_neg h6]
  by_cases h7 : op = opCodeSeparator
  · rw [if_pos h7, if_pos h7]; rfl
  rw [if_neg h7, if_neg h7]
  by_cases h8 : op = opCheckSig ∨ op = opCheckSigVerify
  · rw [if_pos h8, if_pos h8]
    rcases stack with _ | ⟨a, _ | ⟨b, rest⟩⟩
    · rfl
    · rfl
    · rw [if_neg (show ¬(a :: b :: rest).length < 2 by simp)]
      rcases h8 with rfl | rfl <;> cases hv : verifySig c b a (s.drop start) tx i <;>
        simp [hv, Checked.slice_to_length h, opCheckSig, opCheckSigVerify]
  rw [if_neg h8, if_neg h8]
  rfl

/-- `execOp` moves `scriptPubKeyStart` only at `OP_CODESEPARATOR`, to `pc`. -/
lemma execOp_scriptPubKeyStart {s : Script} {op : UInt8} {d : Operand} {tx : Transaction}
    {i : Int} {pc start : Nat} {stack : List Operand} {r : Nat × List Operand}
    (h : execOp c s op d tx i pc start stack = .ok r) : r.1 = start ∨ r.1 = pc := by
  unfold execOp at h
  by_cases h1 : op ≤ opPushData4
  · rw [if_pos h1] at h; cases h; exact .inl rfl
  rw [if_neg h1] at h
  by_cases h2 : op ≤ op16 ∧ op ≠ opReserved
  · rw [if_pos h2] at h; cases h; exact .inl rfl
  rw [if_neg h2] at h
  by_cases h3 : op = opDup
  · rw [if_pos h3] at h
    rcases stack with _ | ⟨a, rest⟩ <;> cases h
    exact .inl rfl
  rw [if_neg h3] at h
  by_cases h4 : op = opAdd ∨ op = opSub
  · rw [if_pos h4] at h
    rcases stack with _ | ⟨a, _ | ⟨b, rest⟩⟩ <;> try cases h
    obtain ⟨_, -, h⟩ := except_bind_eq_ok.1 h
    obtain ⟨_, -, h⟩ := except_bind_eq_ok.1 h
    cases h
    exact .inl rfl
  rw [if_neg h4] at h
  by_cases h5 : op = opEqual ∨ op = opEqualVerify
  · rw [if_pos h5] at h
    rcases stack with _ | ⟨a, _ | ⟨b, rest⟩⟩ <;> try cases h
    dsimp only at h
    split_ifs at h <;> cases h <;> exact .inl rfl
  rw [if_neg h5] at h
  by_cases h6 : op = opHash160
  · rw [if_pos h6] at h
    rcases stack with _ | ⟨a, rest⟩ <;> cases h
    exact .inl rfl
  rw [if_neg h6] at h
  by_cases h7 : op = opCodeSeparator
  · rw [if_pos h7] at h; cases h; exact .inr rfl
  rw [if_neg h7] at h
  by_cases h8 : op = opCheckSig ∨ op = opCheckSigVerify
  · rw [if_pos h8] at h
    rcases stack with _ | ⟨a, _ | ⟨b, rest⟩⟩ <;> try cases h
    dsimp only at h
    split_ifs at h <;> cases h <;> exact .inl rfl
  rw [if_neg h8] at h
  cases h

/-- A step keeps `scriptPubKeyStart` inside the script. -/
lemma step_scriptPubKeyStart_le {s : Script} {tx : Transaction} {i : Int} {m m' : Machine}
    (hm : m.scriptPubKeyStart ≤ s.length) (h : step c s tx i m = .ok m') :
    m'.scriptPubKeyStart ≤ s.length := by
  obtain ⟨he, -⟩ := step_pc c h
  have hle := (parseNextOp_pc_of_err_none he).2
  rw [step_of_parse c rfl he] at h
  cases hx : execOp c s _ _ tx i _ m.scriptPubKeyStart m.stack with
  | error e => rw [hx] at h; cases h
  | ok r =>
    rw [hx] at h
    cases h
    dsimp only
    rcases execOp_scriptPubKeyStart c hx with h' | h' <;> omega

lemma checked_step_eq {s : Script} {tx : Transaction} {i : Int} {m : Machine}
    (hm : m.scriptPubKeyStart ≤ s.length) :
    Checked.step c s tx i m = (step c s tx i m).mapError .error := by
  unfold Checked.step step
  rw [checked_parseNextOp_eq, except_ok_bind]
  dsimp only
  cases (parseNextOp s m.pc).err with
  | some e => rfl
  | none =>
    rw [checked_execOp_eq c hm]
    cases execOp c s _ _ tx i _ m.scriptPubKeyStart m.stack <;> rfl

/-- With at least `len(s) - pc` rounds, the checked loop of `evaluate` ends, never panics, and
returns what the model's loop returns. -/
lemma checked_run_eq {s : Script} {tx : Transaction} {i : Int} :
    ∀ (rounds : Nat) (m : Machine), m.scriptPubKeyStart ≤ s.length → s.length - m.pc ≤ rounds →
      Checked.run c s tx i rounds m = (run c s tx i m).mapError .error
  | 0, m, _, hr => by rw [Checked.run, if_neg (by omega), run_of_le c (by omega)]; rfl
  | rounds + 1, m, hm, hr => by
    rw [Checked.run]
    split_ifs with hlt
    · rw [checked_step_eq c hm]
      cases hs : step c s tx i m with
      | error e => rw [run_of_step_error c hlt hs]; rfl
      | ok m' =>
        obtain ⟨he, hpc⟩ := step_pc c hs
        have := (parseNextOp_pc_of_err_none he).1
        rw [except_mapError_ok, except_ok_bind, run_of_step c hlt hs]
        exact checked_run_eq rounds m' (step_scriptPubKeyStart_le c hm hs) (by omega)
    · rw [run_of_le c (by omega)]; rfl

lemma checked_validateTop_eq (stack : List Operand) :
    Checked.validateTop stack = (validateTop stack).mapError .error := by
  rcases stack with _ | ⟨top, rest⟩
  · rfl
  · cases h : castToBool top <;> simp [Checked.validateTop, validateTop, h, pure, Except.pure]

/-! ### `disasm` -/

lemma disasm_of_err {s : Script} {pc : Nat} {e : ScriptErr} (h : pc < s.length)
    (he : (parseNextOp s pc).err = some e) : disasm s pc = [.error e] := by
  rw [disasm, if_pos h]
  split <;> simp_all

lemma disasm_of_parseNextOp {s : Script} {pc : Nat} (h : pc < s.length)
    (he : (parseNextOp s pc).err = none) :
    disasm s pc = disasmWord (parseNextOp s pc) :: disasm s (parseNextOp s pc).pc := by
  rw [disasm, if_pos h]
  split <;> simp_all

/-- With at least `len(s) - pc` rounds, the checked loop of `disasm` ends, never panics, and
returns the model's words. -/
lemma checked_disasm_eq {s : Script} :
    ∀ (rounds pc : Nat), s.length - pc ≤ rounds → Checked.disasm s rounds pc = .ok (disasm s pc)
  | 0, pc, hr => by rw [Checked.disasm, if_neg (by omega), disasm_of_le (by omega)]
  | rounds + 1, pc, hr => by
    rw [Checked.disasm]
    split_ifs with hlt
    · rw [checked_parseNextOp_eq, except_ok_bind]
      cases he : (parseNextOp s pc).err with
      | some e => rw [disasm_of_err hlt he]; rfl
      | none =>
        have := (parseNextOp_pc_of_err_none he).1
        rw [disasm_of_parseNextOp hlt he]
        dsimp only
        rw [checked_disasm_eq rounds _ (by omega)]
        rfl
    · rw [disasm_of_le (by omega)]

/-! ### `evaluate` -/

lemma checked_evaluate_eq (s : Script) (tx : Transaction) (i : Int) :
    Checked.evaluate c s tx i s.length = (evaluate c s tx i).mapError .error := by
  rw [Checked.evaluate, checked_disasm_eq s.length 0 (Nat.sub_le _ _), except_ok_bind,
    checked_run_eq c s.length Machine.init (Nat.zero_le _) (Nat.sub_le _ _), evaluate]
  cases run c s tx i Machine.init with
  | error e => rfl
  | ok m => exact checked_validateTop_eq m.stack

/-- On every script, transaction and input index, the decoder reads in range at every `pc`,
moves `pc` forward inside the script, and with `len(s)` rounds the loops of `disasm` and
`evaluate` end without a panic and return what the total model returns. -/
theorem evaluate_terminates_without_panic (s : Script) (tx : Transaction) (txInIdx : Int) :
    (∀ pc, Checked.parseNextOp s pc = .ok (parseNextOp s pc)) ∧
      (∀ pc < s.length, (parseNextOp s pc).err = none →
        pc < (parseNextOp s pc).pc ∧ (parseNextOp s pc).pc ≤ s.length) ∧
      Checked.disasm s s.length 0 = .ok (disasm s 0) ∧
      Checked.evaluate c s tx txInIdx s.length = (evaluate c s tx txInIdx).mapError .error :=
  ⟨checked_parseNextOp_eq s, fun _ _ he => parseNextOp_pc_of_err_none he,
    checked_disasm_eq s.length 0 (Nat.sub_le _ _), checked_evaluate_eq c s tx txInIdx⟩

end Boxd
