import Boxd.Script.Legacy

/-!
# The script `Builder`

The older `script.go` also has a `Builder`, after btcd's: `AddOp` appends an opcode and
`AddData` a push of its data, both doing nothing once an error is recorded.  The push the
internal `addData` chooses is the shortest: `OP_0` for no data and for the byte `0`,
`OP_1`…`OP_16` for one byte `1`…`16`, `OP_1NEGATE` for the byte `0x81`, and otherwise the push
header `AddOperand` writes, followed by the data.

Run by the legacy `Evaluate` of the same file, the instruction `AddData` appends pushes the
data, whatever script stands before and after it and whatever the stack (`run_addData`): `[0]`
is pushed as the empty operand, the same script number, and every other datum of at most
`0xffff` bytes as itself.  A script built from `NewBuilder` by `AddData` calls alone so
evaluates as the check of its last datum (`evaluate_buildData`).
-/

namespace Boxd

/-- `Builder`: the script built so far, and the error `Script()` returns with it.  No call of
the source records an error. -/
structure Builder where
  script : Script
  err : Option LegacyErr
  deriving DecidableEq, Repr

/-- `NewBuilder`: an empty script and no error; the capacity `defaultScriptAlloc` is not
observable. -/
def newBuilder : Builder := ⟨[], none⟩

/-- `AddOp`. -/
def Builder.addOp (b : Builder) (opcode : UInt8) : Builder :=
  if b.err.isSome then b else { b with script := b.script ++ [opcode] }

/-- The bytes the internal `addData` appends for `data`.  The last branch's header is the one
`AddOperand` writes (`pushPrefix`): the two functions share its four cases. -/
def addDataBytes (data : List UInt8) : List UInt8 :=
  if data.length = 0 ∨ data.length = 1 ∧ data.getD 0 0 = 0 then [op0]
  else if data.length = 1 ∧ data.getD 0 0 ≤ 16 then [op1 - 1 + data.getD 0 0]
  else if data.length = 1 ∧ data.getD 0 0 = 0x81 then [op1Negate]
  else pushPrefix data.length ++ data

/-- The internal `addData`, which appends whatever the error. -/
def addData (b : Builder) (data : List UInt8) : Builder :=
  { b with script := b.script ++ addDataBytes data }

/-- `AddData`. -/
def Builder.addData (b : Builder) (data : List UInt8) : Builder :=
  if b.err.isSome then b else Boxd.addData b data

/-- The script of `NewBuilder` followed by one `AddData` call per datum, in order. -/
def buildData (ds : List (List UInt8)) : Builder := ds.foldl Builder.addData newBuilder

/-- The operand the push `addData` writes for `data` leaves on the stack: `OP_0` pushes `[0]` as
the empty operand. -/
def pushedData (data : List UInt8) : Operand := if data = [0] then [] else data

/-! ### The instruction `addData` writes -/

/-- The script numbers of `OP_1`…`OP_16`. -/
lemma scriptNumBytes_small : ∀ n : Fin 17, n.val ≠ 0 → scriptNumBytes (n.val : Int) = [UInt8.ofNat n.val] := by
  decide

/-- The opcode `addData` writes for one byte `x` in `1…16` is a number push of `x`. -/
lemma smallInt_opCode {x : UInt8} (h0 : x ≠ 0) (h16 : x ≤ 16) :
    opPushData4 < op1 - 1 + x ∧ op1 - 1 + x ≤ op16 ∧ op1 - 1 + x ≠ opReserved ∧
      scriptNumBytes ((op1 - 1 + x).toNat - op1.toNat + 1 : Int) = [x] := by
  have hx : x.toNat ≤ 16 := h16
  have h0' : x.toNat ≠ 0 := fun h => h0 (UInt8.eq_of_val_eq (Fin.ext h))
  have ha : (op1 - 1 + x).toNat = 80 + x.toNat := by
    show (80 + x.toNat) % 256 = _
    omega
  have hn : ((op1 - 1 + x).toNat - op1.toNat + 1 : Int) = x.toNat := by
    rw [ha, show op1.toNat = 81 from rfl]; omega
  refine ⟨?_, ?_, ?_, ?_⟩
  · rw [uint8_lt_iff, ha]; simp only [opPushData4_toNat]; omega
  · rw [uint8_le_iff, ha]; show _ ≤ 96; omega
  · rw [Ne, uint8_eq_iff, ha]; show ¬_ = 80; omega
  · rw [hn]
    refine (scriptNumBytes_small ⟨x.toNat, by omega⟩ h0').trans ?_
    rw [(uint8_eq_iff (UInt8.ofNat x.toNat) x).2 (by rw [toNat_uint8_ofNat]; omega)]

/-- A push header's opcode is a push opcode. -/
lemma pushOp_le (n : Nat) : pushOp n ≤ opPushData4 := by
  unfold pushOp pushPrefix
  split_ifs with h
  · rw [uint8_le_iff, List.headD_cons, toNat_uint8_ofNat]
    simp only [opPushData1_toNat, opPushData4_toNat] at h ⊢
    omega
  all_goals rw [List.headD_cons]; decide

variable {Sig PubKey Hash : Type} (c : Crypto Sig PubKey Hash)

/-- `OP_1NEGATE` and `OP_1`…`OP_16` push their script number. -/
lemma execOp_number {s : Script} {op : UInt8} (h4 : opPushData4 < op) (h16 : op ≤ op16)
    (hr : op ≠ opReserved) (d : Operand) (tx : Transaction) (i : Int) (pc start : Nat) (stack : List Operand) :
    execOp c s op d tx i pc start stack =
      .ok (start, scriptNumBytes (op.toNat - op1.toNat + 1 : Int) :: stack) := by
  unfold execOp
  rw [if_neg (UInt8.not_le.2 h4), if_pos ⟨h16, hr⟩]

/-- What `addData` writes for data of at most `0xffff` bytes is one instruction, a push or a
number push, which pushes the data. -/
lemma addDataBytes_instr {data : List UInt8} (hd : data.length ≤ 0xffff) :
    ∃ op d, parseNextOp (addDataBytes data) 0 = ⟨op, d, (addDataBytes data).length, none⟩ ∧
      op ≤ op16 ∧ ∀ s tx i pc start stack,
        execOp c s op d tx i pc start stack = .ok (start, pushedData data :: stack) := by
  unfold addDataBytes
  by_cases h0 : data.length = 0 ∨ data.length = 1 ∧ data.getD 0 0 = 0
  · -- `OP_0`
    have hp : pushedData data = [] := by
      rcases data with _ | ⟨x, _ | ⟨y, rest⟩⟩ <;> simp_all [pushedData]
    rw [if_pos h0, hp]
    exact ⟨op0, [], by decide, by decide, fun s tx i pc start stack => execOp_push c (by decide) _ _ _ _ _ _⟩
  rw [if_neg h0]
  rcases data with _ | ⟨x, _ | ⟨y, rest⟩⟩
  · exact absurd (.inl rfl) h0
  · have hx0 : x ≠ 0 := fun hx => h0 (.inr ⟨rfl, hx⟩)
    have hp : pushedData [x] = [x] := if_neg fun h => hx0 (List.singleton_inj.1 h)
    by_cases h1 : x ≤ 16
    · -- `OP_1`…`OP_16`
      obtain ⟨h4, h16, hr, hn⟩ := smallInt_opCode hx0 h1
      rw [if_pos ⟨rfl, h1⟩, hp]
      exact ⟨_, [], parseNextOp_opCode h4 [], h16, fun s tx i pc start stack => by
        rw [execOp_number c h4 h16 hr, hn]⟩
    by_cases h2 : x = 0x81
    · -- `OP_1NEGATE`
      subst h2
      rw [if_neg (fun h => h1 h.2), if_pos ⟨rfl, rfl⟩, hp]
      exact ⟨_, [], parseNextOp_opCode (by decide) [], by decide, fun s tx i pc start stack => by
        rw [execOp_number c (by decide) (by decide) (by decide)]; rfl⟩
    · rw [if_neg (fun h => h1 h.2), if_neg (fun h => h2 h.2), hp]
      exact ⟨_, _, parseNextOp_addOperand hd, UInt8.le_trans (pushOp_le _) (by decide), fun s tx i pc start stack =>
        execOp_push c (pushOp_le _) _ _ _ _ _ _⟩
  · have hp : pushedData (x :: y :: rest) = x :: y :: rest := if_neg (by simp)
    rw [if_neg (by simp), if_neg (by simp), hp]
    exact ⟨_, _, parseNextOp_addOperand hd, UInt8.le_trans (pushOp_le _) (by decide), fun s tx i pc start stack =>
      execOp_push c (pushOp_le _) _ _ _ _ _ _⟩

/-! ### Running what the builder wrote -/

/-- Run by the legacy `Evaluate`'s loop, the instruction `addData` writes, between any script
before and any after, pushes the data and moves past it. -/
lemma run_addData {data : List UInt8} (hd : data.length ≤ 0xffff) (p t : Script) (tx : Transaction)
    (i : Int) (sps : Nat) (stack : List Operand) (cache : Option Hash) :
    Legacy.run c (p ++ addDataBytes data ++ t) tx i (⟨p.length, sps, stack⟩, cache) =
      Legacy.run c (p ++ addDataBytes data ++ t) tx i
        (⟨(p ++ addDataBytes data).length, sps, pushedData data :: stack⟩, cache) := by
  obtain ⟨op, d, hp, h16, hx⟩ := addDataBytes_instr c hd
  have hr := parseNextOp_append_left p (addDataBytes data ++ t) 0
  rw [Nat.add_zero, parseNextOp_append_right t (by rw [hp]), hp] at hr
  rw [List.append_assoc, List.length_append]
  refine Legacy.run_step c hr (fun h => ?_) (hx _ _ _ _ _ _)
  rcases h with rfl | rfl <;> exact absurd h16 (by decide)

/-- The script after `AddData` calls from a builder without error: their pushes, in order. -/
lemma foldl_addData (p : Script) (ds : List (List UInt8)) :
    ds.foldl Builder.addData ⟨p, none⟩ = ⟨p ++ (ds.map addDataBytes).flatten, none⟩ := by
  induction ds generalizing p with
  | nil => simp
  | cons d ds ih => simp [Builder.addData, Boxd.addData, ih]

/-- The loop over a run of `addData` pushes leaves the data on the stack, the last on top. -/
lemma run_addDatas (tx : Transaction) (i : Int) (sps : Nat) (cache : Option Hash) :
    ∀ (ds : List (List UInt8)), (∀ d ∈ ds, d.length ≤ 0xffff) → ∀ (p : Script) (stack : List Operand),
      Legacy.run c (p ++ (ds.map addDataBytes).flatten) tx i (⟨p.length, sps, stack⟩, cache) =
        .ok (⟨(p ++ (ds.map addDataBytes).flatten).length, sps, (ds.map pushedData).reverse ++ stack⟩, cache)
  | [], _, p, stack => by simpa using Legacy.run_of_le c (le_refl _)
  | d :: ds, hds, p, stack => by
    have h := run_addData c (hds d (List.mem_cons_self _ _)) p ((ds.map addDataBytes).flatten) tx i sps stack cache
    simp only [List.map_cons, List.flatten_cons, ← List.append_assoc] at h ⊢
    rw [h, run_addDatas tx i sps cache ds (fun d' h' => hds d' (List.mem_cons_of_mem _ h'))]
    simp

/-- A script built from `NewBuilder` by `AddData` calls alone, each datum of at most `0xffff`
bytes, evaluates as the final check of the legacy `Evaluate` on the data pushed, the last on
top: whatever the transaction and its cached hash, it is accepted exactly when its last datum
is true. -/
theorem evaluate_buildData (ds : List (List UInt8)) (hds : ∀ d ∈ ds, d.length ≤ 0xffff)
    (tx : Transaction) (cache : Option Hash) (i : Int) :
    Legacy.evaluate c (buildData ds).script tx cache i =
      (validateTop (ds.map pushedData).reverse).mapError .helper := by
  have h := run_addDatas c tx i 0 cache ds hds [] []
  simp only [List.nil_append, List.length_nil, List.append_nil] at h
  rw [buildData, newBuilder, foldl_addData, Legacy.evaluate]
  simp only [List.nil_append, Machine.init, h]
  rfl

/-- The script `OP_0 OP_1` built from the data `[0]` and `[1]` is accepted. -/
theorem evaluate_buildData_zeroOne :
    (∀ d ∈ ([[0], [1]] : List (List UInt8)), d.length ≤ 0xffff) ∧
      Legacy.evaluate listingCrypto (buildData [[0], [1]]).script ⟨1, [], [], 0⟩ none 0 = .ok () :=
  have hds : ∀ d ∈ ([[0], [1]] : List (List UInt8)), d.length ≤ 0xffff := by decide
  ⟨hds, (evaluate_buildData listingCrypto _ hds _ none 0).trans rfl⟩

end Boxd
