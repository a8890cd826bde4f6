import Boxd.Script.Basic

/-!
# The decode loop and the encoding law of the builder

`disasm` and `evaluate` walk a script with `parseNextOp` from `pc = 0` until `pc` reaches the
end.  `parseOps` is that walk without the execution.  A script built from `NewScript()` by
`AddOpCode` and `AddOperand` calls decodes back into the calls' items
(`parseOps_buildScript`) as long as every operand has at most `0xffff` bytes; past that the
`OP_PUSHDATA4` length is read from its two low bytes only (`parseOps_buildScript_pushData4`).
-/

namespace Boxd

/-- The decode loop of `disasm` and `evaluate`: `parseNextOp` from `pc` to the end of the
script, collecting opcode and operand; the first decode error ends the loop. -/
def parseOps (s : Script) (pc : Nat) : Except ScriptErr (List (UInt8 × Operand)) :=
  if pc < s.length then
    match _h : (parseNextOp s pc).err with
    | some e => .error e
    | none =>
      (((parseNextOp s pc).opCode, (parseNextOp s pc).operand) :: ·) <$>
        parseOps s (parseNextOp s pc).pc
  else .ok []
termination_by s.length - pc
decreasing_by have := (parseNextOp_pc_of_err_none _h).1; omega

lemma parseOps_of_le {s : Script} {pc : Nat} (h : s.length ≤ pc) : parseOps s pc = .ok [] := by
  rw [parseOps, if_neg (by omega)]

lemma parseOps_of_err {s : Script} {pc : Nat} {e : ScriptErr} (h : pc < s.length)
    (he : (parseNextOp s pc).err = some e) : parseOps s pc = .error e := by
  rw [parseOps, if_pos h]
  split <;> simp_all

lemma parseOps_of_parseNextOp {s : Script} {pc : Nat} {r : Parsed} (hr : parseNextOp s pc = r)
    (he : r.err = none) : parseOps s pc = ((r.opCode, r.operand) :: ·) <$> parseOps s r.pc := by
  have hpc := parseNextOp_pc_of_err_none (hr ▸ he : (parseNextOp s pc).err = none)
  rw [parseOps, if_pos (by omega)]
  subst hr
  split <;> simp_all

/-- The decode loop on the second part of a concatenation is the loop on that part alone. -/
lemma parseOps_append_left (p s : Script) (pc : Nat) :
    parseOps (p ++ s) (p.length + pc) = parseOps s pc := by
  induction pc using parseOps.induct s with
  | case1 pc hlt e he =>
    rw [parseOps_of_err hlt he, parseOps_of_err (by simp; omega)]
    simpa [parseNextOp_append_left, Parsed.shift] using he
  | case2 pc hlt he ih =>
    rw [parseOps_of_parseNextOp (parseNextOp_append_left p s pc) (by simpa [Parsed.shift]),
      parseOps_of_parseNextOp rfl he]
    simp only [Parsed.shift, ih]
  | case3 pc hge => rw [parseOps_of_le (by simp; omega), parseOps_of_le (by omega)]

/-! ### Scripts built item by item -/

/-- One call of the builder: `AddOpCode(op)` or `AddOperand(d)`. -/
inductive ScriptItem
  | opCode (op : UInt8)
  | operand (d : Operand)

/-- The builder call of an item. -/
def ScriptItem.add (s : Script) : ScriptItem → Script
  | .opCode op => addOpCode s op
  | .operand d => addOperand s d

/-- The script built from `NewScript()` by one builder call per item, in order. -/
def buildScript (L : List ScriptItem) : Script := L.foldl ScriptItem.add newScript

/-- What decoding an item should give back: the opcode alone, or the push opcode with the
operand. -/
def ScriptItem.decoded : ScriptItem → UInt8 × Operand
  | .opCode op => (op, [])
  | .operand d => (pushOp d.length, d)

/-- The items the round trip is stated for: opcodes above `OP_PUSHDATA4`, operands of at most
`0xffff` bytes. -/
def ScriptItem.Valid16 : ScriptItem → Prop
  | .opCode op => opPushData4 < op
  | .operand d => d.length ≤ 0xffff

lemma ScriptItem.add_eq (s : Script) (it : ScriptItem) : it.add s = s ++ it.add [] := by
  cases it <;> simp [ScriptItem.add, addOpCode, addOperand]

lemma foldl_add (s : Script) (L : List ScriptItem) :
    L.foldl ScriptItem.add s = s ++ L.foldl ScriptItem.add [] := by
  induction L generalizing s with
  | nil => simp
  | cons it L ih => rw [List.foldl_cons, List.foldl_cons, ih, ih (it.add []), it.add_eq s]; simp

lemma buildScript_cons (it : ScriptItem) (L : List ScriptItem) :
    buildScript (it :: L) = it.add [] ++ buildScript L := by
  simp only [buildScript, List.foldl_cons, newScript]
  exact foldl_add _ L

lemma parseNextOp_item {it : ScriptItem} (h : it.Valid16) :
    parseNextOp (it.add []) 0 = ⟨it.decoded.1, it.decoded.2, (it.add []).length, none⟩ := by
  cases it with
  | opCode op => exact parseNextOp_opCode h []
  | operand d => exact parseNextOp_addOperand h

/-- The encoding law of the builder, for opcodes above `OP_PUSHDATA4` and operands of at most
`0xffff` bytes: the decode loop returns exactly the items, and ends at the script's end. -/
theorem parseOps_buildScript {L : List ScriptItem} (hL : ∀ it ∈ L, it.Valid16) :
    parseOps (buildScript L) 0 = .ok (L.map ScriptItem.decoded) := by
  induction L with
  | nil => exact parseOps_of_le (Nat.zero_le _)
  | cons it L ih =>
    have hit := parseNextOp_item (hL it (List.mem_cons_self _ _))
    rw [buildScript_cons, parseOps_of_parseNextOp
      ((parseNextOp_append_right _ (by rw [hit])).trans hit) rfl]
    have := parseOps_append_left (it.add []) (buildScript L) 0
    rw [Nat.add_zero] at this
    rw [this, ih fun it' h => hL it' (List.mem_cons_of_mem _ h)]
    rfl

/-- `OP_DUP` and a one-byte push decode as themselves. -/
theorem parseOps_buildScript_dupPush :
    (∀ it ∈ [ScriptItem.opCode opDup, .operand [7]], it.Valid16) ∧
      parseOps (buildScript [.opCode opDup, .operand [7]]) 0 =
        .ok ([ScriptItem.opCode opDup, .operand [7]].map ScriptItem.decoded) :=
  have hL : ∀ it ∈ [ScriptItem.opCode opDup, .operand [7]], it.Valid16 := fun it hit => by
    rcases List.mem_cons.1 hit with rfl | hit
    · show opPushData4 < opDup; decide
    · rw [List.mem_singleton.1 hit]; show [7].length ≤ 0xffff; decide
  ⟨hL, parseOps_buildScript hL⟩

/-- A run of zero bytes decodes as that many empty pushes. -/
lemma parseOps_replicate_zero (n : Nat) :
    parseOps (List.replicate n 0) 0 = .ok (List.replicate n (op0, [])) := by
  induction n with
  | zero => exact parseOps_of_le (Nat.zero_le _)
  | succ n ih =>
    have h0 : parseNextOp [0] 0 = ⟨0, [], 1, none⟩ := by decide
    rw [List.replicate_succ, ← List.singleton_append,
      parseOps_of_parseNextOp ((parseNextOp_append_right _ (by rw [h0])).trans h0) rfl]
    have := parseOps_append_left [0] (List.replicate n 0) 0
    rw [Nat.add_zero, List.length_singleton] at this
    rw [this, ih]
    rfl

/-- An operand of `n > 0xffff` zero bytes: the decoder reads an `OP_PUSHDATA4` whose operand
is the first `n % 65536` bytes, then every remaining byte as an empty push of its own. -/
lemma parseOps_addOperand_zeros {n : Nat} (hn : 0xffff < n) :
    parseOps (addOperand newScript (List.replicate n 0)) 0 =
      .ok ((opPushData4, List.replicate (n % 65536) 0) :: List.replicate (n - n % 65536) (op0, [])) := by
  have h := parseNextOp_addOperand_pushData4 (d := List.replicate n 0) (by simpa using hn)
  rw [List.length_replicate, List.take_replicate, Nat.min_eq_left (Nat.mod_le n 65536)] at h
  have hsplit : addOperand newScript (List.replicate n 0) = (newScript ++ pushPrefix n ++
      List.replicate (n % 65536) 0) ++ List.replicate (n - n % 65536) 0 := by
    rw [addOperand, List.length_replicate, List.append_assoc, List.append_assoc,
      List.append_assoc, List.append_replicate_replicate, Nat.add_sub_cancel' (Nat.mod_le n 65536)]
  have hp : (newScript ++ pushPrefix n ++ List.replicate (n % 65536) 0).length = 5 + n % 65536 := by
    simp [newScript, pushPrefix, putUint32, show ¬n < 76 by omega, show ¬n ≤ 255 by omega,
      show ¬n ≤ 65535 by omega]
    omega
  have := parseOps_append_left (newScript ++ pushPrefix n ++ List.replicate (n % 65536) 0)
    (List.replicate (n - n % 65536) 0) 0
  rw [Nat.add_zero, hp, parseOps_replicate_zero, ← hsplit] at this
  rw [parseOps_of_parseNextOp h rfl, this]
  rfl

lemma buildScript_operand (d : Operand) :
    buildScript [.operand d] = addOperand newScript d := rfl

/-- An operand of `65536` zero bytes: the decoder reads an `OP_PUSHDATA4` with an empty
operand and then the operand's bytes as `65536` separate empty pushes. -/
theorem parseOps_buildScript_pushData4 :
    parseOps (buildScript [.operand (List.replicate 65536 0)]) 0 =
      .ok ((opPushData4, []) :: List.replicate 65536 (op0, [])) := by
  have h := parseOps_addOperand_zeros (n := 65536) (by decide)
  rw [Nat.mod_self, Nat.sub_zero, List.replicate_zero] at h
  rw [buildScript_operand]
  exact h

end Boxd
