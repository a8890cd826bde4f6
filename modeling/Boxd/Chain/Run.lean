import Boxd.Chain.Engine

/-!
# Runs of the node

The node's loop hands each block message to `ProcessBlock`, and the consensus module calls
`SetEternal`; an error ends the call, not the node.  A run is a list of such calls.

`numberedEnv` is an environment whose blocks are numbers, each its own hash, with the parent,
the height and the verdict of `validateBlockScripts` read from tables; every other collaborator
succeeds, and the UTXO namespace records the connected blocks, the last first.
-/

namespace Boxd

variable {Block Hash Tx Utxos UtxoSet Filter : Type} [DecidableEq Hash]

/-- The chain a method leaves, whether it returned a value or an error. -/
def resultState {σ α : Type} : EStateM.Result ChainErr σ α → σ
  | .ok _ s => s
  | .error _ s => s

/-- The value a method returned, `none` for an error. -/
def resultValue {σ α : Type} : EStateM.Result ChainErr σ α → Option α
  | .ok a _ => some a
  | .error _ _ => none

/-- The error a method returned, `none` for a value. -/
def resultError {σ α : Type} : EStateM.Result ChainErr σ α → Option ChainErr
  | .ok _ _ => none
  | .error e _ => some e

@[simp] lemma resultState_ok {σ α : Type} (a : α) (s : σ) :
    resultState (EStateM.Result.ok a s : EStateM.Result ChainErr σ α) = s := rfl

@[simp] lemma resultState_error {σ α : Type} (e : ChainErr) (s : σ) :
    resultState (EStateM.Result.error e s : EStateM.Result ChainErr σ α) = s := rfl

/-! ### Reading a method -/

section Reading

variable {σ α β : Type}

@[simp] lemma get_bind_apply (f : σ → EStateM ChainErr σ α) (s : σ) : (get >>= f) s = f s s := rfl

@[simp] lemma modify_apply (g : σ → σ) (s : σ) :
    (modify g : EStateM ChainErr σ Unit) s = .ok () (g s) := rfl

@[simp] lemma modify_bind_apply (g : σ → σ) (f : Unit → EStateM ChainErr σ α) (s : σ) :
    (modify g >>= f) s = f () (g s) := rfl

@[simp] lemma set_bind_apply (s' : σ) (f : Unit → EStateM ChainErr σ α) (s : σ) :
    (set s' >>= f) s = f () s' := rfl

@[simp] lemma pure_apply (a : α) (s : σ) : (pure a : EStateM ChainErr σ α) s = .ok a s := rfl

@[simp] lemma pure_bind_apply (a : α) (f : α → EStateM ChainErr σ β) (s : σ) :
    (pure a >>= f) s = f a s := rfl

lemma bind_apply_of_ok {x : EStateM ChainErr σ α} {f : α → EStateM ChainErr σ β} {s s' : σ} {a : α}
    (h : x s = .ok a s') : (x >>= f) s = f a s' := by
  show EStateM.bind x f s = _
  simp only [EStateM.bind, h]

lemma bind_apply_of_error {x : EStateM ChainErr σ α} {f : α → EStateM ChainErr σ β} {s s' : σ}
    {e : ChainErr} (h : x s = .error e s') : (x >>= f) s = .error e s' := by
  show EStateM.bind x f s = _
  simp only [EStateM.bind, h]

lemma bind_eq_ok {x : EStateM ChainErr σ α} {f : α → EStateM ChainErr σ β} {s s' : σ} {b : β}
    (h : (x >>= f) s = .ok b s') : ∃ a s₁, x s = .ok a s₁ ∧ f a s₁ = .ok b s' := by
  revert h
  show EStateM.bind x f s = _ → _
  unfold EStateM.bind
  cases x s with
  | ok a s₁ => exact fun h => ⟨a, s₁, rfl, h⟩
  | error e s₁ => intro h; cases h

end Reading

omit [DecidableEq Hash] in
@[simp] lemma fail_apply {α : Type} (e : ChainErr) (s : BlockChain Block Hash Utxos Filter) :
    (fail e : ChainM Block Hash Utxos Filter α) s = .error e s := rfl

omit [DecidableEq Hash] in
@[simp] lemma liftExcept_ok {α : Type} (a : α) (s : BlockChain Block Hash Utxos Filter) :
    (liftExcept (.ok a) : ChainM Block Hash Utxos Filter α) s = .ok a s := rfl

omit [DecidableEq Hash] in
@[simp] lemma liftExcept_error {α : Type} (e : ChainErr) (s : BlockChain Block Hash Utxos Filter) :
    (liftExcept (.error e) : ChainM Block Hash Utxos Filter α) s = .error e s := rfl

omit [DecidableEq Hash] in
@[simp] lemma liftExcept_ok_bind_apply {α β : Type} (a : α) (f : α → ChainM Block Hash Utxos Filter β)
    (s : BlockChain Block Hash Utxos Filter) : (liftExcept (.ok a) >>= f) s = f a s := rfl

omit [DecidableEq Hash] in
lemma liftExcept_eq_ok {α : Type} {r : Except ChainErr α} {a : α} {s s' : BlockChain Block Hash Utxos Filter}
    (h : (liftExcept r : ChainM Block Hash Utxos Filter α) s = .ok a s') : r = .ok a ∧ s' = s := by
  cases r <;> cases h; exact ⟨rfl, rfl⟩

/-- A call on the chain: a block message, or the consensus module fixing an eternal block. -/
inductive Call (Block : Type)
  | processBlock (block : Block) (messageFrom : String)
  | setEternal (block : Block)

variable (E : Env Block Hash Tx Utxos UtxoSet Filter)

/-- The method a call runs. -/
def Call.exec : Call Block → ChainM Block Hash Utxos Filter Unit
  | .processBlock block messageFrom => Boxd.processBlock E block messageFrom
  | .setEternal block => Boxd.setEternal E block

/-- A run: the calls one after the other, each on the chain the last one left. -/
def runCalls : BlockChain Block Hash Utxos Filter → List (Call Block) → BlockChain Block Hash Utxos Filter
  | s, [] => s
  | s, c :: cs => runCalls (resultState (c.exec E s)) cs

/-- Every call of the run returns `nil`. -/
def runCallsOk : BlockChain Block Hash Utxos Filter → List (Call Block) → Bool
  | _, [] => true
  | s, c :: cs =>
    match c.exec E s with
    | .ok () s' => runCallsOk s' cs
    | .error _ _ => false

@[simp] lemma runCalls_nil (s : BlockChain Block Hash Utxos Filter) : runCalls E s [] = s := rfl

@[simp] lemma runCalls_cons (s : BlockChain Block Hash Utxos Filter) (c : Call Block) (cs : List (Call Block)) :
    runCalls E s (c :: cs) = runCalls E (resultState (c.exec E s)) cs := rfl

/-- `runCallsOk` through `resultState`, the form `runCalls` takes: a concrete run then evaluates
each chain once. -/
lemma runCallsOk_cons (s : BlockChain Block Hash Utxos Filter) (c : Call Block) (cs : List (Call Block)) :
    runCallsOk E s (c :: cs) =
      ((resultValue (c.exec E s)).isSome && runCallsOk E (resultState (c.exec E s)) cs) := by
  simp only [runCallsOk]
  cases c.exec E s <;> rfl

lemma runCalls_append (s : BlockChain Block Hash Utxos Filter) (l₁ l₂ : List (Call Block)) :
    runCalls E s (l₁ ++ l₂) = runCalls E (runCalls E s l₁) l₂ := by
  induction l₁ generalizing s with
  | nil => rfl
  | cons c l ih => exact ih _

lemma runCallsOk_append (s : BlockChain Block Hash Utxos Filter) (l₁ l₂ : List (Call Block)) :
    runCallsOk E s (l₁ ++ l₂) = (runCallsOk E s l₁ && runCallsOk E (runCalls E s l₁) l₂) := by
  induction l₁ generalizing s with
  | nil => rfl
  | cons c l ih =>
    simp only [List.cons_append, runCallsOk, runCalls_cons]
    cases c.exec E s with
    | ok _ s' => exact ih s'
    | error _ _ => rfl

/-! ### Numbered blocks -/

/-- Blocks `0, 1, 2, …`, each its own hash, with block `0` the genesis block; `parent` and
`height` give the header fields and `scriptsBad` the blocks `validateBlockScripts` rejects.  The
only transaction of block `n` is `n + 1000`, its own hash, with one output of `50`.  Connecting a
block pushes its number on the UTXO namespace and reverting it pops the number again. -/
def numberedEnv (parent : Nat → Nat) (height : Nat → UInt32) (scriptsBad : Nat → Bool) :
    Env Nat Nat Nat (List Nat) (List Nat) Unit where
  blockHash b := b
  prevBlockHash := parent
  height b := if b = 0 then 0 else height b
  timeStamp b := b
  txs b := [b + 1000]
  txHash tx := .ok tx
  voutValues _ := [50]
  genesis := 0
  genesis_height := rfl
  verifySign _ := true
  verifyMinerEpoch _ := .ok ()
  storeCandidateContext _ := .ok ()
  validateBlock _ := .ok ()
  activeLightSync _ := .ok ()
  loadBlockUtxos _ utxos := .ok utxos
  validateBlockScripts _ b := if scriptsBad b then .error (.external 1) else .ok ()
  validateTxInputs _ _ _ := .ok 0
  calcBlockSubsidy _ := 50
  utxoSetApplyBlock utxoSet b := .ok (b :: utxoSet)
  utxoSetRevertBlock utxoSet b :=
    match utxoSet with
    | b' :: utxoSet => if b' = b then .ok utxoSet else .error (.external 2)
    | [] => .error (.external 2)
  writeUtxoSetToDB utxoSet _ := .ok utxoSet
  getFilterForTransactionScript _ _ := ()

/-- The blocks of the fork scenarios: `1` (`A1`) and `2` (`B1`) are children of the genesis
block at height 1, and `3` (`B2`) is the child of `2` at height 2. -/
def forkParent : Nat → Nat
  | 3 => 2
  | _ => 0

/-- Heights of the fork scenarios. -/
def forkHeight : Nat → UInt32
  | 3 => 2
  | _ => 1

/-- The fork scenario with every block valid: `1` (`A1`) extends the genesis block, `2` (`B1`)
forks from the genesis block at height 1 and `3` (`B2`) extends `2`, which makes the side
chain longer. -/
def forkEnv : Env Nat Nat Nat (List Nat) (List Nat) Unit :=
  numberedEnv forkParent forkHeight fun _ => false

/-- Every call of the fork scenario `A1`, `B1`, `B2` returns `nil`. -/
lemma runCallsOk_fork :
    runCallsOk forkEnv (.init forkEnv []) [.processBlock 1 "", .processBlock 2 "", .processBlock 3 ""] = true := by
  simp only [runCallsOk_cons]; decide

/-- The fork scenario ends below the top `uint32` height. -/
lemma runCalls_fork_longestChainHeight :
    (runCalls forkEnv (.init forkEnv [])
      [.processBlock 1 "", .processBlock 2 "", .processBlock 3 ""]).longestChainHeight ≠ 0xffffffff := by
  decide

end Boxd
