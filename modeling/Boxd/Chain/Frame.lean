import Boxd.Chain.Run

/-!
# What a failed `tryAcceptBlock` leaves behind

`tryAcceptBlock` puts the block into the cache before it validates it, and `applyBlock` flushes
the UTXO overlay and stores the block before its filter, candidate context and transaction
index are written; `reorganize` may fail after it reverted blocks.  So a failed call can leave
the cache, the store and the filter holder changed (`tryAcceptBlock_error_changes_cache_store`).

What it cannot change is the tail: `SetTailBlock` is the last step of both paths that reach it
and cannot fail, and nothing else on the way writes the tail, `LongestChainHeight`, the eternal
block, the orphan pool or the height and mint caches (`tryAcceptBlock_error_keeps_tail`).

`Keeps p x` says that `x`, whatever it returns, leaves the projection `p` of the chain as it
found it; the lemmas below build it along the `do` blocks of the model.
-/

namespace Boxd

section Keeps

variable {σ γ α β : Type}

/-- `x` keeps the property `P` of the state, whether it returns a value or an error. -/
def Preserves (P : σ → Prop) (x : EStateM ChainErr σ α) : Prop := ∀ s, P s → P (resultState (x s))

/-- `x` leaves `p` of the state unchanged, whether it returns a value or an error. -/
def Keeps (p : σ → γ) (x : EStateM ChainErr σ α) : Prop := ∀ s, p (resultState (x s)) = p s

/-- `x` leaves `p` of the state unchanged whenever it returns an error. -/
def KeepsOnError (p : σ → γ) (x : EStateM ChainErr σ α) : Prop :=
  ∀ s e s', x s = .error e s' → p s' = p s

variable {P : σ → Prop} {p : σ → γ}

/-- A property that `x` leaves in place from `s` and every `f a` keeps holds after `x >>= f`. -/
lemma resultState_bind_of {x : EStateM ChainErr σ α} {f : α → EStateM ChainErr σ β} {s : σ}
    (h : P (resultState (x s))) (hf : ∀ a, Preserves P (f a)) : P (resultState ((x >>= f) s)) := by
  show P (resultState (EStateM.bind x f s))
  unfold EStateM.bind
  revert h
  cases x s with
  | ok a s' => exact hf a s'
  | error e s' => exact id

lemma preserves_bind {x : EStateM ChainErr σ α} {f : α → EStateM ChainErr σ β}
    (hx : Preserves P x) (hf : ∀ a, Preserves P (f a)) : Preserves P (x >>= f) :=
  fun s hs => resultState_bind_of (hx s hs) hf

lemma preserves_pure (a : α) : Preserves P (pure a : EStateM ChainErr σ α) := fun _ h => h

lemma preserves_modify {f : σ → σ} (h : ∀ s, P s → P (f s)) :
    Preserves P (modify f : EStateM ChainErr σ Unit) := h

lemma Keeps.preserves {x : EStateM ChainErr σ α} (hx : Keeps p x)
    (hP : ∀ s s', p s' = p s → P s → P s') : Preserves P x :=
  fun s hs => hP s _ (hx s) hs

lemma Keeps.preservesEq {x : EStateM ChainErr σ α} (hx : Keeps p x) (c : γ) :
    Preserves (fun s => p s = c) x :=
  hx.preserves fun _ _ h h' => h.trans h'

lemma keeps_of_preserves {x : EStateM ChainErr σ α} (h : ∀ c, Preserves (fun s => p s = c) x) :
    Keeps p x :=
  fun s => h (p s) s rfl

lemma keeps_bind {x : EStateM ChainErr σ α} {f : α → EStateM ChainErr σ β}
    (hx : Keeps p x) (hf : ∀ a, Keeps p (f a)) : Keeps p (x >>= f) :=
  keeps_of_preserves fun c => preserves_bind (hx.preservesEq c) fun a => (hf a).preservesEq c

lemma keeps_pure (a : α) : Keeps p (pure a : EStateM ChainErr σ α) := fun _ => rfl

lemma keeps_get : Keeps p (get : EStateM ChainErr σ σ) := fun _ => rfl

lemma keeps_modify {f : σ → σ} (h : ∀ s, p (f s) = p s) :
    Keeps p (modify f : EStateM ChainErr σ Unit) := h

lemma Keeps.onError {x : EStateM ChainErr σ α} (hx : Keeps p x) : KeepsOnError p x :=
  fun s e s' h => by simpa [h] using hx s

lemma keepsOnError_bind {x : EStateM ChainErr σ α} {f : α → EStateM ChainErr σ β}
    (hx : Keeps p x) (hf : ∀ a, KeepsOnError p (f a)) : KeepsOnError p (x >>= f) := by
  intro s e s'
  have hs := hx s
  show EStateM.bind x f s = _ → _
  unfold EStateM.bind
  revert hs
  cases x s with
  | ok a s₁ => exact fun hs h => (hf a s₁ e s' h).trans hs
  | error e₁ s₁ => intro hs h; cases h; exact hs

lemma keepsOnError_modify (f : σ → σ) : KeepsOnError p (modify f : EStateM ChainErr σ Unit) :=
  fun _ _ _ h => nomatch h

end Keeps

variable {Block Hash Tx Utxos UtxoSet Filter : Type} [DecidableEq Hash]

section Keeps

variable {γ α : Type} {p : BlockChain Block Hash Utxos Filter → γ}

omit [DecidableEq Hash] in
lemma keeps_fail (e : ChainErr) : Keeps p (fail e : ChainM Block Hash Utxos Filter α) :=
  fun _ => rfl

omit [DecidableEq Hash] in
lemma keeps_liftExcept (r : Except ChainErr α) :
    Keeps p (liftExcept r : ChainM Block Hash Utxos Filter α) := by
  cases r <;> exact fun _ => rfl

variable {P : BlockChain Block Hash Utxos Filter → Prop}

omit [DecidableEq Hash] in
lemma preserves_get : Preserves P (get : ChainM Block Hash Utxos Filter _) := fun _ h => h

omit [DecidableEq Hash] in
lemma preserves_fail (e : ChainErr) : Preserves P (fail e : ChainM Block Hash Utxos Filter α) :=
  fun _ h => h

omit [DecidableEq Hash] in
lemma preserves_liftExcept (r : Except ChainErr α) :
    Preserves P (liftExcept r : ChainM Block Hash Utxos Filter α) := by
  cases r <;> exact fun _ h => h

end Keeps

/-! ### The walks of `findFork` and the loops of `reorganize` -/

section Walks

variable (E : Env Block Hash Tx Utxos UtxoSet Filter) {P : BlockChain Block Hash Utxos Filter → Prop}

/-- The walks of `findFork` only look parents up: what every lookup keeps, they keep. -/
lemma preserves_findForkSide (hP : ∀ x, Preserves P (getParentBlock E x)) (n : Nat)
    (side : Option Block) (attachBlocks : List Block) : Preserves P (findForkSide E n side attachBlocks) := by
  induction n generalizing side attachBlocks with
  | zero => exact preserves_pure _
  | succ n ih =>
    cases side with
    | none => exact preserves_fail _
    | some side => exact preserves_bind (hP side) fun _ => ih _ _

lemma preserves_findForkMain (hP : ∀ x, Preserves P (getParentBlock E x)) (fuel : Nat)
    (main side : Option Block) (detachBlocks attachBlocks : List Block) :
    Preserves P (findForkMain E fuel main side detachBlocks attachBlocks) := by
  induction fuel generalizing main side detachBlocks attachBlocks with
  | zero => exact preserves_pure _
  | succ fuel ih =>
    rcases main with _ | main
    · exact preserves_pure _
    rcases side with _ | side
    · exact preserves_pure _
    unfold findForkMain
    split_ifs
    · exact preserves_fail _
    · exact preserves_pure _
    · exact preserves_bind (hP main) fun _ => preserves_bind (hP side) fun _ => ih _ _ _ _

lemma preserves_findFork (hP : ∀ x, Preserves P (getParentBlock E x)) (block : Block) :
    Preserves P (findFork E block) := by
  refine preserves_bind preserves_get fun s => ?_
  split_ifs
  · exact preserves_fail _
  refine preserves_bind (preserves_findForkSide E hP _ _ _) fun _ =>
    preserves_bind (preserves_findForkMain E hP _ _ _ _ _) ?_
  rintro ⟨_ | _, _, _⟩
  · exact preserves_fail _
  · dsimp only
    split_ifs
    · exact preserves_fail _
    · exact preserves_pure _

lemma preserves_revertBlocks (hP : ∀ b, Preserves P (revertBlock E b)) (blocks : List Block) :
    Preserves P (revertBlocks E blocks) := by
  induction blocks with
  | nil => exact preserves_pure _
  | cons block blocks ih => exact preserves_bind (hP block) fun _ => ih

lemma preserves_applyBlocks (blocks : List Block) (hP : ∀ b ∈ blocks, Preserves P (applyBlock E b none)) :
    Preserves P (applyBlocks E blocks) := by
  induction blocks with
  | nil => exact preserves_pure _
  | cons block blocks ih =>
    exact preserves_bind (hP block (List.mem_cons_self _ _)) fun _ =>
      ih fun b hb => hP b (List.mem_cons_of_mem _ hb)

end Walks

/-! ### The tail part of the chain -/

/-- The fields that only `SetTailBlock`, `SetEternal` and the orphan-pool code write. -/
def tailPart (s : BlockChain Block Hash Utxos Filter) :=
  (s.tail, s.longestChainHeight, s.eternal, s.heightToBlock, s.repeatedMintCache,
    s.hashToOrphanBlock, s.orphanBlockHashToChildren)

variable (E : Env Block Hash Tx Utxos UtxoSet Filter)

lemma keeps_getParentBlock (block : Block) : Keeps tailPart (getParentBlock E block) := by
  intro s
  unfold getParentBlock
  split_ifs
  · rfl
  · split <;> rfl

omit [DecidableEq Hash] in
lemma keeps_utxoSetOrLoad (block : Block) (utxoSet : Option UtxoSet) :
    Keeps tailPart (utxoSetOrLoad E block utxoSet) := by
  cases utxoSet
  · exact keeps_bind keeps_get fun _ => keeps_liftExcept _
  · exact keeps_pure _

lemma keeps_applyBlock (block : Block) (utxoSet : Option UtxoSet) :
    Keeps tailPart (applyBlock E block utxoSet) := by
  unfold applyBlock
  refine keeps_bind (keeps_utxoSetOrLoad E block utxoSet) fun _ => ?_
  repeat' first
    | refine keeps_bind ?_ fun _ => ?_
    | exact keeps_get | exact keeps_liftExcept _ | exact keeps_modify fun _ => rfl

lemma keeps_revertBlock (block : Block) : Keeps tailPart (revertBlock E block) := by
  unfold revertBlock
  repeat' first
    | refine keeps_bind ?_ fun _ => ?_
    | exact keeps_get | exact keeps_liftExcept _ | exact keeps_modify fun _ => rfl

lemma keeps_findFork (block : Block) : Keeps tailPart (findFork E block) :=
  keeps_of_preserves fun c => preserves_findFork E (fun x => (keeps_getParentBlock E x).preservesEq c) block

lemma keeps_revertBlocks (blocks : List Block) : Keeps tailPart (revertBlocks E blocks) :=
  keeps_of_preserves fun c => preserves_revertBlocks E (fun b => (keeps_revertBlock E b).preservesEq c) blocks

lemma keeps_applyBlocks (blocks : List Block) : Keeps tailPart (applyBlocks E blocks) :=
  keeps_of_preserves fun c => preserves_applyBlocks E blocks fun b _ => (keeps_applyBlock E b none).preservesEq c

lemma keeps_reorganize (block : Block) : Keeps tailPart (reorganize E block) :=
  keeps_bind (keeps_findFork E block) fun _ =>
    keeps_bind (keeps_revertBlocks E _) fun _ => keeps_applyBlocks E _

omit [DecidableEq Hash] in
lemma keepsOnError_setTailBlock (block : Block) :
    KeepsOnError tailPart (setTailBlock E block) :=
  keepsOnError_modify _

lemma keepsOnError_tryConnectBlockToMainChain (block : Block) :
    KeepsOnError tailPart (tryConnectBlockToMainChain E block) := by
  unfold tryConnectBlockToMainChain
  refine keepsOnError_bind keeps_get fun _ => keepsOnError_bind (keeps_liftExcept _) fun _ =>
    keepsOnError_bind (keeps_liftExcept _) fun _ => keepsOnError_bind (keeps_liftExcept _) fun _ => ?_
  split
  · exact (keeps_fail _).onError
  · dsimp only
    split_ifs
    · exact (keeps_fail _).onError
    · exact keepsOnError_bind (keeps_applyBlock E block _) fun _ => keepsOnError_setTailBlock E block

lemma keepsOnError_tryAcceptBlock (block : Block) : KeepsOnError tailPart (tryAcceptBlock E block) := by
  refine keepsOnError_bind (keeps_getParentBlock E block) ?_
  rintro (_ | parentBlock)
  · exact (keeps_fail _).onError
  · dsimp only
    split
    · exact (keeps_fail _).onError
    · split_ifs
      · exact (keeps_fail _).onError
      · refine keepsOnError_bind (keeps_modify fun _ => rfl) fun _ => keepsOnError_bind keeps_get fun _ => ?_
        split_ifs
        · exact keepsOnError_tryConnectBlockToMainChain E block
        · exact (keeps_pure _).onError
        · exact keepsOnError_bind (keeps_reorganize E block) fun _ => keepsOnError_setTailBlock E block

/-- A failed `tryAcceptBlock` leaves the tail, `LongestChainHeight`, the eternal block, the
height and mint caches and the orphan pool as they were. -/
theorem tryAcceptBlock_error_keeps_tail (block : Block) (s s' : BlockChain Block Hash Utxos Filter)
    (e : ChainErr) (h : tryAcceptBlock E block s = .error e s') :
    s'.tail = s.tail ∧ s'.longestChainHeight = s.longestChainHeight ∧ s'.eternal = s.eternal ∧
      s'.heightToBlock = s.heightToBlock ∧ s'.repeatedMintCache = s.repeatedMintCache ∧
      s'.hashToOrphanBlock = s.hashToOrphanBlock ∧
      s'.orphanBlockHashToChildren = s.orphanBlockHashToChildren := by
  simpa [tailPart] using keepsOnError_tryAcceptBlock E block s e s' h

/-- The fork-scenario blocks where the consensus module fails to store the candidate context
of block `1`. -/
def contextFailEnv : Env Nat Nat Nat (List Nat) (List Nat) Unit :=
  { numberedEnv forkParent forkHeight fun _ => false with
    storeCandidateContext := fun h => if h = 1 then .error (.external 3) else .ok () }

theorem tryAcceptBlock_contextFail_keeps_tail :
    tryAcceptBlock contextFailEnv 1 (.init contextFailEnv []) =
        .error (.external 3) (resultState (tryAcceptBlock contextFailEnv 1 (.init contextFailEnv []))) ∧
      (resultState (tryAcceptBlock contextFailEnv 1 (.init contextFailEnv []))).tail = 0 ∧
      (resultState (tryAcceptBlock contextFailEnv 1 (.init contextFailEnv []))).longestChainHeight = 0 :=
  have h : tryAcceptBlock contextFailEnv 1 (.init contextFailEnv []) =
      .error (.external 3) (resultState (tryAcceptBlock contextFailEnv 1 (.init contextFailEnv []))) := rfl
  ⟨h, (tryAcceptBlock_error_keeps_tail contextFailEnv 1 _ _ _ h).1,
    (tryAcceptBlock_error_keeps_tail contextFailEnv 1 _ _ _ h).2.1⟩

/-- Block `1` extends the tail and fails when `applyBlock` stores its candidate context: the
call returns an error, yet the block is now in the cache (so `blockExists` holds for it), the
UTXO namespace records it, the store holds it and the filter holder has its entry. -/
theorem tryAcceptBlock_error_changes_cache_store :
    (match tryAcceptBlock contextFailEnv 1 (.init contextFailEnv []) with
      | .error _ _ => true | .ok _ _ => false) = true ∧
      blockExists (.init contextFailEnv [] : BlockChain Nat Nat (List Nat) Unit) 1 = false ∧
      blockExists (resultState (tryAcceptBlock contextFailEnv 1 (.init contextFailEnv []))) 1 = true ∧
      (resultState (tryAcceptBlock contextFailEnv 1 (.init contextFailEnv []))).db.utxos = [1] ∧
      (mapGet (resultState (tryAcceptBlock contextFailEnv 1 (.init contextFailEnv []))).db.blocks 1).isSome ∧
      (resultState (tryAcceptBlock contextFailEnv 1 (.init contextFailEnv []))).filterHolder.length = 1 := by
  decide

end Boxd
