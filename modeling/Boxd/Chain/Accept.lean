import Boxd.Chain.Fork

/-!
# Accepting a block

`tryAcceptBlock_spec` says once what a `tryAcceptBlock` call can do to a chain whose main chain
is `M`.  Whatever it returns, the cache and the store stay sound.  When it returns `nil`, either
the tail and the UTXO namespace are as they were (the block only entered the cache, or a side
chain that is not longer), or the tail moved: the blocks of `M` above a fork point were
disconnected, tail first, and a longer list of blocks, which leads from the new tail down to a
child of the fork point, was connected from the fork point up.  Extending the main chain is the
case where nothing is disconnected.

`connectUtxos` and `disconnectUtxos` are what `applyBlock` and `revertBlock` do to the UTXO
namespace of the store; `replay` and `unwind` do it for a list of blocks, in the order of the list.
-/

namespace Boxd

variable {Block Hash Tx Utxos UtxoSet Filter : Type} (E : Env Block Hash Tx Utxos UtxoSet Filter)

/-! ### The UTXO namespace -/

/-- What `applyBlock` does to the UTXO namespace `utxos`: load the block's entries, apply the
block, flush the overlay. -/
def connectUtxos (block : Block) (utxos : Utxos) : Except ChainErr Utxos := do
  let utxoSet ← E.loadBlockUtxos block utxos
  let utxoSet ← E.utxoSetApplyBlock utxoSet block
  E.writeUtxoSetToDB utxoSet utxos

/-- What `revertBlock` does to the UTXO namespace. -/
def disconnectUtxos (block : Block) (utxos : Utxos) : Except ChainErr Utxos := do
  let utxoSet ← E.loadBlockUtxos block utxos
  let utxoSet ← E.utxoSetRevertBlock utxoSet block
  E.writeUtxoSetToDB utxoSet utxos

/-- Connecting the blocks of a list, first to last: a chain replayed from its lowest block. -/
def replay (utxos : Utxos) (blocks : List Block) : Except ChainErr Utxos :=
  blocks.foldlM (fun utxos block => connectUtxos E block utxos) utxos

/-- Disconnecting the blocks of a list, first to last. -/
def unwind (utxos : Utxos) (blocks : List Block) : Except ChainErr Utxos :=
  blocks.foldlM (fun utxos block => disconnectUtxos E block utxos) utxos

lemma replay_append (u : Utxos) (L₁ L₂ : List Block) :
    replay E u (L₁ ++ L₂) = replay E u L₁ >>= fun u => replay E u L₂ :=
  List.foldlM_append _ _ _ _

variable {E}

/-- With a `RevertBlock` that undoes `ApplyBlock`, unwinding a replayed list from its last block
gives back the namespace the replay started from. -/
lemma unwind_replay
    (hundo : ∀ b u u', connectUtxos E b u = .ok u' → disconnectUtxos E b u' = .ok u) :
    ∀ (blocks : List Block) (u v : Utxos), replay E u blocks = .ok v → unwind E v blocks.reverse = .ok u
  | [], u, v, h => by cases h; rfl
  | b :: blocks, u, v, h => by
    simp only [replay, List.foldlM_cons] at h
    cases hc : connectUtxos E b u with
    | error e => rw [hc] at h; cases h
    | ok u' =>
      rw [hc, except_ok_bind] at h
      have ih := unwind_replay hundo blocks u' v h
      simp only [unwind] at ih ⊢
      simp [List.foldlM_append, ih, hundo b u u' hc]

/-! ### Reading `applyBlock` and `revertBlock` -/

lemma liftExcept_bind_eq_ok {α β : Type} {r : Except ChainErr α}
    {f : α → ChainM Block Hash Utxos Filter β} {s s' : BlockChain Block Hash Utxos Filter} {b : β} :
    (liftExcept r >>= f) s = .ok b s' ↔ ∃ a, r = .ok a ∧ f a s = .ok b s' := by
  cases r with
  | error e => exact ⟨fun h => (nomatch h), fun ⟨_, h, _⟩ => (nomatch h)⟩
  | ok a => exact ⟨fun h => ⟨a, rfl, h⟩, fun ⟨_, h, h'⟩ => by cases h; exact h'⟩

variable [DecidableEq Hash]

/-- `applyBlock` on an overlay loaded from the store runs as `applyBlock` with `nil`. -/
lemma applyBlock_some {b : Block} {s : BlockChain Block Hash Utxos Filter} {us : UtxoSet}
    (hl : E.loadBlockUtxos b s.db.utxos = .ok us) : applyBlock E b (some us) s = applyBlock E b none s := by
  have h : utxoSetOrLoad E b none s = .ok us s := by
    simp only [utxoSetOrLoad, get_bind_apply, hl, liftExcept_ok]
  unfold applyBlock
  rw [bind_apply_of_ok h]
  rfl

/-- A successful `applyBlock` connects the block to the UTXO namespace. -/
lemma applyBlock_ok {b : Block} {s s' : BlockChain Block Hash Utxos Filter}
    (h : applyBlock E b none s = .ok () s') : connectUtxos E b s.db.utxos = .ok s'.db.utxos := by
  simp only [applyBlock, utxoSetOrLoad, storeBlockToDb, writeTxIndex, bind_assoc, get_bind_apply,
    liftExcept_bind_eq_ok, modify_bind_apply, modify_apply, EStateM.Result.ok.injEq] at h
  obtain ⟨us, hl, us', ha, u, hw, -, -, -, -, -, -, -, rfl⟩ := h
  simp only [connectUtxos, hl, except_ok_bind, ha, hw]

/-- A successful `revertBlock` disconnects the block from the UTXO namespace. -/
lemma revertBlock_ok {b : Block} {s s' : BlockChain Block Hash Utxos Filter}
    (h : revertBlock E b s = .ok () s') : disconnectUtxos E b s.db.utxos = .ok s'.db.utxos := by
  simp only [revertBlock, delTxIndex, bind_assoc, get_bind_apply, liftExcept_bind_eq_ok,
    modify_bind_apply, modify_apply, EStateM.Result.ok.injEq] at h
  obtain ⟨us, hl, us', hr, u, hw, -, -, -, rfl⟩ := h
  simp only [disconnectUtxos, hl, except_ok_bind, hr, hw]

lemma applyBlocks_ok : ∀ (blocks : List Block) {s s' : BlockChain Block Hash Utxos Filter},
    applyBlocks E blocks s = .ok () s' → replay E s.db.utxos blocks = .ok s'.db.utxos
  | [], _, _, h => by cases h; rfl
  | b :: blocks, _, _, h => by
    obtain ⟨⟨⟩, s₁, h₁, h⟩ := bind_eq_ok h
    simp only [replay, List.foldlM_cons, applyBlock_ok h₁, except_ok_bind]
    exact applyBlocks_ok blocks h

lemma revertBlocks_ok : ∀ (blocks : List Block) {s s' : BlockChain Block Hash Utxos Filter},
    revertBlocks E blocks s = .ok () s' → unwind E s.db.utxos blocks = .ok s'.db.utxos
  | [], _, _, h => by cases h; rfl
  | b :: blocks, _, _, h => by
    obtain ⟨⟨⟩, s₁, h₁, h⟩ := bind_eq_ok h
    simp only [unwind, List.foldlM_cons, revertBlock_ok h₁, except_ok_bind]
    exact revertBlocks_ok blocks h

/-- A successful `tryConnectBlockToMainChain` connects the block and makes it the tail. -/
lemma tryConnectBlockToMainChain_ok {b : Block} {s s' : BlockChain Block Hash Utxos Filter}
    (h : tryConnectBlockToMainChain E b s = .ok () s') :
    connectUtxos E b s.db.utxos = .ok s'.db.utxos ∧ s'.tail = b ∧ s'.longestChainHeight = E.height b := by
  simp only [tryConnectBlockToMainChain, get_bind_apply, liftExcept_bind_eq_ok] at h
  obtain ⟨us, hl, _, -, fees, -, h⟩ := h
  cases ht : E.txs b with
  | nil => rw [ht] at h; cases h
  | cons coinbase txs =>
    rw [ht] at h
    dsimp only at h
    split_ifs at h
    · cases h
    obtain ⟨⟨⟩, s₁, h₁, h⟩ := bind_eq_ok h
    rw [applyBlock_some hl] at h₁
    have hu := applyBlock_ok h₁
    cases h
    exact ⟨hu, rfl, rfl⟩

/-! ### The cache and the store -/

lemma storeOK_storeBlockToDb {b : Block} (hb : Known E b) : Preserves (StoreOK E) (storeBlockToDb E b) :=
  fun s hs => ⟨hs.cache, fun e he => by
    rcases mem_mapPut he with rfl | he
    · exact ⟨rfl, hb⟩
    · exact hs.store e he⟩

/-- `applyBlock` statement by statement: only `storeBlockToDb` writes to the store of blocks. -/
lemma storeOK_applyBlock {b : Block} (hb : Known E b) (utxoSet : Option UtxoSet) :
    Preserves (StoreOK E) (applyBlock E b utxoSet) := by
  have hu : Preserves (StoreOK E) (utxoSetOrLoad E b utxoSet) := by
    cases utxoSet
    · exact preserves_bind preserves_get fun _ => preserves_liftExcept _
    · exact preserves_pure _
  exact preserves_bind hu fun _ => preserves_bind (preserves_liftExcept _) fun _ =>
    preserves_bind preserves_get fun _ => preserves_bind (preserves_liftExcept _) fun _ =>
    preserves_bind (preserves_modify fun _ hs => ⟨hs.cache, hs.store⟩) fun _ =>
    preserves_bind (storeOK_storeBlockToDb hb) fun _ =>
    preserves_bind preserves_get fun _ => preserves_bind (preserves_liftExcept _) fun _ =>
    preserves_bind (preserves_modify fun _ hs => ⟨hs.cache, hs.store⟩) fun _ =>
    preserves_bind (preserves_liftExcept _) fun _ =>
    preserves_bind (preserves_liftExcept _) fun _ => preserves_modify fun _ hs => ⟨hs.cache, hs.store⟩

/-- `revertBlock` statement by statement: its delete shrinks the store of blocks. -/
lemma storeOK_revertBlock (b : Block) : Preserves (StoreOK E) (revertBlock E b) :=
  preserves_bind preserves_get fun _ => preserves_bind (preserves_liftExcept _) fun _ =>
    preserves_bind (preserves_liftExcept _) fun _ =>
    preserves_bind preserves_get fun _ => preserves_bind (preserves_liftExcept _) fun _ =>
    preserves_bind (preserves_modify fun _ hs =>
      ⟨hs.cache, fun e he => hs.store e ((mapDel_sublist _ _).subset he)⟩) fun _ =>
    preserves_bind (preserves_liftExcept _) fun _ => preserves_modify fun _ hs => ⟨hs.cache, hs.store⟩

lemma storeOK_tryConnectBlockToMainChain {b : Block} (hb : Known E b) :
    Preserves (StoreOK E) (tryConnectBlockToMainChain E b) := by
  unfold tryConnectBlockToMainChain
  refine preserves_bind preserves_get fun _ => preserves_bind (preserves_liftExcept _) fun _ =>
    preserves_bind (preserves_liftExcept _) fun _ => preserves_bind (preserves_liftExcept _) fun _ => ?_
  split
  · exact preserves_fail _
  · dsimp only
    split_ifs
    · exact preserves_fail _
    · exact preserves_bind (storeOK_applyBlock hb _) fun _ => preserves_modify fun s hs => ⟨hs.cache, hs.store⟩

lemma storeOK_getParentBlock (x : Block) : Preserves (StoreOK E) (getParentBlock E x) := fun s hs => by
  obtain ⟨r, s', hr, hre, -⟩ := getParentBlock_spec hs x
  rw [hr]
  exact hs.of_cacheReordered hre

/-- A block that passed the height check enters the cache soundly. -/
lemma StoreOK.cache_add {s : BlockChain Block Hash Utxos Filter} (hs : StoreOK E s) {b : Block}
    (hb : Known E b) : StoreOK E { s with cache := s.cache.add (E.blockHash b) b } :=
  ⟨fun e he => by
    rcases Lru.mem_add he with rfl | he
    · exact ⟨rfl, hb⟩
    · exact hs.cache e he, hs.store⟩

/-! ### Reorganization -/

section Reorganize

variable (hinj : Function.Injective E.blockHash) {s : BlockChain Block Hash Utxos Filter}
  (hs : StoreOK E s) {M : List Block} (hM : MainChain E s M) (hhl : ∀ x ∈ M.dropLast, HeightLinked E x)
  {b : Block} (hb : Known E b)
include hinj hs hM hhl hb

/-- Whatever `reorganize` returns, the cache and the store stay sound: the walks only reorder
the cache, `revertBlock` deletes blocks, and the blocks `applyBlock` stores passed the height
check. -/
lemma storeOK_reorganize : StoreOK E (resultState (reorganize E b s)) := by
  unfold reorganize
  cases hf : findFork E b s with
  | error e s₁ =>
    have h := preserves_findFork E storeOK_getParentBlock b s hs
    rw [hf] at h
    rwa [bind_apply_of_error hf]
  | ok r s₁ =>
    obtain ⟨fork, D, A⟩ := r
    obtain ⟨hre, -, -, -, hA, -⟩ := findFork_ok hinj hs hM hhl hb hf
    rw [bind_apply_of_ok hf]
    exact preserves_bind (preserves_revertBlocks E storeOK_revertBlock D) (fun _ =>
      preserves_applyBlocks E _ fun a ha => storeOK_applyBlock (.inr (hA a (List.mem_reverse.1 ha)).2) none)
      s₁ (hs.of_cacheReordered hre)

/-- A successful `reorganize` unwinds the main chain above the fork point and replays the
blocks `findFork` collected, from the fork point up. -/
lemma reorganize_ok {s' : BlockChain Block Hash Utxos Filter} (h : reorganize E b s = .ok () s') :
    ∃ D A fork rest u, M = D ++ fork :: rest ∧ D.length < A.length ∧
      (A ++ [fork]).Chain' (IsParent E) ∧ (∀ a ∈ A, a ≠ E.genesis ∧ HeightLinked E a) ∧
      A.head? = some b ∧ unwind E s.db.utxos D = .ok u ∧ replay E u A.reverse = .ok s'.db.utxos := by
  obtain ⟨⟨fork, D, A⟩, s₁, hf, h⟩ := bind_eq_ok h
  obtain ⟨⟨⟩, s₂, hr, ha⟩ := bind_eq_ok h
  obtain ⟨⟨cache, rfl, -⟩, ⟨rest, hMeq⟩, hlen, hch, hA, hhead⟩ := findFork_ok hinj hs hM hhl hb hf
  have hu := revertBlocks_ok D hr
  exact ⟨D, A, fork, rest, _, hMeq, hlen, hch, hA, hhead, hu, applyBlocks_ok _ ha⟩

end Reorganize

/-! ### Accepting a block -/

omit [DecidableEq Hash] in
/-- The block `tryAcceptBlock` checked against the parent it found is not the genesis block
and passed the height check. -/
lemma heightLinked_of_check (hinj : Function.Injective E.blockHash) {b p : Block}
    (hp : (E.blockHash b = E.blockHash E.genesis ∧ p = E.genesis) ∨
      (E.blockHash b ≠ E.blockHash E.genesis ∧ E.blockHash p = E.prevBlockHash b ∧ Known E p))
    (hh : E.height b = E.height p + 1) : b ≠ E.genesis ∧ HeightLinked E b := by
  rcases hp with ⟨hg, rfl⟩ | ⟨hg, hp, -⟩
  · rw [hinj hg, E.genesis_height] at hh
    exact absurd hh (by decide)
  · refine ⟨fun h => hg (by rw [h]), fun p' hp' => ?_⟩
    rw [hinj (hp'.trans hp.symm)]
    exact hh

/-- Everything a `tryAcceptBlock` call can do on a chain with main chain `M`. -/
lemma tryAcceptBlock_spec (hinj : Function.Injective E.blockHash) {s : BlockChain Block Hash Utxos Filter}
    (hc : ChainOK E s) {M : List Block} (hM : MainChain E s M) (hhl : ∀ x ∈ M.dropLast, HeightLinked E x)
    (b : Block) :
    StoreOK E (resultState (tryAcceptBlock E b s)) ∧
      ∀ s', tryAcceptBlock E b s = .ok () s' → s'.longestChainHeight = E.height s'.tail ∧
        ((s'.tail = s.tail ∧ s'.db.utxos = s.db.utxos) ∨
          ∃ D A fork rest u, M = D ++ fork :: rest ∧ D.length < A.length ∧
            (A ++ [fork]).Chain' (IsParent E) ∧ (∀ a ∈ A, a ≠ E.genesis ∧ HeightLinked E a) ∧
            A.head? = some s'.tail ∧ unwind E s.db.utxos D = .ok u ∧
            replay E u A.reverse = .ok s'.db.utxos) := by
  obtain ⟨r, s₁, hr, hre, hp⟩ := getParentBlock_spec hc.store b
  have hs₁ := hc.store.of_cacheReordered hre
  obtain ⟨hdb, htail, hL⟩ := hre.fields
  unfold tryAcceptBlock
  rw [bind_apply_of_ok hr]
  rcases r with _ | p
  · exact ⟨hs₁, fun _ h => nomatch h⟩
  dsimp only
  cases E.verifyMinerEpoch b with
  | error e => exact ⟨hs₁, fun _ h => nomatch h⟩
  | ok u =>
  dsimp only
  by_cases hh : E.height b ≠ E.height p + 1
  · rw [if_pos hh]; exact ⟨hs₁, fun _ h => nomatch h⟩
  rw [if_neg hh]
  obtain ⟨hbg, hbl⟩ := heightLinked_of_check hinj (hp p rfl) (not_not.1 hh)
  have hs₂ := hs₁.cache_add (.inr hbl)
  simp only [modify_bind_apply, get_bind_apply]
  by_cases hext : E.prevBlockHash b = E.blockHash s₁.tail
  · -- the block extends the main chain
    rw [if_pos hext]
    refine ⟨storeOK_tryConnectBlockToMainChain (.inr hbl) _ hs₂, fun s' h => ?_⟩
    obtain ⟨hu, hbt, hL'⟩ := tryConnectBlockToMainChain_ok h
    obtain ⟨rest, rfl⟩ := hM.eq_cons
    refine ⟨by rw [hL', hbt], .inr ⟨[], [b], s.tail, rest, s.db.utxos, rfl, Nat.zero_lt_one,
      List.chain'_pair.2 (htail ▸ hext), by simpa using ⟨hbg, hbl⟩, by rw [hbt]; rfl, rfl, ?_⟩⟩
    simpa [replay, hdb] using hu
  rw [if_neg hext]
  by_cases hle : E.height b ≤ s₁.longestChainHeight
  · -- a side chain that is not longer: only the cache changed
    rw [if_pos hle]
    refine ⟨hs₂, fun s' h => ?_⟩
    cases h
    dsimp only
    rw [hL, htail]
    exact ⟨hc.longest, .inl ⟨rfl, by rw [hdb]⟩⟩
  · -- a longer side chain: reorganize onto it
    rw [if_neg hle]
    have hM₂ : MainChain E { s₁ with cache := s₁.cache.add (E.blockHash b) b } M := hM.of_tail_eq htail
    refine ⟨resultState_bind_of (storeOK_reorganize hinj hs₂ hM₂ hhl (.inr hbl)) fun _ =>
      preserves_modify fun s hs => ⟨hs.cache, hs.store⟩, fun s' h => ?_⟩
    obtain ⟨⟨⟩, s₃, hreo, h⟩ := bind_eq_ok h
    obtain ⟨D, A, fork, rest, u, hMeq, hlen, hch, hA, hhead, hu, ha⟩ :=
      reorganize_ok hinj hs₂ hM₂ hhl (.inr hbl) hreo
    cases h
    exact ⟨rfl, .inr ⟨D, A, fork, rest, u, hMeq, hlen, hch, hA, hhead, hdb ▸ hu, ha⟩⟩

/-! ### The main chain after a call -/

omit [DecidableEq Hash] in
lemma mem_dropLast_graft {D A rest : List Block} {fork x : Block} (hx : x ∈ (A ++ fork :: rest).dropLast) :
    x ∈ A ∨ x ∈ (D ++ fork :: rest).dropLast := by
  rw [List.dropLast_append_cons] at hx ⊢
  rcases List.mem_append.1 hx with hx | hx
  · exact .inl hx
  · exact .inr (List.mem_append_right _ hx)

omit [DecidableEq Hash] in
/-- The main chain after a reorganization: the attached blocks on top of the old main chain from
the fork point down. -/
lemma MainChain.graft {s s' : BlockChain Block Hash Utxos Filter} {D A rest : List Block} {fork : Block}
    (hM : MainChain E s (D ++ fork :: rest)) (hch : (A ++ [fork]).Chain' (IsParent E))
    (hA : ∀ a ∈ A, a ≠ E.genesis ∧ HeightLinked E a) (hhead : A.head? = some s'.tail) :
    MainChain E s' (A ++ fork :: rest) where
  head := by
    cases A with
    | nil => cases hhead
    | cons a A => exact hhead
  last := by
    rw [getLast?_append_cons, ← getLast?_append_cons D]
    exact hM.last
  linked := by
    rw [List.chain'_append] at hch ⊢
    exact ⟨hch.1, hM.linked.right_of_append, fun x hx y hy => hch.2.2 x hx y hy⟩
  dropLast_ne b hb := (mem_dropLast_graft hb).elim (fun hb => (hA b hb).1) (hM.dropLast_ne b)

/-- `ChainOK` holds after every `tryAcceptBlock` call, whatever the call returns. -/
lemma chainOK_tryAcceptBlock (hinj : Function.Injective E.blockHash) {s : BlockChain Block Hash Utxos Filter}
    (hc : ChainOK E s) (b : Block) : ChainOK E (resultState (tryAcceptBlock E b s)) := by
  obtain ⟨M, hM, hhl⟩ := hc.main
  obtain ⟨hst, hok⟩ := tryAcceptBlock_spec hinj hc hM hhl b
  cases h : tryAcceptBlock E b s with
  | error e s' =>
    have hk := keepsOnError_tryAcceptBlock E b s e s' h
    simp only [tailPart, Prod.mk.injEq] at hk
    rw [h, resultState_error] at hst
    rw [resultState_error]
    refine ⟨hst, ?_, M, hM.of_tail_eq hk.1, hhl⟩
    rw [hk.1, hk.2.1]
    exact hc.longest
  | ok u s' =>
    rw [h, resultState_ok] at hst
    rw [resultState_ok]
    obtain ⟨hL, ⟨ht, -⟩ | ⟨D, A, fork, rest, u, rfl, -, hch, hA, hhead, -⟩⟩ := hok s' h
    · exact ⟨hst, hL, M, hM.of_tail_eq ht, hhl⟩
    · exact ⟨hst, hL, A ++ fork :: rest, hM.graft hch hA hhead,
        fun x hx => (mem_dropLast_graft hx).elim (fun hx => (hA x hx).2) (hhl x)⟩

/-! ### A block the checks reject on the main chain -/

/-- The fork scenario where block `2` (`B1`) fails `validateBlockScripts`. -/
def badScriptsEnv : Env Nat Nat Nat (List Nat) (List Nat) Unit :=
  numberedEnv forkParent forkHeight fun b => b = 2

/-- `A1`, `B1`, `B2` all return `nil` and `B2` reorganizes the chain onto `B1`: `B1` is the
parent of the tail and is connected to the UTXO namespace, though `validateBlockScripts` rejects
it on every overlay.  `tryAcceptBlock` cached it as a side block with no check, and the attach
loop of `reorganize` connects it with `applyBlock` alone. -/
theorem reorganize_connects_rejected_block :
    runCallsOk badScriptsEnv (.init badScriptsEnv [])
        [.processBlock 1 "", .processBlock 2 "", .processBlock 3 ""] = true ∧
      (runCalls badScriptsEnv (.init badScriptsEnv [])
        [.processBlock 1 "", .processBlock 2 "", .processBlock 3 ""]).tail = 3 ∧
      badScriptsEnv.prevBlockHash 3 = badScriptsEnv.blockHash 2 ∧
      (runCalls badScriptsEnv (.init badScriptsEnv [])
        [.processBlock 1 "", .processBlock 2 "", .processBlock 3 ""]).db.utxos = [3, 2] ∧
      ∀ utxoSet, badScriptsEnv.validateBlockScripts utxoSet 2 = .error (.external 1) := by
  refine ⟨by simp only [runCallsOk_cons]; decide, by decide, rfl, by decide, fun _ => rfl⟩

end Boxd
